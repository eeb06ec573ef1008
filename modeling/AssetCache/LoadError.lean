/-! # Why a load fails

`LoadError` lists the causes. Every decoder stops at the first one it meets; a decoder of numbered
definitions wraps it once in `definition`, so that the message names the record it was found in.
`LoadError.message` is the only place where causes become text. -/

namespace AssetCache

/-- `n` as at least `width` hexadecimal digits. -/
def hexDigits (width n : Nat) : List Char :=
  let digits := Nat.toDigits 16 n
  List.replicate (width - digits.length) '0' ++ digits

/-- A 32-bit word as eight lowercase hexadecimal digits after `0x`. -/
def hexWord (w : UInt32) : String := "0x" ++ String.ofList (hexDigits 8 w.toNat)

/-- A byte as two uppercase hexadecimal digits after `0x`. -/
def hexByte (b : UInt8) : String := "0x" ++ String.ofList ((hexDigits 2 b.toNat).map Char.toUpper)

/-- The compressed streams a cache holds. -/
inductive Compression
  | gzip | bzip2
deriving DecidableEq, Repr

/-- The families of op-codes that a record can break. -/
inductive OpCodeKind
  | item | object | interfaceType
deriving DecidableEq, Repr

/-- The kinds of numbered definition. -/
inductive DefinitionKind
  | item | object | interface | region
deriving DecidableEq, Repr

/-- How the file of an archive was asked for. -/
inductive FileKey
  | name (name : String)
  | hash (hash : UInt32)
deriving DecidableEq, Repr

/-- What is wrong with an index entry. -/
inductive IndexFault
  | beyondFile (offset length : Nat)
  | archiveTooLarge (size : Nat)
  | startOutside (sector sectorCount : Nat)
deriving DecidableEq, Repr

/-- What is wrong with a sector of a chain. -/
inductive ChainFault
  | ended (collected size : Nat)
  | beyondData
  | otherArchive (expected found : Nat)
  | otherPart (expected found : Nat)
  | otherStore (expected found : Nat)
deriving DecidableEq, Repr

/-- A contradiction inside otherwise readable data. -/
inductive Corruption
  | fileBeyondPayload (index : Nat) (hash : UInt32) (start stop payload : Nat)
  | recordBeyondData (id start stop data : Nat)
  | interfaceTwice (id : UInt16)
  | containerListsItself (id : UInt16)
  | listedTwice (id first second : UInt16)
  | regionTableLength (length entry : Nat)
  | objectIdRange (id : Nat) (x y : UInt8)
  | offsetRange (id : UInt16) (x y : UInt8)
deriving DecidableEq, Repr

/-- Why a load failed. -/
inductive LoadError
  | notFound (path : String)
  | categoryNotFound (category : UInt8)
  | endOfData (needed remaining : Nat)
  | corruptIndex (category : UInt8) (archive : UInt32) (fault : IndexFault)
  | corruptChain (category : UInt8) (archive : UInt32) (sector : Nat) (fault : ChainFault)
  | decompressionFailed (stream : Compression)
  | corrupted (fault : Corruption)
  | unknownOpCode (kind : OpCodeKind) (code : UInt8)
  | invalidInterfaceId (id max : UInt16)
  | missingParent (id parent : UInt16)
  | missingChild (parent child : UInt16)
  | unknownObject (id : UInt16) (count : Nat)
  | subFileNotFound (key : FileKey)
  | definition (kind : DefinitionKind) (id : Nat) (cause : LoadError)
  | closed
deriving DecidableEq, Repr

def Compression.name : Compression → String
  | gzip => "gzip"
  | bzip2 => "bzip2"

def OpCodeKind.name : OpCodeKind → String
  | item => "item"
  | object => "object"
  | interfaceType => "interface type"

def DefinitionKind.name : DefinitionKind → String
  | item => "item"
  | object => "object"
  | interface => "interface"
  | region => "region"

def FileKey.text : FileKey → String
  | name n => n
  | hash h => hexWord h

def IndexFault.message : IndexFault → String
  | beyondFile offset length =>
    s!"entry at offset {offset} lies beyond the index file ({length} bytes)"
  | archiveTooLarge size => s!"invalid archive size: {size}"
  | startOutside sector count => s!"invalid start sector: {sector} (store has {count} sectors)"

def ChainFault.message : ChainFault → String
  | ended collected size => s!"chain ended after {collected} of {size} bytes"
  | beyondData => "sector lies beyond the end of the data store"
  | otherArchive expected found => s!"archive mismatch: expected {expected}, got {found}"
  | otherPart expected found => s!"part mismatch: expected {expected}, got {found}"
  | otherStore expected found => s!"store mismatch: expected {expected}, got {found}"

def Corruption.message : Corruption → String
  | fileBeyondPayload index hash start stop payload =>
    s!"file {index} (hash {hexWord hash}) spans {start}..{stop} beyond payload of {payload} bytes"
  | recordBeyondData id start stop data =>
    s!"record {id} spans {start}..{stop} beyond data file of {data} bytes"
  | interfaceTwice id => s!"interface {id} declared twice"
  | containerListsItself id => s!"container {id} lists itself as a child"
  | listedTwice id first second => s!"interface {id} listed by containers {first} and {second}"
  | regionTableLength length entry => s!"map_index length {length} is not a multiple of {entry}"
  | objectIdRange id x y => s!"object id {id} in region {x},{y} exceeds the id range"
  | offsetRange id x y => s!"position offset of object {id} in region {x},{y} overflows"

namespace LoadError

/-- The text shown for an error. -/
def message : LoadError → String
  | notFound path => s!"Cache not found at: {path}"
  | categoryNotFound category => s!"Category {category} not found"
  | endOfData needed remaining => s!"end of data: needed {needed} byte(s), {remaining} remaining"
  | corruptIndex category archive fault =>
    s!"corrupt index entry for archive {archive} in category {category}: {fault.message}"
  | corruptChain category archive sector fault =>
    s!"corrupt sector chain for archive {archive} in category {category} at sector {sector}: {fault.message}"
  | decompressionFailed stream => s!"Decompression failed: {stream.name}"
  | corrupted fault => s!"Cache file corrupted: {fault.message}"
  | unknownOpCode kind code => s!"unknown {kind.name} op-code {hexByte code}"
  | invalidInterfaceId id max => s!"invalid interface id {id} (max {max})"
  | missingParent id parent => s!"interface {id} names missing parent {parent}"
  | missingChild parent child => s!"interface {parent} names missing child {child}"
  | unknownObject id count => s!"object {id} is not defined ({count} objects loaded)"
  | subFileNotFound key => s!"sub-file not found: {key.text}"
  | definition kind id cause => s!"failed loading {kind.name} {id}: {cause.message}"
  | closed => "asset manager is closed"

/-- The innermost cause. -/
def root : LoadError → LoadError
  | definition _ _ cause => cause.root
  | e => e

/-- The error followed by the causes it wraps, outermost first. -/
def chain : LoadError → List LoadError
  | definition kind id cause => definition kind id cause :: cause.chain
  | e => [e]

end LoadError

end AssetCache
