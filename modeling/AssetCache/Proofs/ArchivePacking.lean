import Mathlib
import AssetCache.Archive.Packing

/-!
# Reading packed archives

`parse_of_packs`: a container that packs files parses to an archive that lists them in order, with the data
of each behind that of those before it. `lookup_of_packs`: what such an archive holds under a hash is the
content of the first file that was packed under it. From the table on, both forms of container are read alike,
but for what is stored of a file.
-/

namespace AssetCache

/-- The line of a file whose data starts at `offset`. -/
def PackedFile.line (f : PackedFile) (offset : Nat) : Entry :=
  { hash := f.hash, offset, decompressedSize := f.content.length, compressedSize := f.stored.length }

/-- What a payload has to store of a file. -/
def PackedFile.StoredIn (compressedWhole : Bool) (f : PackedFile) : Prop :=
  if compressedWhole then f.stored = f.content else f.Faithful

namespace Archive
open ByteReader

variable {whole : Bool} {files : List PackedFile} {raw : Bytes}

theorem entriesFrom_cons (offset : Nat) (f : PackedFile) (files : List PackedFile) :
    entriesFrom offset (f :: files) = f.line offset :: entriesFrom (offset + f.stored.length) files := rfl

/-! ### The table -/

theorem span_line {f : PackedFile} (h : f.StoredIn whole) (offset : Nat) :
    span whole (f.line offset) = f.stored.length := by
  cases whole with
  | false => rfl
  | true => exact congrArg List.length (Eq.symm h)

/-- The lines are read one by one as long as the data that they announce lies in the payload. -/
theorem run_readEntries {payloadLength offset : Nat} (hfit : ∀ f ∈ files, f.Fits)
    (hstored : ∀ f ∈ files, f.StoredIn whole)
    (hlen : offset + (files.flatMap PackedFile.stored).length ≤ payloadLength) (acc : List Entry)
    (rest : Bytes) :
    (readEntries whole payloadLength files.length offset acc).run
      (files.flatMap PackedFile.encodeLine ++ rest) =
        .ok (acc.reverse ++ entriesFrom offset files, rest) := by
  induction files generalizing offset acc with
  | nil => simp [readEntries, entriesFrom]
  | cons f files ih =>
    obtain ⟨hcontent, hdata⟩ := hfit f List.mem_cons_self
    have hspan := span_line (hstored f List.mem_cons_self) offset
    simp only [List.flatMap_cons, List.length_append] at hlen
    simp only [List.length_cons, readEntries, List.flatMap_cons, PackedFile.encodeLine, List.append_assoc]
    rw [Reader.run_bind_of_ok (run_u32_append _ _), Reader.run_bind_of_ok (run_u24_append hcontent _),
      Reader.run_bind_of_ok (run_u24_append hdata _)]
    change (if payloadLength < offset + span whole (f.line offset) then _ else
      readEntries whole payloadLength files.length (offset + f.stored.length)
        (f.line offset :: acc)).run _ = _
    rw [hspan, if_neg (by omega), ih (fun g hg => hfit g (List.mem_cons_of_mem _ hg))
      (fun g hg => hstored g (List.mem_cons_of_mem _ hg)) (by omega), entriesFrom_cons]
    simp

theorem length_encodeLines (files : List PackedFile) :
    (files.flatMap PackedFile.encodeLine).length = files.length * Entry.width := by
  induction files with
  | nil => rfl
  | cons f files ih =>
    simp only [List.flatMap_cons, List.length_append, ih, List.length_cons, Nat.succ_mul]
    exact Nat.add_comm _ _

theorem length_encodePayload (files : List PackedFile) : (encodePayload files).length =
    2 + files.length * Entry.width + (files.flatMap PackedFile.stored).length := by
  simp only [encodePayload, List.length_append, length_encodeLines]
  rfl

theorem run_readTable (hcount : files.length < 0x10000) (hfit : ∀ f ∈ files, f.Fits)
    (hstored : ∀ f ∈ files, f.StoredIn whole) :
    (readTable whole (encodePayload files).length).run (encodePayload files) =
      .ok (entriesFrom (2 + files.length * Entry.width) files, files.flatMap PackedFile.stored) := by
  have hn : (UInt16.ofNat files.length).toNat = files.length := UInt16.toNat_ofNat_of_lt hcount
  have hlen := length_encodePayload files
  rw [readTable, encodePayload, List.append_assoc, Reader.run_bind_of_ok (run_u16_append _ _), hn,
    ← List.append_assoc, ← encodePayload]
  exact run_readEntries hfit hstored (Nat.le_of_eq hlen.symm) [] _

/-- The sizes of a container decide how its table is read. -/
theorem parse_encodeContainer {compressed decompressed : Nat} {stored payload : Bytes}
    (hc : compressed < 0x1000000) (hd : decompressed < 0x1000000)
    (hwhole : whole = decide (compressed ≠ decompressed))
    (hpayload : (if whole then Bzip2.decompress stored decompressed else pure stored) = .ok payload)
    {entries : List Entry} {rest : Bytes}
    (htable : (readTable whole payload.length).run payload = .ok (entries, rest)) :
    parse (encodeContainer compressed decompressed stored) = .ok
      { entries, payload, compressedWhole := whole,
        crc := Checksum.crc32 (encodeContainer compressed decompressed stored) } := by
  have hsizes : (do pure (← u24, ← u24) : ByteReader (Nat × Nat)).run
      (encodeContainer compressed decompressed stored) = .ok ((compressed, decompressed), stored) := by
    rw [encodeContainer, List.append_assoc, Reader.run_bind_of_ok (run_u24_append hc _),
      Reader.run_bind_of_ok (run_u24_append hd _)]
    rfl
  unfold parse
  rw [hsizes]
  simp only [bind, Except.bind, ← hwhole]
  cases whole with
  | false =>
    obtain rfl : stored = payload := Except.ok.inj hpayload
    simp only [Bool.false_eq_true, if_false, pure, Except.pure, htable]
  | true =>
    rw [if_pos rfl] at hpayload
    simp only [if_true, hpayload, htable, pure, Except.pure]

/-- A container parses to its files, in order. -/
theorem parse_of_packs (h : Packs files raw) (hcount : files.length < 0x10000) (hfit : ∀ f ∈ files, f.Fits) :
    ∃ whole, (∀ f ∈ files, f.StoredIn whole) ∧ parse raw = .ok
      { entries := entriesFrom (2 + files.length * Entry.width) files
        payload := encodePayload files
        compressedWhole := whole
        crc := Checksum.crc32 raw } := by
  cases h with
  | each size hsize hfaithful =>
    have hstored : ∀ f ∈ files, f.StoredIn false := hfaithful
    exact ⟨false, hstored, parse_encodeContainer hsize hsize (by simp) rfl
      (run_readTable hcount hfit hstored)⟩
  | whole size stream hsize hlen hne hplain hstream =>
    have hstored : ∀ f ∈ files, f.StoredIn true := hplain
    exact ⟨true, hstored, parse_encodeContainer hsize hlen (by simp [hne]) (by simpa using hstream)
      (run_readTable hcount hfit hstored)⟩

/-! ### The files -/

theorem readEntry_line {a : Archive} {f : PackedFile} {offset : Nat} {rest : Bytes}
    (hstored : f.StoredIn a.compressedWhole) (hdrop : a.payload.drop offset = f.stored ++ rest) :
    a.readEntry (f.line offset) = .ok f.content := by
  have plain : f.stored = f.content → .ok ((a.payload.drop offset).take f.content.length) =
      (.ok f.content : Except LoadError Bytes) := by
    intro h
    rw [hdrop, ← h, List.take_left]
  cases hw : a.compressedWhole with
  | true =>
    rw [hw] at hstored
    simp only [readEntry, hw, Bool.not_true, Bool.false_and, if_neg, Bool.false_eq_true, not_false_eq_true]
    exact plain hstored
  | false =>
    rw [hw] at hstored
    rcases hstored with h | ⟨hne, hstream⟩
    · simp only [readEntry, hw, PackedFile.line, h, ne_eq, not_true, decide_false, Bool.and_false,
        Bool.false_eq_true, if_false]
      exact plain h
    · simp only [readEntry, hw, PackedFile.line, ne_eq, hne, not_false_eq_true, decide_true, Bool.not_false,
        Bool.and_self, if_true, hdrop, List.take_left, hstream]

/-- The first line with a hash is that of the first file with it, and leads to what is stored of that
file. -/
theorem find?_entriesFrom (files : List PackedFile) (front : Bytes) (hash : UInt32) :
    match files.find? (·.hash = hash) with
    | none => (entriesFrom front.length files).find? (·.hash = hash) = none
    | some f => ∃ offset rest, (entriesFrom front.length files).find? (·.hash = hash) = some (f.line offset) ∧
        (front ++ files.flatMap PackedFile.stored).drop offset = f.stored ++ rest := by
  induction files generalizing front with
  | nil => rfl
  | cons f files ih =>
    rw [entriesFrom_cons, List.find?_cons, List.find?_cons]
    by_cases hf : f.hash = hash
    · simp only [PackedFile.line, hf, decide_true]
      exact ⟨front.length, files.flatMap PackedFile.stored, rfl, by
        rw [List.drop_left, List.flatMap_cons]⟩
    · simp only [PackedFile.line, hf, decide_false]
      have hnext := ih (front ++ f.stored)
      rwa [List.length_append, List.append_assoc, ← List.flatMap_cons] at hnext

/-- What an archive holds under a hash is the content of the first file that was packed under it. -/
theorem lookup_of_packs (h : Packs files raw) (hcount : files.length < 0x10000) (hfit : ∀ f ∈ files, f.Fits) :
    ∃ a, parse raw = .ok a ∧ ∀ key hash, a.lookup key hash =
      match files.find? (·.hash = hash) with
      | some f => .ok f.content
      | none => .error (.subFileNotFound key) := by
  obtain ⟨whole, hstored, hparse⟩ := parse_of_packs h hcount hfit
  refine ⟨_, hparse, fun key hash => ?_⟩
  have hfront : (Bytes.ofU16 (UInt16.ofNat files.length) ++ files.flatMap PackedFile.encodeLine).length =
      2 + files.length * Entry.width := by
    rw [List.length_append, length_encodeLines]
    rfl
  have hfind := find?_entriesFrom files
    (Bytes.ofU16 (UInt16.ofNat files.length) ++ files.flatMap PackedFile.encodeLine) hash
  rw [hfront, ← encodePayload] at hfind
  split at hfind
  · next hnone => simp only [lookup, entryByHash?, hfind, hnone]
  · next f hf =>
    obtain ⟨offset, rest, hline, hdrop⟩ := hfind
    simp only [lookup, entryByHash?, hline, hf]
    exact readEntry_line (hstored f (List.mem_of_find?_eq_some hf)) hdrop

/-- The data of a file starts behind that of all files before it. -/
theorem getElem?_entriesFrom (offset : Nat) (files : List PackedFile) (i : Nat) :
    (entriesFrom offset files)[i]? =
      files[i]?.map fun f : PackedFile => f.line (offset + ((files.take i).map fun g => g.stored.length).sum) := by
  induction files generalizing offset i with
  | nil => rfl
  | cons f files ih =>
    rw [entriesFrom_cons]
    cases i with
    | zero => rfl
    | succ i =>
      rw [List.getElem?_cons_succ, ih, List.getElem?_cons_succ, List.take_succ_cons, List.map_cons,
        List.sum_cons, Nat.add_assoc]

/-- A container is read back as the files that it packs: their lines in order, each with its data behind
that of the files before it, and under a name or a hash the content of the first file that has it. -/
theorem parse_files (h : Packs files raw) (hcount : files.length ≤ 65535) (hfit : ∀ f ∈ files, f.Fits) :
    ∃ a, parse raw = .ok a ∧
      (∀ i, a.entries[i]? = files[i]?.map fun f : PackedFile =>
        f.line (2 + 10 * files.length + ((files.take i).map fun g => g.stored.length).sum)) ∧
      (∀ name, a.file name =
        match files.find? (·.hash = nameHash name) with
        | some f => .ok f.content
        | none => .error (.subFileNotFound (.name name))) ∧
      ∀ hash, a.fileByHash hash =
        match files.find? (·.hash = hash) with
        | some f => .ok f.content
        | none => .error (.subFileNotFound (.hash hash)) := by
  have hcount' : files.length < 0x10000 := Nat.lt_succ_of_le hcount
  obtain ⟨a, hparse, hlookup⟩ := lookup_of_packs h hcount' hfit
  obtain ⟨whole, -, hparse'⟩ := parse_of_packs h hcount' hfit
  have hentries : a.entries = entriesFrom (2 + files.length * Entry.width) files := by
    rw [Except.ok.inj (hparse.symm.trans hparse')]
  refine ⟨a, hparse, fun i => ?_, fun name => hlookup _ _, fun hash => hlookup _ _⟩
  rw [hentries, getElem?_entriesFrom, Entry.width, Nat.mul_comm]

/-- An empty file, one that is stored as a stream, and one under the hash of the second. -/
def mixed : List PackedFile :=
  [.plain (nameHash "index") [],
    ⟨nameHash "data", [0x61, 0x62, 0x61, 0x62, 0x61, 0x62, 0x61, 0x62, 0x61, 0x62, 0x61, 0x62],
      [49, 65, 89, 38, 83, 89, 227, 145, 235, 246, 0, 0, 2, 129, 0, 48, 0, 32, 0, 33, 0, 130, 24, 113, 119,
        36, 83, 133, 9, 14, 57, 30, 191, 96]⟩,
    .plain (nameHash "data") [0x78]]

/-- A stream of a payload with one file of two bytes. -/
def wholeStream : Bytes :=
  [49, 65, 89, 38, 83, 89, 132, 255, 252, 149, 0, 0, 1, 65, 160, 112, 0, 16, 96, 0, 1, 0, 8, 32, 0, 34, 7, 162,
    104, 67, 2, 1, 148, 178, 226, 226, 120, 187, 146, 41, 194, 132, 132, 39, 255, 228, 168]

theorem parse_files_mixed :
    (∃ a, parse (encodePlain (encodePayload mixed)) = .ok a ∧
      a.entries[2]? = some ⟨nameHash "data", 2 + 10 * 3 + (0 + 34), 1, 1⟩ ∧
      a.file "index" = .ok [] ∧
      a.file "DATA" = .ok [0x61, 0x62, 0x61, 0x62, 0x61, 0x62, 0x61, 0x62, 0x61, 0x62, 0x61, 0x62] ∧
      a.file "map" = .error (.subFileNotFound (.name "map"))) ∧
    ∃ a, parse (encodeContainer wholeStream.length 14 wholeStream) = .ok a ∧
      a.file "data" = .ok [0x68, 0x69] := by
  constructor
  · have hfaithful : ∀ f ∈ mixed, f.Faithful := by
      intro f hf
      simp only [mixed, List.mem_cons, List.not_mem_nil, or_false] at hf
      rcases hf with rfl | rfl | rfl
      · exact .inl rfl
      · exact .inr ⟨by decide, by decide +kernel⟩
      · exact .inl rfl
    have hpacks : Packs mixed (encodePlain (encodePayload mixed)) := .each _ (by decide +kernel) hfaithful
    obtain ⟨a, hparse, hentries, hfile, -⟩ := parse_files hpacks (by decide) (by decide +kernel)
    exact ⟨a, hparse, (hentries 2).trans (by decide +kernel), (hfile _).trans (by decide +kernel),
      (hfile _).trans (by decide +kernel), (hfile _).trans (by decide +kernel)⟩
  · have hpacks : Packs [.plain (nameHash "data") [0x68, 0x69]]
        (encodeContainer wholeStream.length 14 wholeStream) :=
      .whole _ _ (by decide) (by decide +kernel) (by decide +kernel) (by simp [PackedFile.plain])
        (by decide +kernel)
    obtain ⟨a, hparse, -, hfile, -⟩ := parse_files hpacks (by decide) (by decide +kernel)
    exact ⟨a, hparse, (hfile _).trans (by decide +kernel)⟩

end Archive

end AssetCache
