import Mathlib
import AssetCache.Proofs.ArchivePacking
import AssetCache.Proofs.ReaderWords

/-!
# Lookups in archives of any bytes

A lookup takes its part of the payload unchecked; that it lies in the payload is checked once, when the table is
read. `parse_eq_ok_iff` says which bytes are accepted as which archive, `answer_readEntry` what is answered from an
entry of it. Main statement: `parse_lookups`.
-/

namespace AssetCache

namespace Bzip2

/-! ### How much a stream gives -/

theorem length_flatten_reverse_cons (content : Bytes) (acc : List Bytes) :
    (content :: acc).reverse.flatten.length = acc.reverse.flatten.length + content.length := by
  simp

theorem length_of_contentAfter {total wanted : ℕ} {combined : UInt32} {bits : List Bool} {acc : List Bytes}
    {out : Bytes} (h : contentAfter total wanted combined bits acc = some out) :
    out.length = acc.reverse.flatten.length + wanted := by
  fun_induction contentAfter total wanted combined bits acc with
  | case1 wanted combined bits acc block rest _ content overrun _ hlt =>
    cases h
    rw [length_flatten_reverse_cons, List.length_take_of_le hlt.le]
  | case2 wanted combined bits acc block rest _ content _ hall =>
    cases h
    rw [length_flatten_reverse_cons, hall.2]
  | case3 | case4 | case6 | case8 => nomatch h
  | case5 =>
    cases h
    rw [length_flatten_reverse_cons]
  | case7 wanted combined bits acc block rest _ content overrun _ hle _ _ _ _ ih =>
    rw [ih h, length_flatten_reverse_cons]
    omega

/-- A stream gives as much as is wanted of it, or nothing. -/
theorem length_of_decompress {stream out : Bytes} {size : ℕ} (h : decompress stream size = .ok out) :
    out.length = size := by
  unfold decompress at h
  split at h
  · next hsize =>
    cases h
    exact hsize.symm
  · dsimp only at h
    split at h
    · next content hcontent =>
      cases h
      rw [length_of_contentAfter hcontent]
      exact Nat.zero_add size
    · nomatch h

theorem eq_of_decompress_eq_error {stream : Bytes} {size : ℕ} {e : LoadError}
    (h : decompress stream size = .error e) : e = .decompressionFailed .bzip2 := by
  unfold decompress at h
  split at h
  · nomatch h
  · dsimp only at h
    split at h
    · nomatch h
    · exact (Except.error.inj h).symm

end Bzip2

/-- The line of an entry in the table. -/
def Entry.encode (e : Entry) : Bytes :=
  Bytes.ofU32 e.hash ++ Bytes.ofU24 e.decompressedSize ++ Bytes.ofU24 e.compressedSize

namespace Archive
open ByteReader

variable {whole : Bool} {offset limit : ℕ} {e : Entry} {es entries : List Entry} {raw payload s rest : Bytes}
  {a : Archive}

/-! ### The table -/

/-- That entries are lines of a table whose first file starts at `offset`, and that what each of them spans ends
before the limit. -/
def Lines (whole : Bool) (limit : ℕ) : ℕ → List Entry → Prop
  | _, [] => True
  | offset, e :: es => e.offset = offset ∧ e.decompressedSize < 0x1000000 ∧ e.compressedSize < 0x1000000 ∧
      offset + span whole e ≤ limit ∧ Lines whole limit (offset + e.compressedSize) es

theorem run_readEntries_eq_ok_iff {count : ℕ} {acc out : List Entry} :
    (readEntries whole limit count offset acc).run s = .ok (out, rest) ↔
      ∃ es, out = acc.reverse ++ es ∧ es.length = count ∧ s = es.flatMap Entry.encode ++ rest ∧
        Lines whole limit offset es := by
  induction count generalizing offset acc s with
  | zero =>
    constructor
    · intro h
      cases h
      exact ⟨[], (List.append_nil _).symm, rfl, rfl, trivial⟩
    · rintro ⟨es, rfl, hcount, rfl, -⟩
      obtain rfl := List.length_eq_zero_iff.1 hcount
      rw [List.append_nil]
      rfl
  | succ count ih =>
    simp only [readEntries, Reader.run_bind_eq_ok, recognizes_u32.run_eq_ok_iff, recognizes_u24.run_eq_ok_iff]
    constructor
    · rintro ⟨hash, _, ⟨_, rfl, rfl⟩, d, _, ⟨_, ⟨hd, rfl⟩, rfl⟩, c, t, ⟨_, ⟨hc, rfl⟩, rfl⟩, h⟩
      split at h
      · cases h
      · next hspan =>
        obtain ⟨es, rfl, rfl, rfl, hlines⟩ := ih.1 h
        exact ⟨⟨hash, offset, d, c⟩ :: es, by simp, rfl, by simp [Entry.encode],
          rfl, hd, hc, Nat.le_of_not_lt hspan, hlines⟩
    · rintro ⟨es, rfl, hcount, rfl, hlines⟩
      obtain ⟨e, es, rfl⟩ := List.exists_cons_of_length_eq_add_one hcount
      obtain ⟨rfl, hd, hc, hspan, hlines⟩ := hlines
      refine ⟨e.hash, _, ⟨_, rfl, ?_⟩, e.decompressedSize, _, ⟨_, ⟨hd, rfl⟩, rfl⟩, e.compressedSize,
        es.flatMap Entry.encode ++ rest, ⟨_, ⟨hc, rfl⟩, rfl⟩, ?_⟩
      · simp [Entry.encode]
      · rw [if_neg (Nat.not_lt.2 hspan)]
        exact ih.2 ⟨es, by simp, Nat.succ.inj hcount, rfl, hlines⟩

theorem lines_iff : Lines whole limit offset es ↔ ∀ i e, es[i]? = some e →
    e.offset = offset + ((es.take i).map fun f => f.compressedSize).sum ∧ e.decompressedSize < 0x1000000 ∧
      e.compressedSize < 0x1000000 ∧ e.offset + span whole e ≤ limit := by
  -- an entry behind the first one starts behind what is stored for that one, and so the sums agree
  induction es generalizing offset with
  | nil => simp [Lines]
  | cons f es ih =>
    rw [Lines, ih]
    constructor
    · rintro ⟨rfl, hd, hc, hspan, hlines⟩ i e hi
      cases i with
      | zero =>
        cases hi
        exact ⟨rfl, hd, hc, hspan⟩
      | succ i =>
        have he := hlines i e hi
        rwa [Nat.add_assoc, ← List.sum_cons, ← List.map_cons, ← List.take_succ_cons] at he
    · intro h
      obtain ⟨hoffset, hd, hc, hspan⟩ := h 0 f rfl
      have hoffset' : f.offset = offset := hoffset
      refine ⟨hoffset', hd, hc, hoffset' ▸ hspan, fun i e hi => ?_⟩
      have he := h (i + 1) e hi
      rwa [List.take_succ_cons, List.map_cons, List.sum_cons, ← Nat.add_assoc] at he

/-- That a payload starts with the table of the entries, and that what each of them spans lies in the payload,
behind the table and what is stored for the entries before it. -/
structure Tabulates (whole : Bool) (payload : Bytes) (entries : List Entry) : Prop where
  count_lt : entries.length < 0x10000
  size_lt : ∀ e ∈ entries, e.decompressedSize < 0x1000000 ∧ e.compressedSize < 0x1000000
  table : ∃ data, payload =
    Bytes.ofU16 (UInt16.ofNat entries.length) ++ entries.flatMap Entry.encode ++ data
  offset : ∀ i e, entries[i]? = some e →
    e.offset = 2 + 10 * entries.length + ((entries.take i).map fun f => f.compressedSize).sum
  inside : ∀ e ∈ entries, e.offset + span whole e ≤ payload.length

theorem Tabulates.lines (h : Tabulates whole payload entries) :
    Lines whole payload.length (2 + 10 * entries.length) entries := by
  refine lines_iff.2 fun i e hi => ?_
  have he := List.mem_of_getElem? hi
  exact ⟨h.offset i e hi, (h.size_lt e he).1, (h.size_lt e he).2, h.inside e he⟩

theorem run_readTable_iff : (∃ rest, (readTable whole payload.length).run payload = .ok (entries, rest)) ↔
    Tabulates whole payload entries := by
  simp only [readTable, Reader.run_bind_eq_ok, recognizes_u16.run_eq_ok_iff, run_readEntries_eq_ok_iff]
  constructor
  · rintro ⟨rest, count, _, ⟨_, rfl, hpayload⟩, _, rfl, hcount, rfl, hlines⟩
    replace hlines := lines_iff.1 hlines
    refine ⟨hcount ▸ count.toNat_lt, fun e he => ?_, ⟨rest, ?_⟩, fun i e hi => ?_, fun e he => ?_⟩
    · obtain ⟨i, hi⟩ := List.mem_iff_getElem?.1 he
      exact ⟨(hlines i e hi).2.1, (hlines i e hi).2.2.1⟩
    · rw [hcount, UInt16.ofNat_toNat, List.append_assoc]
      exact hpayload
    · rw [hcount, Nat.mul_comm 10]
      exact (hlines i e hi).1
    · obtain ⟨i, hi⟩ := List.mem_iff_getElem?.1 he
      exact (hlines i e hi).2.2.2
  · intro h
    obtain ⟨data, hpayload⟩ := h.table
    have hn : (UInt16.ofNat entries.length).toNat = entries.length := UInt16.toNat_ofNat_of_lt h.count_lt
    refine ⟨data, _, _, ⟨_, rfl, hpayload.trans (List.append_assoc ..)⟩, entries, rfl, hn.symm, rfl, ?_⟩
    rw [hn, Entry.width, Nat.mul_comm]
    exact h.lines

/-! ### The container -/

/-- That bytes are a container of the archive: two sizes, and the payload, as a stream if the sizes differ. -/
structure Contains (raw : Bytes) (a : Archive) : Prop where
  sizes : ∃ compressed decompressed stored, compressed < 0x1000000 ∧ decompressed < 0x1000000 ∧
    raw = Bytes.ofU24 compressed ++ Bytes.ofU24 decompressed ++ stored ∧
    a.compressedWhole = decide (compressed ≠ decompressed) ∧
    if compressed ≠ decompressed then
      Bzip2.decompress stored decompressed = .ok a.payload ∧ a.payload.length = decompressed
    else stored = a.payload
  table : Tabulates a.compressedWhole a.payload a.entries
  crc : a.crc = Checksum.crc32 raw

theorem run_sizes_eq_ok_iff {compressed decompressed : ℕ} {stored : Bytes} :
    (do pure (← u24, ← u24) : ByteReader (ℕ × ℕ)).run raw = .ok ((compressed, decompressed), stored) ↔
      compressed < 0x1000000 ∧ decompressed < 0x1000000 ∧
        raw = Bytes.ofU24 compressed ++ Bytes.ofU24 decompressed ++ stored := by
  simp only [Reader.run_bind_eq_ok, recognizes_u24.run_eq_ok_iff, Reader.run_pure]
  constructor
  · rintro ⟨_, _, ⟨_, ⟨hc, rfl⟩, rfl⟩, _, _, ⟨_, ⟨hd, rfl⟩, rfl⟩, ⟨⟩⟩
    exact ⟨hc, hd, (List.append_assoc ..).symm⟩
  · rintro ⟨hc, hd, rfl⟩
    exact ⟨compressed, _, ⟨_, ⟨hc, rfl⟩, List.append_assoc ..⟩, decompressed, stored, ⟨_, ⟨hd, rfl⟩, rfl⟩, rfl⟩

/-- The bytes that are accepted, and the archive that they hold. -/
theorem parse_eq_ok_iff : parse raw = .ok a ↔ Contains raw a := by
  constructor
  · intro h
    simp only [parse, bind, Except.bind] at h
    split at h
    · nomatch h
    · next sizes hsizes =>
      obtain ⟨⟨compressed, decompressed⟩, stored⟩ := sizes
      obtain ⟨hc, hd, rfl⟩ := run_sizes_eq_ok_iff.1 hsizes
      dsimp only at h
      split at h
      · next hne =>
        split at h
        · nomatch h
        · next payload hpayload =>
          split at h
          · nomatch h
          · next table htable =>
            cases h
            refine ⟨⟨compressed, decompressed, stored, hc, hd, rfl, rfl, ?_⟩, run_readTable_iff.1 ⟨_, htable⟩, rfl⟩
            rw [if_pos (of_decide_eq_true hne)]
            exact ⟨hpayload, Bzip2.length_of_decompress hpayload⟩
      · next heq =>
        dsimp only [pure, Except.pure] at h
        split at h
        · nomatch h
        · next table htable =>
          cases h
          refine ⟨⟨compressed, decompressed, stored, hc, hd, rfl, rfl, ?_⟩, run_readTable_iff.1 ⟨_, htable⟩, rfl⟩
          rw [if_neg (mt decide_eq_true heq)]
  · rintro ⟨⟨compressed, decompressed, stored, hc, hd, rfl, hwhole, hpayload⟩, htable, hcrc⟩
    obtain ⟨rest, htable⟩ := run_readTable_iff.2 htable
    have hpayload' : (if a.compressedWhole then Bzip2.decompress stored decompressed else pure stored) =
        .ok a.payload := by
      rw [hwhole]
      split at hpayload
      · next hne => simpa [hne] using hpayload.1
      · next heq =>
        simp only [heq, decide_false, Bool.false_eq_true, if_false, hpayload]
        rfl
    rw [← encodeContainer, parse_encodeContainer hc hd hwhole hpayload' htable, encodeContainer, ← hcrc]

/-! ### Lookups -/

/-- That a part of the payload is what stands there from an offset on. -/
def Slice (payload : Bytes) (offset size : ℕ) (part : Bytes) : Prop :=
  ∃ front back, payload = front ++ part ++ back ∧ front.length = offset ∧ part.length = size

theorem slice_take_drop {size : ℕ} (h : offset + size ≤ payload.length) :
    Slice payload offset size ((payload.drop offset).take size) := by
  refine ⟨payload.take offset, (payload.drop offset).drop size, ?_, ?_, ?_⟩
  · rw [List.append_assoc, List.take_append_drop, List.take_append_drop]
  · rw [List.length_take]
    omega
  · rw [List.length_take, List.length_drop]
    omega

/-- What can be answered from an entry: a part of the payload, or what a part of the payload unpacks to. -/
inductive Answer (a : Archive) (e : Entry) : Except LoadError Bytes → Prop
  | plain (content : Bytes) : a.compressedWhole = true ∨ e.compressedSize = e.decompressedSize →
      Slice a.payload e.offset e.decompressedSize content → Answer a e (.ok content)
  | unpacked (stored content : Bytes) : a.compressedWhole = false → e.compressedSize ≠ e.decompressedSize →
      Slice a.payload e.offset e.compressedSize stored →
      Bzip2.decompress stored e.decompressedSize = .ok content → content.length = e.decompressedSize →
      Answer a e (.ok content)
  | failed (stored : Bytes) : a.compressedWhole = false → e.compressedSize ≠ e.decompressedSize →
      Slice a.payload e.offset e.compressedSize stored →
      Bzip2.decompress stored e.decompressedSize = .error (.decompressionFailed .bzip2) →
      Answer a e (.error (.decompressionFailed .bzip2))

theorem answer_readEntry (h : e.offset + span a.compressedWhole e ≤ a.payload.length) :
    Answer a e (a.readEntry e) := by
  by_cases hplain : a.compressedWhole = true ∨ e.compressedSize = e.decompressedSize
  · have hread : a.readEntry e = .ok ((a.payload.drop e.offset).take e.decompressedSize) := by
      rcases hplain with hwhole | hsize
      · simp [readEntry, hwhole]
      · simp [readEntry, hsize]
    have hspan : span a.compressedWhole e = e.decompressedSize := by
      rcases hplain with hwhole | hsize
      · rw [span, if_pos hwhole]
      · rw [span, hsize, ite_self]
    rw [hread]
    exact .plain _ hplain (slice_take_drop (hspan ▸ h))
  · rw [not_or, Bool.not_eq_true] at hplain
    obtain ⟨hwhole, hsize⟩ := hplain
    have hslice : Slice a.payload e.offset e.compressedSize ((a.payload.drop e.offset).take e.compressedSize) := by
      refine slice_take_drop ?_
      rwa [span, hwhole, if_neg Bool.false_ne_true] at h
    have hread : a.readEntry e =
        Bzip2.decompress ((a.payload.drop e.offset).take e.compressedSize) e.decompressedSize := by
      simp [readEntry, hwhole, hsize]
    rw [hread]
    cases hout : Bzip2.decompress ((a.payload.drop e.offset).take e.compressedSize) e.decompressedSize with
    | ok content => exact .unpacked _ _ hwhole hsize hslice hout (Bzip2.length_of_decompress hout)
    | error err =>
      obtain rfl := Bzip2.eq_of_decompress_eq_error hout
      exact .failed _ hwhole hsize hslice hout

theorem Answer.ne_subFileNotFound {answer : Except LoadError Bytes} (h : Answer a e answer) (key : FileKey) :
    answer ≠ .error (.subFileNotFound key) := by
  cases h <;> nofun

/-- What is stored of the files stands in a row behind the table, each right behind the one before it. -/
structure InRow (payload : Bytes) (entries : List Entry) : Prop where
  consecutive : entries.IsChain fun e f => e.offset + e.compressedSize = f.offset
  disjoint : entries.Pairwise fun e f => e.offset + e.compressedSize ≤ f.offset
  behind : ∀ e ∈ entries, 2 + 10 * entries.length ≤ e.offset
  inside : ∀ e ∈ entries, e.offset + e.compressedSize ≤ payload.length

theorem le_offset_of_lines (h : Lines whole limit offset es) : ∀ e ∈ es, offset ≤ e.offset := by
  induction es generalizing offset with
  | nil => nofun
  | cons f es ih =>
    obtain ⟨hoffset, -, -, -, hlines⟩ := h
    refine List.forall_mem_cons.2 ⟨hoffset.ge, fun e he => ?_⟩
    have := ih hlines e he
    omega

theorem pairwise_of_lines (h : Lines whole limit offset es) :
    es.Pairwise fun e f => e.offset + e.compressedSize ≤ f.offset := by
  induction es generalizing offset with
  | nil => exact .nil
  | cons f es ih =>
    obtain ⟨rfl, -, -, -, hlines⟩ := h
    exact .cons (le_offset_of_lines hlines) (ih hlines)

theorem isChain_of_lines (h : Lines whole limit offset es) :
    es.IsChain fun e f => e.offset + e.compressedSize = f.offset := by
  induction es generalizing offset with
  | nil => exact .nil
  | cons f es ih =>
    obtain ⟨rfl, -, -, -, hlines⟩ := h
    cases es with
    | nil => exact .singleton f
    | cons g es => exact .cons_cons hlines.1.symm (ih hlines)

theorem Tabulates.inRow (h : Tabulates false payload entries) : InRow payload entries where
  consecutive := isChain_of_lines h.lines
  disjoint := pairwise_of_lines h.lines
  behind := le_offset_of_lines h.lines
  inside := h.inside

theorem lookup_of_entryByHash? {key : FileKey} {hash : UInt32} (h : a.entryByHash? hash = some e) :
    a.lookup key hash = a.readEntry e := by
  rw [lookup, h]

/-- Bytes are accepted exactly if they are a container of an archive whose files all lie in its payload. Then a
lookup takes the first entry with the hash, and answers with as many bytes as that says, or that a stream is
broken. -/
theorem parse_lookups (raw : Bytes) : (∀ a, parse raw = .ok a ↔ Contains raw a) ∧ ∀ a, parse raw = .ok a →
    (a.compressedWhole = false → InRow a.payload a.entries) ∧
    ∀ hash,
      (a.fileByHash hash = .error (.subFileNotFound (.hash hash)) ↔ ∀ e ∈ a.entries, e.hash ≠ hash) ∧
      ∀ front e back, a.entries = front ++ e :: back → (∀ f ∈ front, f.hash ≠ hash) → e.hash = hash →
        Answer a e (a.fileByHash hash) := by
  refine ⟨fun a => parse_eq_ok_iff, fun a ha => ?_⟩
  have htable := (parse_eq_ok_iff.1 ha).table
  refine ⟨fun hwhole => ?_, fun hash => ⟨⟨fun hout e he hhash => ?_, fun hnone => ?_⟩, ?_⟩⟩
  · rw [hwhole] at htable
    exact htable.inRow
  · cases hfind : a.entryByHash? hash with
    | none => exact List.find?_eq_none.1 hfind e he (decide_eq_true hhash)
    | some f =>
      rw [fileByHash, lookup_of_entryByHash? hfind] at hout
      exact (answer_readEntry (htable.inside f (List.mem_of_find?_eq_some hfind))).ne_subFileNotFound _ hout
  · have hfind : a.entryByHash? hash = none := by simpa [entryByHash?] using hnone
    rw [fileByHash, lookup, hfind]
  · intro front e back hentries hfront hhash
    have hfind : a.entryByHash? hash = some e := by
      refine List.find?_eq_some_iff_append.2 ⟨decide_eq_true hhash, front, back, hentries, ?_⟩
      simpa using hfront
    rw [fileByHash, lookup_of_entryByHash? hfind]
    exact answer_readEntry (htable.inside e (List.mem_of_find?_eq_some hfind))

/-- A table that names a hash twice, the second time for nothing, and a file whose stream is none. -/
def odd : Archive where
  entries := [⟨7, 32, 1, 1⟩, ⟨9, 33, 5, 2⟩, ⟨7, 35, 0, 0⟩]
  payload := [0, 3, 0, 0, 0, 7, 0, 0, 1, 0, 0, 1, 0, 0, 0, 9, 0, 0, 5, 0, 0, 2, 0, 0, 0, 7, 0, 0, 0, 0, 0, 0,
    0x41, 0, 0]
  compressedWhole := false
  crc := 0x27789DF5

theorem parse_lookups_odd : parse (encodeContainer 0 0 odd.payload) = .ok odd ∧
    Contains (encodeContainer 0 0 odd.payload) odd ∧ InRow odd.payload odd.entries ∧
    odd.fileByHash 8 = .error (.subFileNotFound (.hash 8)) ∧ Answer odd ⟨7, 32, 1, 1⟩ (odd.fileByHash 7) ∧
    Answer odd ⟨9, 33, 5, 2⟩ (.error (.decompressionFailed .bzip2)) := by
  have hparse : parse (encodeContainer 0 0 odd.payload) = .ok odd := by decide +kernel
  have hbroken : odd.fileByHash 9 = .error (.decompressionFailed .bzip2) := by decide +kernel
  obtain ⟨haccept, hlookups⟩ := parse_lookups (encodeContainer 0 0 odd.payload)
  obtain ⟨hrow, hfile⟩ := hlookups odd hparse
  refine ⟨hparse, (haccept odd).1 hparse, hrow rfl, (hfile 8).1.2 (by decide), ?_, ?_⟩
  · exact (hfile 7).2 [] _ _ rfl (by decide) rfl
  · rw [← hbroken]
    exact (hfile 9).2 [⟨7, 32, 1, 1⟩] _ _ rfl (by decide) rfl

end Archive

end AssetCache
