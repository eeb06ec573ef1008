import Mathlib
import AssetCache.DefinitionTable
import AssetCache.Proofs.ReaderWords

/-!
# Records are cut by their sizes

An index begins with a count and a row of sizes. As long as the records of these sizes lie in the data file, each
size cuts one record off (`splitAfter_append`), so either all of the sizes that are counted do, or the index ends
first, or a record leaves the file first (`goesOn_or_stops`). Main statement: `split_bySizes`, when a table can be
split and into which records, how it fails otherwise, and that written records are split again.
-/

namespace AssetCache.DefinitionTable
open Bytes ByteReader

variable {data index left rest : Bytes} {sizes : List UInt16} {records acc : List Bytes} {length offset n : ℕ}

/-! ### Sizes -/

/-- How many bytes records of the given sizes have. -/
def total (sizes : List UInt16) : ℕ := (sizes.map UInt16.toNat).sum

/-- Where the record starts that comes behind records of the given sizes. -/
def startAfter (sizes : List UInt16) : ℕ := firstRecord + total sizes

/-- That records of the given sizes lie in a data file. Where there is no record, there need not even be a count. -/
def Within (data : Bytes) (sizes : List UInt16) : Prop := sizes = [] ∨ startAfter sizes ≤ data.length

/-- That an index begins with a count and the given sizes. -/
def Begins (index : Bytes) (count : UInt16) (sizes : List UInt16) (left : Bytes) : Prop :=
  index = ofU16 count ++ (sizes.flatMap ofU16 ++ left)

theorem total_cons (size : UInt16) (sizes : List UInt16) : total (size :: sizes) = size.toNat + total sizes := rfl

theorem total_concat (sizes : List UInt16) (size : UInt16) : total (sizes ++ [size]) = total sizes + size.toNat := by
  simp [total]

theorem run_u16_of_short {s : Bytes} (h : s.length < 2) : u16.run s = .error (.endOfData 2 s.length) := by
  match s, h with
  | [], _ => rfl
  | [_], _ => rfl

theorem short_or_word (s : Bytes) : s.length < 2 ∨ ∃ w r, s = ofU16 w ++ r := by
  match s with
  | [] => exact .inl (by simp)
  | [_] => exact .inl (by simp)
  | a :: b :: r => exact .inr ⟨toU16 a b, r, by rw [ofU16_toU16]; rfl⟩

/-! ### Records -/

/-- Cuts records of the given sizes off the front. -/
def cut (rest : Bytes) : List UInt16 → List Bytes
  | [] => []
  | size :: sizes => rest.take size.toNat :: cut (rest.drop size.toNat) sizes

/-- That records are what lies in a data file one behind the other, each of its size. -/
structure Slices (data : Bytes) (sizes : List UInt16) (records : List Bytes) : Prop where
  sizes_eq : records.map List.length = sizes.map UInt16.toNat
  slice : ∀ i size, sizes[i]? = some size →
    records[i]? = some ((data.drop (startAfter (sizes.take i))).take size.toNat)
  flatten : records.flatten = (data.drop firstRecord).take (total sizes)

theorem length_cut (rest : Bytes) (sizes : List UInt16) : (cut rest sizes).length = sizes.length := by
  induction sizes generalizing rest with
  | nil => rfl
  | cons size sizes ih => simp [cut, ih]

theorem map_length_cut (h : total sizes ≤ rest.length) :
    (cut rest sizes).map List.length = sizes.map UInt16.toNat := by
  induction sizes generalizing rest with
  | nil => rfl
  | cons size sizes ih =>
    rw [total_cons] at h
    have hrest : total sizes ≤ (rest.drop size.toNat).length := by
      rw [List.length_drop]
      omega
    have hsize : min size.toNat rest.length = size.toNat := by omega
    simp [cut, ih hrest, hsize]

theorem getElem?_cut (rest : Bytes) {i : ℕ} {size : UInt16} (h : sizes[i]? = some size) :
    (cut rest sizes)[i]? = some ((rest.drop (total (sizes.take i))).take size.toNat) := by
  induction sizes generalizing rest i with
  | nil => simp at h
  | cons first sizes ih =>
    cases i with
    | zero =>
      obtain rfl : first = size := by simpa using h
      simp [cut, total]
    | succ i =>
      have hi := ih (rest.drop first.toNat) (by simpa using h)
      simp [cut, hi, total_cons]

theorem flatten_cut (rest : Bytes) (sizes : List UInt16) : (cut rest sizes).flatten = rest.take (total sizes) := by
  induction sizes generalizing rest with
  | nil => simp [cut, total]
  | cons size sizes ih => rw [cut, List.flatten_cons, ih, total_cons, List.take_add]

/-- Records that stand one behind the other are cut off again, whatever comes behind them. -/
theorem cut_flatten (h : records.map List.length = sizes.map UInt16.toNat) (rest : Bytes) :
    cut (records.flatten ++ rest) sizes = records := by
  induction records generalizing sizes with
  | nil =>
    obtain rfl : sizes = [] := by simpa using h.symm
    rfl
  | cons record records ih =>
    cases sizes with
    | nil => simp at h
    | cons size sizes =>
      simp only [List.map_cons, List.cons.injEq] at h
      obtain ⟨hsize, hsizes⟩ := h
      rw [cut, List.flatten_cons, List.append_assoc, ← hsize, List.take_left, List.drop_left, ih hsizes]

theorem total_le_of_within (h : Within data sizes) : total sizes ≤ (data.drop firstRecord).length := by
  rcases h with rfl | h
  · exact Nat.zero_le _
  · rw [List.length_drop]
    unfold startAfter at h
    omega

theorem slices_cut (h : Within data sizes) : Slices data sizes (cut (data.drop firstRecord) sizes) := by
  refine ⟨map_length_cut (total_le_of_within h), fun i size hi => ?_, flatten_cut _ _⟩
  rw [getElem?_cut _ hi, List.drop_drop]
  rfl

theorem Slices.eq_cut (h : Slices data sizes records) : records = cut (data.drop firstRecord) sizes := by
  have hlength : records.length = sizes.length := by simpa using congrArg List.length h.sizes_eq
  refine List.ext_getElem? fun i => ?_
  cases hi : sizes[i]? with
  | none =>
    have hle : sizes.length ≤ i := List.getElem?_eq_none_iff.1 hi
    rw [List.getElem?_eq_none (hlength ▸ hle), List.getElem?_eq_none (by rwa [length_cut])]
  | some size =>
    rw [h.slice i size hi, getElem?_cut _ hi, List.drop_drop]
    rfl

/-! ### The sizes, one after the other -/

/-- Sizes whose records lie in the file cut them off. -/
theorem splitAfter_append (h : sizes = [] ∨ offset + total sizes ≤ length) :
    splitAfter length (sizes.length + n) offset rest (sizes.flatMap ofU16 ++ left) acc =
      splitAfter length n (offset + total sizes) (rest.drop (total sizes)) left
        ((cut rest sizes).reverse ++ acc) := by
  induction sizes generalizing offset rest acc with
  | nil => simp [total, cut]
  | cons size sizes ih =>
    have hlength : (size :: sizes).length + n = (sizes.length + n) + 1 := by simp only [List.length_cons]; omega
    have hfits : offset + (size.toNat + total sizes) ≤ length := by simpa [total_cons] using h
    have hstop : ¬ length < offset + size.toNat := by omega
    have hrest : sizes = [] ∨ offset + size.toNat + total sizes ≤ length := .inr (by omega)
    rw [hlength, List.flatMap_cons, List.append_assoc, splitAfter, run_u16_append]
    simp only [if_neg hstop, ih hrest]
    rw [total_cons, cut, List.reverse_cons, List.append_assoc, List.drop_drop, Nat.add_assoc]
    rfl

/-- What comes next where `n` sizes are to be read: they are all there and their records lie in the file, or the
index ends behind some of them, or the record behind some of them leaves the file. -/
theorem goesOn_or_stops (length n offset : ℕ) (index : Bytes) : ∃ sizes left,
    index = sizes.flatMap ofU16 ++ left ∧ (sizes = [] ∨ offset + total sizes ≤ length) ∧
      (sizes.length = n ∨ sizes.length < n ∧
        (left.length < 2 ∨ ∃ size rest, left = ofU16 size ++ rest ∧ length < offset + total sizes + size.toNat)) := by
  induction n generalizing offset index with
  | zero => exact ⟨[], index, rfl, .inl rfl, .inl rfl⟩
  | succ n ih =>
    rcases short_or_word index with hshort | ⟨size, index, rfl⟩
    · exact ⟨[], index, rfl, .inl rfl, .inr ⟨Nat.succ_pos n, .inl hshort⟩⟩
    by_cases hstop : length < offset + size.toNat
    · exact ⟨[], _, rfl, .inl rfl, .inr ⟨Nat.succ_pos n, .inr ⟨size, index, rfl, hstop⟩⟩⟩
    obtain ⟨sizes, left, rfl, hfits, hnext⟩ := ih (offset + size.toNat) index
    have htotal : offset + total (size :: sizes) = offset + size.toNat + total sizes := by
      rw [total_cons, Nat.add_assoc]
    refine ⟨size :: sizes, left, by simp, .inr ?_, ?_⟩
    · rcases hfits with rfl | hfits
      · simpa [total] using hstop
      · omega
    · simpa [htotal] using hnext

/-! ### A table -/

/-- How a table fails: its index ends in the count or in one of the sizes while no record has left the data file,
or a record is the first to leave it. -/
inductive Fault (data index : Bytes) : LoadError → Prop
  | noCount : index.length < 2 → Fault data index (.endOfData 2 index.length)
  | noSize (count : UInt16) (sizes : List UInt16) (left : Bytes) : Begins index count sizes left →
      sizes.length < count.toNat → left.length < 2 → Within data sizes →
      Fault data index (.endOfData 2 left.length)
  | leaves (count size : UInt16) (sizes : List UInt16) (left : Bytes) :
      Begins index count (sizes ++ [size]) left → sizes.length < count.toNat → Within data sizes →
      data.length < startAfter (sizes ++ [size]) →
      Fault data index (.corrupted
        (.recordBeyondData sizes.length (startAfter sizes) (startAfter (sizes ++ [size])) data.length))

theorem split_of_begins {count : UInt16} (h : Begins index count sizes left) (hn : count.toNat = sizes.length + n)
    (hwithin : Within data sizes) : split data index =
      splitAfter data.length n (startAfter sizes) ((data.drop firstRecord).drop (total sizes)) left
        (cut (data.drop firstRecord) sizes).reverse := by
  have hcount : u16.run index = .ok (count, sizes.flatMap ofU16 ++ left) := by rw [h, run_u16_append]
  show (u16.run index >>= fun x => splitAfter data.length x.1.toNat firstRecord (data.drop firstRecord) x.2 []) = _
  rw [hcount]
  show splitAfter data.length count.toNat _ _ _ [] = _
  rw [hn, splitAfter_append hwithin, List.append_nil]
  rfl

theorem split_of_within {count : UInt16} (h : Begins index count sizes left) (hn : sizes.length = count.toNat)
    (hwithin : Within data sizes) : split data index = .ok (cut (data.drop firstRecord) sizes) := by
  rw [split_of_begins (n := 0) h hn.symm hwithin, splitAfter, List.reverse_reverse]

theorem split_of_fault {e : LoadError} (h : Fault data index e) : split data index = .error e := by
  cases h with
  | noCount hshort =>
    show (u16.run index >>= _) = _
    rw [run_u16_of_short hshort]
    rfl
  | noSize count sizes left hbegins hlt hshort hwithin =>
    obtain ⟨n, hn⟩ := Nat.exists_eq_add_of_lt hlt
    rw [split_of_begins (n := n + 1) hbegins hn hwithin, splitAfter, run_u16_of_short hshort]
  | leaves count size sizes left hbegins hlt hwithin hleaves =>
    obtain ⟨n, hn⟩ := Nat.exists_eq_add_of_lt hlt
    have hbegins' : Begins index count sizes (ofU16 size ++ left) := by
      rw [Begins, hbegins]
      simp
    have hstop : startAfter (sizes ++ [size]) = startAfter sizes + size.toNat := by
      rw [startAfter, total_concat, ← Nat.add_assoc]
      rfl
    rw [hstop] at hleaves ⊢
    rw [split_of_begins (n := n + 1) hbegins' hn hwithin, splitAfter, run_u16_append]
    simp only [if_pos hleaves, List.length_reverse, length_cut]

/-- Every table can be split or has a fault. -/
theorem within_or_fault (data index : Bytes) :
    (∃ count sizes left, Begins index count sizes left ∧ sizes.length = count.toNat ∧ Within data sizes) ∨
      ∃ e, Fault data index e := by
  rcases short_or_word index with hshort | ⟨count, index, rfl⟩
  · exact .inr ⟨_, .noCount hshort⟩
  obtain ⟨sizes, left, rfl, hwithin, hn | ⟨hlt, hshort | ⟨size, rest, rfl, hleaves⟩⟩⟩ :=
    goesOn_or_stops data.length count.toNat firstRecord index
  · exact .inl ⟨count, sizes, left, rfl, hn, hwithin⟩
  · exact .inr ⟨_, .noSize count sizes left rfl hlt hshort hwithin⟩
  · refine .inr ⟨_, .leaves count size sizes rest ?_ hlt hwithin ?_⟩
    · simp [Begins]
    · rw [startAfter, total_concat]
      omega

theorem split_eq_ok_iff : split data index = .ok records ↔ ∃ count sizes left,
    Begins index count sizes left ∧ sizes.length = count.toNat ∧ Within data sizes ∧ Slices data sizes records := by
  constructor
  · intro h
    rcases within_or_fault data index with ⟨count, sizes, left, hbegins, hn, hwithin⟩ | ⟨e, hfault⟩
    · rw [split_of_within hbegins hn hwithin] at h
      cases h
      exact ⟨count, sizes, left, hbegins, hn, hwithin, slices_cut hwithin⟩
    · rw [split_of_fault hfault] at h
      cases h
  · rintro ⟨count, sizes, left, hbegins, hn, hwithin, hslices⟩
    rw [split_of_within hbegins hn hwithin, hslices.eq_cut]

theorem split_eq_error_iff {e : LoadError} : split data index = .error e ↔ Fault data index e := by
  constructor
  · intro h
    rcases within_or_fault data index with ⟨count, sizes, left, hbegins, hn, hwithin⟩ | ⟨e', hfault⟩
    · rw [split_of_within hbegins hn hwithin] at h
      cases h
    · rw [split_of_fault hfault] at h
      cases h
      exact hfault
  · exact split_of_fault

/-- Records that stand behind any two bytes are found by an index that begins with their sizes. -/
theorem split_of_flatten {count : UInt16} (h : Begins index count sizes left) (hn : sizes.length = count.toNat)
    (hsizes : records.map List.length = sizes.map UInt16.toNat) {head : Bytes} (hhead : head.length = firstRecord)
    (tail : Bytes) : split (head ++ records.flatten ++ tail) index = .ok records := by
  have htotal : total sizes = records.flatten.length := by rw [total, ← hsizes, List.length_flatten]
  have hwithin : Within (head ++ records.flatten ++ tail) sizes := by
    refine .inr ?_
    rw [startAfter, htotal]
    simp only [List.length_append]
    omega
  rw [split_of_within h hn hwithin, List.append_assoc, ← hhead, List.drop_left, cut_flatten hsizes]

theorem begins_joinIndex (records : List Bytes) : Begins (joinIndex records) (UInt16.ofNat records.length)
    (records.map fun record => UInt16.ofNat record.length) [] := by
  simp [Begins, joinIndex, List.flatMap_map]

theorem split_join (hcount : records.length ≤ 65535) (hsizes : ∀ record ∈ records, record.length ≤ 65535) :
    split (joinData records) (joinIndex records) = .ok records := by
  have hn : (UInt16.ofNat records.length).toNat = records.length :=
    UInt16.toNat_ofNat_of_lt' (by simp only [UInt16.size]; omega)
  have hlengths : records.map List.length =
      (records.map fun record => UInt16.ofNat record.length).map UInt16.toNat := by
    rw [List.map_map]
    refine List.map_congr_left fun record hrecord => ?_
    have hle := hsizes record hrecord
    exact (UInt16.toNat_ofNat_of_lt' (by simp only [UInt16.size]; omega)).symm
  have hhead : (ofU16 (UInt16.ofNat records.length)).length = firstRecord := rfl
  have hsplit := split_of_flatten (begins_joinIndex records) (by rw [hn, List.length_map]) hlengths hhead []
  rwa [List.append_nil] at hsplit

/-- A table can be split exactly if its index holds all the sizes that it counts and their records lie in the data
file; then the records are what lies there, one behind the other, and nothing before or behind them is looked at.
Else it fails by the first thing that is missing. Written records are split into themselves. -/
theorem split_bySizes (data index : Bytes) :
    ((∃ records, split data index = .ok records) ↔ ∃ count sizes left, Begins index count sizes left ∧
      sizes.length = count.toNat ∧ Within data sizes) ∧
    (∀ records, split data index = .ok records ↔ ∃ count sizes left, Begins index count sizes left ∧
      sizes.length = count.toNat ∧ Within data sizes ∧ Slices data sizes records) ∧
    (∀ e, split data index = .error e ↔ Fault data index e) ∧
    (∀ records, split data index = .ok records → ∀ head tail extra, head.length = 2 →
      split (head ++ records.flatten ++ tail) (index ++ extra) = .ok records) ∧
    ∀ records : List Bytes, records.length ≤ 65535 → (∀ record ∈ records, record.length ≤ 65535) →
      split (joinData records) (joinIndex records) = .ok records := by
  refine ⟨⟨?succeeds, ?holds⟩, fun records => split_eq_ok_iff, fun e => split_eq_error_iff, ?unseen,
    fun records => split_join⟩
  case succeeds =>
    rintro ⟨records, h⟩
    obtain ⟨count, sizes, left, hbegins, hn, hwithin, -⟩ := split_eq_ok_iff.1 h
    exact ⟨count, sizes, left, hbegins, hn, hwithin⟩
  case holds =>
    rintro ⟨count, sizes, left, hbegins, hn, hwithin⟩
    exact ⟨_, split_of_within hbegins hn hwithin⟩
  case unseen =>
    intro records h head tail extra hhead
    obtain ⟨count, sizes, left, hbegins, hn, -, hslices⟩ := split_eq_ok_iff.1 h
    have hbegins' : Begins (index ++ extra) count sizes (left ++ extra) := by
      rw [Begins, hbegins]
      simp
    exact split_of_flatten hbegins' hn hslices.sizes_eq hhead tail

/-- Three records, the last of them empty, behind a wrong count and before a byte that belongs to none; and tables
that end in the count, in a size, and with a record that is not all there. -/
theorem split_bySizes_samples :
    split [9, 9, 0xA, 0xB, 0, 0, 7] [0, 3, 0, 3, 0, 1, 0, 0, 5] = .ok [[0xA, 0xB, 0], [0], []] ∧
    split [0, 2, 1] [0] = .error (.endOfData 2 1) ∧
    split [0, 2, 1] [0, 2, 0, 1, 0] = .error (.endOfData 2 1) ∧
    split [0, 2, 1] [0, 3, 0, 1, 0, 1] = .error (.corrupted (.recordBeyondData 1 3 4 3)) ∧
    split [0] [0, 1, 0, 0] = .error (.corrupted (.recordBeyondData 0 2 2 1)) := by
  refine ⟨?_, ?_, ?_, ?_, ?_⟩
  · have hjoin := (split_bySizes [] []).2.2.2.2 [[0xA, 0xB, 0], [0], []] (by decide) (by decide)
    exact (split_bySizes _ _).2.2.2.1 _ hjoin [9, 9] [7] [5] rfl
  · exact ((split_bySizes _ _).2.2.1 _).2 (.noCount (by decide))
  · exact ((split_bySizes _ _).2.2.1 _).2 (.noSize 2 [1] [0] rfl (by decide) (by decide) (.inr (by decide)))
  · exact ((split_bySizes _ _).2.2.1 _).2 (.leaves 3 1 [1] [] rfl (by decide) (.inr (by decide)) (by decide))
  · exact ((split_bySizes _ _).2.2.1 _).2 (.leaves 1 0 [] [] rfl (by decide) (.inl rfl) (by decide))

end AssetCache.DefinitionTable
