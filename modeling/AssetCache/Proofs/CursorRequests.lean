import Mathlib
import AssetCache.Cursor.Session
import AssetCache.Proofs.ObjectStreams

/-!
# What a request needs

`need` is how many bytes a request takes if the given ones come next. Readers of single values are `Atomic` in it:
they take that much if there is that much, and else say how much it is. Main statements: `outcome_perform`, all that
can come of a request, and `inside_performAll`, a cursor stays inside of its bytes.
-/

namespace AssetCache

/-! ### How much -/

namespace FieldType

/-- How many bytes a value takes up if the given ones come next. -/
def need : FieldType → Bytes → ℕ
  | u8, _ | i8, _ => 1
  | u16, _ | i16, _ => 2
  | u24, _ => 3
  | u32, _ => 4
  | smart, s => if ∀ b ∈ s.head?, b < 0x80 then 1 else 2
  | text, s => s.idxOf Bytes.lineEnd + 1
  | block count, _ => count

/-- Whether a value can be read off the front. -/
def Enough : FieldType → Bytes → Prop
  | u8, s | i8, s => 1 ≤ s.length
  | u16, s | i16, s => 2 ≤ s.length
  | u24, s => 3 ≤ s.length
  | u32, s => 4 ≤ s.length
  | smart, s => (∃ b ∈ s.head?, b < 0x80) ∨ 2 ≤ s.length
  | text, s => Bytes.lineEnd ∈ s
  | block count, s => count ≤ s.length

theorem enough_iff (t : FieldType) (s : Bytes) : t.Enough s ↔ t.need s ≤ s.length := by
  cases t with
  | smart =>
    rcases s with _ | ⟨b, _ | ⟨c, s⟩⟩
    · simp [Enough, need]
    · by_cases hb : b < 0x80 <;> simp [Enough, need, hb]
    · by_cases hb : b < 0x80 <;> simp [Enough, need, hb]
  | text => exact List.idxOf_lt_length_iff.symm
  | _ => rfl

end FieldType

namespace CursorRequest

def need : CursorRequest → Bytes → ℕ
  | value type, s => type.need s
  | skip count, _ => count

def Enough : CursorRequest → Bytes → Prop
  | value type, s => type.Enough s
  | skip count, s => count ≤ s.length

theorem enough_iff (q : CursorRequest) (s : Bytes) : q.Enough s ↔ q.need s ≤ s.length := by
  cases q with
  | value type => exact type.enough_iff s
  | skip count => rfl

end CursorRequest

/-! ### All or nothing -/

namespace ByteReader
variable {α β : Type} {p : ByteReader α} {need : Bytes → ℕ} {L : α → Bytes → Prop} {n : ℕ} {s : Bytes}

/-- That a reader takes what it needs, and nothing else decides what it answers; or it says what it needs. -/
structure Atomic (p : ByteReader α) (need : Bytes → ℕ) : Prop where
  run_of_le : ∀ {s}, need s ≤ s.length →
    ∃ a, p.run s = .ok (a, s.drop (need s)) ∧ p.run (s.take (need s)) = .ok (a, [])
  run_of_lt : ∀ {s}, s.length < need s → p.run s = .error (.endOfData (need s) s.length)

theorem Atomic.map (hp : Atomic p need) (f : α → β) : Atomic (f <$> p) need where
  run_of_le h := by
    obtain ⟨a, hrun, htaken⟩ := hp.run_of_le h
    exact ⟨f a, by rw [Reader.run_map, hrun], by rw [Reader.run_map, htaken]⟩
  run_of_lt h := by rw [Reader.run_map, hp.run_of_lt h]

/-- What a reader takes of some bytes is a word, and so it takes it of these bytes alone. -/
theorem Recognizes.atomic (hp : Recognizes p L)
    (hle : ∀ {s}, need s ≤ s.length → ∃ a, p.run s = .ok (a, s.drop (need s)))
    (hlt : ∀ {s}, s.length < need s → p.run s = .error (.endOfData (need s) s.length)) : Atomic p need where
  run_of_le {s} h := by
    obtain ⟨a, hrun⟩ := hle h
    obtain ⟨w, hw, hs⟩ := hp.word hrun
    have htake : s.take (need s) = w := by
      rw [← List.append_left_inj (s.drop (need s)), List.take_append_drop, ← hs]
    refine ⟨a, hrun, ?_⟩
    rw [htake]
    simpa using hp.run hw []
  run_of_lt := hlt

theorem atomic_byte : Atomic byte fun _ => 1 := by
  refine recognizes_byte.atomic ?_ ?_ <;> intro s h
  · match s, h with
    | a :: r, _ => exact ⟨a, rfl⟩
  · match s, h with
    | [], _ => rfl

theorem atomic_u16 : Atomic u16 fun _ => 2 := by
  refine recognizes_u16.atomic ?_ ?_ <;> intro s h
  · match s, h with
    | _ :: _ :: r, _ => exact ⟨_, rfl⟩
  · match s, h with
    | [], _ | [_], _ => rfl

theorem atomic_u24 : Atomic u24 fun _ => 3 := by
  refine recognizes_u24.atomic ?_ ?_ <;> intro s h
  · match s, h with
    | _ :: _ :: _ :: r, _ => exact ⟨_, rfl⟩
  · match s, h with
    | [], _ | [_], _ | [_, _], _ => rfl

theorem atomic_u32 : Atomic u32 fun _ => 4 := by
  refine recognizes_u32.atomic ?_ ?_ <;> intro s h
  · match s, h with
    | _ :: _ :: _ :: _ :: r, _ => exact ⟨_, rfl⟩
  · match s, h with
    | [], _ | [_], _ | [_, _], _ | [_, _, _], _ => rfl

theorem recognizes_bytes (count : ℕ) : Recognizes (bytes count) fun bs w => bs.length = count ∧ w = bs where
  inhabited := ⟨List.replicate count 0, _, by simp, rfl⟩
  run := by
    rintro bs w ⟨rfl, rfl⟩ r
    exact run_bytes_append w r
  word {s bs r} h := by
    simp only [bytes] at h
    split at h
    · next hle =>
      cases h
      exact ⟨_, ⟨List.length_take_of_le hle, rfl⟩, (List.take_append_drop _ _).symm⟩
    · cases h
  cutOff {s e} h := by
    simp only [bytes] at h
    split at h
    · cases h
    · next hlt =>
      obtain ⟨left, hcount⟩ := Nat.exists_eq_add_of_lt (Nat.lt_of_not_le hlt)
      refine ⟨⟨count, s.length, by simp only [bytes, if_neg hlt]⟩, s ++ 0 :: List.replicate left 0, _, ⟨?_, rfl⟩,
        0, List.replicate left 0, rfl⟩
      simp [hcount]
      omega

theorem atomic_bytes (count : ℕ) : Atomic (bytes count) fun _ => count := by
  refine (recognizes_bytes count).atomic ?_ ?_ <;> intro s h
  · exact ⟨s.take count, by simp [bytes, h]⟩
  · simp [bytes, Nat.not_le.2 h]

theorem atomic_smart : Atomic smart FieldType.smart.need := by
  refine Placement.recognizes_smart.atomic ?_ ?_ <;> intro s h
  · rcases s with _ | ⟨b, _ | ⟨c, s⟩⟩
    · simp [FieldType.need] at h
    · by_cases hb : b < 0x80
      · exact ⟨b.toUInt16, by simp [smart, FieldType.need, hb]⟩
      · simp [FieldType.need, hb] at h
    · by_cases hb : b < 0x80
      · exact ⟨b.toUInt16, by simp [smart, FieldType.need, hb]⟩
      · exact ⟨_, by simp [smart, FieldType.need, hb]; rfl⟩
  · rcases s with _ | ⟨b, _ | ⟨c, s⟩⟩
    · simp [smart, FieldType.need]
    · by_cases hb : b < 0x80
      · simp [FieldType.need, hb] at h
      · simp [smart, FieldType.need, hb]
    · by_cases hb : b < 0x80 <;> simp [FieldType.need, hb] at h

theorem run_text_of_mem (h : Bytes.lineEnd ∈ s) : text.run s =
    .ok (Bytes.toText (s.take (s.idxOf Bytes.lineEnd)), s.drop (s.idxOf Bytes.lineEnd + 1)) := by
  have hend : (fun b => !(b != Bytes.lineEnd)) = fun b => b == Bytes.lineEnd := by simp [bne]
  have htake : s.takeWhile (· != Bytes.lineEnd) = s.take (s.idxOf Bytes.lineEnd) := by
    rw [List.takeWhile_eq_take_findIdx_not, hend, List.idxOf]
  have hdrop : s.dropWhile (· != Bytes.lineEnd) = s.drop (s.idxOf Bytes.lineEnd) := by
    rw [List.dropWhile_eq_drop_findIdx_not, hend, List.idxOf]
  rw [List.drop_eq_getElem_cons (List.idxOf_lt_length_iff.2 h)] at hdrop
  simp only [text, htake, hdrop]

theorem run_text_of_not_mem (h : Bytes.lineEnd ∉ s) : text.run s = .error (.endOfData (s.length + 1) s.length) := by
  have hnil : s.dropWhile (· != Bytes.lineEnd) = [] :=
    List.dropWhile_eq_nil_iff.2 fun b hb => bne_iff_ne.2 (ne_of_mem_of_not_mem hb h)
  simp only [text, hnil]

theorem atomic_text : Atomic text FieldType.text.need := by
  refine recognizes_text.atomic ?_ ?_ <;> intro s h
  · exact ⟨_, run_text_of_mem (List.idxOf_lt_length_iff.1 h)⟩
  · have hnot : Bytes.lineEnd ∉ s := fun hmem => by
      have := List.idxOf_lt_length_iff.2 hmem
      simp only [FieldType.need] at h
      omega
    rw [run_text_of_not_mem hnot]
    simp [FieldType.need, List.idxOf_eq_length hnot]

end ByteReader

theorem FieldType.atomic_read (t : FieldType) : ByteReader.Atomic t.read t.need := by
  cases t with
  | u8 => exact ByteReader.atomic_byte.map _
  | i8 => exact (ByteReader.atomic_byte.map _).map _
  | u16 => exact ByteReader.atomic_u16.map _
  | i16 => exact (ByteReader.atomic_u16.map _).map _
  | u24 => exact ByteReader.atomic_u24.map _
  | u32 => exact ByteReader.atomic_u32.map _
  | smart => exact ByteReader.atomic_smart.map _
  | text => exact ByteReader.atomic_text.map _
  | block count => exact (ByteReader.atomic_bytes count).map _

theorem CursorRequest.atomic_reader (q : CursorRequest) : ByteReader.Atomic q.reader q.need := by
  cases q with
  | value type => exact type.atomic_read.map some
  | skip count => exact ((ByteReader.atomic_bytes count).map _).map _

/-! ### Requests -/

namespace Cursor
variable {α β : Type} {p : ByteReader α} {need : Bytes → ℕ} {c : Cursor} {q : CursorRequest} {data : Bytes}

theorem read_map (f : α → β) (p : ByteReader α) (c : Cursor) :
    c.read (f <$> p) = ((c.read p).1.map f, (c.read p).2) := by
  simp only [read, Reader.run_map]
  cases p.run c.rest <;> rfl

theorem read_of_run {a : α} {n : ℕ} (hn : n ≤ c.remaining) (h : p.run c.rest = .ok (a, c.rest.drop n)) :
    c.read p = (.ok a, ⟨c.pos + n, c.rest.drop n⟩) := by
  have hmoved : c.rest.length - (c.rest.drop n).length = n := by
    rw [List.length_drop]
    exact Nat.sub_sub_self hn
  simp only [read, h, hmoved]

theorem read_of_le (hp : p.Atomic need) (h : need c.rest ≤ c.remaining) : ∃ a,
    c.read p = (.ok a, ⟨c.pos + need c.rest, c.rest.drop (need c.rest)⟩) ∧
      p.run (c.rest.take (need c.rest)) = .ok (a, []) := by
  obtain ⟨a, hrun, htaken⟩ := hp.run_of_le h
  exact ⟨a, read_of_run h hrun, htaken⟩

theorem read_of_lt (hp : p.Atomic need) (h : c.remaining < need c.rest) :
    c.read p = (.error (.endOfData (need c.rest) c.remaining), c) := by
  simp only [read, hp.run_of_lt h]
  rfl

theorem read_bytes {count : ℕ} (h : count ≤ c.remaining) :
    c.read (ByteReader.bytes count) = (.ok (c.rest.take count), ⟨c.pos + count, c.rest.drop count⟩) :=
  read_of_run h (if_pos h)

/-- What can come of a request: there is enough, and the cursor moves past what the answer is read from; or there is
not, the answer says how much would be enough, and the cursor stays where it is. -/
inductive Outcome (q : CursorRequest) (c : Cursor) : CursorAnswer × Cursor → Prop
  | moved (value : Option Field) : q.Enough c.rest → q.need c.rest ≤ c.remaining →
      q.reader.run (c.rest.take (q.need c.rest)) = .ok (value, []) →
      Outcome q c (.ok value, ⟨c.pos + q.need c.rest, c.rest.drop (q.need c.rest)⟩)
  | refused : ¬ q.Enough c.rest → c.remaining < q.need c.rest →
      Outcome q c (.error (.endOfData (q.need c.rest) c.remaining), c)

theorem outcome_perform (q : CursorRequest) (c : Cursor) : Outcome q c (c.perform q) := by
  unfold perform
  by_cases h : q.need c.rest ≤ c.remaining
  · obtain ⟨value, hread, htaken⟩ := read_of_le q.atomic_reader h
    rw [hread]
    exact .moved value ((q.enough_iff _).2 h) h htaken
  · rw [read_of_lt q.atomic_reader (Nat.lt_of_not_le h)]
    exact .refused (mt (q.enough_iff _).1 h) (Nat.lt_of_not_le h)

/-- That a cursor stands at a place in the bytes that it was started with. -/
structure Inside (data : Bytes) (c : Cursor) : Prop where
  pos_le : c.pos ≤ data.length
  rest_eq : c.rest = data.drop c.pos

theorem inside_start (data : Bytes) : Inside data (start data) := ⟨Nat.zero_le _, rfl⟩

theorem Inside.remaining_eq (h : Inside data c) : c.remaining = data.length - c.pos := by
  rw [remaining, h.rest_eq, List.length_drop]

theorem Inside.perform (h : Inside data c) (q : CursorRequest) : Inside data (c.perform q).2 := by
  have houtcome := outcome_perform q c
  generalize c.perform q = out at houtcome
  cases houtcome with
  | moved value _ hle _ =>
    have hremaining := h.remaining_eq
    have hpos := h.pos_le
    refine ⟨by dsimp only; omega, ?_⟩
    dsimp only
    rw [h.rest_eq, List.drop_drop]
  | refused => exact h

theorem Inside.performAll (h : Inside data c) (qs : List CursorRequest) : Inside data (c.performAll qs).2 := by
  induction qs generalizing c with
  | nil => exact h
  | cons q qs ih => exact ih (h.perform q)

end Cursor

end AssetCache
