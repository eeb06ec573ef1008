import Mathlib
import AssetCache.Cursor.Words
import AssetCache.Proofs.CursorRequests

/-!
# Cursors in words

A row of requests in words comes to what it comes to for the cursor (`Words.performAll_eq`): a position that is
inside of the bytes stays there, so nothing overflows and no byte is looked at that is not there. Main statement:
`atomic_performAll`, what holds of a cursor after any requests.
-/

namespace AssetCache

/-- Whether the count of a request is a word. -/
def CursorRequest.CountFits : CursorRequest → Prop
  | value (.block count) | skip count => count < 0x10000000000000000
  | _ => True

namespace Cursor
open LoadError

namespace Words
variable {α β : Type} {b : Buffer} {pos next : UInt64} {x : Step α} {k : α → Step β} {a : α} {e : LoadError}
  {answer : Except LoadError α}

/-! ### Steps -/

/-- That a computation starts at a position, comes to an answer and leaves the position somewhere. -/
def Runs (x : Step α) (pos : UInt64) (answer : Except LoadError α) (next : UInt64) : Prop :=
  x.run.run pos = some (answer, next)

namespace Runs
variable {out : Except LoadError β}

theorem pure (a : α) (pos : UInt64) : Runs (Pure.pure a) pos (.ok a) pos := rfl

theorem throw (e : LoadError) (pos : UInt64) : Runs (MonadExcept.throw e : Step α) pos (.error e) pos := rfl

theorem bind {mid : UInt64} (hx : Runs x pos (.ok a) mid) (hk : Runs (k a) mid out next) :
    Runs (x >>= k) pos out next := by
  show (x.run.run pos).bind _ = _
  rw [hx]
  exact hk

theorem bind_error (hx : Runs x pos (.error e) next) : Runs (x >>= k) pos (.error e) next := by
  show (x.run.run pos).bind _ = _
  rw [hx]
  rfl

theorem map (f : α → β) (hx : Runs x pos answer next) : Runs (f <$> x) pos (answer.map f) next := by
  cases answer with
  | error e => exact hx.bind_error
  | ok a => exact hx.bind (pure (f a) next)

theorem get {k : UInt64 → Step β} (hk : Runs (k pos) pos out next) : Runs (MonadState.get >>= k) pos out next := hk

theorem set {k : PUnit → Step β} {mid : UInt64} (hk : Runs (k ⟨⟩) mid out next) :
    Runs (MonadStateOf.set mid >>= k) pos out next := hk

theorem word {n : ℕ} (hn : n < 0x10000000000000000) {k : { w : UInt64 // w.toNat = n } → Step β}
    (hk : ∀ w hw, Runs (k ⟨w, hw⟩) pos out next) : Runs (Words.word n >>= k) pos out next := by
  rw [Words.word, dif_pos hn, pure_bind]
  exact hk _ _

theorem minus {a b : UInt64} (h : b ≤ a) {k : { w : UInt64 // w.toNat + b.toNat = a.toNat } → Step β}
    (hk : ∀ w hw, Runs (k ⟨w, hw⟩) pos out next) : Runs (Words.minus a b >>= k) pos out next := by
  rw [Words.minus, dif_pos h, pure_bind]
  exact hk _ _

theorem slice {first stop : UInt64} (hstart : first ≤ stop) (hstop : stop ≤ b.length) {k : Bytes → Step β}
    (hk : Runs (k ((b.bytes.drop first.toNat).take (stop.toNat - first.toNat))) pos out next) :
    Runs (Words.slice b first stop >>= k) pos out next := by
  rw [Words.slice, if_pos ⟨hstart, hstop⟩, pure_bind]
  exact hk

end Runs

/-! ### Reads -/

theorem toNat_length (b : Buffer) : b.length.toNat = b.bytes.length :=
  UInt64.toNat_ofNat_of_lt' (Nat.lt_trans b.length_lt (by decide))

/-- The cursor at a position. -/
def Buffer.at (b : Buffer) (pos : UInt64) : Cursor := ⟨pos.toNat, b.bytes.drop pos.toNat⟩

theorem remaining_at (b : Buffer) (pos : UInt64) : (b.at pos).remaining = b.bytes.length - pos.toNat :=
  List.length_drop

/-- That a computation answers from every position as a reader does and leaves the position where the reader leaves
its cursor. -/
def Agrees (b : Buffer) (x : Step α) (p : ByteReader α) : Prop := ∀ pos : UInt64, pos.toNat ≤ b.bytes.length →
  ∃ next, Runs x pos ((b.at pos).read p).1 next ∧ b.at next = ((b.at pos).read p).2

theorem at_eq {n : ℕ} (h : next.toNat = pos.toNat + n) :
    b.at next = ⟨(b.at pos).pos + n, (b.at pos).rest.drop n⟩ := by
  simp [Buffer.at, h, List.drop_drop]

theorem Agrees.map {p : ByteReader α} (h : Agrees b x p) (f : α → β) : Agrees b (f <$> x) (f <$> p) := by
  intro pos hpos
  obtain ⟨next, hrun, hnext⟩ := h pos hpos
  rw [read_map]
  exact ⟨next, hrun.map f, hnext⟩

/-- The step past what was read, which stays inside of the bytes. -/
theorem exists_runs_past (b : Buffer) (pos count : UInt64) (h : count.toNat ≤ (b.at pos).remaining) (a : α) : ∃ next,
    Runs (do let stop ← plus (← MonadState.get) count; MonadStateOf.set stop.val; Pure.pure a) pos (.ok a) next ∧
      b.at next = ⟨(b.at pos).pos + count.toNat, (b.at pos).rest.drop count.toNat⟩ := by
  have hremaining := remaining_at b pos
  have hlt := b.length_lt
  have hpos := pos.toNat_lt
  have hstop : (pos + count).toNat = pos.toNat + count.toNat := by
    rw [UInt64.toNat_add]
    omega
  refine ⟨pos + count, .get (.word (by omega) fun stop hword => ?_), at_eq hstop⟩
  obtain rfl : stop = pos + count := UInt64.toNat_inj.1 (hword.trans hstop.symm)
  exact .set (.pure _ _)

theorem agrees_take (b : Buffer) (count : UInt64) : Agrees b (take b count) (ByteReader.bytes count.toNat) := by
  intro pos hpos
  have hremaining := remaining_at b pos
  have hlength := toNat_length b
  have hlt := b.length_lt
  have hle : pos ≤ b.length := UInt64.le_iff_toNat_le.2 (hlength ▸ hpos)
  by_cases h : count.toNat ≤ (b.at pos).remaining
  · rw [read_bytes h]
    have hstop : (pos + count).toNat = pos.toNat + count.toNat := by
      rw [UInt64.toNat_add]
      omega
    refine ⟨pos + count, ?_, at_eq hstop⟩
    refine .get (.minus hle fun left hleft => ?_)
    dsimp only
    rw [if_neg (by rw [UInt64.lt_iff_toNat_lt]; omega)]
    refine .get (.word (by omega) fun stop hword => ?_)
    obtain rfl : stop = pos + count := UInt64.toNat_inj.1 (hword.trans hstop.symm)
    dsimp only
    refine .get (.slice ?_ ?_ ?_)
    · rw [UInt64.le_iff_toNat_le]
      omega
    · rw [UInt64.le_iff_toNat_le]
      omega
    · rw [hstop, Nat.add_sub_cancel_left]
      exact .set (.pure _ _)
  · rw [read_of_lt (ByteReader.atomic_bytes count.toNat) (Nat.lt_of_not_le h)]
    refine ⟨pos, ?_, rfl⟩
    refine .get (.minus hle fun left hleft => ?_)
    dsimp only
    rw [if_pos (by rw [UInt64.lt_iff_toNat_lt]; omega), hremaining, ← hlength, ← hleft, Nat.add_sub_cancel]
    exact .throw _ _

/-- A reader that always takes as much does what is done with what is taken. -/
theorem agrees_decode {p : ByteReader α} {count : UInt64} {f : Bytes → Option α} (hp : p.Atomic fun _ => count.toNat)
    (hf : ∀ w, w.length = count.toNat → ∃ a, f w = some a ∧ p.run w = .ok (a, [])) :
    Agrees b (decode b count f) p := by
  intro pos hpos
  obtain ⟨next, hrun, hnext⟩ := agrees_take b count pos hpos
  by_cases h : count.toNat ≤ (b.at pos).remaining
  · obtain ⟨a, hread, htaken⟩ := read_of_le hp h
    rw [read_bytes h] at hrun hnext
    obtain ⟨a', hfa, ha'⟩ := hf _ (List.length_take_of_le h)
    cases htaken.symm.trans ha'
    rw [hread]
    refine ⟨next, hrun.bind ?_, hnext⟩
    rw [hfa]
    exact .pure _ _
  · rw [read_of_lt (ByteReader.atomic_bytes count.toNat) (Nat.lt_of_not_le h)] at hrun hnext
    rw [read_of_lt hp (Nat.lt_of_not_le h)]
    exact ⟨next, hrun.bind_error, hnext⟩

theorem agrees_u8 (b : Buffer) : Agrees b (u8 b) ByteReader.byte := by
  refine agrees_decode ByteReader.atomic_byte fun w hw => ?_
  match w, hw with
  | [x], _ => exact ⟨x, rfl, rfl⟩

theorem agrees_u16 (b : Buffer) : Agrees b (u16 b) ByteReader.u16 := by
  refine agrees_decode ByteReader.atomic_u16 fun w hw => ?_
  match w, hw with
  | [x, y], _ => exact ⟨_, rfl, rfl⟩

theorem toNat_shifted (x y z : UInt8) :
    (x.toUInt32 <<< 16 ||| y.toUInt32 <<< 8 ||| z.toUInt32).toNat = Bytes.toU24 x y z := by
  have hx := x.toNat_lt
  have hy := y.toNat_lt
  have hz := z.toNat_lt
  have hhigh : x.toNat <<< (UInt32.toNat 16 % 32) % 2 ^ 32 = 2 ^ 16 * x.toNat := by
    rw [Nat.shiftLeft_eq, Nat.mul_comm]
    show 2 ^ 16 * x.toNat % 2 ^ 32 = _
    omega
  have hmiddle : y.toNat <<< (UInt32.toNat 8 % 32) % 2 ^ 32 = 2 ^ 8 * y.toNat := by
    rw [Nat.shiftLeft_eq, Nat.mul_comm]
    show 2 ^ 8 * y.toNat % 2 ^ 32 = _
    omega
  rw [UInt32.toNat_or, UInt32.toNat_or, UInt32.toNat_shiftLeft, UInt32.toNat_shiftLeft, UInt8.toNat_toUInt32,
    UInt8.toNat_toUInt32, UInt8.toNat_toUInt32, hhigh, hmiddle, Bytes.toU24]
  -- the bits of one byte lie below those of the byte before it, so that "or" is a sum
  calc 2 ^ 16 * x.toNat ||| 2 ^ 8 * y.toNat ||| z.toNat
    _ = 2 ^ 8 * (2 ^ 8 * x.toNat + y.toNat) ||| z.toNat := by
      rw [← Nat.two_pow_add_eq_or_of_lt (by omega)]
      congr 1
      omega
    _ = 2 ^ 8 * (2 ^ 8 * x.toNat + y.toNat) + z.toNat := (Nat.two_pow_add_eq_or_of_lt hz _).symm
    _ = 65536 * x.toNat + 256 * y.toNat + z.toNat := by omega

theorem agrees_ofThree (b : Buffer) : Agrees b (decode b 3 ofThree?) ByteReader.u24 := by
  refine agrees_decode ByteReader.atomic_u24 fun w hw => ?_
  match w, hw with
  | [x, y, z], _ => exact ⟨_, rfl, by rw [toNat_shifted]; rfl⟩

theorem agrees_ofFour (b : Buffer) : Agrees b (decode b 4 ofFour?) ByteReader.u32 := by
  refine agrees_decode ByteReader.atomic_u32 fun w hw => ?_
  match w, hw with
  | [w, x, y, z], _ => exact ⟨_, rfl, rfl⟩

theorem le_toU16 {x : UInt8} (h : ¬ x < 0x80) (y : UInt8) : 0x8000 ≤ Bytes.toU16 x y := by
  have hx : 128 ≤ x.toNat := Nat.le_of_not_lt h
  show 0x8000 ≤ (Bytes.toU16 x y).toNat
  rw [Bytes.toNat_toU16]
  omega

/-- A first byte with the top bit is read once more, with the next one. -/
theorem run_smart_cons {x : UInt8} (hx : ¬ x < 0x80) (r : Bytes) :
    ByteReader.smart.run (x :: r) = ((· - 0x8000) <$> ByteReader.u16).run (x :: r) := by
  rw [Reader.run_map]
  cases r <;> simp [ByteReader.smart, ByteReader.u16, hx]

theorem le_of_run_u16 {x : UInt8} {w : UInt16} {r s : Bytes} (hx : ¬ x < 0x80)
    (h : ByteReader.u16.run (x :: r) = .ok (w, s)) : 0x8000 ≤ w := by
  rcases r with _ | ⟨y, r⟩ <;> cases h
  exact le_toU16 hx y

theorem agrees_smart (b : Buffer) : Agrees b (smart b) ByteReader.smart := by
  intro pos hpos
  have hpeek : b.bytes[pos.toNat]? = (b.at pos).rest.head? := (List.head?_drop ..).symm
  unfold smart
  rcases hrest : (b.at pos).rest with _ | ⟨x, rest⟩ <;> rw [hrest] at hpeek
  · have hread : (b.at pos).read ByteReader.smart = (.error (endOfData 1 0), b.at pos) := by
      simp only [read, hrest, ByteReader.smart]
    rw [hread]
    refine ⟨pos, .get ?_, rfl⟩
    rw [hpeek]
    exact .throw _ _
  by_cases hx : x < 0x80
  · have hone : 1 ≤ (b.at pos).remaining := by simp [remaining, hrest]
    have hread : (b.at pos).read ByteReader.smart = (.ok x.toUInt16, ⟨(b.at pos).pos + 1, (b.at pos).rest.drop 1⟩) :=
      read_of_run hone (by simp [hrest, ByteReader.smart, hx])
    obtain ⟨next, hrun, hnext⟩ := exists_runs_past b pos 1 hone x.toUInt16
    rw [hread]
    refine ⟨next, .get ?_, hnext⟩
    rw [hpeek]
    simp only [List.head?_cons, if_pos hx]
    exact hrun
  -- a first byte with the top bit leaves the position to the reading of two bytes, and their word is not too small
  · have hread : (b.at pos).read ByteReader.smart = (b.at pos).read ((· - 0x8000) <$> ByteReader.u16) := by
      simp only [read, hrest, run_smart_cons hx]
    obtain ⟨next, hrun, hnext⟩ := agrees_u16 b pos hpos
    rw [hread, read_map]
    refine ⟨next, .get ?_, hnext⟩
    rw [hpeek]
    simp only [List.head?_cons, if_neg hx]
    cases hpair : ByteReader.u16.run (x :: rest) with
    | error e =>
      simp only [read, hrest, hpair] at hrun ⊢
      exact hrun.bind_error
    | ok out =>
      simp only [read, hrest, hpair] at hrun ⊢
      refine hrun.bind ?_
      rw [if_pos (le_of_run_u16 hx hpair)]
      exact .pure _ _

theorem agrees_text (b : Buffer) : Agrees b (text b) ByteReader.text := by
  intro pos hpos
  have hlength := toNat_length b
  have hremaining := remaining_at b pos
  have hlt := b.length_lt
  have hle : pos ≤ b.length := UInt64.le_iff_toNat_le.2 (hlength ▸ hpos)
  have hrest : (b.bytes.drop pos.toNat).take (b.length.toNat - pos.toNat) = (b.at pos).rest := by
    rw [hlength]
    exact List.take_of_length_le List.length_drop.le
  unfold text
  by_cases hmem : Bytes.lineEnd ∈ (b.at pos).rest
  · have hindex : (b.at pos).rest.idxOf Bytes.lineEnd + 1 ≤ (b.at pos).remaining := List.idxOf_lt_length_iff.2 hmem
    have hread := read_of_run hindex (ByteReader.run_text_of_mem hmem)
    have hfind : (b.at pos).rest.idxOf? Bytes.lineEnd = some ((b.at pos).rest.idxOf Bytes.lineEnd) :=
      List.findIdx?_eq_some_of_exists ⟨_, hmem, beq_self_eq_true _⟩
    generalize (b.at pos).rest.idxOf Bytes.lineEnd = i at hindex hread hfind
    have hcount : (UInt64.ofNat (i + 1)).toNat = i + 1 :=
      UInt64.toNat_ofNat_of_lt' (by simp only [UInt64.size]; omega)
    obtain ⟨next, hrun, hnext⟩ := exists_runs_past b pos (UInt64.ofNat (i + 1)) (by omega)
      (Bytes.toText ((b.at pos).rest.take i))
    rw [hcount] at hnext
    rw [hread]
    refine ⟨next, .get (.slice hle (UInt64.le_refl _) ?_), hnext⟩
    rw [hrest]
    refine .word (by show (b.at pos).remaining < _; omega) fun left hleft => ?_
    replace hleft : left.toNat = (b.at pos).remaining := hleft
    refine .word (by show left.toNat + 1 < _; omega) fun needed _ => ?_
    rw [hfind]
    refine .word (by omega) fun stop hstop => .word (by show stop.toNat + 1 < _; omega) fun taken htaken => ?_
    obtain rfl : taken = UInt64.ofNat (i + 1) :=
      UInt64.toNat_inj.1 (htaken.trans ((congrArg (· + 1) hstop).trans hcount.symm))
    exact hrun
  · have hread : (b.at pos).read ByteReader.text =
        (.error (endOfData ((b.at pos).remaining + 1) (b.at pos).remaining), b.at pos) := by
      simp only [read, ByteReader.run_text_of_not_mem hmem, remaining]
    rw [hread]
    refine ⟨pos, .get (.slice hle (UInt64.le_refl _) ?_), rfl⟩
    rw [hrest]
    refine .word (by show (b.at pos).remaining < _; omega) fun left hleft => ?_
    replace hleft : left.toNat = (b.at pos).remaining := hleft
    refine .word (by show left.toNat + 1 < _; omega) fun needed hneeded => ?_
    replace hneeded : needed.toNat = left.toNat + 1 := hneeded
    rw [List.idxOf?_eq_none_iff.2 hmem]
    dsimp only
    rw [hneeded, hleft]
    exact .throw _ _

/-! ### Requests -/

theorem agrees_word {p : ByteReader α} {n : ℕ} (hn : n < 0x10000000000000000)
    {k : { w : UInt64 // w.toNat = n } → Step α} (hk : ∀ w hw, Agrees b (k ⟨w, hw⟩) p) :
    Agrees b (word n >>= k) p := by
  rw [word, dif_pos hn, pure_bind]
  exact hk _ _

theorem agrees_value (b : Buffer) {t : FieldType} (h : CursorRequest.CountFits (.value t)) :
    Agrees b (value b t) t.read := by
  cases t with
  | u8 => exact (agrees_u8 b).map _
  | i8 => exact ((agrees_u8 b).map _).map _
  | u16 => exact (agrees_u16 b).map _
  | i16 => exact ((agrees_u16 b).map _).map _
  | u24 => exact (agrees_ofThree b).map _
  | u32 => exact (agrees_ofFour b).map _
  | smart => exact (agrees_smart b).map _
  | text => exact (agrees_text b).map _
  | block count =>
    refine agrees_word h fun w hw => ?_
    subst hw
    exact (agrees_take b w).map _

theorem agrees_perform (b : Buffer) {q : CursorRequest} (h : q.CountFits) : Agrees b (perform b q) q.reader := by
  cases q with
  | value t => exact (agrees_value b h).map some
  | skip count =>
    refine agrees_word h fun w hw => ?_
    subst hw
    exact ((agrees_take b w).map _).map _

theorem performAll_eq (b : Buffer) {qs : List CursorRequest} (h : ∀ q ∈ qs, q.CountFits) {pos : UInt64}
    (hpos : pos.toNat ≤ b.bytes.length) : ∃ next, performAll b qs pos = some (((b.at pos).performAll qs).1, next) ∧
      b.at next = ((b.at pos).performAll qs).2 := by
  induction qs generalizing pos with
  | nil => exact ⟨pos, rfl, rfl⟩
  | cons q qs ih =>
    obtain ⟨hq, hqs⟩ := List.forall_mem_cons.1 h
    obtain ⟨mid, hrun, hmid⟩ := agrees_perform b hq pos hpos
    have hinside : Inside b.bytes (b.at mid) := by
      rw [hmid]
      exact Inside.perform ⟨hpos, rfl⟩ q
    obtain ⟨next, hrest, hnext⟩ := ih hqs hinside.pos_le
    rw [hmid] at hrest hnext
    refine ⟨next, ?_, hnext⟩
    show ((perform b q).run.run pos).bind _ = _
    rw [hrun]
    show (performAll b qs mid).bind _ = _
    rw [hrest]
    rfl

end Words

/-! ### Any requests -/

variable {q : CursorRequest} {c : Cursor} {data : Bytes}

theorem Outcome.isOk_iff {out : CursorAnswer × Cursor} (h : Outcome q c out) :
    (∃ value, out.1 = .ok value) ↔ q.Enough c.rest := by
  cases h with
  | moved value henough => simp [henough]
  | refused hnot => simp [hnot]

/-- A request that comes to nothing leaves its bytes to the next one. -/
theorem performAll_of_not_enough (h : ¬ q.Enough c.rest) {count : ℕ} (hcount : count ≤ c.remaining) :
    performAll [q, .value (.block count)] c =
      ([.error (.endOfData (q.need c.rest) c.remaining), .ok (some (.block (c.rest.take count)))],
        ⟨c.pos + count, c.rest.drop count⟩) := by
  have hlt : c.remaining < q.need c.rest := Nat.lt_of_not_le (mt (q.enough_iff _).2 h)
  have hblock : c.perform (.value (.block count)) =
      (.ok (some (.block (c.rest.take count))), ⟨c.pos + count, c.rest.drop count⟩) := by
    show c.read (some <$> Field.block <$> ByteReader.bytes count) = _
    rw [read_map, read_map, read_bytes hcount]
    rfl
  have hrefused : c.perform q = (.error (.endOfData (q.need c.rest) c.remaining), c) := read_of_lt q.atomic_reader hlt
  simp only [performAll, hrefused, hblock]

/-- That a cursor stands inside of its bytes and meets every request as a whole or not at all. -/
structure AtomicAt (data : Bytes) (c : Cursor) : Prop where
  inside : Inside data c
  outcome : ∀ q, Outcome q c (c.perform q)
  isOk_iff : ∀ q, (∃ value, (c.perform q).1 = .ok value) ↔ q.Enough c.rest
  retry : ∀ q count, ¬ q.Enough c.rest → count ≤ c.remaining → performAll [q, .value (.block count)] c =
    ([.error (.endOfData (q.need c.rest) c.remaining), .ok (some (.block (c.rest.take count)))],
      ⟨c.pos + count, c.rest.drop count⟩)

/-- After any requests, whether they were met or not, a cursor stands inside of its bytes and meets the next one as a
whole or not at all; and nothing has overflowed in words on the way. -/
theorem atomic_performAll (data : Bytes) (qs : List CursorRequest) :
    AtomicAt data ((start data).performAll qs).2 ∧
    ∀ h : data.length < 0xFFFFFFFFFFFFFFFF, (∀ q ∈ qs, q.CountFits) →
      ∃ pos, Words.performAll ⟨data, h⟩ qs 0 = some (((start data).performAll qs).1, pos) ∧
        pos.toNat = ((start data).performAll qs).2.pos := by
  refine ⟨⟨(inside_start data).performAll qs, fun q => outcome_perform q _, fun q => (outcome_perform q _).isOk_iff,
    fun q count hnot => performAll_of_not_enough hnot⟩, fun h hcounts => ?_⟩
  obtain ⟨pos, hrun, hpos⟩ := Words.performAll_eq ⟨data, h⟩ hcounts (show (0 : UInt64).toNat ≤ _ from Nat.zero_le _)
  exact ⟨pos, hrun, congrArg Cursor.pos hpos⟩

/-- Requests for too much, one of them for as much as a word can say, between two that are met. -/
theorem atomic_performAll_refused :
    AtomicAt [0x81, 2, 3] ⟨1, [2, 3]⟩ ∧
    ∃ pos, Words.performAll ⟨[0x81, 2, 3], by decide⟩
      [.value .u32, .value .i8, .skip 0xFFFFFFFFFFFFFFFF, .value .text] 0 =
        some ([.error (.endOfData 4 3), .ok (some (.i8 (-127))), .error (.endOfData 0xFFFFFFFFFFFFFFFF 2),
          .error (.endOfData 3 2)], pos) ∧ pos.toNat = 1 := by
  obtain ⟨hatomic, hwords⟩ := atomic_performAll [0x81, 2, 3]
    [.value .u32, .value .i8, .skip 0xFFFFFFFFFFFFFFFF, .value .text]
  exact ⟨hatomic, hwords (by decide) (by simp [CursorRequest.CountFits])⟩

end Cursor

end AssetCache
