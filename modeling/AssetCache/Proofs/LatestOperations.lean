import Mathlib
import AssetCache.Item.Latest
import AssetCache.OpStream.Record
import AssetCache.Proofs.RecordGrammar
import AssetCache.WorldObject.Latest

/-!
# Only the latest operations count

Applying an operation to what the latest operations make is to make it of these and the new one
(`Item.apply_ofLatest`, `WorldObject.apply_ofLatest`), so a row of operations makes what the latest ones about each
part do (`foldl_ofLatest`). Main statement: `read_reordered`, the order of operations about different parts does not
matter.
-/

namespace AssetCache
open SpelledOp

section Rows
variable {Op α σ : Type} {Spells : Op → UInt8 → Bytes → Prop} {key : UInt8 → UInt8}
  {ops ops' : List (SpelledOp Spells)}

/-! ### Rows of operations -/

namespace SpelledOp

theorem latest?_concat (ops : List (SpelledOp Spells)) (o : SpelledOp Spells) (k : UInt8) :
    latest? key (ops ++ [o]) k = if k = key o.code then some o else latest? key ops k := by
  by_cases h : k = key o.code
  · simp [latest?, h]
  · simp [latest?, h, Ne.symm h]

theorem latest?_eq_none {k : UInt8} : latest? key ops k = none ↔ ∀ o ∈ ops, key o.code ≠ k := by
  simp [latest?]

theorem mem_of_latest? {k : UInt8} {o : SpelledOp Spells} (h : latest? key ops k = some o) :
    o ∈ ops ∧ key o.code = k := by
  simpa using List.mem_of_getLast? h

theorem Reorders.latest?_eq (h : Reorders key ops ops') (k : UInt8) : latest? key ops k = latest? key ops' k := by
  rw [latest?, latest?, h k]

/-- An operation stands somewhere in the other row, behind operations with other keys only. -/
theorem Reorders.exists_split {o : SpelledOp Spells} (h : Reorders key (o :: ops) ops') :
    ∃ before after, ops' = before ++ o :: after ∧ Reorders key ops (before ++ after) := by
  have hown := h (key o.code)
  rw [List.filter_cons_of_pos (by simp)] at hown
  obtain ⟨before, after, rfl, hbefore, -, hafter⟩ := List.filter_eq_cons_iff.1 hown.symm
  refine ⟨before, after, rfl, fun k => ?_⟩
  by_cases hk : key o.code = k
  · subst hk
    rw [List.filter_append, hafter, List.filter_eq_nil_iff.2 hbefore, List.nil_append]
  · have hother := h k
    simpa [hk] using hother

/-- Rows that reorder each other have the same operations, each as often. -/
theorem Reorders.perm (h : Reorders key ops ops') : ops.Perm ops' := by
  induction ops generalizing ops' with
  | nil =>
    have hnil : ops' = [] := by
      refine List.eq_nil_iff_forall_not_mem.2 fun o ho => ?_
      have hmem : o ∈ ops'.filter fun o' => key o'.code = key o.code := by simpa using ho
      rw [← h] at hmem
      simp at hmem
    rw [hnil]
  | cons o ops ih =>
    obtain ⟨before, after, rfl, hrest⟩ := h.exists_split
    exact ((ih hrest).cons o).trans List.perm_middle.symm

/-- If a step goes from latest operations to latest operations, then so does a row of them. -/
theorem foldl_ofLatest (key : UInt8 → UInt8) (apply : σ → Op → σ) (make : (UInt8 → Option Op) → σ)
    (step : ∀ (o : SpelledOp Spells) (latest : UInt8 → Option Op),
      apply (make latest) o.op = make fun k => if k = key o.code then some o.op else latest k)
    (ops : List (SpelledOp Spells)) :
    (ops.map (·.op)).foldl apply (make fun _ => none) = make fun k => (latest? key ops k).map (·.op) := by
  induction ops using List.reverseRecOn with
  | nil => rfl
  | append_singleton ops o ih =>
    rw [List.map_append, List.foldl_append, ih]
    show apply _ o.op = _
    rw [step]
    congr 1
    funext k
    rw [latest?_concat]
    split <;> rfl

end SpelledOp

/-! ### Whole records -/

namespace WholeRecord

theorem latest?_eq {r r' : WholeRecord Spells} (h : Reorders key r.ops r'.ops) : r.latest? key = r'.latest? key := by
  funext k
  rw [latest?, latest?, h.latest?_eq]

theorem parses_bytes (r : WholeRecord Spells) : Parses Spells r.bytes (r.ops.map (·.op)) r.ending := by
  obtain ⟨ops, behind⟩ := r
  induction ops with
  | nil =>
    cases behind with
    | none => exact .exhausted
    | some rest => exact .closed
  | cons o ops ih =>
    have hop := Parses.op o.spells ih
    have hbytes : (⟨o :: ops, behind⟩ : WholeRecord Spells).bytes =
        o.code :: (o.payload ++ (⟨ops, behind⟩ : WholeRecord Spells).bytes) := by
      simp [bytes]
    rw [hbytes]
    exact hop

theorem exists_of_parses {d : Bytes} {os : List Op} {e : Ending} (h : Parses Spells d os e)
    (hwhole : ∀ code, e ≠ .unknown code) (hend : e ≠ .cutOff) :
    ∃ r : WholeRecord Spells, r.bytes = d ∧ r.ops.map (·.op) = os ∧ r.ending = e := by
  induction h with
  | @closed rest => exact ⟨⟨[], some rest⟩, rfl, rfl, rfl⟩
  | exhausted => exact ⟨⟨[], none⟩, rfl, rfl, rfl⟩
  | unknown => exact absurd rfl (hwhole _)
  | cutOff => exact absurd rfl hend
  | @op code op w s _ _ hspells _ ih =>
    obtain ⟨r, rfl, rfl, rfl⟩ := ih hwhole hend
    exact ⟨⟨⟨op, code, w, hspells⟩ :: r.ops, r.behind⟩, by simp [bytes], rfl, rfl⟩

end WholeRecord

namespace FollowsGrammar
variable {kind : OpCodeKind} {make : List Op → α} {p : ByteReader α}

theorem run_bytes (h : FollowsGrammar Spells kind make p) (r : WholeRecord Spells) :
    p.run r.bytes = .ok (make (r.ops.map (·.op)), r.rest) := by
  have hanswer := h.answer r.parses_bytes
  obtain ⟨ops, behind⟩ := r
  cases behind with
  | none => exact hanswer
  | some rest => exact hanswer

theorem exists_bytes_eq (h : FollowsGrammar Spells kind make p) {d rest : Bytes} {a : α}
    (hrun : p.run d = .ok (a, rest)) : ∃ r : WholeRecord Spells, r.bytes = d := by
  obtain ⟨⟨os, e⟩, hparse, -⟩ := h.parse d
  have hanswer := h.answer hparse
  have hwhole : ∀ code, e ≠ .unknown code := by
    rintro code rfl
    rw [show p.run d = _ from hanswer] at hrun
    cases hrun
  have hend : e ≠ .cutOff := by
    rintro rfl
    obtain ⟨needed, remaining, hfail⟩ := hanswer
    rw [hfail] at hrun
    cases hrun
  obtain ⟨r, hbytes, -, -⟩ := WholeRecord.exists_of_parses hparse hwhole hend
  exact ⟨r, hbytes⟩

end FollowsGrammar

end Rows

/-! ### Items -/

namespace Item

/-- An operation changes what its op-code is about, and nothing else. -/
theorem apply_ofLatest {op : Op} {code : UInt8} {w : Bytes} (h : op.Spells code w) (id : UInt16)
    (latest : UInt8 → Option Op) :
    (ofLatest id latest).apply op = ofLatest id fun k => if k = code then some op else latest k := by
  cases op
  case groundAction slot _ | action slot _ =>
    obtain ⟨rfl, -⟩ := h
    fin_cases slot <;> rfl
  case maleHead slot _ | femaleHead slot _ =>
    obtain ⟨rfl, -⟩ := h
    fin_cases slot <;> rfl
  case stackVariant slot _ =>
    obtain ⟨rfl, -⟩ := h
    fin_cases slot <;> rfl
  all_goals
    obtain ⟨rfl, -⟩ := h
    rfl

theorem run_bytes (id : UInt16) (r : WholeRecord Op.Spells) :
    (read id).run r.bytes = .ok (ofLatest id (r.latest? fun code => code), r.rest) := by
  have hfold : ofOps id (r.ops.map (·.op)) = ofLatest id (r.latest? fun code => code) :=
    foldl_ofLatest (fun code => code) apply (ofLatest id) (fun o latest => apply_ofLatest o.spells id latest) r.ops
  rw [read, (reads_ops.followsGrammar (ofOps id)).run_bytes, hfold]

end Item

/-! ### World objects -/

namespace WorldObject

theorem apply_ofLatest {op : Op} {code : UInt8} {w : Bytes} (h : op.Spells code w) (id : UInt16)
    (latest : UInt8 → Option Op) : (Draft.ofLatest id latest).apply op =
      Draft.ofLatest id fun k => if k = fieldCode code then some op else latest k := by
  cases op
  case models =>
    obtain ⟨-, ⟨rfl, -⟩ | ⟨rfl, -⟩⟩ := h <;> rfl
  case action slot _ =>
    obtain ⟨rfl, -⟩ := h
    fin_cases slot <;> rfl
  all_goals
    obtain ⟨rfl, -⟩ := h
    rfl

theorem run_bytes (id : UInt16) (r : WholeRecord Op.Spells) :
    (read id).run r.bytes = .ok ((Draft.ofLatest id (r.latest? fieldCode)).finish, r.rest) := by
  have hfold : (r.ops.map (·.op)).foldl Draft.apply { object := { id } } = Draft.ofLatest id (r.latest? fieldCode) :=
    foldl_ofLatest fieldCode Draft.apply (Draft.ofLatest id) (fun o latest => apply_ofLatest o.spells id latest)
      r.ops
  rw [read, (reads_ops.followsGrammar (ofOps id)).run_bytes, ofOps, hfold]

end WorldObject

/-- Two records of the same operations make the same item or the same object, flags included, unless the order of
operations about one part differs. -/
theorem read_reordered (id : UInt16) :
    (∀ r r' : WholeRecord Item.Op.Spells, Reorders (fun code => code) r.ops r'.ops →
      ∃ i, (Item.read id).run r.bytes = .ok (i, r.rest) ∧ (Item.read id).run r'.bytes = .ok (i, r'.rest)) ∧
    ∀ r r' : WholeRecord WorldObject.Op.Spells, Reorders WorldObject.fieldCode r.ops r'.ops →
      ∃ o, (WorldObject.read id).run r.bytes = .ok (o, r.rest) ∧
        (WorldObject.read id).run r'.bytes = .ok (o, r'.rest) := by
  constructor
  · intro r r' h
    have hlatest : r.latest? (fun code => code) = r'.latest? fun code => code := WholeRecord.latest?_eq h
    rw [Item.run_bytes, Item.run_bytes, hlatest]
    exact ⟨_, rfl, rfl⟩
  · intro r r' h
    have hlatest : r.latest? WorldObject.fieldCode = r'.latest? WorldObject.fieldCode := WholeRecord.latest?_eq h
    rw [WorldObject.run_bytes, WorldObject.run_bytes, hlatest]
    exact ⟨_, rfl, rfl⟩

/-- An item that gives its zoom twice, with a model in between. -/
def zoomedTwice : WholeRecord Item.Op.Spells where
  ops := [⟨.zoom 5, 4, [0, 5], rfl, rfl⟩, ⟨.model 9, 1, [0, 9], rfl, rfl⟩, ⟨.zoom 6, 4, [0, 6], rfl, rfl⟩,
    ⟨.members, 16, [], rfl, rfl⟩]
  behind := none

/-- The same operations in another order, before a byte that is not of the record. -/
def zoomedLast : WholeRecord Item.Op.Spells where
  ops := [⟨.members, 16, [], rfl, rfl⟩, ⟨.zoom 5, 4, [0, 5], rfl, rfl⟩, ⟨.model 9, 1, [0, 9], rfl, rfl⟩,
    ⟨.zoom 6, 4, [0, 6], rfl, rfl⟩]
  behind := some [7]

/-- A hollow object that is declared interactive and then not, and whose models are listed in both ways. -/
def hollowLast : WholeRecord WorldObject.Op.Spells where
  ops := [⟨.interactive true, 19, [1], rfl, 1, rfl, by decide⟩,
    ⟨.models [⟨7, some 4⟩], 1, [1, 0, 7, 4], by decide, .inl ⟨rfl, by decide, rfl⟩⟩,
    ⟨.interactive false, 19, [2], rfl, 2, rfl, by decide⟩,
    ⟨.models [⟨8, none⟩], 5, [1, 0, 8], by decide, .inr ⟨rfl, by decide, rfl⟩⟩, ⟨.hollow, 74, [], rfl, rfl⟩]
  behind := none

/-- The same operations with the hollow first. -/
def hollowFirst : WholeRecord WorldObject.Op.Spells where
  ops := [⟨.hollow, 74, [], rfl, rfl⟩,
    ⟨.models [⟨7, some 4⟩], 1, [1, 0, 7, 4], by decide, .inl ⟨rfl, by decide, rfl⟩⟩,
    ⟨.interactive true, 19, [1], rfl, 1, rfl, by decide⟩,
    ⟨.models [⟨8, none⟩], 5, [1, 0, 8], by decide, .inr ⟨rfl, by decide, rfl⟩⟩,
    ⟨.interactive false, 19, [2], rfl, 2, rfl, by decide⟩]
  behind := some []

theorem read_reordered_samples :
    Reorders (fun code => code) zoomedTwice.ops zoomedLast.ops ∧
    (∃ i, (Item.read 3).run [4, 0, 5, 1, 0, 9, 4, 0, 6, 16] = .ok (i, []) ∧
      (Item.read 3).run [16, 4, 0, 5, 1, 0, 9, 4, 0, 6, 0, 7] = .ok (i, [7])) ∧
    Reorders WorldObject.fieldCode hollowLast.ops hollowFirst.ops ∧
    ∃ o, (WorldObject.read 3).run [19, 1, 1, 1, 0, 7, 4, 19, 2, 5, 1, 0, 8, 74] = .ok (o, []) ∧
      (WorldObject.read 3).run [74, 1, 1, 0, 7, 4, 19, 1, 5, 1, 0, 8, 19, 2, 0] = .ok (o, []) := by
  have hitem : Reorders (fun code => code) zoomedTwice.ops zoomedLast.ops := by
    intro k
    simp only [zoomedTwice, zoomedLast, List.filter_cons, List.filter_nil, decide_eq_true_eq]
    grind
  have hobject : Reorders WorldObject.fieldCode hollowLast.ops hollowFirst.ops := by
    intro k
    simp only [hollowLast, hollowFirst, WorldObject.fieldCode, List.filter_cons, List.filter_nil, decide_eq_true_eq]
    grind
  exact ⟨hitem, (read_reordered 3).1 _ _ hitem, hobject, (read_reordered 3).2 _ _ hobject⟩

end AssetCache
