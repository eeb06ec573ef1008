import Mathlib
import AssetCache.Proofs.LatestOperations

/-!
# What a record says of the flags of its object

`Flagged` says it flag by flag, of the operations alone: which of them occur, and what the last one about the
models, about interactivity and about each action is. Main statement: `flags_of_read`, the flags of an object are
those that the operations of its record say.
-/

namespace AssetCache
open SpelledOp

/-! ### Bits -/

namespace ObjectFlags

theorem testBit_foldr (named : List (String × Bool)) (n : ℕ) :
    (named.foldr (fun (flag : String × Bool) rest => flag.2.toNat + 2 * rest) 0).testBit n =
      (named[n]?).any (·.2) := by
  induction named generalizing n with
  | nil => simp
  | cons flag named ih =>
    rw [List.foldr_cons]
    cases n with
    | zero =>
      cases hset : flag.2 <;> simp [Nat.testBit_zero, hset]
    | succ n =>
      have hhalf : ∀ rest, (flag.2.toNat + 2 * rest) / 2 = rest := by
        intro rest
        have hset := flag.2.toNat_lt
        omega
      rw [Nat.testBit_succ, hhalf, ih]
      rfl

/-- A bit is set exactly if it has a name and the flag of this name is set. -/
theorem testBit_bits (f : ObjectFlags) (n : ℕ) : f.bits.testBit n ↔ ∃ name, f.named[n]? = some (name, true) := by
  have hbit : f.bits.testBit n = (f.named[n]?).any (·.2) := testBit_foldr f.named n
  rw [hbit, Option.any_eq_true]
  constructor
  · rintro ⟨⟨name, set⟩, hn, rfl⟩
    exact ⟨name, hn⟩
  · rintro ⟨name, hn⟩
    exact ⟨(name, true), hn, rfl⟩

end ObjectFlags

namespace WorldObject

variable {r : WholeRecord Op.Spells}

/-! ### What the operations say -/

/-- That the last list of models has some, and all of them are for, or also for, the middle of a tile. -/
def NamesCentrepiece (r : WholeRecord Op.Spells) : Prop :=
  ∃ o models, latest? fieldCode r.ops 1 = some o ∧ o.op = .models models ∧ models ≠ [] ∧
    ∀ m ∈ models, m.modelType = none ∨ m.modelType = some 10

/-- That the last operation about some action does not hide it. -/
def NamesAction (r : WholeRecord Op.Spells) : Prop :=
  ∃ (slot : Fin 5) (o : SpelledOp Op.Spells) (action : String),
    latest? fieldCode r.ops (UInt8.ofNat (30 + slot)) = some o ∧ o.op = .action slot (some action)

/-- That flags are those of which the operations of a record speak. -/
structure Flagged (r : WholeRecord Op.Spells) (f : ObjectFlags) : Prop where
  solid : f.solid ↔ 17 ∉ r.codes ∧ 74 ∉ r.codes
  impenetrable : f.impenetrable ↔ 18 ∉ r.codes ∧ 74 ∉ r.codes
  declared : ∀ o, latest? fieldCode r.ops 19 = some o → (f.interactive ↔ o.payload = [1])
  derived : 19 ∉ r.codes → (f.interactive ↔ NamesCentrepiece r ∨ NamesAction r)
  adjustToTerrain : f.adjustToTerrain ↔ 21 ∈ r.codes
  static : f.static ↔ 22 ∈ r.codes
  wall : f.wall ↔ 23 ∈ r.codes
  rotated : f.rotated ↔ 62 ∈ r.codes
  shadowless : f.shadowless ↔ 64 ∈ r.codes
  obstructsGround : f.obstructsGround ↔ 73 ∈ r.codes
  hollow : f.hollow ↔ 74 ∈ r.codes
  bits : ∀ n, f.bits.testBit n ↔ ∃ name, f.named[n]? = some (name, true)

/-! ### Operations and their op-codes -/

theorem fieldCode_eq_iff {code k : UInt8} (h1 : k ≠ 1) (h5 : k ≠ 5) : fieldCode code = k ↔ code = k := by
  unfold fieldCode
  split
  · next h =>
    subst h
    exact iff_of_false h1.symm h5.symm
  · exact Iff.rfl

/-- Whether there is a latest operation with an op-code is whether the op-code occurs. -/
theorem isSome_latest? (r : WholeRecord Op.Spells) {k : UInt8} (h1 : k ≠ 1) (h5 : k ≠ 5) :
    (r.latest? fieldCode k).isSome ↔ k ∈ r.codes := by
  have hnone : latest? fieldCode r.ops k = none ↔ k ∉ r.codes := by
    simp [latest?_eq_none, WholeRecord.codes, fieldCode_eq_iff h1 h5]
  rw [WholeRecord.latest?, Option.isSome_map, Option.isSome_iff_ne_none, ne_eq, hnone, not_not]

theorem isNone_latest? (r : WholeRecord Op.Spells) {k : UInt8} (h1 : k ≠ 1) (h5 : k ≠ 5) :
    (r.latest? fieldCode k).isNone ↔ k ∉ r.codes := by
  rw [← isSome_latest? r h1 h5, Option.isNone_iff_eq_none, Option.not_isSome_iff_eq_none]

theorem interactive_of_spells {op : Op} {w : Bytes} (h : op.Spells 19 w) : op.isInteractive ↔ w = [1] := by
  obtain ⟨b, rfl, rfl⟩ := reads_ops.of_spells h rfl (ByteReader.recognizes_byte.map _)
  simp [Op.isInteractive]

theorem action_of_spells {op : Op} {slot : Fin 5} {w : Bytes} (h : op.Spells (UInt8.ofNat (30 + slot)) w) :
    ∃ a, op = .action slot a := by
  have hp : Op.payload? (UInt8.ofNat (30 + slot)) = some (.action slot <$> readAction) := by
    fin_cases slot <;> rfl
  obtain ⟨a, -, rfl⟩ := reads_ops.of_spells h hp (ByteReader.recognizes_readAction.map _)
  exact ⟨a, rfl⟩

/-! ### The flags of a draft at its end -/

theorem isCentrepiece_ofLatest (id : UInt16) (r : WholeRecord Op.Spells) :
    (Draft.ofLatest id (r.latest? fieldCode)).object.isCentrepiece ↔ NamesCentrepiece r := by
  have hmodels : (Draft.ofLatest id (r.latest? fieldCode)).object.models =
      ((r.latest? fieldCode 1).bind Op.models?).getD [] := rfl
  rw [isCentrepiece, hmodels]
  cases ho : latest? fieldCode r.ops 1 with
  | none => simp [WholeRecord.latest?, ho, NamesCentrepiece]
  | some o =>
    obtain ⟨-, hcode⟩ := mem_of_latest? ho
    obtain ⟨ms, hms⟩ := eq_models_of_spells o.spells hcode
    have hall : (ms.all fun m => m.modelType.all (· = centrepieceType)) ↔
        ∀ m ∈ ms, m.modelType = none ∨ m.modelType = some 10 := by
      rw [List.all_eq_true]
      refine forall₂_congr fun m _ => ?_
      cases m.modelType with
      | none => simp
      | some kind =>
        show decide (kind = 10) = true ↔ _
        simp
    simp only [WholeRecord.latest?, ho, Option.map_some, hms, Option.bind_some, Op.models?, Option.getD_some,
      Bool.and_eq_true, hall, NamesCentrepiece, Option.some.injEq]
    constructor
    · rintro ⟨hne, hmem⟩
      exact ⟨o, ms, rfl, hms, by simpa using hne, hmem⟩
    · rintro ⟨_, ms', rfl, hms', hne, hmem⟩
      rw [hms] at hms'
      cases hms'
      exact ⟨by simpa using hne, hmem⟩

theorem text?_latest? (r : WholeRecord Op.Spells) (slot : Fin 5) :
    ((r.latest? fieldCode (UInt8.ofNat (30 + slot))).bind Op.text?).isSome ↔
      ∃ o action, latest? fieldCode r.ops (UInt8.ofNat (30 + slot)) = some o ∧ o.op = .action slot (some action) := by
  cases ho : latest? fieldCode r.ops (UInt8.ofNat (30 + slot)) with
  | none =>
    rw [WholeRecord.latest?, ho]
    simp
  | some o =>
    have hcode : o.code = UInt8.ofNat (30 + slot) := by
      obtain ⟨-, hcode⟩ := mem_of_latest? ho
      refine (fieldCode_eq_iff ?_ ?_).1 hcode <;> fin_cases slot <;> decide
    obtain ⟨a, ha⟩ := action_of_spells (hcode ▸ o.spells)
    simp only [WholeRecord.latest?, ho, Option.map_some, ha, Option.bind_some, Op.text?, Option.some.injEq]
    rw [Option.isSome_iff_exists]
    constructor
    · rintro ⟨t, rfl⟩
      exact ⟨o, t, rfl, ha⟩
    · rintro ⟨_, t, rfl, ht⟩
      rw [ha] at ht
      cases ht
      exact ⟨t, rfl⟩

theorem any_actions_ofLatest (id : UInt16) (r : WholeRecord Op.Spells) :
    (Draft.ofLatest id (r.latest? fieldCode)).object.actions.any Option.isSome ↔ NamesAction r := by
  have hslots : (Draft.ofLatest id (r.latest? fieldCode)).object.actions.any Option.isSome ↔
      ∃ slot : Fin 5, ((r.latest? fieldCode (UInt8.ofNat (30 + slot))).bind Op.text?).isSome := by
    rw [Vector.any_eq_true, Fin.exists_iff]
    refine exists_congr fun slot => exists_congr fun hslot => ?_
    interval_cases slot <;> rfl
  rw [hslots]
  exact exists_congr fun slot => text?_latest? r slot

theorem flagged_finish (id : UInt16) (r : WholeRecord Op.Spells) :
    Flagged r (Draft.ofLatest id (r.latest? fieldCode)).finish.flags where
  solid := by
    show ((r.latest? fieldCode 17).isNone && !(r.latest? fieldCode 74).isSome) = true ↔ _
    rw [Bool.and_eq_true, Option.not_isSome, isNone_latest? r (by decide) (by decide),
      isNone_latest? r (by decide) (by decide)]
  impenetrable := by
    show ((r.latest? fieldCode 18).isNone && !(r.latest? fieldCode 74).isSome) = true ↔ _
    rw [Bool.and_eq_true, Option.not_isSome, isNone_latest? r (by decide) (by decide),
      isNone_latest? r (by decide) (by decide)]
  declared := by
    intro o ho
    have hcode : o.code = 19 := by
      obtain ⟨-, hcode⟩ := mem_of_latest? ho
      exact (fieldCode_eq_iff (by decide) (by decide)).1 hcode
    have hlatest : r.latest? fieldCode 19 = some o.op := by rw [WholeRecord.latest?, ho, Option.map_some]
    show (if (r.latest? fieldCode 19).isSome then (r.latest? fieldCode 19).any Op.isInteractive else _) = true ↔ _
    rw [hlatest, ← interactive_of_spells (hcode ▸ o.spells)]
    rfl
  derived := by
    intro h19
    have hnone : ¬ (r.latest? fieldCode 19).isSome := mt (isSome_latest? r (by decide) (by decide)).1 h19
    show (if (r.latest? fieldCode 19).isSome then _
      else (Draft.ofLatest id (r.latest? fieldCode)).object.isCentrepiece ||
        (Draft.ofLatest id (r.latest? fieldCode)).object.actions.any Option.isSome) = true ↔ _
    rw [if_neg hnone, Bool.or_eq_true, isCentrepiece_ofLatest, any_actions_ofLatest]
  adjustToTerrain := isSome_latest? r (by decide) (by decide)
  static := isSome_latest? r (by decide) (by decide)
  wall := isSome_latest? r (by decide) (by decide)
  rotated := isSome_latest? r (by decide) (by decide)
  shadowless := isSome_latest? r (by decide) (by decide)
  obstructsGround := isSome_latest? r (by decide) (by decide)
  hollow := isSome_latest? r (by decide) (by decide)
  bits := ObjectFlags.testBit_bits _

/-- The record of an object says what its flags are, of whatever operations it is made. A hollow object blocks
nothing, wherever its record says that it is hollow. -/
theorem flags_of_read {id : UInt16} {d rest : Bytes} {object : WorldObject}
    (h : (read id).run d = .ok (object, rest)) :
    (∃ r : WholeRecord Op.Spells, r.bytes = d) ∧
    ∀ r : WholeRecord Op.Spells, r.bytes = d → Flagged r object.flags ∧
      (74 ∈ r.codes → object.flags.solid = false ∧ object.flags.impenetrable = false) := by
  refine ⟨(reads_ops.followsGrammar (ofOps id)).exists_bytes_eq h, fun r hr => ?_⟩
  subst hr
  rw [run_bytes] at h
  cases h
  have hflags := flagged_finish id r
  refine ⟨hflags, fun h74 => ⟨?_, ?_⟩⟩
  · exact Bool.eq_false_iff.2 fun hsolid => (hflags.solid.1 hsolid).2 h74
  · exact Bool.eq_false_iff.2 fun himpenetrable => (hflags.impenetrable.1 himpenetrable).2 h74

theorem flags_of_read_hollowFirst : ∃ object,
    (read 3).run [74, 1, 1, 0, 7, 4, 19, 1, 5, 1, 0, 8, 19, 2, 0] = .ok (object, []) ∧
    Flagged hollowFirst object.flags ∧ 74 ∈ hollowFirst.codes ∧ object.flags.solid = false ∧
      object.flags.impenetrable = false := by
  have hrun := run_bytes 3 hollowFirst
  have h74 : 74 ∈ hollowFirst.codes := by decide
  obtain ⟨hflags, hhollow⟩ := (flags_of_read hrun).2 hollowFirst rfl
  exact ⟨_, hrun, hflags, h74, hhollow h74⟩

end WorldObject

end AssetCache
