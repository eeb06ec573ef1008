import Mathlib
import AssetCache.Proofs.InterfaceLinks

/-!
# When the interfaces form a forest

Linking refuses a container that lists itself and ignores a group whose parent is the interface itself,
so no interface is its own parent. Longer cycles are not looked for: `tangled_decodes` is a file of two
containers that list each other. Main statement: `isForest_iff_acyclic`, the links of a decoded table lead
every interface to one without a parent exactly when the declarations of the file have no cycle.
-/

namespace AssetCache.InterfaceTable

/-- The id that `k` links lead to. -/
def climb (up : UInt16 → Option UInt16) : Nat → UInt16 → Option UInt16
  | 0, id => some id
  | k + 1, id => (climb up k id).bind up

/-- That the links above an id end in a circle. -/
def LeadsToCycle (up : UInt16 → Option UInt16) (id : UInt16) : Prop :=
  ∃ j k x, 0 < k ∧ climb up j id = some x ∧ climb up k x = some x

/-- That no id is above itself. -/
def Acyclic (up : UInt16 → Option UInt16) : Prop := ∀ id k, 0 < k → climb up k id ≠ some id

/-- The id of the parent of an interface. -/
def parentId? (t : InterfaceTable) (id : UInt16) : Option UInt16 := (t.get? id).bind fun i => i.parent

/-- That no more links than there are interfaces lead from an id to an interface without a parent. -/
def ReachesRoot (t : InterfaceTable) (id : UInt16) : Prop :=
  ∃ k ≤ t.length, ∃ root ∈ t.roots, climb t.parentId? k id = some root.id

/-- Every interface hangs below one without a parent, so there is one unless the table is empty. -/
structure IsForest (t : InterfaceTable) : Prop where
  reaches_root : ∀ i ∈ t.toList, t.ReachesRoot i.id
  roots_ne_nil : t.toList ≠ [] → t.roots ≠ []

section Climb
variable {up : UInt16 → Option UInt16} {id : UInt16}

theorem climb_add (j k : Nat) : climb up (j + k) id = (climb up j id).bind (climb up k) := by
  induction k with
  | zero => cases climb up j id <;> rfl
  | succ k ih =>
    rw [Nat.add_succ, climb, ih]
    cases climb up j id <;> rfl

theorem climb_of_le {j k : Nat} (h : j ≤ k) (hj : climb up j id = none) : climb up k id = none := by
  rw [← Nat.add_sub_cancel' h, climb_add, hj]
  rfl

/-- Going round a cycle again and again never ends. -/
theorem climb_mul {k : Nat} (h : climb up k id = some id) (n : Nat) : climb up (k * n) id = some id := by
  induction n with
  | zero => rfl
  | succ n ih => rw [Nat.mul_succ, climb_add, ih, Option.bind_some, h]

theorem not_leadsToCycle_of_ends {j : Nat} (hj : climb up j id = none) : ¬ LeadsToCycle up id := by
  rintro ⟨m, k, x, hk, hx, hc⟩
  have hle : j ≤ m + k * j := (Nat.le_mul_of_pos_left j hk).trans (Nat.le_add_left _ m)
  have := climb_of_le hle hj
  rw [climb_add, hx, Option.bind_some, climb_mul hc] at this
  nomatch this

/-- A path that ends has a last id, and nothing is above that one. -/
theorem exists_last {j : Nat} (hj : climb up j id = none) :
    ∃ k < j, ∃ x, climb up k id = some x ∧ up x = none := by
  induction j with
  | zero => nomatch hj
  | succ j ih =>
    cases hx : climb up j id with
    | none =>
      obtain ⟨k, hk, hl⟩ := ih hx
      exact ⟨k, Nat.lt_succ_of_lt hk, hl⟩
    | some x =>
      rw [climb, hx] at hj
      exact ⟨j, Nat.lt_succ_self j, x, hx, hj⟩

theorem mem_of_climb {P : UInt16 → Prop} (hup : ∀ x p, up x = some p → P p) (hid : P id) {k : Nat}
    {x : UInt16} (hx : climb up k id = some x) : P x := by
  cases k with
  | zero => cases hx; exact hid
  | succ k =>
    obtain ⟨y, -, hy⟩ := Option.bind_eq_some_iff.1 hx
    exact hup y x hy

/-- Without a cycle no path is longer than the ids it may visit are many. -/
theorem climb_ends (ids : Finset UInt16) (hup : ∀ x p, up x = some p → p ∈ ids) (hid : id ∈ ids)
    (hc : ¬ LeadsToCycle up id) : ∃ k ≤ ids.card, climb up k id = none := by
  by_contra hn
  push Not at hn
  have hsome : ∀ k ≤ ids.card, ∃ x ∈ ids, climb up k id = some x := by
    intro k hk
    obtain ⟨x, hx⟩ := Option.ne_none_iff_exists'.1 (hn k hk)
    exact ⟨x, mem_of_climb hup hid hx, hx⟩
  choose! f hf hclimb using hsome
  -- one more place on the path than there are ids, so two places hold the same id
  obtain ⟨a, ha', b, hb', hne, hab⟩ := Finset.exists_ne_map_eq_of_card_lt_of_maps_to
    (s := Finset.range (ids.card + 1)) (t := ids) (f := f) (by simp)
    (fun k hk => hf k (Nat.lt_succ_iff.1 (Finset.mem_range.1 hk)))
  wlog hlt : a < b generalizing a b
  · exact this b hb' a ha' hne.symm hab.symm (lt_of_le_of_ne (Nat.le_of_not_lt hlt) hne.symm)
  have hca := hclimb a (Nat.lt_succ_iff.1 (Finset.mem_range.1 ha'))
  have hcb : climb up (a + (b - a)) id = some (f b) := by
    rw [Nat.add_sub_cancel' hlt.le]
    exact hclimb b (Nat.lt_succ_iff.1 (Finset.mem_range.1 hb'))
  rw [climb_add, hca, Option.bind_some, ← hab] at hcb
  exact hc ⟨a, b - a, f a, Nat.sub_pos_of_lt hlt, hca, hcb⟩

end Climb

section Table
variable {slots : Array (Option Declaration)} {t : InterfaceTable}

theorem parentId?_of_link (h : link slots = .ok t) (hf : Filed slots) :
    t.parentId? = declaredParent? slots := funext (parent_of_link h hf)

/-- Links stay inside the table. -/
theorem mem_of_parentId? (h : link slots = .ok t) (hf : Filed slots) {id p : UInt16}
    (hp : t.parentId? id = some p) : p ∈ t.toList.map (·.id) := by
  rw [parentId?_of_link h hf] at hp
  have hd := (parent_declared h hf hp).2
  rw [← isSome_get?_of_link h] at hd
  obtain ⟨i, hi⟩ := Option.isSome_iff_exists.1 hd
  exact List.mem_map.2
    ⟨i, mem_toList.2 (some_mem_toList.2 ⟨_, hi⟩), UInt16.toNat_inj.1 (id_of_getD h hf hi)⟩

theorem parentId?_of_mem (h : link slots = .ok t) (hf : Filed slots) {i : Interface} (hi : i ∈ t.toList) :
    t.parentId? i.id = i.parent := by
  rw [parentId?, get?_of_mem_toList h hf hi, Option.bind_some]

theorem reachesRoot_of_not_leadsToCycle (h : link slots = .ok t) (hf : Filed slots) {id : UInt16}
    (hid : id ∈ t.toList.map (·.id)) (hc : ¬ LeadsToCycle t.parentId? id) : t.ReachesRoot id := by
  obtain ⟨j, hj, hnone⟩ := climb_ends (t.toList.map (·.id)).toFinset
    (fun x p hp => List.mem_toFinset.2 (mem_of_parentId? h hf hp)) (List.mem_toFinset.2 hid) hc
  have hcard : (t.toList.map (·.id)).toFinset.card ≤ t.length :=
    (List.toFinset_card_le _).trans_eq (List.length_map _)
  obtain ⟨k, hk, x, hx, hlast⟩ := exists_last hnone
  obtain ⟨root, hr, rfl⟩ :=
    List.mem_map.1 (mem_of_climb (P := (· ∈ t.toList.map (·.id))) (fun _ _ => mem_of_parentId? h hf) hid hx)
  rw [parentId?_of_mem h hf hr] at hlast
  exact ⟨k, by omega, root, List.mem_filter.2 ⟨hr, by rw [hlast]; rfl⟩, hx⟩

theorem not_leadsToCycle_of_reachesRoot (h : link slots = .ok t) (hf : Filed slots) {id : UInt16}
    (hr : t.ReachesRoot id) : ¬ LeadsToCycle t.parentId? id := by
  obtain ⟨k, -, root, hroot, hk⟩ := hr
  obtain ⟨hmem, hnone⟩ := List.mem_filter.1 hroot
  refine not_leadsToCycle_of_ends (j := k + 1) ?_
  rw [climb, hk, Option.bind_some, parentId?_of_mem h hf hmem]
  exact Option.isNone_iff_eq_none.1 hnone

theorem reachesRoot_iff (h : link slots = .ok t) (hf : Filed slots) {id : UInt16}
    (hid : id ∈ t.toList.map (·.id)) : t.ReachesRoot id ↔ ¬ LeadsToCycle (declaredParent? slots) id := by
  rw [← parentId?_of_link h hf]
  exact ⟨not_leadsToCycle_of_reachesRoot h hf, reachesRoot_of_not_leadsToCycle h hf hid⟩

/-- An id on a cycle is one of the table, since a link leads to it. -/
theorem acyclic_iff (h : link slots = .ok t) (hf : Filed slots) : Acyclic (declaredParent? slots) ↔
    ∀ i ∈ t.toList, ¬ LeadsToCycle (declaredParent? slots) i.id := by
  constructor
  · rintro ha i - ⟨j, k, x, hk, -, hc⟩
    exact ha x k hk hc
  · intro hn id k hk hc
    have hid : id ∈ t.toList.map (·.id) := by
      cases k with
      | zero => nomatch hk
      | succ k =>
        obtain ⟨y, -, hy⟩ := Option.bind_eq_some_iff.1 hc
        exact mem_of_parentId? h hf (parentId?_of_link h hf ▸ hy)
    obtain ⟨i, hi, rfl⟩ := List.mem_map.1 hid
    exact hn i hi ⟨0, k, i.id, hk, rfl, hc⟩

theorem isForest_iff (h : link slots = .ok t) (hf : Filed slots) :
    t.IsForest ↔ Acyclic (declaredParent? slots) := by
  rw [acyclic_iff h hf]
  constructor
  · intro hF i hi
    exact (reachesRoot_iff h hf (List.mem_map_of_mem hi)).1 (hF.reaches_root i hi)
  · intro hn
    have hr : ∀ i ∈ t.toList, t.ReachesRoot i.id := fun i hi =>
      (reachesRoot_iff h hf (List.mem_map_of_mem hi)).2 (hn i hi)
    refine ⟨hr, fun hne => ?_⟩
    obtain ⟨i, hi⟩ := List.exists_mem_of_ne_nil _ hne
    obtain ⟨-, -, root, hroot, -⟩ := hr i hi
    exact List.ne_nil_of_mem hroot

end Table

theorem decode_eq_ok {file : Bytes} {t : InterfaceTable} (h : decode file = .ok t) :
    ∃ slots rest, readDeclarations.run file = .ok (slots, rest) ∧ link slots = .ok t := by
  unfold decode at h
  cases hd : readDeclarations.run file with
  | error e => rw [hd] at h; nomatch h
  | ok x => rw [hd] at h; exact ⟨x.1, x.2, rfl, h⟩

/-- The parent of every decoded interface is another decoded interface, so its links either end at one
without a parent or lead to a cycle; which of the two it is, the declarations of the file tell. -/
theorem isForest_iff_acyclic {file : Bytes} {t : InterfaceTable} (h : decode file = .ok t) :
    ∃ slots rest, readDeclarations.run file = .ok (slots, rest) ∧
      (t.IsForest ↔ Acyclic (declaredParent? slots)) ∧
      ∀ i ∈ t.toList, (t.ReachesRoot i.id ↔ ¬ LeadsToCycle (declaredParent? slots) i.id) ∧
        ∀ p ∈ i.parent, p ≠ i.id ∧ ∃ j ∈ t.toList, j.id = p := by
  obtain ⟨slots, rest, hr, hl⟩ := decode_eq_ok h
  have hf := filed_of_readDeclarations hr
  refine ⟨slots, rest, hr, isForest_iff hl hf, fun i hi =>
    ⟨reachesRoot_iff hl hf (List.mem_map_of_mem hi), fun p hp => ?_⟩⟩
  rw [← parentId?_of_mem hl hf hi] at hp
  refine ⟨?_, List.mem_map.1 (mem_of_parentId? hl hf hp)⟩
  rw [Option.mem_def, parentId?_of_link hl hf] at hp
  exact (parent_declared hl hf hp).1

/-- A file of a container, the interface it lists, and one in the group of that interface. -/
def sheltered : Bytes :=
  [0, 3,
    0, 0, 0, 0, 0, 0, 0, 0, 0, 0, 0, 0, 0, 0, 0, 0, 0, 0, 1, 0, 1, 0, 0, 0, 0,
    0, 1, 8, 0, 0, 0, 0, 0, 0, 0, 0, 0, 0, 0, 0x61, 0x0A,
    0xFF, 0xFF, 0, 1, 0, 2, 8, 0, 0, 0, 0, 0, 0, 0, 0, 0, 0, 0, 0x0A]

theorem isForest_iff_acyclic_sheltered : ∃ t, decode sheltered = .ok t ∧ t.length = 3 ∧
    ∃ slots rest, readDeclarations.run sheltered = .ok (slots, rest) ∧
      (t.IsForest ↔ Acyclic (declaredParent? slots)) ∧
      ∀ i ∈ t.toList, (t.ReachesRoot i.id ↔ ¬ LeadsToCycle (declaredParent? slots) i.id) ∧
        ∀ p ∈ i.parent, p ≠ i.id ∧ ∃ j ∈ t.toList, j.id = p :=
  ⟨_, by cbv, by cbv, isForest_iff_acyclic (by cbv)⟩

/-- A file of two containers of which each lists the other. -/
def tangled : Bytes :=
  [0, 2,
    0, 0, 0, 0, 0, 0, 0, 0, 0, 0, 0, 0, 0, 0, 0, 0, 0, 0, 1, 0, 1, 0, 0, 0, 0,
    0, 1, 0, 0, 0, 0, 0, 0, 0, 0, 0, 0, 0, 0, 0, 0, 0, 0, 1, 0, 0, 0, 0, 0, 0]

theorem tangled_decodes : ∃ t, decode tangled = .ok t ∧ t.length = 2 ∧ t.roots = [] ∧ ¬ t.IsForest := by
  refine ⟨_, by cbv, by cbv, by cbv, fun hF => hF.roots_ne_nil (by cbv; simp) (by cbv)⟩

end AssetCache.InterfaceTable
