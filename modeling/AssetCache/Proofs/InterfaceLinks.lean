import Mathlib
import AssetCache.Interface.Table

/-!
# What linking gives each interface

A file is read into declarations, each filed under its id (`Filed`). Linking then goes through what the
containers list: `assignOwners_spec` says which owner each id ends up with. Main statement:
`parent_of_link`, the parent of every interface in terms of the declarations alone.
-/

namespace AssetCache

theorem Interface.id_of_read {id max : UInt16} {s r : Bytes} {i : Interface}
    (h : (Interface.read id max).run s = .ok (i, r)) : i.id = id := by
  simp only [Interface.read, Reader.run_bind_eq_ok, Reader.run_pure, Except.ok.injEq, Prod.mk.injEq] at h
  obtain ⟨_, _, -, _, _, -, _, _, -, _, _, -, _, _, -, _, _, -, _, _, -, _, _, -, _, _, -, _, _, -, _, _, -,
    _, _, -, _, _, -, _, _, -, _, _, -, _, _, -, rfl, -⟩ := h
  rfl

namespace InterfaceTable
variable {slots : Array (Option Declaration)}

/-- Every declaration stands under its id. -/
def Filed (slots : Array (Option Declaration)) : Prop :=
  ∀ (k : Nat) (d : Declaration), slots.getD k none = some d → d.interface.id.toNat = k

theorem getD_setIfInBounds {α : Type} (a : Array (Option α)) (i j : Nat) (v : Option α) (hi : i < a.size) :
    (a.setIfInBounds i v).getD j none = if i = j then v else a.getD j none := by
  simp only [Array.getD_eq_getD_getElem?, Array.getElem?_setIfInBounds]
  split
  · next h => subst h; simp
  · rfl

theorem some_mem_toList {α : Type} {a : Array (Option α)} {x : α} :
    some x ∈ a.toList ↔ ∃ k, a.getD k none = some x := by
  simp only [List.mem_iff_getElem?, Array.getElem?_toList, Array.getD_eq_getD_getElem?]
  refine exists_congr fun k => ?_
  cases a[k]? <;> simp

theorem mem_toList {t : InterfaceTable} {i : Interface} : i ∈ t.toList ↔ some i ∈ t.slots.toList := by
  simp [toList, List.reduceOption]

theorem Filed.empty (max : Nat) : Filed (Array.replicate max none) := by
  intro k d h
  simp only [Array.getD_eq_getD_getElem?, Array.getElem?_replicate] at h
  split at h <;> simp at h

theorem Filed.set (h : Filed slots) (d : Declaration) :
    Filed (slots.setIfInBounds d.interface.id.toNat (some d)) := by
  intro k d' hk
  by_cases hi : d.interface.id.toNat < slots.size
  · rw [getD_setIfInBounds _ _ _ _ hi] at hk
    split at hk
    · next he => cases hk; exact he
    · exact h k d' hk
  · rw [Array.setIfInBounds_eq_of_size_le (Nat.le_of_not_lt hi)] at hk
    exact h k d' hk

/-- What a step of reading does: it ends where the file does, or files one more record under its id. -/
theorem more_cases {max : UInt16} {p : Progress} {s r : Bytes} {x : Progress ⊕ Array (Option Declaration)}
    (h : (more max p).run s = .ok (x, r)) :
    (s = [] ∧ r = [] ∧ x = .inr p.slots) ∨
      ∃ group i body, (readHead max p.groupParent).run s = .ok ((group, i.id), body) ∧
        (Interface.read i.id max).run body = .ok (i, r) ∧ p.slots.getD i.id.toNat none = none ∧
        x = .inl { slots := p.slots.setIfInBounds i.id.toNat (some ⟨i, group⟩), groupParent := group } := by
  unfold more at h
  rw [Reader.run_bind_of_ok (Reader.run_atEnd s)] at h
  split at h
  · next hend =>
    cases h
    exact .inl ⟨List.isEmpty_iff.1 hend, List.isEmpty_iff.1 hend, rfl⟩
  · obtain ⟨⟨group, id⟩, body, hhead, h⟩ := Reader.run_bind_eq_ok.1 h
    obtain ⟨i, r', hread, h⟩ := Reader.run_bind_eq_ok.1 h
    have hread : (Interface.read id max).run body = .ok (i, r') := by
      simp only [Reader.mapError] at hread
      split at hread
      · nomatch hread
      · next hr => cases hread; exact hr
    obtain rfl := Interface.id_of_read hread
    dsimp only at h
    split at h
    · nomatch h
    · next hfree =>
      cases h
      exact .inr ⟨group, i, body, hhead, hread, hfree, rfl⟩

/-- A record that is read is filed under its id. -/
theorem filed_of_more {max : UInt16} {p p' : Progress} {s r : Bytes}
    (h : (more max p).run s = .ok (.inl p', r)) (hp : Filed p.slots) : Filed p'.slots := by
  obtain ⟨-, -, hx⟩ | ⟨group, i, _, -, -, -, hx⟩ := more_cases h
  · nomatch hx
  · obtain rfl := Sum.inl.inj hx
    exact hp.set ⟨i, group⟩

theorem filed_of_readDeclarations {s r : Bytes} (h : readDeclarations.run s = .ok (slots, r)) :
    Filed slots := by
  obtain ⟨max, t, -, h⟩ := Reader.run_bind_eq_ok.1 h
  refine Reader.loop_invariant (P := fun p => Filed p.slots) (fun p s p' r => filed_of_more) ?_ h
    (Filed.empty _)
  intro p s b r hb hp
  obtain ⟨-, -, hx⟩ | ⟨_, _, _, -, -, -, hx⟩ := more_cases hb
  · obtain rfl := Sum.inr.inj hx
    exact hp
  · -- the step that reads a record always asks to go on
    nomatch hx

/-! ### Owners -/

/-- The first container among `ls` that lists an id. -/
def lister? (ls : List (UInt16 × UInt16)) (id : UInt16) : Option UInt16 :=
  (ls.find? (·.2 = id)).map (·.1)

theorem lister?_cons (parent child : UInt16) (ls : List (UInt16 × UInt16)) (id : UInt16) :
    lister? ((parent, child) :: ls) id = if child = id then some parent else lister? ls id := by
  by_cases h : child = id <;> simp [lister?, h]

theorem mem_of_lister? {ls : List (UInt16 × UInt16)} {id p : UInt16} (h : lister? ls id = some p) :
    (p, id) ∈ ls := by
  obtain ⟨⟨q, c⟩, hf, rfl⟩ := Option.map_eq_some_iff.1 h
  have hc : c = id := by simpa using List.find?_some hf
  exact hc ▸ List.mem_of_find?_eq_some hf

theorem lt_size_of_declares {id : UInt16} (h : declares slots id = true) : id.toNat < slots.size := by
  by_contra hn
  simp [declares, Array.getD_eq_getD_getElem?, Array.getElem?_eq_none (Nat.le_of_not_lt hn)] at h

/-- What holds once the owners `owners` have become `owners'` through the links `ls`. -/
structure Assigned (slots : Array (Option Declaration)) (ls : List (UInt16 × UInt16))
    (owners owners' : Array (Option UInt16)) : Prop where
  ne : ∀ l ∈ ls, l.2 ≠ l.1
  declared : ∀ l ∈ ls, declares slots l.2 = true
  free : ∀ l ∈ ls, owners.getD l.2.toNat none = none
  nodup : (ls.map (·.2)).Nodup
  owner : ∀ id : UInt16, owners'.getD id.toNat none = (owners.getD id.toNat none).or (lister? ls id)

theorem assignOwners_spec {ls : List (UInt16 × UInt16)} {owners owners' : Array (Option UInt16)}
    (hsize : owners.size = slots.size) (h : assignOwners slots ls owners = .ok owners') :
    Assigned slots ls owners owners' := by
  induction ls generalizing owners with
  | nil => cases h; exact ⟨by simp, by simp, by simp, by simp, by simp [lister?]⟩
  | cons l ls ih =>
    obtain ⟨parent, child⟩ := l
    simp only [assignOwners] at h
    split at h
    · nomatch h
    next hne =>
    split at h
    · nomatch h
    next hdecl =>
    have hdecl : declares slots child = true := by simpa using hdecl
    split at h
    · nomatch h
    next hfree =>
    have hlt : child.toNat < owners.size := hsize ▸ lt_size_of_declares hdecl
    have rest := ih (by simpa using hsize) h
    -- an id that the rest lists is still without an owner after this link, so it is not `child`
    have hother : ∀ l ∈ ls, l.2 ≠ child ∧ owners.getD l.2.toNat none = none := by
      intro l hl
      have := rest.free l hl
      rw [getD_setIfInBounds _ _ _ _ hlt] at this
      split at this
      · nomatch this
      · next hc => exact ⟨fun e => hc (by rw [e]), this⟩
    refine ⟨List.forall_mem_cons.2 ⟨hne, rest.ne⟩, List.forall_mem_cons.2 ⟨hdecl, rest.declared⟩,
      List.forall_mem_cons.2 ⟨hfree, fun l hl => (hother l hl).2⟩, ?_, fun id => ?_⟩
    · refine List.nodup_cons.2 ⟨fun hm => ?_, rest.nodup⟩
      obtain ⟨l, hl, he⟩ := List.mem_map.1 hm
      exact (hother l hl).1 he
    · rw [rest.owner id, getD_setIfInBounds _ _ _ _ hlt, lister?_cons]
      by_cases hc : child = id
      · subst hc; simp [hfree]
      · simp [hc, UInt16.toNat_inj]

/-! ### The linked table -/

/-- The parent that the declarations give an id: the container that lists it, or else the parent of its
group. -/
def declaredParent? (slots : Array (Option Declaration)) (id : UInt16) : Option UInt16 :=
  (slots.getD id.toNat none).bind fun d => (lister? (links slots) id).or (Declaration.groupOwner? d)

theorem mem_links {parent child : UInt16} : (parent, child) ∈ links slots ↔
    ∃ d, some d ∈ slots.toList ∧ d.interface.id = parent ∧ child ∈ d.interface.declaredChildren := by
  simp only [links, List.mem_flatMap]
  constructor
  · rintro ⟨slot, hs, h⟩
    cases slot with
    | none => simp at h
    | some d =>
      obtain ⟨c, hc, he⟩ := List.mem_map.1 h
      cases he
      exact ⟨d, hs, rfl, hc⟩
  · rintro ⟨d, hs, rfl, hc⟩
    exact ⟨some d, hs, List.mem_map.2 ⟨child, hc, rfl⟩⟩

theorem getD_of_mem {d : Declaration} (hf : Filed slots) (h : some d ∈ slots.toList) :
    slots.getD d.interface.id.toNat none = some d := by
  obtain ⟨k, hk⟩ := some_mem_toList.1 h
  rw [hf k d hk, hk]

theorem declares_of_mem_links {parent child : UInt16} (hf : Filed slots)
    (h : (parent, child) ∈ links slots) : declares slots parent = true := by
  obtain ⟨d, hd, rfl, -⟩ := mem_links.1 h
  simp [declares, getD_of_mem hf hd]

/-- What a file that links looks like. -/
theorem link_spec {t : InterfaceTable} (h : link slots = .ok t) :
    ∃ owners, Assigned slots (links slots) (Array.replicate slots.size none) owners ∧
      checkGroups slots = .ok () ∧ t.slots = slots.map fun slot => slot.map (linked owners) := by
  unfold link at h
  cases ha : assignOwners slots (links slots) (Array.replicate slots.size none) with
  | error e => rw [ha] at h; nomatch h
  | ok owners =>
    rw [ha] at h
    cases hg : checkGroups slots with
    | error e => simp [hg, bind, Except.bind] at h
    | ok u =>
      simp only [hg, bind, Except.bind, pure, Except.pure, Except.ok.injEq] at h
      exact ⟨owners, assignOwners_spec (by simp) ha, rfl, by rw [← h]⟩

theorem declares_of_checkGroups {d : Declaration} {p : UInt16} (h : checkGroups slots = .ok ())
    (hd : some d ∈ slots.toList) (hp : Declaration.groupOwner? d = some p) : declares slots p = true := by
  unfold checkGroups at h
  split at h
  · nomatch h
  · next hn =>
    have := List.findSome?_eq_none_iff.1 hn d (List.mem_filterMap.2 ⟨some d, hd, rfl⟩)
    rw [hp] at this
    by_contra hc
    simp [hc] at this

section Linked
variable {t : InterfaceTable}

/-- What stands under an id is its declaration with its parent and its children filled in. -/
theorem getD_of_link (h : link slots = .ok t) :
    ∃ owners : Array (Option UInt16),
      (∀ k, t.slots.getD k none = (slots.getD k none).map (linked owners)) ∧
      ∀ id : UInt16, owners.getD id.toNat none = lister? (links slots) id := by
  obtain ⟨owners, ha, -, ht⟩ := link_spec h
  refine ⟨owners, fun k => ?_, fun id => ?_⟩
  · simp only [ht, Array.getD_eq_getD_getElem?, Array.getElem?_map]
    cases slots[k]? <;> rfl
  · rw [ha.owner, Array.getD_eq_getD_getElem?, Array.getElem?_replicate]
    split <;> rfl

theorem isSome_get?_of_link (h : link slots = .ok t) (id : UInt16) :
    (t.get? id).isSome = declares slots id := by
  obtain ⟨owners, hg, -⟩ := getD_of_link h
  rw [get?, hg, Option.isSome_map]
  rfl

theorem id_of_getD (h : link slots = .ok t) (hf : Filed slots) {k : Nat} {i : Interface}
    (hi : t.slots.getD k none = some i) : i.id.toNat = k := by
  obtain ⟨owners, hg, -⟩ := getD_of_link h
  rw [hg] at hi
  obtain ⟨d, hd, rfl⟩ := Option.map_eq_some_iff.1 hi
  exact hf _ d hd

theorem get?_of_mem_toList (h : link slots = .ok t) (hf : Filed slots) {i : Interface} (hi : i ∈ t.toList) :
    t.get? i.id = some i := by
  obtain ⟨k, hk⟩ := some_mem_toList.1 (mem_toList.1 hi)
  rw [get?, id_of_getD h hf hk, hk]

/-- The parent of every interface is the one that the declarations give it. -/
theorem parent_of_link (h : link slots = .ok t) (hf : Filed slots) (id : UInt16) :
    ((t.get? id).bind fun i => i.parent) = declaredParent? slots id := by
  obtain ⟨owners, hg, ho⟩ := getD_of_link h
  rw [get?, hg, declaredParent?]
  cases hd : slots.getD id.toNat none with
  | none => rfl
  | some d =>
    have hid : d.interface.id.toNat = id.toNat := hf _ d hd
    simp only [Option.map_some, Option.bind_some, linked, hid, ho]

/-- The parent of an interface is another interface of the table. -/
theorem parent_declared (h : link slots = .ok t) (hf : Filed slots) {id p : UInt16}
    (hp : declaredParent? slots id = some p) : p ≠ id ∧ declares slots p = true := by
  obtain ⟨owners, ha, hc, -⟩ := link_spec h
  obtain ⟨d, hd, hp⟩ := Option.bind_eq_some_iff.1 hp
  have hid : d.interface.id = id := UInt16.toNat_inj.1 (hf _ d hd)
  rcases Option.or_eq_some_iff.1 hp with hl | ⟨-, hg⟩
  · have hm := mem_of_lister? hl
    exact ⟨fun e => ha.ne _ hm e.symm, declares_of_mem_links hf hm⟩
  · refine ⟨?_, declares_of_checkGroups hc (some_mem_toList.2 ⟨_, hd⟩) hg⟩
    have := (Option.filter_eq_some_iff.1 hg).2
    rw [hid] at this
    simpa using this

end Linked

end InterfaceTable

end AssetCache
