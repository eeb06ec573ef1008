import Mathlib
import AssetCache.Interface.Records
import AssetCache.Proofs.InterfaceLinks

/-!
# Which interface files link

The records of a file become declarations (`run_readDeclarations`), nothing else does
(`exists_spells_of_readDeclarations`), and declarations link exactly when nothing is wrong with any of them
(`link_isOk_iff`). Main statements: `decode_isOk_iff`, which files are decoded, and `decode_records`, which
records can be linked and what every interface of the table is then.
-/

namespace AssetCache.InterfaceTable
open ByteReader InterfaceRecord
variable {max : UInt16} {slots : Array (Option Declaration)} {ds : List Declaration}
  {rs : List InterfaceRecord} {t : InterfaceTable}

/-! ### Slots -/

/-- What stands under its own number stands in ascending order. -/
theorem pairwise_reduceOption {α : Type} {key : α → UInt16} {a : Array (Option α)}
    (h : ∀ k x, a.getD k none = some x → (key x).toNat = k) :
    (a.toList.reduceOption.map key).Pairwise (· < ·) := by
  rw [List.pairwise_map, List.reduceOption, List.pairwise_filterMap, List.pairwise_iff_getElem]
  intro i j hi hj hij x hx y hy
  have hget : ∀ k z (hk : k < a.toList.length), a.toList[k] = some z → (key z).toNat = k := by
    intro k z hk hz
    refine h k z ?_
    rw [Array.getD_eq_getD_getElem?, ← Array.getElem?_toList, List.getElem?_eq_getElem hk, hz]
    rfl
  change (key x).toNat < (key y).toNat
  rw [hget i x hi hx, hget j y hj hy]
  exact hij

/-- That slots hold exactly the given declarations, each under its id. -/
structure Holds (slots : Array (Option Declaration)) (ds : List Declaration) : Prop where
  filed : Filed slots
  mem : ∀ d, some d ∈ slots.toList ↔ d ∈ ds

theorem Holds.empty (n : Nat) : Holds (Array.replicate n none) [] := by
  refine ⟨Filed.empty n, fun d => ?_⟩
  simp

theorem Holds.set (h : Holds slots ds) {d : Declaration} (hlt : d.interface.id.toNat < slots.size)
    (hfree : slots.getD d.interface.id.toNat none = none) :
    Holds (slots.setIfInBounds d.interface.id.toNat (some d)) (ds ++ [d]) := by
  refine ⟨h.filed.set d, fun d' => ?_⟩
  rw [List.mem_append, List.mem_singleton, ← h.mem, some_mem_toList, some_mem_toList]
  constructor
  · rintro ⟨k, hk⟩
    rw [getD_setIfInBounds _ _ _ _ hlt] at hk
    split at hk
    · exact .inr (Option.some.inj hk).symm
    · exact .inl ⟨k, hk⟩
  · rintro (⟨k, hk⟩ | rfl)
    · refine ⟨k, ?_⟩
      have hne : d.interface.id.toNat ≠ k := by
        rintro rfl
        rw [hfree] at hk
        nomatch hk
      rw [getD_setIfInBounds _ _ _ _ hlt, if_neg hne, hk]
    · exact ⟨_, by rw [getD_setIfInBounds _ _ _ _ hlt, if_pos rfl]⟩

theorem Holds.getD (h : Holds slots ds) {d : Declaration} (hd : d ∈ ds) :
    slots.getD d.interface.id.toNat none = some d := getD_of_mem h.filed ((h.mem d).2 hd)

theorem Holds.declares (h : Holds slots ds) {id : UInt16} :
    declares slots id = true ↔ id ∈ ds.map (·.interface.id) := by
  rw [InterfaceTable.declares, Option.isSome_iff_exists, List.mem_map]
  constructor
  · rintro ⟨d, hd⟩
    exact ⟨d, (h.mem d).1 (some_mem_toList.2 ⟨_, hd⟩), UInt16.toNat_inj.1 (h.filed _ d hd)⟩
  · rintro ⟨d, hd, rfl⟩
    exact ⟨d, h.getD hd⟩

/-- Slots hold their declarations in the order of the ids. -/
theorem Holds.perm (h : Holds slots ds) (hnodup : (ds.map (·.interface.id)).Nodup) :
    slots.toList.reduceOption.Perm ds := by
  have hslots : (slots.toList.reduceOption.map (·.interface.id)).Nodup :=
    (pairwise_reduceOption h.filed).imp fun hlt => UInt16.ne_of_lt hlt
  refine (List.perm_ext_iff_of_nodup (List.Nodup.of_map _ hslots) (List.Nodup.of_map _ hnodup)).2 fun d => ?_
  rw [← h.mem, List.reduceOption_mem_iff]

/-! ### Reading records -/

/-- The declarations that records are, in a group with the given parent. -/
def declarations (group : Option UInt16) : List InterfaceRecord → List Declaration
  | [] => []
  | r :: rs => ⟨r.interface, r.marker.or group⟩ :: declarations (r.marker.or group) rs

theorem groupParent?_zero (r : InterfaceRecord) (rs : List InterfaceRecord) :
    groupParent? (r :: rs) 0 = r.marker := by
  obtain ⟨_ | p, i⟩ := r <;> rfl

theorem groupParent?_succ (r : InterfaceRecord) (rs : List InterfaceRecord) (place : Nat) :
    groupParent? (r :: rs) (place + 1) = (groupParent? rs place).or r.marker := by
  obtain ⟨_ | p, i⟩ := r
  · exact (Option.or_none).symm
  · simp [groupParent?, List.getLast?_cons]

theorem getElem?_declarations (group : Option UInt16) (rs : List InterfaceRecord) (place : Nat) :
    (declarations group rs)[place]? =
      rs[place]?.map fun r => ⟨r.interface, (groupParent? rs place).or group⟩ := by
  induction rs generalizing group place with
  | nil => rfl
  | cons r rs ih =>
    cases place with
    | zero => rw [groupParent?_zero]; rfl
    | succ place =>
      rw [groupParent?_succ, declarations, List.getElem?_cons_succ, ih, List.getElem?_cons_succ]
      simp only [Option.or_assoc]

theorem map_interface_declarations (group : Option UInt16) (rs : List InterfaceRecord) :
    (declarations group rs).map (·.interface) = rs.map (·.interface) := by
  induction rs generalizing group with
  | nil => rfl
  | cons r rs ih => rw [declarations, List.map_cons, ih, List.map_cons]

theorem map_id_declarations (group : Option UInt16) (rs : List InterfaceRecord) :
    (declarations group rs).map (·.interface.id) = ids rs := by
  have h := congrArg (List.map (·.id)) (map_interface_declarations group rs)
  rwa [List.map_map, List.map_map] at h

theorem exists_mem_declarations {P : Interface → Prop} :
    (∃ d ∈ declarations none rs, P d.interface) ↔ ∃ r ∈ rs, P r.interface := by
  have h : ∀ i, (∃ d ∈ declarations none rs, d.interface = i) ↔ ∃ r ∈ rs, r.interface = i := fun i => by
    rw [← List.mem_map, map_interface_declarations, List.mem_map]
  constructor
  · rintro ⟨d, hd, hp⟩
    obtain ⟨r, hr, he⟩ := (h _).1 ⟨d, hd, rfl⟩
    exact ⟨r, hr, he ▸ hp⟩
  · rintro ⟨r, hr, hp⟩
    obtain ⟨d, hd, he⟩ := (h _).2 ⟨r, hr, rfl⟩
    exact ⟨d, hd, he ▸ hp⟩

theorem run_checkId {id : UInt16} (h : id < max) (s : Bytes) :
    (Interface.checkId id max).run s = .ok ((), s) := by
  rw [Interface.checkId, if_pos h]
  rfl

theorem lt_of_run_checkId {id : UInt16} {s r : Bytes} (h : (Interface.checkId id max).run s = .ok ((), r)) :
    id < max ∧ s = r := by
  unfold Interface.checkId at h
  split at h
  · next hlt =>
    cases h
    exact ⟨hlt, rfl⟩
  · nomatch h

theorem ne_groupMarker_of_lt {id : UInt16} (h : id < max) : id ≠ groupMarker := by
  rintro rfl
  have hlt : 65535 < max.toNat := h
  have := max.toNat_lt
  omega

theorem run_readHead {head : Bytes} {marker : Option UInt16} {id : UInt16} (h : Head max head marker id)
    (group : Option UInt16) (s : Bytes) :
    (readHead max group).run (head ++ s) = .ok ((marker.or group, id), s) := by
  unfold readHead
  cases h with
  | plain hid =>
    rw [Reader.run_bind_of_ok (run_u16_append _ _), if_neg (ne_groupMarker_of_lt hid),
      Reader.run_bind_of_ok (run_checkId hid _)]
    rfl
  | marked hparent hid =>
    rw [List.append_assoc, List.append_assoc, Reader.run_bind_of_ok (run_u16_append _ _), if_pos rfl,
      Reader.run_bind_of_ok (run_u16_append _ _), Reader.run_bind_of_ok (run_checkId hparent _),
      Reader.run_bind_of_ok (run_u16_append _ _), Reader.run_bind_of_ok (run_checkId hid _)]
    rfl

/-- Whatever is read as the head of a record is one. -/
theorem exists_head_of_run {group group' : Option UInt16} {id : UInt16} {s r : Bytes}
    (h : (readHead max group).run s = .ok ((group', id), r)) :
    ∃ head marker, s = head ++ r ∧ Head max head marker id ∧ group' = marker.or group := by
  obtain ⟨w, t, hw, htail⟩ := Reader.run_bind_eq_ok.1 h
  rw [eq_of_run_u16 hw]
  split at htail
  · next hmarker =>
    obtain ⟨parent, t₁, hparent, hrest⟩ := Reader.run_bind_eq_ok.1 htail
    obtain ⟨⟨⟩, t₂, hcheck, hrest⟩ := Reader.run_bind_eq_ok.1 hrest
    obtain ⟨id', t₃, hid, hrest⟩ := Reader.run_bind_eq_ok.1 hrest
    obtain ⟨⟨⟩, t₄, hcheck', hrest⟩ := Reader.run_bind_eq_ok.1 hrest
    obtain ⟨hlt, rfl⟩ := lt_of_run_checkId hcheck
    obtain ⟨hlt', rfl⟩ := lt_of_run_checkId hcheck'
    cases hrest
    refine ⟨_, some parent, ?_, .marked hlt hlt', rfl⟩
    rw [eq_of_run_u16 hparent, eq_of_run_u16 hid, hmarker, List.append_assoc, List.append_assoc]
  · obtain ⟨⟨⟩, t₁, hcheck, hrest⟩ := Reader.run_bind_eq_ok.1 htail
    obtain ⟨hlt, rfl⟩ := lt_of_run_checkId hcheck
    cases hrest
    exact ⟨_, none, rfl, .plain hlt, rfl⟩

theorem lt_of_head {head : Bytes} {marker : Option UInt16} {id : UInt16} (h : Head max head marker id) :
    id < max := by
  cases h <;> assumption

/-- A record whose id is free is filed under it. -/
theorem run_more {p : Progress} {s body rest : Bytes} {group : Option UInt16} {id : UInt16} {i : Interface}
    (hhead : (readHead max p.groupParent).run s = .ok ((group, id), body))
    (hread : (Interface.read id max).run body = .ok (i, rest)) (hfree : p.slots.getD id.toNat none = none) :
    (more max p).run s =
      .ok (.inl { slots := p.slots.setIfInBounds id.toNat (some ⟨i, group⟩), groupParent := group }, rest) := by
  have hne : s.isEmpty = false := by
    cases s with
    | nil => nomatch hhead
    | cons => rfl
  have hmap : ((Interface.read id max).mapError (LoadError.definition .interface id.toNat)).run body =
      .ok (i, rest) := by
    simp only [Reader.mapError, hread]
  unfold more
  rw [Reader.run_bind_of_ok (Reader.run_atEnd s), hne, if_neg Bool.false_ne_true, Reader.run_bind_of_ok hhead]
  dsimp only
  rw [Reader.run_bind_of_ok hmap, hfree]
  rfl

theorem run_more_nil (p : Progress) : (more max p).run [] = .ok (.inr p.slots, []) := rfl

/-- Records with ids that are free and all different are all filed. -/
theorem run_loop_more {s : Bytes} (h : Spells max s rs) {p : Progress} (hsize : p.slots.size = max.toNat)
    (hholds : Holds p.slots ds) (hnodup : (ds.map (·.interface.id) ++ ids rs).Nodup) :
    ∃ slots, (Reader.loop (more max) (progress_more max) p).run s = .ok (slots, []) ∧
      Holds slots (ds ++ declarations p.groupParent rs) := by
  -- `ds` is what the records before these have been filed as
  induction h generalizing p ds with
  | nil =>
    refine ⟨p.slots, ?_, by simpa [declarations] using hholds⟩
    rw [Reader.run_loop, run_more_nil]
  | @cons head body rest marker id i rs hhead hread _ ih =>
    obtain rfl := Interface.id_of_read hread
    have hlt : i.id.toNat < p.slots.size := hsize ▸ lt_of_head hhead
    have hfree : p.slots.getD i.id.toNat none = none := by
      by_contra hc
      have hd : i.id ∈ ds.map (·.interface.id) := hholds.declares.1 (Option.isSome_iff_ne_none.2 hc)
      exact (List.nodup_append.1 hnodup).2.2 _ hd _ List.mem_cons_self rfl
    let d : Declaration := ⟨i, marker.or p.groupParent⟩
    let p' : Progress := ⟨p.slots.setIfInBounds i.id.toNat (some d), d.groupParent⟩
    have hsize' : p'.slots.size = max.toNat := Array.size_setIfInBounds.trans hsize
    have hnodup' : ((ds ++ [d]).map (·.interface.id) ++ ids rs).Nodup := by simpa [ids] using hnodup
    obtain ⟨slots, hrun, hslots⟩ := ih hsize' (hholds.set (d := d) hlt hfree) hnodup'
    refine ⟨slots, ?_, by simpa [declarations] using hslots⟩
    rw [Reader.run_loop, run_more (run_readHead hhead _ _) hread hfree]
    exact hrun

/-- The records of a file are its declarations. -/
theorem run_readDeclarations {s : Bytes} (h : Spells max s rs) (hnodup : (ids rs).Nodup) :
    ∃ slots, readDeclarations.run (Bytes.ofU16 max ++ s) = .ok (slots, []) ∧
      Holds slots (declarations none rs) := by
  let p : Progress := ⟨Array.replicate max.toNat none, none⟩
  have hsize : p.slots.size = max.toNat := Array.size_replicate
  have hholds : Holds p.slots [] := Holds.empty _
  obtain ⟨slots, hrun, hslots⟩ := run_loop_more h hsize hholds (by simpa using hnodup)
  refine ⟨slots, ?_, by simpa using hslots⟩
  rw [readDeclarations, Reader.run_bind_of_ok (run_u16_append _ _)]
  exact hrun

/-- Whatever is filed after records with different ids is such records. -/
theorem exists_spells_of_loop {p : Progress} {s r : Bytes} (hsize : p.slots.size = max.toNat)
    (hholds : Holds p.slots ds) (hnodup : (ds.map (·.interface.id)).Nodup)
    (h : (Reader.loop (more max) (progress_more max) p).run s = .ok (slots, r)) :
    ∃ rs, Spells max s rs ∧ (ds.map (·.interface.id) ++ ids rs).Nodup := by
  simp only [Reader.loop] at h
  -- step by step: every step but the last takes one record off the front and files it
  fun_induction Reader.iterate (more max) (progress_more max) p s generalizing ds with
  | case1 => cases h
  | case2 p s p' t hstep ih =>
    obtain ⟨-, -, hx⟩ | ⟨group, i, body, hhead, hread, hfree, hx⟩ := more_cases hstep
    · cases hx
    · obtain rfl := Sum.inl.inj hx
      obtain ⟨head, marker, rfl, hhead, -⟩ := exists_head_of_run hhead
      have hlt : i.id.toNat < p.slots.size := hsize ▸ lt_of_head hhead
      have hnew : i.id ∉ ds.map (·.interface.id) := fun hd =>
        Option.isSome_iff_ne_none.1 (hholds.declares.2 hd) hfree
      have hnodup' : ((ds ++ [(⟨i, group⟩ : Declaration)]).map (·.interface.id)).Nodup := by
        rw [List.map_append]
        exact hnodup.append (List.nodup_singleton _) (List.disjoint_singleton.2 hnew)
      obtain ⟨rs, hspells, hids⟩ := ih (Array.size_setIfInBounds.trans hsize)
        (hholds.set (d := ⟨i, group⟩) hlt hfree) hnodup' h
      exact ⟨⟨marker, i⟩ :: rs, .cons hhead hread hspells, by simpa [ids] using hids⟩
  | case3 p s b t hstep =>
    obtain ⟨rfl, -, -⟩ | ⟨_, _, _, _, _, _, hx⟩ := more_cases hstep
    · exact ⟨[], .nil, by simpa [ids] using hnodup⟩
    · cases hx

/-- Every file that is read is one of records with different ids. -/
theorem exists_spells_of_readDeclarations {file r : Bytes} (h : readDeclarations.run file = .ok (slots, r)) :
    ∃ max s rs, file = Bytes.ofU16 max ++ s ∧ Spells max s rs ∧ (ids rs).Nodup := by
  obtain ⟨max, s, hmax, hloop⟩ := Reader.run_bind_eq_ok.1 h
  obtain ⟨rs, hspells, hnodup⟩ := exists_spells_of_loop (p := ⟨Array.replicate max.toNat none, none⟩)
    Array.size_replicate (Holds.empty _) List.nodup_nil hloop
  exact ⟨max, s, rs, eq_of_run_u16 hmax, hspells, hnodup⟩

/-! ### Linking them -/

theorem declares_iff (h : Holds slots (declarations none rs)) {id : UInt16} :
    declares slots id = true ↔ id ∈ ids rs := by
  rw [h.declares, map_id_declarations]

theorem mem_links_iff (h : Holds slots (declarations none rs)) {parent child : UInt16} :
    (parent, child) ∈ links slots ↔
      ∃ r ∈ rs, r.interface.id = parent ∧ child ∈ r.interface.declaredChildren := by
  simp only [mem_links, h.mem]
  exact exists_mem_declarations (P := fun i => i.id = parent ∧ child ∈ i.declaredChildren)

theorem map_snd_links (slots : Array (Option Declaration)) :
    (links slots).map (·.2) = slots.toList.reduceOption.flatMap (·.interface.declaredChildren) := by
  unfold links
  induction slots.toList with
  | nil => rfl
  | cons slot l ih =>
    cases slot with
    | none => simpa using ih
    | some d => simpa [Function.comp_def] using ih

/-- What the containers list, in whatever order. -/
theorem perm_links (h : Holds slots (declarations none rs)) (hnodup : (ids rs).Nodup) :
    ((links slots).map (·.2)).Perm (rs.flatMap (·.interface.declaredChildren)) := by
  have hperm := (h.perm (by rwa [map_id_declarations])).flatMap_right (·.interface.declaredChildren)
  have hmap := congrArg (List.flatMap Interface.declaredChildren) (map_interface_declarations none rs)
  rw [List.flatMap_map, List.flatMap_map] at hmap
  rw [map_snd_links, ← hmap]
  exact hperm

/-- Owners are assigned as long as nothing is wrong with a link. -/
theorem assignOwners_isOk {ls : List (UInt16 × UInt16)} {owners : Array (Option UInt16)}
    (hsize : owners.size = slots.size) (hne : ∀ l ∈ ls, l.2 ≠ l.1)
    (hdeclared : ∀ l ∈ ls, declares slots l.2 = true)
    (hfree : ∀ l ∈ ls, owners.getD l.2.toNat none = none) (hnodup : (ls.map (·.2)).Nodup) :
    ∃ owners', assignOwners slots ls owners = .ok owners' := by
  induction ls generalizing owners with
  | nil => exact ⟨owners, rfl⟩
  | cons l ls ih =>
    obtain ⟨parent, child⟩ := l
    obtain ⟨hne, hnes⟩ := List.forall_mem_cons.1 hne
    obtain ⟨hdeclared, hdeclareds⟩ := List.forall_mem_cons.1 hdeclared
    obtain ⟨hfree, hfrees⟩ := List.forall_mem_cons.1 hfree
    obtain ⟨hother, hnodup⟩ := List.nodup_cons.1 hnodup
    have hlt : child.toNat < owners.size := hsize ▸ lt_size_of_declares hdeclared
    let owned := owners.setIfInBounds child.toNat (some parent)
    have hsize' : owned.size = slots.size := Array.size_setIfInBounds.trans hsize
    have hfrees' : ∀ l ∈ ls, owned.getD l.2.toNat none = none := by
      intro l hl
      have hchild : child.toNat ≠ l.2.toNat := fun e => hother (by
        rw [UInt16.toNat_inj.1 e]
        exact List.mem_map_of_mem (f := (·.2)) hl)
      rw [getD_setIfInBounds _ _ _ _ hlt, if_neg hchild]
      exact hfrees l hl
    obtain ⟨owners', h⟩ := ih hsize' hnes hdeclareds hfrees' hnodup
    refine ⟨owners', ?_⟩
    dsimp only at hne hdeclared hfree
    simp only [assignOwners, if_neg hne, hdeclared, hfree]
    exact h

theorem checkGroups_of_declares
    (h : ∀ d, some d ∈ slots.toList → ∀ p, Declaration.groupOwner? d = some p → declares slots p = true) :
    checkGroups slots = .ok () := by
  unfold checkGroups
  have hnone : (slots.toList.reduceOption.findSome? fun d =>
      (Declaration.groupOwner? d).bind fun parent =>
        if declares slots parent then none else some (d.interface.id, parent)) = none := by
    refine List.findSome?_eq_none_iff.2 fun d hd => ?_
    cases hp : Declaration.groupOwner? d with
    | none => rfl
    | some p => simp [h d (List.reduceOption_mem_iff.1 hd) p hp]
  rw [hnone]

theorem groupOwner?_eq_some {d : Declaration} {p : UInt16} :
    Declaration.groupOwner? d = some p ↔ d.groupParent = some p ∧ p ≠ d.interface.id := by
  simp [Declaration.groupOwner?, Option.filter_eq_some_iff]

theorem declaration_of_getElem? {place : Nat} {r : InterfaceRecord} (hr : rs[place]? = some r) :
    ⟨r.interface, groupParent? rs place⟩ ∈ declarations none rs := by
  refine List.mem_iff_getElem?.2 ⟨place, ?_⟩
  rw [getElem?_declarations, hr, Option.map_some, Option.or_none]

/-- Declarations link exactly when nothing is wrong with the records that they are. -/
theorem link_isOk_iff (h : Holds slots (declarations none rs)) (hnodup : (ids rs).Nodup) :
    (∃ t, link slots = .ok t) ↔ Linkable rs := by
  constructor
  · rintro ⟨t, ht⟩
    obtain ⟨owners, ha, hgroups, -⟩ := link_spec ht
    refine ⟨fun r hr hc => ?_, fun r hr c hc => ?_, ?_, fun place r p hr hp hne => ?_⟩
    · exact ha.ne _ ((mem_links_iff h).2 ⟨r, hr, rfl, hc⟩) rfl
    · exact (declares_iff h).1 (ha.declared _ ((mem_links_iff h).2 ⟨r, hr, rfl, hc⟩))
    · exact (perm_links h hnodup).nodup_iff.1 ha.nodup
    · refine (declares_iff h).1 (declares_of_checkGroups hgroups
        ((h.mem _).2 (declaration_of_getElem? hr)) (groupOwner?_eq_some.2 ⟨hp, hne⟩))
  · intro hl
    have hmem : ∀ l ∈ links slots, ∃ r ∈ rs, r.interface.id = l.1 ∧ l.2 ∈ r.interface.declaredChildren :=
      fun l hm => (mem_links_iff h).1 hm
    have hne : ∀ l ∈ links slots, l.2 ≠ l.1 := by
      intro l hm e
      obtain ⟨r, hr, hid, hc⟩ := hmem l hm
      exact hl.not_self r hr (by rwa [hid, ← e])
    have hdeclared : ∀ l ∈ links slots, declares slots l.2 = true := by
      intro l hm
      obtain ⟨r, hr, -, hc⟩ := hmem l hm
      exact (declares_iff h).2 (hl.child r hr _ hc)
    have hfree : ∀ l ∈ links slots, (Array.replicate slots.size (none : Option UInt16)).getD l.2.toNat none =
        none := by
      intro l _
      rw [Array.getD_eq_getD_getElem?, Array.getElem?_replicate]
      split <;> rfl
    obtain ⟨owners, howners⟩ := assignOwners_isOk Array.size_replicate hne hdeclared hfree
      ((perm_links h hnodup).nodup_iff.2 hl.once)
    have hgroups : checkGroups slots = .ok () := by
      refine checkGroups_of_declares fun d hd p hp => ?_
      obtain ⟨place, hplace⟩ := List.mem_iff_getElem?.1 ((h.mem d).1 hd)
      rw [getElem?_declarations] at hplace
      obtain ⟨r, hr, rfl⟩ := Option.map_eq_some_iff.1 hplace
      obtain ⟨hp, hne⟩ := groupOwner?_eq_some.1 hp
      rw [Option.or_none] at hp
      exact (declares_iff h).2 (hl.group place r p hr hp hne)
    refine ⟨⟨slots.map fun slot => slot.map (linked owners)⟩, ?_⟩
    rw [link, howners]
    simp only [bind, Except.bind, hgroups]
    rfl

/-! ### The linked table -/

theorem lister?_of_mem {ls : List (UInt16 × UInt16)} {parent child : UInt16} (hnodup : (ls.map (·.2)).Nodup)
    (h : (parent, child) ∈ ls) : lister? ls child = some parent := by
  cases hf : lister? ls child with
  | none =>
    have := List.find?_eq_none.1 (Option.map_eq_none_iff.1 hf) _ h
    simp at this
  | some q =>
    have := List.inj_on_of_nodup_map hnodup (mem_of_lister? hf) h rfl
    exact congrArg some (Prod.mk.inj this).1

theorem map_id_filterMap {cs : List UInt16} (h : ∀ c ∈ cs, ∃ i, t.get? c = some i ∧ i.id = c) :
    (cs.filterMap t.get?).map (·.id) = cs := by
  induction cs with
  | nil => rfl
  | cons c cs ih =>
    obtain ⟨⟨i, hi, hc⟩, hcs⟩ := List.forall_mem_cons.1 h
    rw [List.filterMap_cons, hi]
    dsimp only
    rw [List.map_cons, hc, ih hcs]

section Linked
variable (h : Holds slots (declarations none rs)) (hnodup : (ids rs).Nodup) (hl : link slots = .ok t)
include h hl

theorem exists_get?_of_mem {id : UInt16} (hid : id ∈ ids rs) : ∃ i, t.get? id = some i ∧ i.id = id := by
  have hsome : (t.get? id).isSome := by rw [isSome_get?_of_link hl, declares_iff h]; exact hid
  obtain ⟨i, hi⟩ := Option.isSome_iff_exists.1 hsome
  exact ⟨i, hi, UInt16.toNat_inj.1 (id_of_getD hl h.filed hi)⟩

include hnodup

/-- What is listed has the container as its parent. -/
theorem parent_of_listed {parent child : UInt16} (hlink : (parent, child) ∈ links slots) {i : Interface}
    (hi : t.get? child = some i) : i.parent = some parent := by
  have hp := parent_of_link hl h.filed child
  obtain ⟨d, hd⟩ : ∃ d, slots.getD child.toNat none = some d := by
    have hdecl := isSome_get?_of_link hl child
    rw [hi] at hdecl
    exact Option.isSome_iff_exists.1 hdecl.symm
  have honce : ((links slots).map (·.2)).Nodup :=
    (perm_links h hnodup).nodup_iff.2 ((link_isOk_iff h hnodup).1 ⟨t, hl⟩).once
  rw [hi, declaredParent?, hd, lister?_of_mem honce hlink] at hp
  exact hp

theorem linkedAt {place : Nat} {r : InterfaceRecord} (hr : rs[place]? = some r) :
    ∃ i, LinkedAt rs t place r i := by
  have hmem : r ∈ rs := List.mem_of_getElem? hr
  have hd := h.getD (declaration_of_getElem? hr)
  obtain ⟨owners, hget, -⟩ := getD_of_link hl
  have hi : t.get? r.interface.id = some (linked owners ⟨r.interface, groupParent? rs place⟩) := by
    rw [get?, hget, hd]
    rfl
  have hparent := parent_of_link hl h.filed r.interface.id
  rw [hi, Option.bind_some] at hparent
  have hlinks : ∀ c ∈ r.interface.declaredChildren, (r.interface.id, c) ∈ links slots := fun c hc =>
    (mem_links_iff h).2 ⟨r, hmem, rfl, hc⟩
  have hchildren : t.childrenOf r.interface.id = r.interface.declaredChildren.filterMap t.get? := by
    rw [childrenOf, hi]
    rfl
  refine ⟨_, hi, rfl, fun q hq hc => ?_, fun hun => ?_, fun hown => ?_, ?_, fun j hj => ?_⟩
  · exact parent_of_listed h hnodup hl ((mem_links_iff h).2 ⟨q, hq, rfl, hc⟩) hi
  · have hnone : lister? (links slots) r.interface.id = none := by
      refine Option.eq_none_iff_forall_ne_some.2 fun p hp => ?_
      obtain ⟨q, hq, -, hc⟩ := (mem_links_iff h).1 (mem_of_lister? hp)
      exact hun q hq hc
    rw [hparent, declaredParent?, hd, Option.bind_some, hnone, Option.none_or]
    rfl
  · rw [hparent] at hown
    exact (parent_declared hl h.filed hown).1 rfl
  · rw [hchildren]
    exact map_id_filterMap fun c hc =>
      exists_get?_of_mem h hl (((link_isOk_iff h hnodup).1 ⟨t, hl⟩).child r hmem c hc)
  · rw [hchildren] at hj
    obtain ⟨c, hc, hcj⟩ := List.mem_filterMap.1 hj
    exact parent_of_listed h hnodup hl (hlinks c hc) hcj

theorem linked_of_link : Linked rs t where
  linked _ _ hr := linkedAt h hnodup hl hr
  mem i := by
    constructor
    · intro hi
      have hget := get?_of_mem_toList hl h.filed hi
      have hsome := isSome_get?_of_link hl i.id
      rw [hget] at hsome
      exact ⟨(declares_iff h).1 hsome.symm, hget⟩
    · rintro ⟨-, hget⟩
      exact mem_toList.2 (some_mem_toList.2 ⟨_, hget⟩)
  ascending := pairwise_reduceOption fun _ _ => id_of_getD hl h.filed

end Linked

/-! ### Files -/

theorem decode_of_spells {s : Bytes} (h : Spells max s rs) (hnodup : (ids rs).Nodup) :
    ∃ slots, decode (Bytes.ofU16 max ++ s) = link slots ∧ Holds slots (declarations none rs) := by
  obtain ⟨slots, hrun, hholds⟩ := run_readDeclarations h hnodup
  refine ⟨slots, ?_, hholds⟩
  simp only [decode, hrun, bind, Except.bind]

/-- The files that are decoded are those of records with different ids that can be linked. -/
theorem decode_isOk_iff {file : Bytes} : (∃ t, decode file = .ok t) ↔
    ∃ max s rs, file = Bytes.ofU16 max ++ s ∧ Spells max s rs ∧ (ids rs).Nodup ∧ Linkable rs := by
  constructor
  · rintro ⟨t, ht⟩
    cases hrun : readDeclarations.run file with
    | error e =>
      rw [decode, hrun] at ht
      nomatch ht
    | ok x =>
      obtain ⟨max, s, rs, rfl, hspells, hnodup⟩ := exists_spells_of_readDeclarations hrun
      obtain ⟨slots, hlink, hholds⟩ := decode_of_spells hspells hnodup
      exact ⟨max, s, rs, rfl, hspells, hnodup, (link_isOk_iff hholds hnodup).1 ⟨t, hlink ▸ ht⟩⟩
  · rintro ⟨max, s, rs, rfl, hspells, hnodup, hl⟩
    obtain ⟨slots, hlink, hholds⟩ := decode_of_spells hspells hnodup
    rw [hlink]
    exact (link_isOk_iff hholds hnodup).2 hl

/-- A file of records with different ids is decoded exactly when they can be linked, and then holds each of them
under its id, linked. -/
theorem decode_records {s : Bytes} (h : Spells max s rs) (hnodup : (ids rs).Nodup) :
    ((∃ t, decode (Bytes.ofU16 max ++ s) = .ok t) ↔ Linkable rs) ∧
      ∀ t, decode (Bytes.ofU16 max ++ s) = .ok t → Linked rs t := by
  obtain ⟨slots, hlink, hholds⟩ := decode_of_spells h hnodup
  rw [hlink]
  exact ⟨link_isOk_iff hholds hnodup, fun t ht => linked_of_link hholds hnodup ht⟩

/-- An interface with nothing but an id and a shape. -/
def bare (id : UInt16) (shape : Shape) : Interface :=
  { id, shape, actionType := 0, contentType := 0, width := 0, height := 0, opacity := 0, hoverId := none,
    conditions := [], scripts := [], actions := none, selectedAction := none, tooltip := none }

/-- A container, what it lists, and an interface in the group of that. -/
def nested : List InterfaceRecord :=
  [⟨none, bare 0 (.container 0 false [⟨1, ⟨0, 0⟩⟩])⟩, ⟨none, bare 1 (.tooltip "a")⟩,
    ⟨some 1, bare 2 (.tooltip "")⟩]

/-- The records as they stand in a file. -/
def nestedBytes : Bytes :=
  [0, 0, 0, 0, 0, 0, 0, 0, 0, 0, 0, 0, 0, 0, 0, 0, 0, 0, 1, 0, 1, 0, 0, 0, 0,
    0, 1, 8, 0, 0, 0, 0, 0, 0, 0, 0, 0, 0, 0, 0x61, 0x0A,
    0xFF, 0xFF, 0, 1, 0, 2, 8, 0, 0, 0, 0, 0, 0, 0, 0, 0, 0, 0, 0x0A]

theorem spells_nested : Spells 3 nestedBytes nested := by
  have head0 : Head 3 (Bytes.ofU16 0) none 0 := .plain (by decide)
  have head1 : Head 3 (Bytes.ofU16 1) none 1 := .plain (by decide)
  have head2 : Head 3 (Bytes.ofU16 groupMarker ++ Bytes.ofU16 1 ++ Bytes.ofU16 2) (some 1) 2 :=
    .marked (by decide) (by decide)
  have from2 : Spells 3 (nestedBytes.drop 41) (nested.drop 2) := .cons head2 (by decide +kernel) .nil
  have from1 : Spells 3 (nestedBytes.drop 25) (nested.drop 1) := .cons head1 (by decide +kernel) from2
  exact .cons head0 (by decide +kernel) from1

theorem decode_records_nested : Linkable nested ∧ ∃ t, decode (Bytes.ofU16 3 ++ nestedBytes) = .ok t ∧
    Linked nested t ∧ (t.childrenOf 0).map (·.id) = [1] ∧ (t.get? 2).bind (·.parent) = some 1 := by
  obtain ⟨hiff, hlinked⟩ := decode_records spells_nested (by decide)
  obtain ⟨t, ht⟩ : ∃ t, decode (Bytes.ofU16 3 ++ nestedBytes) = .ok t := ⟨_, by cbv⟩
  refine ⟨hiff.1 ⟨t, ht⟩, t, ht, hlinked t ht, ?_, ?_⟩
  · obtain ⟨i, hi⟩ := (hlinked t ht).linked 0 _ rfl
    exact hi.children
  · obtain ⟨i, hi⟩ := (hlinked t ht).linked 2 _ rfl
    have hunlisted := hi.unlisted (by decide)
    have hstored := hi.stored
    change t.get? 2 = some i at hstored
    rw [hstored]
    exact hunlisted

end AssetCache.InterfaceTable
