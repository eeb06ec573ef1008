import Mathlib
import AssetCache.Interface.Entries
import AssetCache.Proofs.InterfaceRecords
import AssetCache.Proofs.ReaderRuns

/-!
# The order of records

An interface file is read record by record, but what comes of it depends only on which declarations the records
are (`Holds.eq_of_perm`), and those are a matter of each entry on its own (`Declares`). Main statement:
`decode_perm`, that files with the same entries in different orders become the same table or all fail.
-/

namespace AssetCache

/-! ### Reading with more bytes behind -/

namespace Interface
open ByteReader

theorem steady_flag : Steady flag := recognizes_byte.steady.map _

theorem steady_packedId : Steady packedId := by
  refine recognizes_byte.steady.bind fun high => .ite (fun _ => .pure none) fun _ => ?_
  exact recognizes_byte.steady.bind fun low => .pure _

theorem steady_label : Steady label := recognizes_text.steady.bind fun _ => .pure _

theorem steady_readOffset : Steady readOffset :=
  recognizes_i16.steady.bind fun _ => recognizes_i16.steady.bind fun _ => .pure _

theorem steady_checkId (id max : UInt16) : Steady (checkId id max) :=
  .ite (fun _ => .pure ()) fun _ => .fail _

theorem steady_readStyle : Steady readStyle :=
  steady_flag.bind fun _ => recognizes_byte.steady.bind fun _ => steady_flag.bind fun _ =>
    recognizes_u32.steady.bind fun _ => .pure _

theorem steady_readChild (max : UInt16) : Steady (readChild max) :=
  recognizes_u16.steady.bind fun id => (steady_checkId id max).bind fun _ =>
    steady_readOffset.bind fun _ => .pure _

theorem steady_readSlotSprite : Steady readSlotSprite := by
  refine steady_flag.bind fun there => .ite (fun _ => ?_) fun _ => .pure none
  exact steady_readOffset.bind fun _ => recognizes_text.steady.bind fun _ => .pure _

theorem steady_readCondition : Steady readCondition :=
  recognizes_byte.steady.bind fun _ => recognizes_u16.steady.bind fun _ => .pure _

theorem steady_readScript : Steady readScript :=
  recognizes_u16.steady.bind fun length => recognizes_u16.steady.replicate length.toNat

theorem steady_readContainer (max : UInt16) : Steady (readContainer max) :=
  recognizes_u16.steady.bind fun _ => steady_flag.bind fun _ => recognizes_u16.steady.bind fun count =>
    ((steady_readChild max).replicate count.toNat).bind fun _ => .pure _

theorem steady_readUnused : Steady readUnused :=
  recognizes_u16.steady.bind fun _ => recognizes_byte.steady.bind fun _ => steady_readStyle.map _

theorem steady_readInventory : Steady readInventory :=
  steady_flag.bind fun _ => steady_flag.bind fun _ => steady_flag.bind fun _ => steady_flag.bind fun _ =>
    recognizes_byte.steady.bind fun _ => recognizes_byte.steady.bind fun _ =>
      (steady_readSlotSprite.replicate spriteSlots).bind fun _ => .pure _

theorem steady_readRectangle : Steady readRectangle :=
  steady_flag.bind fun _ => recognizes_u32.steady.bind fun _ => recognizes_u32.steady.bind fun _ =>
    recognizes_u32.steady.bind fun _ => recognizes_u32.steady.bind fun _ => .pure _

theorem steady_readText : Steady readText :=
  steady_flag.bind fun _ => recognizes_byte.steady.bind fun _ => steady_flag.bind fun _ =>
    recognizes_text.steady.bind fun _ => recognizes_text.steady.bind fun _ =>
      recognizes_u32.steady.bind fun _ => recognizes_u32.steady.bind fun _ =>
        recognizes_u32.steady.bind fun _ => recognizes_u32.steady.bind fun _ => .pure _

theorem steady_readSprite : Steady readSprite :=
  steady_label.bind fun _ => steady_label.bind fun _ => .pure _

theorem steady_readModel : Steady readModel :=
  steady_packedId.bind fun _ => steady_packedId.bind fun _ => steady_packedId.bind fun _ =>
    steady_packedId.bind fun _ => recognizes_u16.steady.bind fun _ => recognizes_u16.steady.bind fun _ =>
      recognizes_u16.steady.bind fun _ => .pure _

theorem steady_readItemList : Steady readItemList :=
  steady_readStyle.bind fun _ => steady_readOffset.bind fun _ => steady_flag.bind fun _ => .pure _

theorem steady_readShape (max : UInt16) (typeId : UInt8) : Steady (readShape max typeId) := by
  unfold readShape
  split
  · exact steady_readContainer max
  · exact steady_readUnused
  · exact steady_readInventory
  · exact steady_readRectangle
  · exact steady_readText
  · exact steady_readSprite
  · exact steady_readModel
  · exact steady_readItemList
  · exact .pure _
  · exact .fail _

theorem steady_readSelectedAction : Steady readSelectedAction :=
  recognizes_text.steady.bind fun _ => recognizes_text.steady.bind fun _ =>
    recognizes_u16.steady.bind fun _ => .pure _

theorem steady_readIf {α : Type} {p : ByteReader α} (hp : Steady p) (present : Bool) :
    Steady (readIf present p) :=
  .ite (fun _ => hp.map _) fun _ => .pure none

theorem steady_readTooltipText (shape : Shape) : Steady (readTooltipText shape) := by
  unfold readTooltipText
  split
  · exact recognizes_text.steady.map _
  · exact .pure _

/-- Where a record ends is for its own bytes to say. -/
theorem steady_read (id max : UInt16) : Steady (Interface.read id max) := by
  refine recognizes_byte.steady.bind fun typeId => recognizes_byte.steady.bind fun actionType => ?_
  refine recognizes_u16.steady.bind fun _ => recognizes_u16.steady.bind fun _ => ?_
  refine recognizes_u16.steady.bind fun _ => recognizes_byte.steady.bind fun _ => ?_
  refine steady_packedId.bind fun _ => recognizes_byte.steady.bind fun conditionCount => ?_
  refine (steady_readCondition.replicate _).bind fun _ => recognizes_byte.steady.bind fun scriptCount => ?_
  refine (steady_readScript.replicate _).bind fun _ => (steady_readShape max typeId).bind fun shape => ?_
  refine (steady_readIf (steady_label.replicate actionSlots) _).bind fun _ => ?_
  refine (steady_readIf steady_readSelectedAction _).bind fun _ => ?_
  refine (steady_readTooltipText shape).bind fun _ => ?_
  exact (steady_readIf recognizes_text.steady _).bind fun _ => .pure _

end Interface

/-! ### Entries and declarations -/

namespace InterfaceEntry
open InterfaceTable InterfaceRecord ByteReader
variable {max : UInt16} {group : Option UInt16} {s : Bytes} {e : InterfaceEntry} {es : List InterfaceEntry}
  {ds : List Declaration} {rs : List InterfaceRecord}

/-- A complete record ends where it ends, whatever stands behind it. -/
theorem run_of_isWhole (h : isWhole max e) {rest rest' : Bytes} {i : Interface}
    (hread : (Interface.read e.id max).run (e.record ++ rest) = .ok (i, rest')) :
    (Interface.read e.id max).run e.record = .ok (i, []) ∧ rest' = rest := by
  have hsteady := Interface.steady_read e.id max
  unfold isWhole at h
  split at h
  · next j r hrun =>
    obtain rfl := List.isEmpty_iff.1 h
    have happend := hsteady.run_append hrun rest
    rw [List.nil_append, hread] at happend
    cases happend
    exact ⟨hrun, rfl⟩
  · cases h
  · next e' hne hrun =>
    have hfull : ¬ (Interface.read e.id max).Starves e.record := by
      rintro ⟨needed, remaining, hs⟩
      rw [hrun] at hs
      cases hs
      exact hne needed remaining rfl
    rw [hsteady.error_append hrun hfull rest] at hread
    cases hread

theorem ofU16_append_inj {w w' : UInt16} {r r' : Bytes} (h : Bytes.ofU16 w ++ r = Bytes.ofU16 w' ++ r') :
    w = w' ∧ r = r' := by
  have hrun := run_u16_append w r
  rw [h, run_u16_append] at hrun
  cases hrun
  exact ⟨rfl, rfl⟩

/-- A head says where it ends. -/
theorem head_append_inj {marker marker' : Option UInt16} {id id' : UInt16} {r r' : Bytes}
    (hid : marker = none → id ≠ groupMarker) (hid' : marker' = none → id' ≠ groupMarker)
    (h : head marker id ++ r = head marker' id' ++ r') : marker = marker' ∧ id = id' ∧ r = r' := by
  cases marker <;> cases marker' <;> simp only [head, List.append_assoc] at h
  case none.none =>
    obtain ⟨rfl, rfl⟩ := ofU16_append_inj h
    exact ⟨rfl, rfl, rfl⟩
  case none.some => exact absurd (ofU16_append_inj h).1 (hid rfl)
  case some.none => exact absurd (ofU16_append_inj h).1.symm (hid' rfl)
  case some.some =>
    obtain ⟨-, hparent⟩ := ofU16_append_inj h
    obtain ⟨rfl, hrest⟩ := ofU16_append_inj hparent
    obtain ⟨rfl, rfl⟩ := ofU16_append_inj hrest
    exact ⟨rfl, rfl, rfl⟩

theorem head_ne_nil (marker : Option UInt16) (id : UInt16) : head marker id ≠ [] := by
  cases marker <;> simp [head, Bytes.ofU16]

theorem head_iff {w : Bytes} {marker : Option UInt16} {id : UInt16} :
    Head max w marker id ↔ w = head marker id ∧ id < max ∧ ∀ p ∈ marker, p < max := by
  constructor
  · rintro (hid | ⟨hp, hid⟩)
    · exact ⟨rfl, hid, by simp⟩
    · exact ⟨rfl, hid, by simpa using hp⟩
  · rintro ⟨rfl, hid, hp⟩
    cases marker with
    | none => exact .plain hid
    | some p => exact .marked (hp p rfl) hid

/-- That an entry is in order, and which declaration it is. -/
structure Declares (max : UInt16) (e : InterfaceEntry) (d : Declaration) : Prop where
  id_lt : e.id < max
  parent_lt : ∀ p ∈ e.groupParent, p < max
  run : (Interface.read e.id max).run e.record = .ok (d.interface, [])
  group : d.groupParent = e.groupParent

/-- Entries that are in order are records, and these are their declarations. -/
theorem Lists.spells (h : Lists max group s es) (hds : List.Forall₂ (Declares max) es ds) :
    ∃ rs, Spells max s rs ∧ declarations group rs = ds := by
  induction h generalizing ds with
  | nil =>
    cases hds
    exact ⟨[], .nil, rfl⟩
  | @cons group marker id record rest es _ _ _ ih =>
    obtain ⟨d, ds', hd, hds', rfl⟩ := List.forall₂_cons_left_iff.1 hds
    obtain ⟨rs, hspells, rfl⟩ := ih hds'
    have hmarker : ∀ p ∈ marker, p < max := by
      rintro p rfl
      exact hd.parent_lt p rfl
    have hread := (Interface.steady_read id max).run_append hd.run rest
    refine ⟨⟨marker, d.interface⟩ :: rs, ?_, ?_⟩
    · rw [List.append_assoc]
      exact .cons (head_iff.2 ⟨rfl, hd.id_lt, hmarker⟩) hread hspells
    · have hgroup : marker.or group = d.groupParent := hd.group.symm
      rw [declarations, hgroup]

/-- Entries that are read as records are in order, and their declarations are those of the records. -/
theorem Lists.declares (h : Lists max group s es) (hgroup : ∀ p ∈ group, p < max) (hspells : Spells max s rs) :
    List.Forall₂ (Declares max) es (declarations group rs) := by
  induction h generalizing rs with
  | nil =>
    generalize hs : ([] : Bytes) = s at hspells
    cases hspells with
    | nil => exact .nil
    | cons hhead =>
      rw [(head_iff.1 hhead).1] at hs
      exact absurd (List.append_eq_nil_iff.1 hs.symm).1 (head_ne_nil _ _)
  | @cons group marker id record rest es hid hwhole _ ih =>
    generalize hs : head marker id ++ record ++ rest = s at hspells
    cases hspells with
    | nil =>
      rw [List.append_assoc] at hs
      exact absurd (List.append_eq_nil_iff.1 hs).1 (head_ne_nil _ _)
    | @cons w body rest' marker' id' i rs hhead hread hrest =>
      obtain ⟨rfl, hlt, hmarker⟩ := head_iff.1 hhead
      rw [List.append_assoc] at hs
      obtain ⟨rfl, rfl, rfl⟩ := head_append_inj hid (fun _ => ne_groupMarker_of_lt hlt) hs
      -- what is read is the whole record, so the next one starts where the next entry does
      obtain ⟨hrun, rfl⟩ := run_of_isWhole hwhole hread
      have hgroup' : ∀ p ∈ marker.or group, p < max := by
        intro p hp
        rcases Option.or_eq_some_iff.1 hp with hp | ⟨-, hp⟩
        · exact hmarker p hp
        · exact hgroup p hp
      exact .cons ⟨hlt, hgroup', hrun, rfl⟩ (ih hgroup' hrest)

end InterfaceEntry

namespace InterfaceTable
open ByteReader InterfaceRecord InterfaceEntry
variable {max : UInt16} {slots slots' : Array (Option Declaration)} {ds ds' : List Declaration} {s s' : Bytes}
  {es es' : List InterfaceEntry} {t : InterfaceTable}

/-! ### Slots -/

theorem Holds.getD_eq_some (h : Holds slots ds) {k : ℕ} {d : Declaration} :
    slots.getD k none = some d ↔ d ∈ ds ∧ d.interface.id.toNat = k := by
  constructor
  · intro hd
    exact ⟨(h.mem d).1 (some_mem_toList.2 ⟨k, hd⟩), h.filed k d hd⟩
  · rintro ⟨hd, rfl⟩
    exact h.getD hd

/-- Slots are determined by how many they are and what they hold, in whatever order it came. -/
theorem Holds.eq_of_perm (h : Holds slots ds) (h' : Holds slots' ds') (hsize : slots.size = slots'.size)
    (hperm : ds.Perm ds') : slots = slots' := by
  have hgetD : ∀ k, slots.getD k none = slots'.getD k none := by
    intro k
    ext d
    rw [h.getD_eq_some, h'.getD_eq_some, hperm.mem_iff]
  refine Array.ext hsize fun k hk hk' => ?_
  have hk'' := hgetD k
  rwa [Array.getD_eq_getD_getElem?, Array.getD_eq_getD_getElem?, Array.getElem?_eq_getElem hk,
    Array.getElem?_eq_getElem hk'] at hk''

theorem size_of_readDeclarations {r : Bytes} (h : readDeclarations.run (Bytes.ofU16 max ++ s) = .ok (slots, r)) :
    slots.size = max.toNat := by
  rw [readDeclarations, Reader.run_bind_of_ok (run_u16_append _ _)] at h
  refine Reader.loop_invariant (P := fun p : Progress => p.slots.size = max.toNat)
    (Q := fun slots => slots.size = max.toNat) ?_ ?_ h Array.size_replicate
  · intro p s p' r hmore hsize
    obtain ⟨-, -, hx⟩ | ⟨group, i, _, -, -, -, hx⟩ := more_cases hmore
    · cases hx
    · obtain rfl := Sum.inl.inj hx
      exact Array.size_setIfInBounds.trans hsize
  · intro p s slots r hmore hsize
    obtain ⟨-, -, hx⟩ | ⟨_, _, _, -, -, -, hx⟩ := more_cases hmore
    · obtain rfl := Sum.inr.inj hx
      exact hsize
    · cases hx

/-! ### Files -/

/-- If a file is decoded, so is every other with the same entries, and comes to the same. -/
theorem decode_of_perm (h : Lists max none s es) (h' : Lists max none s' es') (hperm : es.Perm es')
    (ht : decode (Bytes.ofU16 max ++ s) = .ok t) : decode (Bytes.ofU16 max ++ s') = .ok t := by
  obtain ⟨max', s₁, rs, hfile, hspells, hnodup, -⟩ := decode_isOk_iff.1 ⟨t, ht⟩
  obtain ⟨rfl, rfl⟩ := ofU16_append_inj hfile
  -- the entries of either file are the same declarations, in two orders
  have hdeclares := h.declares (by simp) hspells
  obtain ⟨ds', hdeclares', hdecls⟩ := List.perm_comp_forall₂ hperm.symm hdeclares
  obtain ⟨rs', hspells', rfl⟩ := h'.spells hdeclares'
  have hnodup' : (ids rs').Nodup := by
    rw [← map_id_declarations none] at hnodup ⊢
    exact ((hdecls.map _).nodup_iff).2 hnodup
  obtain ⟨slots, hrun, hholds⟩ := run_readDeclarations hspells hnodup
  obtain ⟨slots', hrun', hholds'⟩ := run_readDeclarations hspells' hnodup'
  have hsize := (size_of_readDeclarations hrun).trans (size_of_readDeclarations hrun').symm
  obtain rfl := hholds.eq_of_perm hholds' hsize hdecls.symm
  rw [decode, hrun] at ht
  rw [decode, hrun']
  exact ht

/-- Two interface files for the same ids that list the same entries, each in its own order, are decoded to the
same table, or neither of them is decoded. -/
theorem decode_perm (h : Lists max none s es) (h' : Lists max none s' es') (hperm : es.Perm es') :
    (∃ t, decode (Bytes.ofU16 max ++ s) = .ok t ∧ decode (Bytes.ofU16 max ++ s') = .ok t) ∨
      (∃ e, decode (Bytes.ofU16 max ++ s) = .error e) ∧ ∃ e, decode (Bytes.ofU16 max ++ s') = .error e := by
  cases hs : decode (Bytes.ofU16 max ++ s) with
  | ok t => exact .inl ⟨t, rfl, decode_of_perm h h' hperm hs⟩
  | error e =>
    refine .inr ⟨⟨e, rfl⟩, ?_⟩
    cases hs' : decode (Bytes.ofU16 max ++ s') with
    | error e' => exact ⟨e', rfl⟩
    | ok t =>
      have := decode_of_perm h' h hperm.symm hs'
      rw [hs] at this
      cases this

/-- The record of a tooltip without a text. -/
def tooltipRecord : Bytes := [8, 0, 0, 0, 0, 0, 0, 0, 0, 0, 0, 0, 0x0A]

/-- The record of a container that lists the interface 1. -/
def containerRecord : Bytes := [0, 0, 0, 0, 0, 0, 0, 0, 0, 0, 0, 0, 0, 0, 0, 0, 1, 0, 1, 0, 0, 0, 0]

/-- A container before what it lists, and two records in a group that is named once. -/
def inOrder : Bytes :=
  head none 0 ++ containerRecord ++ (head none 1 ++ tooltipRecord ++
    (head (some 1) 2 ++ tooltipRecord ++ (head none 3 ++ tooltipRecord ++ [])))

/-- The same with the container after what it lists, and the group named before each of its records. -/
def outOfOrder : Bytes :=
  head none 1 ++ tooltipRecord ++ (head none 0 ++ containerRecord ++
    (head (some 1) 3 ++ tooltipRecord ++ (head (some 1) 2 ++ tooltipRecord ++ [])))

theorem decode_perm_outOfOrder : ∃ t, decode (Bytes.ofU16 4 ++ inOrder) = .ok t ∧
    decode (Bytes.ofU16 4 ++ outOfOrder) = .ok t ∧ (t.get? 1).bind (·.parent) = some 0 ∧
    (t.get? 2).bind (·.parent) = some 1 ∧ (t.get? 3).bind (·.parent) = some 1 := by
  let es : List InterfaceEntry :=
    [⟨none, 0, containerRecord⟩, ⟨none, 1, tooltipRecord⟩, ⟨some 1, 2, tooltipRecord⟩, ⟨some 1, 3, tooltipRecord⟩]
  let es' : List InterfaceEntry :=
    [⟨none, 1, tooltipRecord⟩, ⟨none, 0, containerRecord⟩, ⟨some 1, 3, tooltipRecord⟩, ⟨some 1, 2, tooltipRecord⟩]
  have hes : Lists 4 none inOrder es :=
    .cons (by decide) (by decide +kernel) (.cons (by decide) (by decide +kernel)
      (.cons (by decide) (by decide +kernel) (.cons (by decide) (by decide +kernel) .nil)))
  have hes' : Lists 4 none outOfOrder es' :=
    .cons (by decide) (by decide +kernel) (.cons (by decide) (by decide +kernel)
      (.cons (by decide) (by decide +kernel) (.cons (by decide) (by decide +kernel) .nil)))
  obtain ⟨t, ht, hparents⟩ : ∃ t, decode (Bytes.ofU16 4 ++ inOrder) = .ok t ∧ (t.get? 1).bind (·.parent) = some 0 ∧
      (t.get? 2).bind (·.parent) = some 1 ∧ (t.get? 3).bind (·.parent) = some 1 :=
    ⟨_, by cbv, by cbv, by cbv, by cbv⟩
  obtain ⟨t', ht', hsame⟩ | ⟨⟨e, he⟩, -⟩ := decode_perm hes hes' (by decide)
  · rw [ht] at ht'
    cases ht'
    exact ⟨t, ht, hsame, hparents⟩
  · rw [ht] at he
    cases he

end InterfaceTable

end AssetCache
