import Mathlib
import AssetCache.Item.Note

/-!
# One pass over the notes

A pass rewrites the table in place. When it comes to a place, the items before have become what they will be and
all others are as they were (`getElem?_resolveFirst`), so a note sees its template and its linked item resolved if
they stand before it and unresolved otherwise. Main statement: `resolveNotes_effect`, what a pass makes of every item
of any table.
-/

namespace AssetCache.Item

variable {table : Array Item} {i k t l : ℕ}

/-- What an item says about being a note; a pass never changes it. -/
def noteLinks (item : Item) : Option UInt16 × Option UInt16 := (item.noteTemplateId, item.noteId)

/-- The places of the template and of the linked item of the item at a place, if it names both and the table holds
both. -/
def sourcesAt? (table : Array Item) (place : ℕ) : Option (ℕ × ℕ) := do
  let (template?, linked?) ← table[place]?.map noteLinks
  let template ← template?
  let linked ← linked?
  if template.toNat < table.size ∧ linked.toNat < table.size then some (template.toNat, linked.toNat) else none

theorem sourcesAt?_eq_some : sourcesAt? table i = some (t, l) ↔
    ∃ note templateId linkedId, table[i]? = some note ∧ note.noteTemplateId = some templateId ∧
      note.noteId = some linkedId ∧ templateId.toNat = t ∧ linkedId.toNat = l ∧ t < table.size ∧ l < table.size := by
  constructor
  · intro h
    simp only [sourcesAt?, Option.bind_eq_bind, Option.bind_eq_some_iff, Option.map_eq_some_iff, noteLinks] at h
    obtain ⟨links, ⟨note, hnote, rfl⟩, template, htemplate, linked, hlinked, h⟩ := h
    split at h
    · next hlt =>
      cases h
      exact ⟨note, template, linked, hnote, htemplate, hlinked, rfl, rfl, hlt⟩
    · nomatch h
  · rintro ⟨note, template, linked, hnote, htemplate, hlinked, rfl, rfl, hlt⟩
    simp [sourcesAt?, hnote, noteLinks, htemplate, hlinked, hlt]

theorem sourcesAt?_congr {table' : Array Item} (hsize : table'.size = table.size)
    (h : table'[i]?.map noteLinks = table[i]?.map noteLinks) : sourcesAt? table' i = sourcesAt? table i := by
  simp only [sourcesAt?, hsize, h]

theorem lt_size_of_sourcesAt? (h : (sourcesAt? table i).isSome) : i < table.size := by
  obtain ⟨⟨t, l⟩, h⟩ := Option.isSome_iff_exists.1 h
  obtain ⟨note, -, -, hnote, -⟩ := sourcesAt?_eq_some.1 h
  exact (Array.getElem?_eq_some_iff.1 hnote).1

/-! ### One place -/

theorem noteSources?_eq_some {note template linked : Item} : noteSources? table note = some (template, linked) ↔
    ∃ templateId linkedId, note.noteTemplateId = some templateId ∧ note.noteId = some linkedId ∧
      table[templateId.toNat]? = some template ∧ table[linkedId.toNat]? = some linked := by
  simp [noteSources?, Option.bind_eq_some_iff]

theorem resolveAt_of_none (h : sourcesAt? table i = none) : resolveAt table i = table := by
  unfold resolveAt
  split
  · next note template linked hsources =>
    simp only [Option.bind_eq_some_iff, Option.map_eq_some_iff] at hsources
    obtain ⟨_, hnote, _, hsources, ⟨⟩⟩ := hsources
    obtain ⟨templateId, linkedId, htemplateId, hlinkedId, htemplate, hlinked⟩ := noteSources?_eq_some.1 hsources
    have ht := (Array.getElem?_eq_some_iff.1 htemplate).1
    have hl := (Array.getElem?_eq_some_iff.1 hlinked).1
    rw [sourcesAt?_eq_some.2 ⟨note, templateId, linkedId, hnote, htemplateId, hlinkedId, rfl, rfl, ht, hl⟩] at h
    nomatch h
  · rfl

theorem resolveAt_of_some (h : sourcesAt? table i = some (t, l)) : ∃ note template linked, table[i]? = some note ∧
    table[t]? = some template ∧ table[l]? = some linked ∧
    resolveAt table i = table.setIfInBounds i (note.asNote template linked) := by
  obtain ⟨note, templateId, linkedId, hnote, htemplateId, hlinkedId, rfl, rfl, ht, hl⟩ := sourcesAt?_eq_some.1 h
  have htemplate := Array.getElem?_eq_getElem ht
  have hlinked := Array.getElem?_eq_getElem hl
  have hsources := noteSources?_eq_some.2 ⟨templateId, linkedId, htemplateId, hlinkedId, htemplate, hlinked⟩
  refine ⟨note, _, _, hnote, htemplate, hlinked, ?_⟩
  simp [resolveAt, hnote, hsources]

theorem size_resolveAt (table : Array Item) (i : ℕ) : (resolveAt table i).size = table.size := by
  cases h : sourcesAt? table i with
  | none => rw [resolveAt_of_none h]
  | some sources =>
    obtain ⟨note, template, linked, -, -, -, hresolve⟩ := resolveAt_of_some h
    rw [hresolve, Array.size_setIfInBounds]

theorem getElem?_resolveAt_of_ne (h : k ≠ i) : (resolveAt table k)[i]? = table[i]? := by
  cases hk : sourcesAt? table k with
  | none => rw [resolveAt_of_none hk]
  | some sources =>
    obtain ⟨note, template, linked, -, -, -, hresolve⟩ := resolveAt_of_some hk
    rw [hresolve, Array.getElem?_setIfInBounds_ne h]

theorem getElem?_resolveAt_self (h : sourcesAt? table i = some (t, l)) : ∃ note template linked,
    table[i]? = some note ∧ table[t]? = some template ∧ table[l]? = some linked ∧
    (resolveAt table i)[i]? = some (note.asNote template linked) := by
  obtain ⟨note, template, linked, hnote, htemplate, hlinked, hresolve⟩ := resolveAt_of_some h
  refine ⟨note, template, linked, hnote, htemplate, hlinked, ?_⟩
  rw [hresolve, Array.getElem?_setIfInBounds_self_of_lt (Array.getElem?_eq_some_iff.1 hnote).1]

theorem noteLinks_resolveAt (table : Array Item) (k i : ℕ) :
    (resolveAt table k)[i]?.map noteLinks = table[i]?.map noteLinks := by
  by_cases hk : k = i
  · subst hk
    cases h : sourcesAt? table k with
    | none => rw [resolveAt_of_none h]
    | some sources =>
      obtain ⟨note, template, linked, hnote, -, -, hself⟩ := getElem?_resolveAt_self h
      rw [hself, hnote]
      rfl
  · rw [getElem?_resolveAt_of_ne hk]

theorem sourcesAt?_resolveAt (table : Array Item) (k i : ℕ) :
    sourcesAt? (resolveAt table k) i = sourcesAt? table i :=
  sourcesAt?_congr (size_resolveAt table k) (noteLinks_resolveAt table k i)

/-! ### All places before one of them -/

/-- The table with the items before a place resolved. -/
def resolveFirst (table : Array Item) (k : ℕ) : Array Item := (List.range k).foldl resolveAt table

theorem resolveFirst_succ (table : Array Item) (k : ℕ) :
    resolveFirst table (k + 1) = resolveAt (resolveFirst table k) k := by
  simp [resolveFirst, List.range_succ]

theorem size_resolveFirst (table : Array Item) (k : ℕ) : (resolveFirst table k).size = table.size := by
  induction k with
  | zero => rfl
  | succ k ih => rw [resolveFirst_succ, size_resolveAt, ih]

theorem sourcesAt?_resolveFirst (table : Array Item) (k i : ℕ) :
    sourcesAt? (resolveFirst table k) i = sourcesAt? table i := by
  induction k with
  | zero => rfl
  | succ k ih => rw [resolveFirst_succ, sourcesAt?_resolveAt, ih]

theorem getElem?_resolveFirst_of_le (h : k ≤ i) : (resolveFirst table k)[i]? = table[i]? := by
  induction k with
  | zero => rfl
  | succ k ih =>
    have hne : k ≠ i := Nat.ne_of_lt h
    rw [resolveFirst_succ, getElem?_resolveAt_of_ne hne, ih (Nat.le_of_succ_le h)]

theorem getElem?_resolveFirst_of_lt (h : i < k) : (resolveFirst table k)[i]? = (resolveFirst table (i + 1))[i]? := by
  induction k with
  | zero => nomatch h
  | succ k ih =>
    rcases Nat.lt_succ_iff_lt_or_eq.1 h with hlt | rfl
    · rw [resolveFirst_succ, getElem?_resolveAt_of_ne (Nat.ne_of_gt hlt), ih hlt]
    · rfl

/-- The loop invariant: what is before the place has become what it will be, the rest is as it was. -/
theorem getElem?_resolveFirst (hk : k ≤ table.size) (i : ℕ) :
    (resolveFirst table k)[i]? = (if i < k then resolveNotes table else table)[i]? := by
  by_cases hi : i < k
  · have hsize : i < table.size := Nat.lt_of_lt_of_le hi hk
    rw [if_pos hi, getElem?_resolveFirst_of_lt hi]
    exact (getElem?_resolveFirst_of_lt hsize).symm
  · rw [if_neg hi, getElem?_resolveFirst_of_le (Nat.le_of_not_lt hi)]

theorem size_resolveNotes (table : Array Item) : (resolveNotes table).size = table.size :=
  size_resolveFirst table table.size

theorem sourcesAt?_resolveNotes (table : Array Item) (i : ℕ) :
    sourcesAt? (resolveNotes table) i = sourcesAt? table i := sourcesAt?_resolveFirst table table.size i

theorem getElem?_resolveNotes_of_none (h : sourcesAt? table i = none) : (resolveNotes table)[i]? = table[i]? := by
  by_cases hi : i < table.size
  · have hnone : sourcesAt? (resolveFirst table i) i = none := (sourcesAt?_resolveFirst table i i).trans h
    calc (resolveNotes table)[i]? = (resolveFirst table (i + 1))[i]? := getElem?_resolveFirst_of_lt hi
      _ = (resolveFirst table i)[i]? := by rw [resolveFirst_succ, resolveAt_of_none hnone]
      _ = table[i]? := getElem?_resolveFirst_of_le le_rfl
  · have hle := Nat.le_of_not_lt hi
    rw [Array.getElem?_eq_none hle, Array.getElem?_eq_none (by rwa [size_resolveNotes])]

theorem getElem?_resolveNotes_of_some (h : sourcesAt? table i = some (t, l)) : ∃ note template linked,
    table[i]? = some note ∧ (if t < i then resolveNotes table else table)[t]? = some template ∧
    (if l < i then resolveNotes table else table)[l]? = some linked ∧
    (resolveNotes table)[i]? = some (note.asNote template linked) := by
  have hi : i < table.size := lt_size_of_sourcesAt? (by rw [h]; rfl)
  have hsome : sourcesAt? (resolveFirst table i) i = some (t, l) := (sourcesAt?_resolveFirst table i i).trans h
  obtain ⟨note, template, linked, hnote, htemplate, hlinked, hself⟩ := getElem?_resolveAt_self hsome
  rw [getElem?_resolveFirst_of_le le_rfl] at hnote
  rw [getElem?_resolveFirst hi.le] at htemplate hlinked
  rw [← resolveFirst_succ] at hself
  exact ⟨note, template, linked, hnote, htemplate, hlinked, (getElem?_resolveFirst_of_lt hi).trans hself⟩

/-- Exactly the items that name a template and a linked item in the table are rewritten: they look like the template
and count as the linked item, each taken as the pass has left it if it stands before the note and as it was
otherwise. -/
theorem resolveNotes_effect (table : Array Item) :
    (resolveNotes table).size = table.size ∧ ∀ i,
      match sourcesAt? table i with
      | none => (resolveNotes table)[i]? = table[i]?
      | some (t, l) => ∃ note template linked, table[i]? = some note ∧
          (if t < i then resolveNotes table else table)[t]? = some template ∧
          (if l < i then resolveNotes table else table)[l]? = some linked ∧
          (resolveNotes table)[i]? = some { note with
            modelId := template.modelId
            zoom := template.zoom
            rotation := template.rotation
            offset := template.offset
            recolors := template.recolors
            name := linked.name
            value := linked.value
            members := linked.members
            stackable := true
            description := some "Swap this note at any bank for the equivalent item." } := by
  refine ⟨size_resolveNotes table, fun i => ?_⟩
  cases h : sourcesAt? table i with
  | none => exact getElem?_resolveNotes_of_none h
  | some sources => exact getElem?_resolveNotes_of_some h

/-- A note before its template looks like what the template was, one behind it like what the template became. -/
example : (resolveNotes #[{ id := 0, noteTemplateId := some 1, noteId := some 0 },
    { id := 1, modelId := 7, noteTemplateId := some 3, noteId := some 1 },
    { id := 2, noteTemplateId := some 1, noteId := some 2 },
    { id := 3, modelId := 9 }]).toList.map (fun item => item.modelId) = [7, 9, 9, 9] := by decide

end AssetCache.Item
