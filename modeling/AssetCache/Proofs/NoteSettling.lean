import Mathlib
import AssetCache.Proofs.NotePass

/-!
# Notes of notes

A note may be drawn like another note or stand for one, and one pass only copies what that one is at the time. A
pass leaves an item alone once it has left alone all that the item depends on (`getElem?_resolveNotes_again`).
Without a cycle an item depends on fewer others than there are (`rank_lt_size`), so it settles within as many passes
as the table has items. Main statement: `resolveNotes_settles`.
-/

namespace AssetCache.Item

variable {table : Array Item} {i j : ℕ}

/-- That the item at `i` is a note whose template or linked item is another one, at `j`. -/
def Refers (table : Array Item) (i j : ℕ) : Prop := j ≠ i ∧ ∃ s ∈ sourcesAt? table i, j = s.1 ∨ j = s.2

/-- That this other item is to be resolved as well. -/
def DependsOn (table : Array Item) (i j : ℕ) : Prop := Refers table i j ∧ (sourcesAt? table j).isSome

/-- That no item depends on itself by way of others. -/
def Acyclic (table : Array Item) : Prop := ∀ i, ¬ Relation.TransGen (DependsOn table) i i

instance : Decidable (Refers table i j) := inferInstanceAs (Decidable (_ ∧ _))

instance : Decidable (DependsOn table i j) := inferInstanceAs (Decidable (_ ∧ _))

theorem DependsOn.lt_size_left (h : DependsOn table i j) : i < table.size := by
  obtain ⟨⟨-, s, hi, -⟩, -⟩ := h
  exact lt_size_of_sourcesAt? (Option.isSome_of_mem hi)

theorem DependsOn.lt_size_right (h : DependsOn table i j) : j < table.size := lt_size_of_sourcesAt? h.2

/-! ### One pass after another -/

/-- What the item at a place sees at another one during a pass. -/
def seen? (table : Array Item) (i j : ℕ) : Option Item := (if j < i then resolveNotes table else table)[j]?

theorem seen?_self (table : Array Item) (i : ℕ) : seen? table i i = table[i]? := by
  rw [seen?, if_neg (lt_irrefl i)]

theorem seen?_resolveNotes (hr : Refers table i j)
    (h : DependsOn table i j → seen? (resolveNotes table) i j = seen? table i j) :
    seen? (resolveNotes table) i j = seen? table i j := by
  cases hsources : sourcesAt? table j with
  | some sources => exact h ⟨hr, by rw [hsources]; rfl⟩
  | none =>
    -- a source that is not resolved itself is always seen as it is
    unfold seen?
    split
    · exact getElem?_resolveNotes_of_none ((sourcesAt?_resolveNotes table j).trans hsources)
    · exact getElem?_resolveNotes_of_none hsources

/-- An item that sees the same in the next pass is left as it is by it. -/
theorem getElem?_resolveNotes_again
    (h : ∀ j, DependsOn table i j → seen? (resolveNotes table) i j = seen? table i j) :
    (resolveNotes (resolveNotes table))[i]? = (resolveNotes table)[i]? := by
  cases hi : sourcesAt? table i with
  | none => exact getElem?_resolveNotes_of_none ((sourcesAt?_resolveNotes table i).trans hi)
  | some sources =>
    obtain ⟨t, l⟩ := sources
    obtain ⟨note, template, linked, hnote, htemplate, hlinked, hself⟩ := getElem?_resolveNotes_of_some hi
    obtain ⟨note', template', linked', hnote', htemplate', hlinked', hself'⟩ :=
      getElem?_resolveNotes_of_some ((sourcesAt?_resolveNotes table i).trans hi)
    rw [hself] at hnote'
    cases hnote'
    -- a note that refers to itself sees what the first pass has made of it
    have hsource {j : ℕ} {a b : Item} (hj : j = t ∨ j = l) (ha : seen? table i j = some a)
        (hb : seen? (resolveNotes table) i j = some b) : b = a ∨ (a = note ∧ b = note.asNote template linked) := by
      by_cases hne : j = i
      · subst hne
        rw [seen?_self] at ha hb
        rw [hnote] at ha
        rw [hself] at hb
        exact .inr ⟨(Option.some.inj ha).symm, (Option.some.inj hb).symm⟩
      · rw [seen?_resolveNotes ⟨hne, (t, l), hi, hj⟩ (h j), ha] at hb
        exact .inl (Option.some.inj hb).symm
    rw [hself', hself]
    rcases hsource (.inl rfl) htemplate htemplate' with rfl | ⟨rfl, rfl⟩ <;>
      rcases hsource (.inr rfl) hlinked hlinked' with rfl | ⟨rfl, rfl⟩ <;> rfl

/-! ### Without a cycle -/

theorem acyclic_of_rank (f : ℕ → ℕ) (h : ∀ i j, DependsOn table i j → f j < f i) : Acyclic table := by
  intro i hi
  have hlt : ∀ {i j}, Relation.TransGen (DependsOn table) i j → f j < f i := by
    intro i j hij
    induction hij with
    | single h' => exact h _ _ h'
    | tail _ h' ih => exact (h _ _ h').trans ih
  exact lt_irrefl _ (hlt hi)

/-- How many items the item at a place depends on, directly or by way of others. -/
noncomputable def rank (table : Array Item) (i : ℕ) : ℕ :=
  {j | Relation.TransGen (DependsOn table) i j}.ncard

theorem lt_size_of_transGen (h : Relation.TransGen (DependsOn table) i j) : j < table.size := by
  cases h with
  | single h => exact h.lt_size_right
  | tail _ h => exact h.lt_size_right

theorem finite_transGen (table : Array Item) (i : ℕ) : {j | Relation.TransGen (DependsOn table) i j}.Finite :=
  (Set.finite_Iio table.size).subset fun _ h => lt_size_of_transGen h

theorem rank_lt_rank (hc : Acyclic table) (h : DependsOn table i j) : rank table j < rank table i := by
  refine Set.ncard_lt_ncard ⟨fun x hx => .head h hx, fun hsub => ?_⟩ (finite_transGen table i)
  exact hc j (hsub (.single h))

theorem rank_lt_size (hc : Acyclic table) (hi : i < table.size) : rank table i < table.size := by
  have hlt : rank table i < (Set.Iio table.size).ncard := by
    refine Set.ncard_lt_ncard ⟨fun x hx => lt_size_of_transGen hx, fun hsub => ?_⟩ (Set.finite_Iio _)
    exact hc i (hsub hi)
  rwa [Set.ncard_Iio_nat] at hlt

theorem sourcesAt?_iterate (table : Array Item) (m i : ℕ) :
    sourcesAt? (resolveNotes^[m] table) i = sourcesAt? table i := by
  induction m with
  | zero => rfl
  | succ m ih => rw [Function.iterate_succ_apply', sourcesAt?_resolveNotes, ih]

theorem size_iterate (table : Array Item) (m : ℕ) : (resolveNotes^[m] table).size = table.size := by
  induction m with
  | zero => rfl
  | succ m ih => rw [Function.iterate_succ_apply', size_resolveNotes, ih]

theorem dependsOn_iterate (m : ℕ) : DependsOn (resolveNotes^[m] table) i j ↔ DependsOn table i j := by
  simp only [DependsOn, Refers, sourcesAt?_iterate]

/-- An item is settled once there have been more passes than items it depends on. -/
theorem getElem?_iterate_succ (hc : Acyclic table) {m : ℕ} (h : rank table i < m) :
    (resolveNotes^[m + 1] table)[i]? = (resolveNotes^[m] table)[i]? := by
  -- what `i` depends on has a smaller rank, so it is settled a pass earlier, on either side of `i`
  induction hr : rank table i using Nat.strong_induction_on generalizing i m with
  | _ r ih =>
    subst hr
    obtain ⟨m, rfl⟩ := Nat.exists_eq_add_one_of_ne_zero (Nat.ne_zero_of_lt h)
    simp only [Function.iterate_succ_apply']
    refine getElem?_resolveNotes_again fun j hj => ?_
    have hlt := rank_lt_rank hc ((dependsOn_iterate m).1 hj)
    have hone := ih _ hlt (Nat.lt_of_lt_of_le hlt (Nat.lt_succ_iff.1 h)) rfl
    have htwo := ih _ hlt (hlt.trans h) rfl
    simp only [Function.iterate_succ_apply'] at hone htwo
    unfold seen?
    split
    · exact htwo
    · exact hone

theorem resolveNotes_iterate_size (hc : Acyclic table) :
    resolveNotes (resolveNotes^[table.size] table) = resolveNotes^[table.size] table := by
  rw [← Function.iterate_succ_apply' resolveNotes]
  refine Array.ext_getElem? fun i => ?_
  by_cases hi : i < table.size
  · exact getElem?_iterate_succ hc (rank_lt_size hc hi)
  · rw [Array.getElem?_eq_none (by rw [size_iterate]; omega), Array.getElem?_eq_none (by rw [size_iterate]; omega)]

/-- Without a reference to a later note there is nothing left for a second pass. -/
theorem resolveNotes_resolveNotes (h : ∀ i j, DependsOn table i j → j < i) :
    resolveNotes (resolveNotes table) = resolveNotes table := by
  refine Array.ext_getElem? fun i => ?_
  induction i using Nat.strong_induction_on with
  | _ i ih =>
    refine getElem?_resolveNotes_again fun j hj => ?_
    have hlt := h i j hj
    rw [seen?, seen?, if_pos hlt, if_pos hlt, ih j hlt]

theorem iterate_size_of_resolveNotes (h : resolveNotes (resolveNotes table) = resolveNotes table) :
    resolveNotes^[table.size] table = resolveNotes table := by
  cases hsize : table.size with
  | zero =>
    rw [Array.eq_empty_of_size_eq_zero hsize]
    rfl
  | succ n => rw [Function.iterate_succ_apply, Function.iterate_fixed h]

/-! ### What settles -/

/-- That a note looks like its template, counts as the item it stands for, and says what it is. -/
structure NoteOf (note template linked : Item) : Prop where
  modelId : note.modelId = template.modelId
  zoom : note.zoom = template.zoom
  rotation : note.rotation = template.rotation
  offset : note.offset = template.offset
  recolors : note.recolors = template.recolors
  name : note.name = linked.name
  value : note.value = linked.value
  members : note.members = linked.members
  stackable : note.stackable = true
  description : note.description = some noteDescription

theorem noteOf_of_fixed {t l : ℕ} (h : resolveNotes table = table) (hi : sourcesAt? table i = some (t, l)) :
    ∃ note template linked, table[i]? = some note ∧ table[t]? = some template ∧ table[l]? = some linked ∧
      NoteOf note template linked := by
  obtain ⟨note, template, linked, hnote, htemplate, hlinked, hself⟩ := getElem?_resolveNotes_of_some hi
  rw [h, ite_self] at htemplate hlinked
  rw [h, hnote] at hself
  refine ⟨note, template, linked, hnote, htemplate, hlinked, ?_⟩
  rw [Option.some.inj hself]
  exact ⟨rfl, rfl, rfl, rfl, rfl, rfl, rfl, rfl, rfl, rfl⟩

/-- The table after as many passes as it has items. -/
def settle (table : Array Item) : Array Item := resolveNotes^[table.size] table

theorem not_dependsOn_of_plain (h : Refers table i j → ∀ item ∈ table[j]?, item.isNoted = false) :
    ¬ DependsOn table i j := by
  rintro ⟨hrefers, hsources⟩
  obtain ⟨⟨t, l⟩, hsources⟩ := Option.isSome_iff_exists.1 hsources
  obtain ⟨item, templateId, -, hitem, htemplate, -⟩ := sourcesAt?_eq_some.1 hsources
  have hplain := h hrefers item hitem
  rw [isNoted, htemplate] at hplain
  nomatch hplain

theorem decodeAll_of_decoded {data index : Bytes}
    (h : DefinitionTable.decodeAll .item read data index = .ok table.toList) :
    decodeAll data index = .ok (resolveNotes table) := by
  rw [decodeAll, h]
  show Except.ok (resolveNotes table.toList.toArray) = _
  rw [Array.toArray_toList]

/-- Unless a note depends on itself by way of others, the table settles within as many passes as it has items, and
then every note is what its template and its linked item make it. If no note depends on a later one, and so if none
refers to another note, that is so and the pass that follows decoding is enough. -/
theorem resolveNotes_settles (table : Array Item) :
    (Acyclic table →
      (∀ k, resolveNotes^[k] (settle table) = settle table) ∧
      ∀ i t l, sourcesAt? table i = some (t, l) → ∃ note template linked, (settle table)[i]? = some note ∧
        (settle table)[t]? = some template ∧ (settle table)[l]? = some linked ∧ NoteOf note template linked) ∧
    ((∀ i j, DependsOn table i j → j < i) ∨
        (∀ i j, Refers table i j → ∀ item ∈ table[j]?, item.isNoted = false) →
      Acyclic table ∧ resolveNotes table = settle table ∧ ∀ data index,
        DefinitionTable.decodeAll .item read data index = .ok table.toList →
          decodeAll data index = .ok (settle table)) := by
  constructor
  · intro hc
    have hfixed : resolveNotes (settle table) = settle table := resolveNotes_iterate_size hc
    refine ⟨fun k => Function.iterate_fixed hfixed k, fun i t l hi => ?_⟩
    exact noteOf_of_fixed hfixed ((sourcesAt?_iterate table table.size i).trans hi)
  · intro hearlier
    have hdown : ∀ i j, DependsOn table i j → j < i := by
      rcases hearlier with hdown | hplain
      · exact hdown
      · intro i j hj
        exact absurd hj (not_dependsOn_of_plain (hplain i j))
    have hone : resolveNotes table = settle table :=
      (iterate_size_of_resolveNotes (resolveNotes_resolveNotes hdown)).symm
    refine ⟨acyclic_of_rank (fun i => i) hdown, hone, fun data index hdecode => ?_⟩
    rw [decodeAll_of_decoded hdecode, hone]

theorem DependsOn.forall_of_lt_size {P : ℕ → ℕ → Prop}
    (h : ∀ i < table.size, ∀ j < table.size, DependsOn table i j → P i j) (i j : ℕ)
    (hij : DependsOn table i j) : P i j :=
  h i hij.lt_size_left j hij.lt_size_right hij

/-- A note drawn like a later note, which stands for itself. -/
def chain : Array Item :=
  #[{ id := 0, noteTemplateId := some 1, noteId := some 3 }, { id := 1, noteTemplateId := some 2, noteId := some 1 },
    { id := 2, modelId := 7 }, { id := 3, name := some "Logs", value := 4 }]

/-- A note drawn like an earlier note, and the records of this table. -/
def ordered : Array Item :=
  #[{ id := 0, name := some "Logs", value := 4 }, { id := 1, modelId := 7 },
    { id := 2, noteTemplateId := some 1, noteId := some 0 }, { id := 3, noteTemplateId := some 2, noteId := some 0 }]

def orderedRecords : List Bytes :=
  [[2, 76, 111, 103, 115, 10, 12, 0, 0, 0, 4, 0], [1, 0, 7, 0], [98, 0, 1, 97, 0, 0, 0], [98, 0, 2, 97, 0, 0, 0]]

theorem resolveNotes_settles_chain :
    (Acyclic chain ∧ (∀ k, resolveNotes^[k] (settle chain) = settle chain) ∧ resolveNotes chain ≠ settle chain ∧
      ∃ note template linked, (settle chain)[0]? = some note ∧ (settle chain)[1]? = some template ∧
        (settle chain)[3]? = some linked ∧ NoteOf note template linked) ∧
    Acyclic ordered ∧
      decodeAll (DefinitionTable.joinData orderedRecords) (DefinitionTable.joinIndex orderedRecords) =
        .ok (settle ordered) := by
  have hchain : ∀ i j, DependsOn chain i j → 2 - j < 2 - i := DependsOn.forall_of_lt_size (by decide +kernel)
  have hordered : ∀ i j, DependsOn ordered i j → j < i := DependsOn.forall_of_lt_size (by decide +kernel)
  have hacyclic : Acyclic chain := acyclic_of_rank _ hchain
  obtain ⟨hfixed, hnotes⟩ := (resolveNotes_settles chain).1 hacyclic
  obtain ⟨hacyclic', -, hone⟩ := (resolveNotes_settles ordered).2 (.inl hordered)
  refine ⟨⟨hacyclic, hfixed, by decide +kernel, hnotes 0 1 3 (by decide +kernel)⟩, hacyclic', ?_⟩
  exact hone _ _ (by decide +kernel)

end AssetCache.Item
