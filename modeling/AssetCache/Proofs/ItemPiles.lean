import Mathlib
import AssetCache.Proofs.GroundItems
import AssetCache.Tile.Session

/-!
# Items of one kind lie in a pile

The stacks of one item on a tile are a pile: an action about the item does to them what it does to a pile that knows
nothing of other items (`perform_of_eq`), and an action about another item leaves them alone (`perform_of_ne`). What is
on the tile besides is not touched, since taking a stack away splits the items where it lies (`removal`). Main
statement: `piled_performAll`.
-/

namespace AssetCache.Tile
open scoped List

variable {t : Tile} {k : UInt16} {a : ItemAction} {stack : ItemStack} {above below : List ItemStack}

/-! ### One action -/

/-- The stacks of one item, the newest first. -/
def stacksOf (k : UInt16) (t : Tile) : List ItemStack := t.items.filter (·.itemId = k)

/-- What the stacks of one item are as a pile. -/
def pile (k : UInt16) (t : Tile) : Pile := (t.stacksOf k).map (·.amount)

/-- What comes of taking an item away: its topmost stack goes and the others stay as they are, or there is none. -/
inductive Removal (k : UInt16) (t : Tile) : Tile × Option ItemStack → Prop
  | taken (above below : List ItemStack) (stack : ItemStack) : t.items = above ++ stack :: below →
      stack.itemId = k → (∀ s ∈ above, s.itemId ≠ k) → Removal k t ({ t with items := above ++ below }, some stack)
  | missing : (∀ s ∈ t.items, s.itemId ≠ k) → Removal k t (t, none)

theorem removal (t : Tile) (k : UInt16) : Removal k t (t.perform (.remove k)) := by
  show Removal k t (t.removeItem k, t.findItem? k)
  cases hfind : t.findItem? k with
  | none =>
    have hnone : ∀ s ∈ t.items, s.itemId ≠ k := by simpa [findItem?] using hfind
    rw [removeItem, List.eraseP_of_forall_not (by simpa using hnone)]
    exact .missing hnone
  | some stack =>
    obtain ⟨hid, above, below, hitems, habove, hremove⟩ := WorldMap.removeItem_of_findItem? hfind
    rw [hremove]
    exact .taken above below stack hitems hid habove

theorem stacksOf_eq_map (k : UInt16) (t : Tile) : t.stacksOf k = (t.pile k).map (ItemStack.mk k) := by
  have hmk : ∀ s ∈ t.stacksOf k, (ItemStack.mk k ∘ ItemStack.amount) s = id s := by
    intro s hs
    rw [← of_decide_eq_true (List.mem_filter.1 hs).2]
    rfl
  rw [pile, List.map_map, List.map_congr_left hmk, List.map_id]

theorem filter_split_of_eq (hid : stack.itemId = k) (habove : ∀ s ∈ above, s.itemId ≠ k) :
    (above ++ stack :: below).filter (·.itemId = k) = stack :: (above ++ below).filter (·.itemId = k) := by
  have hnil : above.filter (·.itemId = k) = [] := by simpa using habove
  simp [hnil, hid]

/-- An action about an item does to its stacks what it does to a pile. -/
theorem perform_of_eq (t : Tile) (h : a.itemId = k) :
    (t.perform a).1.pile k = ((t.pile k).perform a).1 ∧
      (t.perform a).2 = ((t.pile k).perform a).2.map (ItemStack.mk k) := by
  cases a with
  | add stack =>
    have hid : stack.itemId = k := h
    simp [perform, addItem, Pile.perform, pile, stacksOf, hid]
  | remove k' =>
    obtain rfl : k' = k := h
    have hremoval := removal t k'
    generalize t.perform (.remove k') = out at hremoval
    cases hremoval with
    | taken above below stack hitems hid habove =>
      have hpile : t.pile k' = stack.amount :: pile k' { t with items := above ++ below } := by
        rw [pile, stacksOf, hitems, filter_split_of_eq hid habove]
        rfl
      rw [hpile, ← hid]
      exact ⟨rfl, rfl⟩
    | missing hnone =>
      have hpile : t.pile k' = [] := by simpa [pile, stacksOf] using hnone
      simp [hpile, Pile.perform]

/-- An action about an item leaves the stacks of any other item alone. -/
theorem perform_of_ne (t : Tile) (h : a.itemId ≠ k) : (t.perform a).1.pile k = t.pile k := by
  cases a with
  | add stack =>
    have hid : stack.itemId ≠ k := h
    simp [perform, addItem, pile, stacksOf, hid]
  | remove k' =>
    have hremoval := removal t k'
    generalize t.perform (.remove k') = out at hremoval
    cases hremoval with
    | taken above below stack hitems hid habove =>
      have hother : stack.itemId ≠ k := by rwa [hid]
      simp [pile, stacksOf, hitems, hother]
    | missing hnone => rfl

/-- No stack comes or goes but the one that is added or taken. -/
theorem perm_perform (t : Tile) (a : ItemAction) :
    ((t.perform a).1.items ++ (t.perform a).2.toList).Perm (t.items ++ a.added?.toList) := by
  cases a with
  | add stack => simpa [perform, addItem, ItemAction.added?] using (List.perm_append_singleton stack t.items).symm
  | remove k =>
    have hremoval := removal t k
    generalize t.perform (.remove k) = out at hremoval
    cases hremoval with
    | taken above below stack hitems hid habove =>
      have hmiddle : (above ++ stack :: below).Perm (above ++ below ++ [stack]) :=
        List.perm_middle.trans (List.perm_append_singleton _ _).symm
      simpa [hitems, ItemAction.added?] using hmiddle.symm
    | missing hnone => exact .refl _

theorem sublist_perform (t : Tile) (a : ItemAction) : (t.perform a).1.items.Sublist (a.added?.toList ++ t.items) := by
  cases a with
  | add stack => exact .refl _
  | remove k => exact List.eraseP_sublist

theorem objects_perform (t : Tile) (a : ItemAction) : (t.perform a).1.objects = t.objects := by
  cases a <;> rfl

/-! ### A row of actions -/

/-- The actions about one item. -/
def about (k : UInt16) (actions : List ItemAction) : List ItemAction := actions.filter (·.itemId = k)

/-- What the actions about one item were answered with. -/
def answersAbout (k : UInt16) (actions : List ItemAction) (answers : List (Option ItemStack)) :
    List (Option ItemStack) :=
  ((actions.zip answers).filter (·.1.itemId = k)).map (·.2)

theorem performAll_cons (a : ItemAction) (actions : List ItemAction) (t : Tile) : performAll (a :: actions) t =
    ((performAll actions (t.perform a).1).1, (t.perform a).2 :: (performAll actions (t.perform a).1).2) := rfl

theorem pile_performAll (k : UInt16) (actions : List ItemAction) (t : Tile) :
    (performAll actions t).1.pile k = (Pile.performAll (about k actions) (t.pile k)).1 ∧
      answersAbout k actions (performAll actions t).2 =
        (Pile.performAll (about k actions) (t.pile k)).2.map (Option.map (ItemStack.mk k)) := by
  induction actions generalizing t with
  | nil => exact ⟨rfl, rfl⟩
  | cons a actions ih =>
    obtain ⟨hpile, hanswers⟩ := ih (t.perform a).1
    rw [performAll_cons]
    by_cases h : a.itemId = k
    · obtain ⟨hstep, hanswer⟩ := perform_of_eq t h
      have habout : about k (a :: actions) = a :: about k actions := List.filter_cons_of_pos (by simpa using h)
      rw [hstep] at hpile hanswers
      refine ⟨by rw [habout, hpile, Pile.performAll], ?_⟩
      rw [habout, Pile.performAll, List.map_cons, ← hanswers, ← hanswer]
      simp [answersAbout, h]
    · have habout : about k (a :: actions) = about k actions := List.filter_cons_of_neg (by simpa using h)
      rw [perform_of_ne t h] at hpile hanswers
      refine ⟨by rw [habout, hpile], ?_⟩
      rw [habout, ← hanswers]
      simp [answersAbout, h]

theorem perm_performAll (actions : List ItemAction) (t : Tile) :
    ((performAll actions t).1.items ++ (performAll actions t).2.reduceOption).Perm
      (t.items ++ actions.filterMap (·.added?)) := by
  induction actions generalizing t with
  | nil => exact .refl _
  | cons a actions ih =>
    have hadded : (a :: actions).filterMap (·.added?) = a.added?.toList ++ actions.filterMap (·.added?) := by
      cases h : a.added? <;> simp [h]
    have htaken : ((t.perform a).2 :: (performAll actions (t.perform a).1).2).reduceOption =
        (t.perform a).2.toList ++ (performAll actions (t.perform a).1).2.reduceOption := by
      cases h : (t.perform a).2 <;> simp
    rw [performAll_cons, hadded, htaken]
    -- the stack taken by the first action goes behind what the others take, and back
    calc (performAll actions (t.perform a).1).1.items ++
          ((t.perform a).2.toList ++ (performAll actions (t.perform a).1).2.reduceOption)
      _ ~ ((performAll actions (t.perform a).1).1.items ++
          (performAll actions (t.perform a).1).2.reduceOption) ++ (t.perform a).2.toList := by
        rw [List.append_assoc]
        exact List.perm_append_comm.append_left _
      _ ~ ((t.perform a).1.items ++ actions.filterMap (·.added?)) ++ (t.perform a).2.toList :=
        (ih _).append_right _
      _ ~ ((t.perform a).1.items ++ (t.perform a).2.toList) ++ actions.filterMap (·.added?) := by
        rw [List.append_assoc, List.append_assoc]
        exact List.perm_append_comm.append_left _
      _ ~ (t.items ++ a.added?.toList) ++ actions.filterMap (·.added?) := (perm_perform t a).append_right _
      _ = t.items ++ (a.added?.toList ++ actions.filterMap (·.added?)) := List.append_assoc ..

theorem sublist_performAll (actions : List ItemAction) (t : Tile) :
    (performAll actions t).1.items.Sublist ((actions.filterMap (·.added?)).reverse ++ t.items) := by
  induction actions generalizing t with
  | nil => exact .refl _
  | cons a actions ih =>
    have hadded : ((a :: actions).filterMap (·.added?)).reverse ++ t.items =
        (actions.filterMap (·.added?)).reverse ++ (a.added?.toList ++ t.items) := by
      cases h : a.added? <;> simp [h]
    rw [hadded]
    exact (ih (t.perform a).1).trans ((sublist_perform t a).append_left _)

theorem objects_performAll (actions : List ItemAction) (t : Tile) :
    (performAll actions t).1.objects = t.objects := by
  induction actions generalizing t with
  | nil => rfl
  | cons a actions ih => rw [performAll_cons, ih, objects_perform]

/-- What a row of actions has made of a tile. -/
structure Piled (actions : List ItemAction) (t next : Tile) (taken : List (Option ItemStack)) : Prop where
  piles : ∀ k, next.stacksOf k = (Pile.performAll (about k actions) (t.pile k)).1.map (ItemStack.mk k)
  answers : ∀ k, answersAbout k actions taken =
    (Pile.performAll (about k actions) (t.pile k)).2.map (Option.map (ItemStack.mk k))
  removal : ∀ k, Removal k next (next.perform (.remove k))
  kept : (next.items ++ taken.reduceOption).Perm (t.items ++ actions.filterMap (·.added?))
  order : next.items.Sublist ((actions.filterMap (·.added?)).reverse ++ t.items)
  objects : next.objects = t.objects

/-- However the actions about different items follow each other, the stacks of each item are those of a pile that is
only told of its own actions, and so are its answers. What was added is on the tile or was taken, in the same order. -/
theorem piled_performAll (actions : List ItemAction) (t : Tile) :
    Piled actions t (performAll actions t).1 (performAll actions t).2 where
  piles k := by rw [stacksOf_eq_map, (pile_performAll k actions t).1]
  answers k := (pile_performAll k actions t).2
  removal := removal _
  kept := perm_performAll actions t
  order := sublist_performAll actions t
  objects := objects_performAll actions t

example : performAll [.add ⟨995, 5⟩, .add ⟨526, 1⟩, .add ⟨995, 10⟩, .remove 995, .remove 4151] {} =
    ({ items := [⟨526, 1⟩, ⟨995, 5⟩] }, [none, none, none, some ⟨995, 10⟩, none]) := by decide

end AssetCache.Tile
