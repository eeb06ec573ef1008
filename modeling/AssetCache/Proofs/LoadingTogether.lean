import Mathlib
import AssetCache.Proofs.ManagerSession

/-!
# Loading everything at once

To load everything is to load the four parts one after the other, each as if on its own (`Source.loadAll_eq`):
that the map takes the number of the objects already decoded, instead of decoding them again, makes no difference.
Nothing that is asked later tells whether it was tried (`serve_fst_eq`). Main statement: `loadAll_parts`, whatever
the manager has been asked before.
-/

namespace AssetCache
variable {α β : Type}

/-- Why something failed, if it did. -/
def failure? : Except LoadError α → Option LoadError
  | .ok _ => none
  | .error e => some e

theorem bind_eq_ok {v : Except LoadError α} {f : α → Except LoadError β} {b : β} :
    v >>= f = .ok b ↔ ∃ a, v = .ok a ∧ f a = .ok b := by
  cases v with
  | error e => simp [bind, Except.bind]
  | ok a => simp [bind, Except.bind]

/-- If what comes second fails the same whatever came first, the first failure is that of the first or else that
of the second. -/
theorem failure?_bind {v : Except LoadError α} {f : α → Except LoadError β} {e : Option LoadError}
    (hf : ∀ a, failure? (f a) = e) : failure? (v >>= f) = (failure? v).or e := by
  cases v with
  | error e => rfl
  | ok a => exact hf a

namespace Source

theorem loadAll_eq (source : Source) : source.loadAll = (do
    let items ← source.items
    let objects ← source.objects
    let interfaces ← source.interfaces
    let map ← source.map
    pure { items, objects, interfaces, map }) := by
  unfold loadAll map
  cases source.objects with
  | error e => rfl
  | ok objects => rfl

theorem loadAll_eq_ok_iff {source : Source} {a : Assets} : source.loadAll = .ok a ↔
    source.items = .ok a.items ∧ source.objects = .ok a.objects ∧ source.interfaces = .ok a.interfaces ∧
      source.map = .ok a.map := by
  rw [loadAll_eq]
  constructor
  · intro h
    obtain ⟨items, hitems, h⟩ := bind_eq_ok.1 h
    obtain ⟨objects, hobjects, h⟩ := bind_eq_ok.1 h
    obtain ⟨interfaces, hinterfaces, h⟩ := bind_eq_ok.1 h
    obtain ⟨map, hmap, h⟩ := bind_eq_ok.1 h
    cases h
    exact ⟨hitems, hobjects, hinterfaces, hmap⟩
  · rintro ⟨hitems, hobjects, hinterfaces, hmap⟩
    rw [hitems, hobjects, hinterfaces, hmap]
    rfl

theorem failure?_loadAll (source : Source) : failure? source.loadAll =
    ((failure? source.items).or <| (failure? source.objects).or <| (failure? source.interfaces).or <|
      failure? source.map) := by
  rw [loadAll_eq]
  refine failure?_bind fun items => failure?_bind fun objects => failure?_bind fun interfaces => ?_
  cases source.map <;> rfl

end Source

namespace Manager
variable {source : Source} {m m' : Manager}

/-- Open managers of one source answer a session the same, its closing and all that comes behind it included. -/
theorem serve_fst_eq (hm : Coherent source m) (hm' : Coherent source m') (rs : List Request) :
    (serve source rs m).1 = (serve source rs m').1 := by
  induction rs generalizing m m' with
  | nil => rfl
  | cons r rs ih =>
    by_cases hr : r = .close
    · subst hr
      rw [serve_cons, serve_cons, run_close, run_close, serve_close, serve_close]
    · rw [serve_cons, serve_cons, meets_perform hr m hm, meets_perform hr m' hm']
      exact congrArg (source.reply r :: ·) (ih (hm.meetAll _) (hm'.meetAll _))

/-- That a manager has come out of a new one by a session in which it was not closed. -/
def Reachable (source : Source) (m : Manager) : Prop := ∃ rs, .close ∉ rs ∧ m = (serve source rs {}).2

theorem Reachable.coherent (h : Reachable source m) : Coherent source m := by
  obtain ⟨rs, hrs, rfl⟩ := h
  rw [serve_of_coherent hrs (coherent_new source)]
  exact (coherent_new source).meetAll _

/-- Everything loads exactly if the four parts load, each on its own, from whatever state: then it is these parts.
Else it fails as the first of them that fails. Either way the manager stays open, and what it is asked later it
answers as it would have before. -/
theorem loadAll_parts {alone : Manager} (hm : Reachable source m) (halone : Reachable source alone) :
    (∀ a, ((loadAll source).run m).1 = .ok a ↔
      ((items source).run alone).1 = .ok a.items ∧ ((objects source).run alone).1 = .ok a.objects ∧
        ((interfaces source).run alone).1 = .ok a.interfaces ∧ ((map source).run alone).1 = .ok a.map) ∧
    failure? ((loadAll source).run m).1 =
      ((failure? ((items source).run alone).1).or <| (failure? ((objects source).run alone).1).or <|
        (failure? ((interfaces source).run alone).1).or <| failure? ((map source).run alone).1) ∧
    ((loadAll source).run m).2.closed = false ∧
    ∀ later, (serve source later ((loadAll source).run m).2).1 = (serve source later m).1 := by
  obtain ⟨hload, hleft⟩ := answers_loadAll m hm.coherent
  have ha := halone.coherent
  rw [hload, (meets_items.answers alone ha).1, (meets_objects.answers alone ha).1,
    (meets_interfaces.answers alone ha).1, (meets_map.answers alone ha).1]
  exact ⟨fun a => Source.loadAll_eq_ok_iff, Source.failure?_loadAll source, hleft.isOpen,
    serve_fst_eq hleft hm.coherent⟩

/-- The definitions of the small files, and nothing else. -/
def definitionsOnly : Source := fun category id =>
  if category = 0 ∧ id = 2 then stocked category id
  else .error (.corruptIndex category id (.beyondFile (6 * id.toNat) 0))

theorem loadAll_parts_definitionsOnly :
    let m := (serve definitionsOnly [.loadAll, .archive 0 2] {}).2
    failure? ((map definitionsOnly).run {}).1 = some (.corruptIndex 0 5 (.beyondFile 30 0)) ∧
    failure? ((loadAll definitionsOnly).run m).1 = some (.corruptIndex 0 3 (.beyondFile 18 0)) ∧
    ((loadAll definitionsOnly).run m).2.closed = false := by
  have hm : Reachable definitionsOnly (serve definitionsOnly [.loadAll, .archive 0 2] {}).2 :=
    ⟨[.loadAll, .archive 0 2], by decide, rfl⟩
  have hnew : Reachable definitionsOnly {} := ⟨[], by decide, rfl⟩
  obtain ⟨-, hfailure, hopen, -⟩ := loadAll_parts hm hnew
  have hitems : failure? ((items definitionsOnly).run {}).1 = none := by decide +kernel
  have hobjects : failure? ((objects definitionsOnly).run {}).1 = none := by decide +kernel
  have hinterfaces : failure? ((interfaces definitionsOnly).run {}).1 =
      some (.corruptIndex 0 3 (.beyondFile 18 0)) := by decide +kernel
  rw [hitems, hobjects, hinterfaces] at hfailure
  exact ⟨by decide +kernel, hfailure, hopen⟩

end Manager

end AssetCache
