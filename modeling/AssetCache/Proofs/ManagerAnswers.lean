import Mathlib
import AssetCache.Manager

/-!
# What a manager answers

What a manager keeps is what its source would give it again (`Coherent`), so an action answers as if nothing
had been kept. All that it does to the manager is to meet demands for archives and map files, and which ones
these are is up to the source alone (`Meets`). This goes through action by action. Main statements:
`meets_archive` for one archive, `meets_loadAll` for everything.
-/

namespace AssetCache

/-! ### Straight from a source

Each of these is what the action of the same name answers, without anything that was kept. -/

namespace Source
open Manager

variable (source : Source)

def archive (category : UInt8) (id : UInt32) : Except LoadError Archive :=
  source category id >>= Archive.parse

def file (category : UInt8) (id : UInt32) (name : String) : Except LoadError Bytes := do
  (← source.archive category id).file name

def items : Except LoadError (Array Item) := do
  let config ← source.archive archiveCategory configArchive
  let data ← config.file "obj.dat"
  let index ← config.file "obj.idx"
  Item.decodeAll data index

def objects : Except LoadError (List WorldObject) := do
  let config ← source.archive archiveCategory configArchive
  let data ← config.file "loc.dat"
  let index ← config.file "loc.idx"
  WorldObject.decodeAll data index

def interfaces : Except LoadError InterfaceTable := do
  let data ← source.file archiveCategory interfaceArchive "data"
  InterfaceTable.decode data

def mapOf (objectCount : Nat) : Except LoadError WorldMap := do
  let table ← source.file archiveCategory versionArchive "map_index"
  let regions ← Region.decodeAll table
  (WorldMap.build regions objectCount fun id => source mapCategory id.toUInt32).2

def map : Except LoadError WorldMap := do
  let objects ← source.objects
  source.mapOf objects.length

def loadAll : Except LoadError Assets := do
  let items ← source.items
  let objects ← source.objects
  let interfaces ← source.interfaces
  let map ← source.mapOf objects.length
  pure { items, objects, interfaces, map }

end Source

/-- What an action needs on its way: an archive that is parsed, or a map file as it is. -/
inductive Demand
  | archive (key : UInt8 × UInt32)
  | mapFile (id : UInt16)
deriving DecidableEq, Repr

/-- What is demanded once `v` is there; nothing if it failed. -/
def demandsAfter {α : Type} (v : Except LoadError α) (demands : α → List Demand) : List Demand :=
  match v with
  | .ok a => demands a
  | .error _ => []

@[simp] theorem demandsAfter_nil {α : Type} (v : Except LoadError α) :
    demandsAfter v (fun _ => []) = [] := by
  cases v <;> rfl

theorem demandsAfter_bind {α β : Type} (v : Except LoadError α) (w : α → Except LoadError β)
    (demands : β → List Demand) :
    demandsAfter (v >>= w) demands = demandsAfter v fun a => demandsAfter (w a) demands := by
  cases v <;> rfl

/-! ### What each action demands

An action that fails demands nothing more, and the map asks for the files that its regions bring up. -/

namespace Demand
open Manager

def config : Demand := .archive (archiveCategory, configArchive)

def interfaces : Demand := .archive (archiveCategory, interfaceArchive)

def versions : Demand := .archive (archiveCategory, versionArchive)

end Demand

namespace Source
open Manager

variable (source : Source)

def mapOfDemands (objectCount : Nat) : List Demand :=
  .versions :: demandsAfter (source.file archiveCategory versionArchive "map_index" >>= Region.decodeAll)
    fun regions =>
      (WorldMap.build regions objectCount fun id => source mapCategory id.toUInt32).1.map .mapFile

def mapDemands : List Demand :=
  .config :: demandsAfter source.objects fun objects => source.mapOfDemands objects.length

def loadAllDemands : List Demand :=
  .config :: demandsAfter source.items fun _ =>
    .config :: demandsAfter source.objects fun objects =>
      .interfaces :: demandsAfter source.interfaces fun _ => source.mapOfDemands objects.length

end Source

namespace Manager

variable {α β : Type} {source : Source}

/-- That a manager is open and keeps only what its source gives. -/
structure Coherent (source : Source) (m : Manager) : Prop where
  isOpen : m.closed = false
  kept : ∀ key a, m.kept.lookup key = some a → source.archive key.1 key.2 = .ok a

theorem coherent_new (source : Source) : Coherent source {} := ⟨rfl, fun _ _ h => nomatch h⟩

/-- Meets a demand: a map file is read anew each time, an archive unless it is kept, and one that can be
parsed is kept. -/
def meet (source : Source) (m : Manager) : Demand → Manager
  | .mapFile id => { m with reads := (mapCategory, id.toUInt32) :: m.reads }
  | .archive key =>
    match m.kept.lookup key with
    | some _ => m
    | none =>
      match source.archive key.1 key.2 with
      | .ok a => { m with kept := (key, a) :: m.kept, reads := key :: m.reads }
      | .error _ => { m with reads := key :: m.reads }

theorem Coherent.meet {m : Manager} (hm : Coherent source m) (d : Demand) :
    Coherent source (m.meet source d) := by
  cases d with
  | mapFile id => exact ⟨hm.isOpen, hm.kept⟩
  | archive key =>
    cases hk : m.kept.lookup key with
    | some _ => simpa only [Manager.meet, hk] using hm
    | none =>
      cases ha : source.archive key.1 key.2 with
      | error e =>
        simp only [Manager.meet, hk, ha]
        exact ⟨hm.isOpen, hm.kept⟩
      | ok a =>
        simp only [Manager.meet, hk, ha]
        refine ⟨hm.isOpen, fun key' b hb => ?_⟩
        rw [List.lookup_cons] at hb
        split at hb
        · next heq =>
          obtain rfl := eq_of_beq heq
          rwa [← Option.some.inj hb]
        · exact hm.kept key' b hb

theorem Coherent.meetAll {m : Manager} (hm : Coherent source m) (ds : List Demand) :
    Coherent source (ds.foldl (Manager.meet source) m) := by
  induction ds generalizing m with
  | nil => exact hm
  | cons d ds ih => exact ih (hm.meet d)

/-- That an action answers `v` whatever a manager of the source has kept, and meets the demands `ds` in
doing so. -/
def Meets (source : Source) (x : Load α) (v : Except LoadError α) (ds : List Demand) : Prop :=
  ∀ m, Coherent source m → x.run m = (v, ds.foldl (meet source) m)

theorem run_bind (x : Load α) (f : α → Load β) (m : Manager) : (x >>= f).run m =
    match x.run m with
    | (.ok a, m') => (f a).run m'
    | (.error e, m') => (.error e, m') := by
  change (match x.run m with | (v, m') => (ExceptT.bindCont f v).run m') = _
  rcases x.run m with ⟨a | e, m'⟩ <;> rfl

theorem run_get_bind (f : Manager → Load β) (m : Manager) : (get >>= f).run m = (f m).run m := rfl

theorem run_requireOpen (m : Manager) :
    requireOpen.run m = if m.closed then (.error .closed, m) else (.ok (), m) := by
  unfold requireOpen
  rw [run_bind]
  change (if m.closed then (throw .closed : Load Unit) else pure ()).run m = _
  split <;> rfl

theorem run_requireOpen_bind {m : Manager} (hm : m.closed = false) (f : Unit → Load β) :
    (requireOpen >>= f).run m = (f ()).run m := by
  rw [run_bind, run_requireOpen, if_neg (by simp [hm])]

namespace Meets

theorem ofExcept (v : Except LoadError α) : Meets source (liftExcept v) v [] := by
  intro m _
  cases v <;> rfl

theorem pure (a : α) : Meets source (pure a) (.ok a) [] := fun _ _ => rfl

theorem bind {x : Load α} {f : α → Load β} {v : Except LoadError α} {w : α → Except LoadError β}
    {ds : List Demand} {es : α → List Demand} (hx : Meets source x v ds)
    (hf : ∀ a, v = .ok a → Meets source (f a) (w a) (es a)) :
    Meets source (x >>= f) (v >>= w) (ds ++ demandsAfter v es) := by
  intro m hm
  rw [run_bind, hx m hm, List.foldl_append]
  cases v with
  | error e => rfl
  | ok a => exact hf a rfl _ (hm.meetAll ds)

theorem congr {x : Load α} {v : Except LoadError α} {ds ds' : List Demand} (hx : Meets source x v ds)
    (h : ds = ds') : Meets source x v ds' := h ▸ hx

theorem map (f : α → β) {x : Load α} {v : Except LoadError α} {ds : List Demand} (hx : Meets source x v ds) :
    Meets source (f <$> x) (f <$> v) ds := by
  have h := hx.bind (f := fun a => Pure.pure (f a)) (w := fun a => .ok (f a)) fun a _ => pure (f a)
  rw [demandsAfter_nil, List.append_nil] at h
  exact h

theorem forM_note (ids : List UInt16) :
    Meets source (ids.forM fun id => note (mapCategory, id.toUInt32)) (.ok ()) (ids.map .mapFile) := by
  induction ids with
  | nil => exact pure ()
  | cons id ids ih =>
    intro m hm
    exact ih _ (hm.meet (.mapFile id))

end Meets

/-- Reads an archive, parses it and keeps it. -/
def readAnew (source : Source) (category : UInt8) (id : UInt32) : Load Archive := do
  let raw ← readRaw source category id
  let a ← liftExcept (Archive.parse raw)
  modify fun m => { m with kept := ((category, id), a) :: m.kept }
  pure a

theorem archive_eq (source : Source) (category : UInt8) (id : UInt32) :
    archive source category id = (do
      requireOpen
      match (← get).kept.lookup (category, id) with
      | some a => pure a
      | none => readAnew source category id) := rfl

theorem run_readRaw {m : Manager} (hm : m.closed = false) (category : UInt8) (id : UInt32) :
    (readRaw source category id).run m =
      (source category id, { m with reads := (category, id) :: m.reads }) := by
  unfold readRaw
  rw [run_requireOpen_bind hm]
  cases hs : source category id <;> rfl

theorem run_readAnew {m : Manager} (hm : m.closed = false) (category : UInt8) (id : UInt32) :
    (readAnew source category id).run m =
      match source.archive category id with
      | .ok a => (.ok a, { m with
          kept := ((category, id), a) :: m.kept, reads := (category, id) :: m.reads })
      | .error e => (.error e, { m with reads := (category, id) :: m.reads }) := by
  unfold readAnew Source.archive
  rw [run_bind, run_readRaw hm]
  cases hs : source category id with
  | error e => rfl
  | ok raw =>
    simp only [run_bind]
    cases hp : Archive.parse raw <;> simp only [bind, Except.bind, hp] <;> rfl

/-- An archive is answered the same whether it was kept or has to be read. -/
theorem meets_archive (category : UInt8) (id : UInt32) :
    Meets source (archive source category id) (source.archive category id) [.archive (category, id)] := by
  intro m hm
  rw [archive_eq, run_requireOpen_bind hm.isOpen, run_get_bind]
  simp only [List.foldl_cons, List.foldl_nil, meet]
  cases hk : m.kept.lookup (category, id) with
  | some a =>
    rw [hm.kept _ _ hk]
    rfl
  | none =>
    rw [run_readAnew hm.isOpen]
    cases source.archive category id <;> rfl

theorem meets_file (category : UInt8) (id : UInt32) (name : String) :
    Meets source (file source category id name) (source.file category id name)
      [.archive (category, id)] :=
  ((meets_archive category id).bind fun _ _ => Meets.ofExcept _).congr (by simp)

theorem meets_items : Meets source (items source) source.items [.config] :=
  ((meets_archive _ _).bind fun _ _ => (Meets.ofExcept _).bind fun _ _ => (Meets.ofExcept _).bind
    fun _ _ => Meets.ofExcept _).congr (by simp [Demand.config])

theorem meets_objects : Meets source (objects source) source.objects [.config] :=
  ((meets_archive _ _).bind fun _ _ => (Meets.ofExcept _).bind fun _ _ => (Meets.ofExcept _).bind
    fun _ _ => Meets.ofExcept _).congr (by simp [Demand.config])

theorem meets_interfaces : Meets source (interfaces source) source.interfaces [.interfaces] :=
  ((meets_file _ _ _).bind fun _ _ => Meets.ofExcept _).congr (by simp [Demand.interfaces])

theorem meets_mapOf (objectCount : Nat) :
    Meets source (mapOf source objectCount) (source.mapOf objectCount) (source.mapOfDemands objectCount) := by
  refine ((meets_file _ _ _).bind fun _ _ => (Meets.ofExcept _).bind fun _ _ =>
    (Meets.forM_note _).bind fun _ _ => Meets.ofExcept _).congr ?_
  simp only [demandsAfter_nil, List.append_nil, List.nil_append, List.singleton_append, Source.mapOfDemands,
    Demand.versions, demandsAfter_bind]
  rfl

theorem meets_map : Meets source (map source) source.map source.mapDemands :=
  meets_objects.bind fun _ _ => meets_mapOf _

theorem meets_loadAll : Meets source (loadAll source) source.loadAll source.loadAllDemands :=
  (meets_items.bind fun _ _ => meets_objects.bind fun _ _ => meets_interfaces.bind fun _ _ =>
    (meets_mapOf _).bind fun _ _ => Meets.pure _).congr (by simp [Source.loadAllDemands])

/-- That an action answers `v` whatever a manager of the source has kept. -/
def Answers (source : Source) (x : Load α) (v : Except LoadError α) : Prop :=
  ∀ m, Coherent source m → (x.run m).1 = v ∧ Coherent source (x.run m).2

theorem Meets.answers {x : Load α} {v : Except LoadError α} {ds : List Demand} (hx : Meets source x v ds) :
    Answers source x v := by
  intro m hm
  rw [hx m hm]
  exact ⟨rfl, hm.meetAll ds⟩

theorem answers_loadAll : Answers source (loadAll source) source.loadAll := meets_loadAll.answers

end Manager

end AssetCache
