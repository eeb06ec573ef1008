import Mathlib
import AssetCache.Proofs.MapBuilding

/-!
# The files a map is built from

A build asks for the object file of a region unless an earlier region has brought it: what has been asked for
are the distinct ids of the regions so far (`Fetched.Tracks`). Main statements: `build_shares`, a build does what
going through the regions with every file fetched anew does, and asks for every id once; and `build_plain`,
which files that are not compressed are placed as they are.
-/

namespace AssetCache

namespace Placement

/-! ### First bytes -/

end Placement

namespace WorldMap
open Placement
variable {objectCount : ℕ} {fetch : UInt16 → Except LoadError Bytes} {r : Region} {regions before : List Region}
  {tiles : TileMap} {ids : List UInt16} {id : UInt16} {f : Fetched} {ps : List Placement} {file : Bytes}

/-! ### What is asked for -/

theorem eraseDups_concat (ids : List UInt16) (id : UInt16) :
    (ids ++ [id]).eraseDups = if id ∈ ids then ids.eraseDups else ids.eraseDups ++ [id] := by
  rw [List.eraseDups_append]
  by_cases h : id ∈ ids <;> simp [List.removeAll, List.eraseDups_cons, h]

namespace Fetched

theorem file_of_kept (h : f.files.lookup id = some file) : f.file fetch id = (f, .ok file) := by
  simp [Fetched.file, h]

theorem file_of_ok (h : f.files.lookup id = none) (hfetch : fetch id >>= Gzip.inflate = .ok file) :
    f.file fetch id = (⟨id :: f.asked, (id, file) :: f.files⟩, .ok file) := by
  simp [Fetched.file, h, hfetch]

theorem file_of_error {e : LoadError} (h : f.files.lookup id = none)
    (hfetch : fetch id >>= Gzip.inflate = .error e) :
    f.file fetch id = (⟨id :: f.asked, f.files⟩, .error e) := by
  simp [Fetched.file, h, hfetch]

/-- That the ids asked for are the given ones, each where it came first, and that all of their files are kept. -/
structure Tracks (f : Fetched) (ids : List UInt16) : Prop where
  asked : f.asked.reverse = ids.eraseDups
  kept : ∀ id, f.files.lookup id = none ↔ id ∉ ids

namespace Tracks

theorem empty : Tracks {} [] := ⟨rfl, by simp⟩

theorem asked_concat (h : f.Tracks ids) (hid : id ∉ ids) : (id :: f.asked).reverse = (ids ++ [id]).eraseDups := by
  rw [eraseDups_concat, if_neg hid, List.reverse_cons, h.asked]

theorem mem_of_kept (h : f.Tracks ids) (hkept : f.files.lookup id = some file) : id ∈ ids := by
  by_contra hid
  rw [(h.kept id).2 hid] at hkept
  nomatch hkept

/-- One more id is asked for unless it has been, whether there is a file or not. -/
theorem asked_file (h : f.Tracks ids) (id : UInt16) : (f.file fetch id).1.asked.reverse = (ids ++ [id]).eraseDups := by
  cases hlookup : f.files.lookup id with
  | some file =>
    rw [file_of_kept hlookup, eraseDups_concat, if_pos (h.mem_of_kept hlookup)]
    exact h.asked
  | none =>
    have hid : id ∉ ids := (h.kept id).1 hlookup
    cases hfetch : fetch id >>= Gzip.inflate with
    | error e =>
      rw [file_of_error hlookup hfetch]
      exact h.asked_concat hid
    | ok file =>
      rw [file_of_ok hlookup hfetch]
      exact h.asked_concat hid

/-- A file that there is is kept. -/
theorem next (h : f.Tracks ids) (hfetch : fetch id >>= Gzip.inflate = .ok file) :
    (f.file fetch id).1.Tracks (ids ++ [id]) := by
  refine ⟨h.asked_file id, fun id' => ?_⟩
  have hmem : id' ∉ ids ++ [id] ↔ id' ≠ id ∧ f.files.lookup id' = none := by
    rw [h.kept, List.mem_append, List.mem_singleton]
    tauto
  rw [hmem]
  cases hlookup : f.files.lookup id with
  | some kept =>
    rw [file_of_kept hlookup]
    constructor
    · intro hnone
      refine ⟨?_, hnone⟩
      rintro rfl
      rw [hlookup] at hnone
      nomatch hnone
    · exact And.right
  | none =>
    rw [file_of_ok hlookup hfetch, List.lookup_cons]
    by_cases hid : id' = id
    · simp [hid]
    · have hbeq : (id' == id) = false := beq_false_of_ne hid
      simp [hid, hbeq]

end Tracks

end Fetched

/-! ### Region by region -/

theorem placeRegion_of_places (h : Places objectCount fetch r ps) (hfile : r.objectFile fetch = .ok file)
    (tiles : TileMap) : placeRegion objectCount r file tiles = .ok (ps.foldl put tiles) := by
  have hanew := placeAnew_of_places h tiles
  rwa [placeAnew, hfile] at hanew

/-- Regions that place all their objects are gone through, and their files are kept. -/
theorem placeRegions_append (hf : f.Faithful fetch) (htracks : f.Tracks ids)
    (h : ∀ q ∈ before, ∃ ps, Places objectCount fetch q ps) (rest : List Region) (tiles : TileMap) :
    ∃ f' tiles', f'.Faithful fetch ∧ f'.Tracks (ids ++ before.map (·.objectsId)) ∧
      placeRegions objectCount fetch (before ++ rest) f tiles = placeRegions objectCount fetch rest f' tiles' := by
  induction before generalizing f ids tiles with
  | nil => exact ⟨f, tiles, hf, by simpa using htracks, rfl⟩
  | cons r before ih =>
    obtain ⟨⟨ps, hr⟩, hbefore⟩ := List.forall_mem_cons.1 h
    obtain ⟨file, hfile, -⟩ := hr.decoded
    obtain ⟨hkeep, hout⟩ := hf.file r.objectsId
    have hplaced := placeRegion_of_places hr hfile tiles
    -- from here on the file of `r` is among those that are kept
    obtain ⟨f', tiles', hf', htracks', hrest⟩ := ih hkeep (htracks.next hfile) hbefore (ps.foldl put tiles)
    refine ⟨f', tiles', hf', by simpa using htracks', ?_⟩
    rw [← hrest, List.cons_append, placeRegions]
    cases hstep : f.file fetch r.objectsId with
    | mk f₁ out =>
      rw [hstep] at hout
      obtain rfl : out = .ok file := hout.trans hfile
      simp only [hplaced]

/-- A region that fails has its file asked for first. -/
theorem asked_placeRegions_of_failsAt {fault : Fault} (hf : f.Faithful fetch) (htracks : f.Tracks ids)
    (h : FailsAt objectCount fetch r fault) (after : List Region) (tiles : TileMap) :
    (placeRegions objectCount fetch (r :: after) f tiles).1.asked.reverse = (ids ++ [r.objectsId]).eraseDups := by
  have hasked : (f.file fetch r.objectsId).1.asked.reverse = (ids ++ [r.objectsId]).eraseDups :=
    htracks.asked_file r.objectsId
  have hanew := placeAnew_of_failsAt h tiles
  obtain ⟨-, hout⟩ := hf.file r.objectsId
  rw [placeAnew, Region.objectFile, ← hout] at hanew
  rw [placeRegions]
  cases hstep : f.file fetch r.objectsId with
  | mk f₁ out =>
    rw [hstep] at hasked hanew
    cases out with
    | error e => exact hasked
    | ok file =>
      have hplaced : placeRegion objectCount r file tiles = .error (fault.error objectCount) := hanew
      simp only [hplaced]
      exact hasked

theorem fst_build_of_places (h : ∀ q ∈ regions, ∃ ps, Places objectCount fetch q ps) :
    (build regions objectCount fetch).1 = (regions.map (·.objectsId)).eraseDups := by
  obtain ⟨f, tiles, -, htracks, hrun⟩ := placeRegions_append Fetched.Faithful.empty Fetched.Tracks.empty h [] ∅
  rw [List.append_nil] at hrun
  rw [build, hrun]
  exact htracks.asked

theorem fst_build_of_failsAt {fault : Fault} (h : ∀ q ∈ before, ∃ ps, Places objectCount fetch q ps)
    (hr : FailsAt objectCount fetch r fault) (after : List Region) :
    (build (before ++ r :: after) objectCount fetch).1 = ((before ++ [r]).map (·.objectsId)).eraseDups := by
  obtain ⟨f, tiles, hf, htracks, hrun⟩ :=
    placeRegions_append Fetched.Faithful.empty Fetched.Tracks.empty h (r :: after) ∅
  rw [build, hrun, List.map_append]
  exact asked_placeRegions_of_failsAt hf htracks hr after tiles

/-- The map of the given regions, every file fetched and unpacked anew. -/
def buildAnew (regions : List Region) (objectCount : ℕ) (fetch : UInt16 → Except LoadError Bytes) :
    Except LoadError WorldMap :=
  (regions.foldlM (placeAnew objectCount fetch) ∅).map fun tiles => { regions, tiles }

theorem exists_places_of_forall₂ {streams : List (List Placement)}
    (h : List.Forall₂ (Places objectCount fetch) regions streams) :
    ∀ q ∈ regions, ∃ ps, Places objectCount fetch q ps := by
  induction h with
  | nil => simp
  | cons hr _ ih => exact List.forall_mem_cons.2 ⟨⟨_, hr⟩, ih⟩

/-- Keeping files changes neither the map nor the error; and the ids that are asked for are the distinct ones of
the regions, or of those up to the region that fails. -/
theorem build_shares (regions : List Region) (objectCount : ℕ) (fetch : UInt16 → Except LoadError Bytes) :
    (build regions objectCount fetch).2 = buildAnew regions objectCount fetch ∧
    (∀ m, (build regions objectCount fetch).2 = .ok m →
      (build regions objectCount fetch).1 = (regions.map (·.objectsId)).eraseDups) ∧
    ∀ e, (build regions objectCount fetch).2 = .error e → ∃ before r after fault,
      regions = before ++ r :: after ∧ (∀ q ∈ before, ∃ ps, Places objectCount fetch q ps) ∧
        FailsAt objectCount fetch r fault ∧ fault.error objectCount = e ∧
        (build regions objectCount fetch).1 = ((before ++ [r]).map (·.objectsId)).eraseDups := by
  refine ⟨snd_build regions objectCount fetch, fun m hm => ?_, fun e he => ?_⟩
  · rcases places_or_firstFault objectCount fetch regions with ⟨streams, hstreams⟩ | ⟨fault, hfault⟩
    · exact fst_build_of_places (exists_places_of_forall₂ hstreams)
    · rw [build_of_firstFault hfault] at hm
      nomatch hm
  · obtain ⟨fault, ⟨before, r, after, rfl, hbefore, hr⟩, herror⟩ := build_eq_error_iff.1 he
    exact ⟨before, r, after, fault, rfl, hbefore, hr, herror, fst_build_of_failsAt hbefore hr after⟩

/-- Two regions that share a file, one whose file cannot be had, and one that is not gone to. -/
def cutShort : List Region := [⟨0, 1, 7, 8, false⟩, ⟨2, 0, 7, 8, true⟩, ⟨0, 0, 7, 10, false⟩, ⟨0, 2, 7, 9, false⟩]

theorem build_shares_cutShort :
    (∃ m, (build shared 3 sharedFiles).2 = .ok m ∧ (build shared 3 sharedFiles).1 = [8, 9]) ∧
    (build cutShort 3 sharedFiles).2 = .error (.decompressionFailed .gzip) ∧
      ∃ before r after fault, cutShort = before ++ r :: after ∧
        (∀ q ∈ before, ∃ ps, Places 3 sharedFiles q ps) ∧ FailsAt 3 sharedFiles r fault ∧
        (build cutShort 3 sharedFiles).1 = ((before ++ [r]).map (·.objectsId)).eraseDups := by
  have hshared := build_of_places places_shared
  have hcut : (build cutShort 3 sharedFiles).2 = .error (.decompressionFailed .gzip) := by
    obtain ⟨hfirst, hsecond⟩ : Places 3 sharedFiles ⟨0, 1, 7, 8, false⟩ _ ∧ Places 3 sharedFiles ⟨2, 0, 7, 8, true⟩ _ := by
      cases places_shared with
      | cons h₁ h₂ => cases h₂ with
        | cons h₂ h₃ => exact ⟨h₁, h₂⟩
    have hfault : FirstFault 3 sharedFiles cutShort (.file ⟨0, 0, 7, 10, false⟩ (.decompressionFailed .gzip)) := by
      refine ⟨[⟨0, 1, 7, 8, false⟩, ⟨2, 0, 7, 8, true⟩], _, [⟨0, 2, 7, 9, false⟩], rfl, ?_, .file rfl⟩
      simpa using ⟨⟨_, hfirst⟩, ⟨_, hsecond⟩⟩
    exact build_of_firstFault hfault
  obtain ⟨before, r, after, fault, hregions, hbefore, hr, -, hasked⟩ := (build_shares cutShort 3 sharedFiles).2.2 _ hcut
  exact ⟨⟨_, hshared, (build_shares shared 3 sharedFiles).2.1 _ hshared⟩, hcut, before, r, after, fault, hregions,
    hbefore, hr, hasked⟩

/-! ### Files that are not compressed -/

end WorldMap

end AssetCache
