import Mathlib
import AssetCache.WorldMap.Building
import AssetCache.Proofs.ObjectStreams

/-!
# What a built map holds

Keeping the files that were fetched changes nothing (`snd_placeRegions`), so a build goes from region to region,
and every region either places all its objects or fails at its first bad step (`places_or_failsAt`). Placed
objects are found on the tile of their position, in order (`getElem?_foldl_put`). Main statement:
`build_content`, what the map of a build holds, and which failing step a failing build reports.
-/

namespace AssetCache

/-! ### The order of tiles -/

instance : Std.TransCmp Vec3.order := by
  unfold Vec3.order
  infer_instance

instance : Std.LawfulEqCmp Vec3.order where
  eq_of_compare {a b} h := by
    obtain ⟨hz, h⟩ := compareLex_eq_eq.1 h
    obtain ⟨hx, hy⟩ := compareLex_eq_eq.1 h
    obtain ⟨x, y, z⟩ := a
    obtain rfl : x = b.x := Std.LawfulEqCmp.eq_of_compare hx
    obtain rfl : y = b.y := Std.LawfulEqCmp.eq_of_compare hy
    obtain rfl : z = b.z := Std.LawfulEqCmp.eq_of_compare hz
    rfl

namespace WorldMap
variable {objectCount : Nat} {fetch : UInt16 → Except LoadError Bytes} {regions : List Region}
  {streams : List (List Placement)} {tiles : TileMap} {ps : List Placement} {r : Region} {m : WorldMap}

/-! ### Files that are kept -/

/-- That the files kept are those that would be fetched again. -/
def Fetched.Faithful (fetch : UInt16 → Except LoadError Bytes) (f : Fetched) : Prop :=
  ∀ id file, f.files.lookup id = some file → fetch id >>= Gzip.inflate = .ok file

theorem Fetched.Faithful.empty : Fetched.Faithful fetch {} := nofun

theorem Fetched.Faithful.file {f : Fetched} (h : f.Faithful fetch) (id : UInt16) :
    (f.file fetch id).1.Faithful fetch ∧ (f.file fetch id).2 = fetch id >>= Gzip.inflate := by
  unfold Fetched.file
  cases hkept : f.files.lookup id with
  | some file => exact ⟨h, (h id file hkept).symm⟩
  | none =>
    dsimp only
    cases hfetch : fetch id >>= Gzip.inflate with
    | error e => exact ⟨h, rfl⟩
    | ok file =>
      refine ⟨fun id' file' hid' => ?_, rfl⟩
      rw [List.lookup_cons] at hid'
      split at hid'
      · next heq =>
        cases hid'
        rwa [beq_iff_eq.1 heq]
      · exact h id' file' hid'

/-- Places the objects of a region, its file fetched anew. -/
def placeAnew (objectCount : Nat) (fetch : UInt16 → Except LoadError Bytes) (tiles : TileMap) (r : Region) :
    Except LoadError TileMap := do placeRegion objectCount r (← r.objectFile fetch) tiles

theorem snd_placeRegions {f : Fetched} (h : f.Faithful fetch) (regions : List Region) (tiles : TileMap) :
    (placeRegions objectCount fetch regions f tiles).2 = regions.foldlM (placeAnew objectCount fetch) tiles := by
  induction regions generalizing f tiles with
  | nil => rfl
  | cons r rs ih =>
    obtain ⟨hkeep, hfile⟩ := h.file r.objectsId
    rw [List.foldlM_cons, placeAnew, Region.objectFile, ← hfile, placeRegions]
    cases hout : f.file fetch r.objectsId with
    | mk f' out =>
      rw [hout] at hkeep
      cases out with
      | error e => rfl
      | ok file =>
        show _ = (placeRegion objectCount r file tiles >>= fun tiles => _)
        dsimp only
        cases placeRegion objectCount r file tiles with
        | error e => rfl
        | ok tiles => exact ih hkeep tiles

/-! ### One region -/

/-- Puts an object on its tile. -/
def put (tiles : TileMap) (p : Placement) : TileMap :=
  tiles.alter p.position fun tile? => some ((tile?.getD {}).place (placed p))

theorem foldlM_place (h : ∀ p ∈ ps, p.objectId.toNat < objectCount) (tiles : TileMap) :
    ps.foldlM (place objectCount) tiles = .ok (ps.foldl put tiles) := by
  induction ps generalizing tiles with
  | nil => rfl
  | cons p ps ih =>
    obtain ⟨hp, hps⟩ := List.forall_mem_cons.1 h
    rw [List.foldlM_cons, place, if_pos hp]
    exact ih hps _

theorem placeAnew_of_places (h : Places objectCount fetch r ps) (tiles : TileMap) :
    placeAnew objectCount fetch tiles r = .ok (ps.foldl put tiles) := by
  obtain ⟨⟨file, hfile, hdecode⟩, hdefined⟩ := h
  rw [placeAnew, hfile]
  show placeRegion objectCount r file tiles = _
  rw [placeRegion, hdecode]
  exact foldlM_place hdefined tiles

theorem placeAnew_of_failsAt {fault : Fault} (h : FailsAt objectCount fetch r fault) (tiles : TileMap) :
    placeAnew objectCount fetch tiles r = .error (fault.error objectCount) := by
  unfold placeAnew
  cases h with
  | file hfile =>
    rw [hfile]
    rfl
  | stream hfile hdecode =>
    rw [hfile]
    show placeRegion objectCount r _ tiles = _
    rw [placeRegion, hdecode]
    rfl
  | object hfile hdecode hbefore hp =>
    rw [hfile]
    show placeRegion objectCount r _ tiles = _
    rw [placeRegion, hdecode]
    show List.foldlM (place objectCount) tiles _ = _
    rw [List.foldlM_append, foldlM_place hbefore]
    show List.foldlM (place objectCount) _ _ = _
    rw [List.foldlM_cons, place, if_neg (Nat.not_lt.2 hp)]
    rfl

/-- A region places all its objects, or one of its steps is the first to fail. -/
theorem places_or_failsAt (objectCount : Nat) (fetch : UInt16 → Except LoadError Bytes) (r : Region) :
    (∃ ps, Places objectCount fetch r ps) ∨ ∃ fault, FailsAt objectCount fetch r fault := by
  cases hfile : r.objectFile fetch with
  | error e => exact .inr ⟨_, .file hfile⟩
  | ok file =>
    cases hdecode : Placement.decodeAll file r.x r.y with
    | error e => exact .inr ⟨_, .stream hfile hdecode⟩
    | ok ps =>
      cases hfind : ps.find? fun p => !decide (p.objectId.toNat < objectCount) with
      | none =>
        refine .inl ⟨ps, ⟨file, hfile, hdecode⟩, fun p hp => ?_⟩
        simpa using List.find?_eq_none.1 hfind p hp
      | some p =>
        obtain ⟨hp, before, after, rfl, hbefore⟩ := List.find?_eq_some_iff_append.1 hfind
        exact .inr ⟨_, .object hfile hdecode (by simpa using hbefore) (by simpa using hp)⟩

/-! ### All regions -/

theorem foldlM_placeAnew (h : List.Forall₂ (Places objectCount fetch) regions streams) (tiles : TileMap) :
    regions.foldlM (placeAnew objectCount fetch) tiles = .ok (streams.flatten.foldl put tiles) := by
  induction h generalizing tiles with
  | nil => rfl
  | cons hr _ ih =>
    rw [List.foldlM_cons, placeAnew_of_places hr, List.flatten_cons, List.foldl_append]
    exact ih _

theorem foldlM_of_firstFault {fault : Fault} (h : FirstFault objectCount fetch regions fault) (tiles : TileMap) :
    regions.foldlM (placeAnew objectCount fetch) tiles = .error (fault.error objectCount) := by
  obtain ⟨before, r, after, rfl, hbefore, hfault⟩ := h
  choose! stream hstream using hbefore
  have hstreams : List.Forall₂ (Places objectCount fetch) before (before.map stream) :=
    List.forall₂_map_right_iff.2 (List.forall₂_same.2 hstream)
  rw [List.foldlM_append, foldlM_placeAnew hstreams]
  show List.foldlM (placeAnew objectCount fetch) _ _ = _
  rw [List.foldlM_cons, placeAnew_of_failsAt hfault]
  rfl

theorem FirstFault.objectFile {cause : LoadError} (h : FirstFault objectCount fetch regions (.file r cause)) :
    r.objectFile fetch = .error cause := by
  obtain ⟨before, r', after, -, -, hfault⟩ := h
  cases hfault with
  | file hfile => exact hfile

theorem places_or_firstFault (objectCount : Nat) (fetch : UInt16 → Except LoadError Bytes)
    (regions : List Region) : (∃ streams, List.Forall₂ (Places objectCount fetch) regions streams) ∨
      ∃ fault, FirstFault objectCount fetch regions fault := by
  induction regions with
  | nil => exact .inl ⟨[], .nil⟩
  | cons r rs ih =>
    rcases places_or_failsAt objectCount fetch r with ⟨ps, hr⟩ | ⟨fault, hfault⟩
    · rcases ih with ⟨streams, hrs⟩ | ⟨fault, before, q, after, rfl, hbefore, hfault⟩
      · exact .inl ⟨ps :: streams, .cons hr hrs⟩
      · exact .inr ⟨fault, r :: before, q, after, rfl, List.forall_mem_cons.2 ⟨⟨ps, hr⟩, hbefore⟩, hfault⟩
    · exact .inr ⟨fault, [], r, rs, rfl, nofun, hfault⟩

theorem snd_build (regions : List Region) (objectCount : Nat) (fetch : UInt16 → Except LoadError Bytes) :
    (build regions objectCount fetch).2 =
      (regions.foldlM (placeAnew objectCount fetch) ∅).map fun tiles => { regions, tiles } := by
  rw [← snd_placeRegions Fetched.Faithful.empty]
  rfl

theorem build_of_places (h : List.Forall₂ (Places objectCount fetch) regions streams) :
    (build regions objectCount fetch).2 = .ok { regions, tiles := streams.flatten.foldl put ∅ } := by
  rw [snd_build, foldlM_placeAnew h]
  rfl

theorem build_of_firstFault {fault : Fault} (h : FirstFault objectCount fetch regions fault) :
    (build regions objectCount fetch).2 = .error (fault.error objectCount) := by
  rw [snd_build, foldlM_of_firstFault h]
  rfl

theorem build_eq_error_iff {e : LoadError} : (build regions objectCount fetch).2 = .error e ↔
    ∃ fault, FirstFault objectCount fetch regions fault ∧ fault.error objectCount = e := by
  constructor
  · intro h
    rcases places_or_firstFault objectCount fetch regions with ⟨streams, hstreams⟩ | ⟨fault, hfault⟩
    · rw [build_of_places hstreams] at h
      nomatch h
    · rw [build_of_firstFault hfault] at h
      exact ⟨fault, hfault, Except.error.inj h⟩
  · rintro ⟨fault, hfault, rfl⟩
    exact build_of_firstFault hfault

/-! ### Tiles -/

theorem getElem?_put (tiles : TileMap) (p : Placement) (k : Vec3) : (put tiles p)[k]? =
    if p.position = k then some ((tiles[k]?.getD {}).place (placed p)) else tiles[k]? := by
  rw [put, Std.TreeMap.getElem?_alter]
  by_cases hk : p.position = k
  · rw [if_pos (Std.LawfulEqCmp.compare_eq_iff_eq.2 hk), if_pos hk, hk]
  · rw [if_neg (mt Std.LawfulEqCmp.compare_eq_iff_eq.1 hk), if_neg hk]

theorem tileOf_append (ps : List Placement) (p : Placement) :
    tileOf (ps ++ [p]) = some (((tileOf ps).getD {}).place (placed p)) := by
  cases ps with
  | nil => rfl
  | cons q ps => simp [tileOf, Tile.place]

/-- The tile at a position holds the objects that were put there, in order. -/
theorem getElem?_foldl_put (ps : List Placement) (k : Vec3) :
    (ps.foldl put ∅)[k]? = tileOf (ps.filter (·.position = k)) := by
  induction ps using List.reverseRecOn with
  | nil => exact Std.TreeMap.getElem?_emptyc
  | append_singleton ps p ih =>
    rw [List.foldl_append, List.filter_append]
    show (put (ps.foldl put ∅) p)[k]? = _
    rw [getElem?_put, ih]
    by_cases hk : p.position = k
    · rw [if_pos hk, List.filter_singleton, decide_eq_true hk, ← tileOf_append]
      rfl
    · rw [if_neg hk, List.filter_singleton, decide_eq_false hk]
      simp

theorem size_of_tileOf {t : Tile} (h : tileOf ps = some t) : t.objects.size = ps.length := by
  cases ps with
  | nil => nomatch h
  | cons p ps =>
    cases h
    simp

theorem mem_objects_tileOf {t : Tile} {o : PlacedObject} (h : tileOf ps = some t) (ho : o ∈ t.objects) :
    ∃ p ∈ ps, placed p = o := by
  cases ps with
  | nil => nomatch h
  | cons p ps =>
    cases h
    exact List.mem_map.1 (List.mem_toArray.1 ho)

theorem isSome_tileOf_filter (ps : List Placement) (k : Vec3) :
    (tileOf (ps.filter (·.position = k))).isSome ↔ ∃ p ∈ ps, p.position = k := by
  constructor
  · intro h
    cases hfilter : ps.filter (·.position = k) with
    | nil => rw [hfilter] at h; nomatch h
    | cons p qs =>
      have hp : p ∈ ps.filter (·.position = k) := hfilter ▸ List.mem_cons_self
      obtain ⟨hp, hk⟩ := List.mem_filter.1 hp
      exact ⟨p, hp, of_decide_eq_true hk⟩
  · rintro ⟨p, hp, hk⟩
    cases hfilter : ps.filter (·.position = k) with
    | nil => exact absurd (List.mem_filter.2 ⟨hp, decide_eq_true hk⟩) (hfilter ▸ List.not_mem_nil)
    | cons p qs => rfl

/-- Nothing is lost and nothing is there twice. -/
theorem sum_size_foldl_put (ps : List Placement) :
    ((ps.foldl put ∅).toList.map fun t => t.2.objects.size).sum = ps.length := by
  -- every position has one tile, with as many objects as there are placements with this position
  have hsize : ∀ t ∈ (ps.foldl put ∅).toList, t.2.objects.size = (ps.map (·.position)).count t.1 := by
    intro t ht
    have hget := (Std.TreeMap.mem_toList_iff_getElem?_eq_some (k := t.1) (v := t.2)).1 ht
    rw [getElem?_foldl_put] at hget
    rw [size_of_tileOf hget, List.count_eq_length_filter, List.filter_map, List.length_map]
    rfl
  have hkeys : ((ps.foldl put ∅).toList.map (·.1)).Perm (ps.map (·.position)).dedup := by
    rw [Std.TreeMap.map_fst_toList_eq_keys,
      List.perm_ext_iff_of_nodup Std.TreeMap.nodup_keys (List.nodup_dedup _)]
    intro k
    rw [Std.TreeMap.mem_keys, Std.TreeMap.mem_iff_isSome_getElem?, getElem?_foldl_put, isSome_tileOf_filter,
      List.mem_dedup, List.mem_map]
  calc ((ps.foldl put ∅).toList.map fun t => t.2.objects.size).sum
      = (((ps.foldl put ∅).toList.map (·.1)).map fun k => (ps.map (·.position)).count k).sum := by
        rw [List.map_map]
        exact congrArg List.sum (List.map_congr_left hsize)
    _ = ((ps.map (·.position)).dedup.map fun k => (ps.map (·.position)).count k).sum := (hkeys.map _).sum_eq
    _ = ps.length := by rw [List.sum_map_count_dedup_eq_length, List.length_map]

/-! ### Bounds -/

theorem isGreatest_foldl_max (f : Region → ℕ) (regions : List Region) (n : ℕ) :
    IsGreatest (insert (n : ℤ) ((fun r => (f r : ℤ)) '' {r | r ∈ regions}))
      ((regions.foldl (fun n r => max n (f r)) n : ℕ) : ℤ) := by
  induction regions generalizing n with
  | nil => simp
  | cons r rs ih =>
    obtain ⟨hmem, hub⟩ := ih (max n (f r))
    have hmax : ((max n (f r) : ℕ) : ℤ) ≤ (rs.foldl (fun n r => max n (f r)) (max n (f r)) : ℕ) :=
      hub (Set.mem_insert _ _)
    rw [List.foldl_cons]
    constructor
    · rcases hmem with hmem | ⟨q, hq, hmem⟩
      · rw [hmem]
        rcases max_choice n (f r) with h | h
        · exact .inl (congrArg _ h)
        · exact .inr ⟨r, List.mem_cons_self, (congrArg _ h).symm⟩
      · exact .inr ⟨q, List.mem_cons_of_mem _ hq, hmem⟩
    · rintro k (rfl | ⟨q, hq, rfl⟩)
      · exact le_trans (Nat.cast_le.2 (le_max_left n (f r))) hmax
      · rcases List.mem_cons.1 hq with rfl | hq
        · exact le_trans (Nat.cast_le.2 (le_max_right n (f q))) hmax
        · exact hub (.inr ⟨q, hq, rfl⟩)

theorem exists_places {p : Placement} (h : List.Forall₂ (Places objectCount fetch) regions streams)
    (hp : p ∈ streams.flatten) : ∃ r ∈ regions, ∃ ps, Places objectCount fetch r ps ∧ p ∈ ps := by
  induction h with
  | nil => nomatch hp
  | @cons r ps rs streams hr _ ih =>
    rcases List.mem_append.1 hp with hp | hp
    · exact ⟨r, List.mem_cons_self, ps, hr, hp⟩
    · obtain ⟨q, hq, hplaces⟩ := ih hp
      exact ⟨q, List.mem_cons_of_mem _ hq, hplaces⟩

/-- A place in one of the regions is in bounds. -/
theorem inBounds_of_contains {k : Vec3} (hr : r ∈ m.regions) (hk : r.contains k = true) : m.inBounds k = true := by
  have hx : ((regionSize * (r.x.toNat + 1) : ℕ) : ℤ) ≤ m.maxX :=
    (isGreatest_foldl_max (fun r => regionSize * (r.x.toNat + 1)) m.regions 0).2 (.inr ⟨r, hr, rfl⟩)
  have hy : ((regionSize * (r.y.toNat + 1) : ℕ) : ℤ) ≤ m.maxY :=
    (isGreatest_foldl_max (fun r => regionSize * (r.y.toNat + 1)) m.regions 0).2 (.inr ⟨r, hr, rfl⟩)
  have hregion : k.regionX = r.x.toNat ∧ k.regionY = r.y.toNat := by simpa [Region.contains] using hk
  simp only [Vec3.regionX, Vec3.regionY, regionSize] at hregion hx hy
  simp only [inBounds, Bool.and_eq_true, decide_eq_true_eq]
  omega

/-! ### The map of a build -/

/-- That a map of the given regions holds the placements of their streams, and nothing else. -/
structure Holds (m : WorldMap) (objectCount : ℕ) (regions : List Region) (streams : List (List Placement)) :
    Prop where
  regions_eq : m.regions = regions
  tile : ∀ k, m.tile? k = tileOf (streams.flatten.filter (·.position = k))
  total : (m.tiles.toList.map fun t => t.2.objects.size).sum = (streams.map List.length).sum
  defined : ∀ k t, m.tile? k = some t → ∀ o ∈ t.objects, o.objectId.toNat < objectCount
  inside : ∀ k t, m.tile? k = some t → m.inBounds k = true ∧ ∃ r ∈ regions, r.contains k = true
  maxX : IsGreatest (insert 0 ((fun r : Region => (64 * (r.x.toNat + 1) : ℤ)) '' {r | r ∈ regions})) m.bounds.x
  maxY : IsGreatest (insert 0 ((fun r : Region => (64 * (r.y.toNat + 1) : ℤ)) '' {r | r ∈ regions})) m.bounds.y

theorem holds_of_places (h : List.Forall₂ (Places objectCount fetch) regions streams) :
    Holds { regions, tiles := streams.flatten.foldl put ∅ } objectCount regions streams := by
  have htile (k : Vec3) : (streams.flatten.foldl put ∅)[k]? = tileOf (streams.flatten.filter (·.position = k)) :=
    getElem?_foldl_put _ k
  refine ⟨rfl, htile, ?total, ?defined, ?inside, ?maxX, ?maxY⟩
  case total => rw [sum_size_foldl_put, List.length_flatten]
  case defined =>
    intro k t ht o ho
    obtain ⟨p, hp, rfl⟩ := mem_objects_tileOf ((htile k).symm.trans ht) ho
    obtain ⟨r, -, ps, hplaces, hp⟩ := exists_places h (List.mem_of_mem_filter hp)
    exact hplaces.defined p hp
  case inside =>
    intro k t ht
    have hsome : (tileOf (streams.flatten.filter (·.position = k))).isSome := by
      rw [← htile k]
      exact Option.isSome_of_eq_some ht
    obtain ⟨p, hp, rfl⟩ := (isSome_tileOf_filter _ k).1 hsome
    obtain ⟨r, hr, ps, ⟨⟨file, -, hdecode⟩, -⟩, hp⟩ := exists_places h hp
    have hcontains : r.contains p.position = true := by
      obtain ⟨hx, hy⟩ := (Placement.hasOffset_of_decodeAll hdecode p hp).inside
      simp [Region.contains, hx, hy]
    exact ⟨inBounds_of_contains hr hcontains, r, hr, hcontains⟩
  case maxX => exact_mod_cast isGreatest_foldl_max (fun r => regionSize * (r.x.toNat + 1)) regions 0
  case maxY => exact_mod_cast isGreatest_foldl_max (fun r => regionSize * (r.y.toNat + 1)) regions 0

theorem inflate_ne_unknownObject {bytes : Bytes} {id : UInt16} {n : ℕ} :
    Gzip.inflate bytes ≠ .error (.unknownObject id n) := by
  unfold Gzip.inflate
  split
  · split <;> nofun
  · nofun

theorem objectFile_eq_unknownObject {id : UInt16} {n : ℕ} :
    r.objectFile fetch = .error (.unknownObject id n) ↔ fetch r.objectsId = .error (.unknownObject id n) := by
  unfold Region.objectFile
  cases fetch r.objectsId with
  | error e => exact Iff.rfl
  | ok bytes => exact ⟨fun h => absurd h inflate_ne_unknownObject, nofun⟩

/-- An unknown object is reported when the first step that fails is the check of this object, or when the file of a
region was answered with this very report. -/
theorem build_eq_unknownObject_iff {id : UInt16} {n : ℕ} :
    (build regions objectCount fetch).2 = .error (.unknownObject id n) ↔
      (n = objectCount ∧ ∃ r p, FirstFault objectCount fetch regions (.object r p) ∧ p.objectId = id) ∨
      ∃ r, FirstFault objectCount fetch regions (.file r (.unknownObject id n)) ∧
        fetch r.objectsId = .error (.unknownObject id n) := by
  rw [build_eq_error_iff]
  constructor
  · rintro ⟨fault, hfault, herror⟩
    cases fault with
    | file r cause =>
      cases herror
      exact .inr ⟨r, hfault, objectFile_eq_unknownObject.1 hfault.objectFile⟩
    | stream r cause => nomatch herror
    | object r p =>
      cases herror
      exact .inl ⟨rfl, r, p, hfault, rfl⟩
  · rintro (⟨rfl, r, p, hfault, rfl⟩ | ⟨r, hfault, -⟩)
    · exact ⟨_, hfault, rfl⟩
    · exact ⟨_, hfault, rfl⟩

/-- A successful build places what every region places, in order and on the tiles where it belongs. A failed one
reports the first step that fails. An unknown object is reported exactly when the first step that fails is the check
of this object, unless the answers for files are such reports themselves: then it may also be one of these. -/
theorem build_content (regions : List Region) (objectCount : ℕ) (fetch : UInt16 → Except LoadError Bytes) :
    (∀ m, (build regions objectCount fetch).2 = .ok m →
      ∃ streams, List.Forall₂ (Places objectCount fetch) regions streams ∧ Holds m objectCount regions streams) ∧
    (∀ e, (build regions objectCount fetch).2 = .error e ↔
      ∃ fault, FirstFault objectCount fetch regions fault ∧ fault.error objectCount = e) ∧
    ((∀ file id n, fetch file ≠ .error (.unknownObject id n)) →
      ∀ id n, (build regions objectCount fetch).2 = .error (.unknownObject id n) ↔
        n = objectCount ∧ ∃ r p, FirstFault objectCount fetch regions (.object r p) ∧ p.objectId = id) ∧
    ∀ id n, (build regions objectCount fetch).2 = .error (.unknownObject id n) ↔
      (n = objectCount ∧ ∃ r p, FirstFault objectCount fetch regions (.object r p) ∧ p.objectId = id) ∨
      ∃ r, FirstFault objectCount fetch regions (.file r (.unknownObject id n)) ∧
        fetch r.objectsId = .error (.unknownObject id n) := by
  refine ⟨fun m hm => ?_, fun e => build_eq_error_iff, fun hfetch id n => ?_, fun id n => build_eq_unknownObject_iff⟩
  · rcases places_or_firstFault objectCount fetch regions with ⟨streams, hstreams⟩ | ⟨fault, hfault⟩
    · rw [build_of_places hstreams] at hm
      cases hm
      exact ⟨streams, hstreams, holds_of_places hstreams⟩
    · rw [build_of_firstFault hfault] at hm
      nomatch hm
  · rw [build_eq_unknownObject_iff, or_iff_left]
    rintro ⟨r, -, hanswer⟩
    exact hfetch r.objectsId id n hanswer

theorem rightUnique_places : Relator.RightUnique (Places objectCount fetch) := by
  intro r ps qs hp hq
  obtain ⟨⟨file, hfile, hdecode⟩, -⟩ := hp
  obtain ⟨⟨file', hfile', hdecode'⟩, -⟩ := hq
  rw [hfile] at hfile'
  cases hfile'
  rw [hdecode] at hdecode'
  exact Except.ok.inj hdecode'

/-- Three regions that share an object file, two of them at the same place, and one without objects. -/
def shared : List Region := [⟨0, 1, 7, 8, false⟩, ⟨2, 0, 7, 8, true⟩, ⟨0, 0, 7, 9, false⟩, ⟨0, 1, 7, 8, false⟩]

/-- Object 0 twice on one tile and object 2 on another one, and no object at all. -/
def sharedFiles : UInt16 → Except LoadError Bytes
  | 8 => .ok [1, 1, 0x29, 1, 3, 0, 2, 65, 3, 0, 0]
  | 9 => .ok [0]
  | _ => .error (.decompressionFailed .gzip)

def sharedStreams : List (List Placement) :=
  [[⟨0, ⟨0, 64, 0⟩, 10, 1⟩, ⟨0, ⟨0, 64, 0⟩, 0, 3⟩, ⟨2, ⟨1, 64, 0⟩, 0, 3⟩],
    [⟨0, ⟨128, 0, 0⟩, 10, 1⟩, ⟨0, ⟨128, 0, 0⟩, 0, 3⟩, ⟨2, ⟨129, 0, 0⟩, 0, 3⟩], [],
    [⟨0, ⟨0, 64, 0⟩, 10, 1⟩, ⟨0, ⟨0, 64, 0⟩, 0, 3⟩, ⟨2, ⟨1, 64, 0⟩, 0, 3⟩]]

theorem places_shared : List.Forall₂ (Places 3 sharedFiles) shared sharedStreams :=
  .cons ⟨⟨_, rfl, by decide +kernel⟩, by decide⟩ <| .cons ⟨⟨_, rfl, by decide +kernel⟩, by decide⟩ <|
    .cons ⟨⟨_, rfl, by decide +kernel⟩, by decide⟩ <| .cons ⟨⟨_, rfl, by decide +kernel⟩, by decide⟩ .nil

theorem build_content_shared :
    (∃ m, (build shared 3 sharedFiles).2 = .ok m ∧
      m.tile? ⟨0, 64, 0⟩ = some { objects := #[⟨0, 10, 1⟩, ⟨0, 0, 3⟩, ⟨0, 10, 1⟩, ⟨0, 0, 3⟩] } ∧
      m.tile? ⟨2, 64, 0⟩ = none ∧ (m.tiles.toList.map fun t => t.2.objects.size).sum = 9) ∧
    (build shared 2 sharedFiles).2 = .error (.unknownObject 2 2) := by
  constructor
  · have hbuild := build_of_places places_shared
    obtain ⟨streams, hstreams, hholds⟩ := (build_content shared 3 sharedFiles).1 _ hbuild
    obtain rfl : streams = sharedStreams := rightUnique_places.forall₂ hstreams places_shared
    refine ⟨_, hbuild, ?_, ?_, hholds.total⟩
    · rw [hholds.tile]
      rfl
    · rw [hholds.tile]
      rfl
  · have hdecode : Placement.decodeAll [1, 1, 0x29, 1, 3, 0, 2, 65, 3, 0, 0] 0 1 = .ok
        ([⟨0, ⟨0, 64, 0⟩, 10, 1⟩, ⟨0, ⟨0, 64, 0⟩, 0, 3⟩] ++ ⟨2, ⟨1, 64, 0⟩, 0, 3⟩ :: []) := by decide +kernel
    have hfault : FirstFault 2 sharedFiles shared (.object ⟨0, 1, 7, 8, false⟩ ⟨2, ⟨1, 64, 0⟩, 0, 3⟩) :=
      ⟨[], _, _, rfl, nofun, .object rfl hdecode (by decide) (by decide)⟩
    have hfetch : ∀ file id n, sharedFiles file ≠ .error (.unknownObject id n) := by
      intro file id n
      unfold sharedFiles
      split <;> nofun
    obtain ⟨-, -, hplain, -⟩ := build_content shared 2 sharedFiles
    exact (hplain hfetch 2 2).2 ⟨rfl, _, _, hfault, rfl⟩

end WorldMap

end AssetCache
