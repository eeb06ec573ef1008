import Mathlib
import AssetCache.Proofs.MapBuilding
import AssetCache.WorldMap.Session

/-!
# Items on a running map

Every action touches the tile at its own position and no other (`tile?_perform_of_ne`), and what it does there is
`effect_perform`. So the objects stay where the build has put them, and the tiles are those of the build and those
that were asked for or dropped on since (`running_performAll`). Main statement: `build_performAll`.
-/

namespace AssetCache.WorldMap

variable {m built : WorldMap} {p q : Vec3} {streams : List (List Placement)} {touched : List Vec3}

/-! ### One action -/

theorem tile?_alter (m : WorldMap) (p q : Vec3) (f : Option Tile → Option Tile) :
    { m with tiles := m.tiles.alter p f }.tile? q = if p = q then f (m.tile? p) else m.tile? q := by
  show (m.tiles.alter p f)[q]? = _
  rw [Std.TreeMap.getElem?_alter]
  by_cases h : p = q
  · rw [if_pos (Std.LawfulEqCmp.compare_eq_iff_eq.2 h), if_pos h]
    rfl
  · rw [if_neg (mt Std.LawfulEqCmp.compare_eq_iff_eq.1 h), if_neg h]
    rfl

theorem tile?_modify (m : WorldMap) (p q : Vec3) (f : Tile → Tile) :
    { m with tiles := m.tiles.modify p f }.tile? q = if p = q then (m.tile? p).map f else m.tile? q := by
  show (m.tiles.modify p f)[q]? = _
  rw [Std.TreeMap.getElem?_modify]
  by_cases h : p = q
  · rw [if_pos (Std.LawfulEqCmp.compare_eq_iff_eq.2 h), if_pos h, h]
    rfl
  · rw [if_neg (mt Std.LawfulEqCmp.compare_eq_iff_eq.1 h), if_neg h]
    rfl

/-- That a place lies where the regions of the map are, on whatever plane. -/
def Covers (m : WorldMap) (p : Vec3) : Prop := 0 ≤ p.x ∧ p.x < m.maxX ∧ 0 ≤ p.y ∧ p.y < m.maxY

theorem inBounds_iff (h : m.regions = built.regions) : m.inBounds p = true ↔ built.Covers p := by
  simp only [inBounds, Covers, maxX, maxY, h, Bool.and_eq_true, decide_eq_true_eq, and_assoc]

/-- What an action does at its position, and its answer. -/
inductive Effect (built m : WorldMap) : Action → WorldMap × Outcome → Prop
  | dropped (p : Vec3) (stack : ItemStack) (next : WorldMap) : built.Covers p →
      next.tile? p = some { (m.tile? p).getD {} with items := stack :: ((m.tile? p).getD {}).items } →
      Effect built m (.drop p stack) (next, .dropped true)
  | refused (p : Vec3) (stack : ItemStack) : ¬ built.Covers p →
      Effect built m (.drop p stack) (m, .dropped false)
  | ensured (p : Vec3) (next : WorldMap) : next.tile? p = some ((m.tile? p).getD {}) →
      Effect built m (.ensure p) (next, .tile (some ((m.tile? p).getD {})))
  | looked (p : Vec3) : Effect built m (.look p) (m, .tile (m.tile? p))
  | removed (p : Vec3) (stack : ItemStack) (next : WorldMap) (t : Tile) (above below : List ItemStack) :
      m.tile? p = some t → t.items = above ++ stack :: below → (∀ s ∈ above, s.itemId ≠ stack.itemId) →
      next.tile? p = some { t with items := above ++ below } →
      Effect built m (.remove p stack.itemId) (next, .removed (some stack))
  | missed (p : Vec3) (itemId : UInt16) : (∀ t, m.tile? p = some t → ∀ s ∈ t.items, s.itemId ≠ itemId) →
      Effect built m (.remove p itemId) (m, .removed none)

theorem removeItem_of_findItem? {t : Tile} {itemId : UInt16} {stack : ItemStack}
    (h : t.findItem? itemId = some stack) : stack.itemId = itemId ∧ ∃ above below, t.items = above ++ stack :: below ∧
      (∀ s ∈ above, s.itemId ≠ itemId) ∧ t.removeItem itemId = { t with items := above ++ below } := by
  obtain ⟨hid, above, below, hitems, habove⟩ := List.find?_eq_some_iff_append.1 h
  have habove' : ∀ s ∈ above, s.itemId ≠ itemId := by simpa using habove
  have herase : t.items.eraseP (·.itemId = itemId) = above ++ below := by
    rw [hitems, List.eraseP_append_right _ (by simpa using habove'), List.eraseP_cons_of_pos (by exact hid)]
  refine ⟨of_decide_eq_true hid, above, below, hitems, habove', ?_⟩
  rw [Tile.removeItem, herase]

theorem effect_perform (h : m.regions = built.regions) (a : Action) : Effect built m a (m.perform a) := by
  cases a with
  | drop p stack =>
    by_cases hp : m.inBounds p = true
    · simp only [perform, drop, if_pos hp]
      refine .dropped _ _ _ ((inBounds_iff h).1 hp) ?_
      rw [tile?_alter, if_pos rfl]
      rfl
    · simp only [perform, drop, if_neg hp]
      exact .refused _ _ (mt (inBounds_iff h).2 hp)
  | ensure p =>
    have htile : (m.ensureTile p).tile? p = some ((m.tile? p).getD {}) := by
      rw [ensureTile, tile?_alter, if_pos rfl]
    simp only [perform, htile]
    exact .ensured _ _ htile
  | look p => exact .looked p
  | remove p itemId =>
    cases ht : m.tile? p with
    | none =>
      simp only [perform, removeItem, ht, Option.bind_none]
      exact .missed _ _ (by simp [ht])
    | some t =>
      cases hfind : t.findItem? itemId with
      | none =>
        have hnone : ∀ s ∈ t.items, s.itemId ≠ itemId := by simpa [Tile.findItem?] using hfind
        simp only [perform, removeItem, ht, Option.bind_some, hfind]
        exact .missed _ _ (by simpa [ht] using hnone)
      | some stack =>
        obtain ⟨rfl, above, below, hitems, habove, hremove⟩ := removeItem_of_findItem? hfind
        simp only [perform, removeItem, ht, Option.bind_some, hfind]
        refine .removed _ _ _ _ _ _ ht hitems habove ?_
        rw [tile?_modify, if_pos rfl, ht, Option.map_some, hremove]

theorem tile?_perform_of_ne (m : WorldMap) (a : Action) (h : q ≠ a.position) :
    (m.perform a).1.tile? q = m.tile? q := by
  cases a with
  | drop p stack =>
    by_cases hp : m.inBounds p = true
    · simp only [perform, drop, if_pos hp]
      exact (tile?_alter m p q _).trans (if_neg h.symm)
    · simp only [perform, drop, if_neg hp]
  | ensure p => exact (tile?_alter m p q _).trans (if_neg h.symm)
  | look p => rfl
  | remove p itemId =>
    show (m.removeItem p itemId).1.tile? q = _
    unfold removeItem
    split
    · exact (tile?_modify m p q _).trans (if_neg h.symm)
    · rfl

theorem regions_perform (m : WorldMap) (a : Action) : (m.perform a).1.regions = m.regions := by
  cases a with
  | drop p stack =>
    show (m.drop p stack).1.regions = _
    unfold drop
    split <;> rfl
  | ensure p => rfl
  | look p => rfl
  | remove p itemId =>
    show (m.removeItem p itemId).1.regions = _
    unfold removeItem
    split <;> rfl

/-- An action leaves the objects of every tile alone, and a tile that it makes has none. -/
theorem objects_perform (m : WorldMap) (a : Action) (q : Vec3) :
    (((m.perform a).1.tile? q).getD {}).objects = ((m.tile? q).getD {}).objects := by
  by_cases hq : q = a.position
  · subst hq
    have heffect : Effect m m a (m.perform a) := effect_perform rfl a
    generalize m.perform a = out at heffect
    cases heffect with
    | dropped p stack next _ hnext =>
      show ((next.tile? p).getD {}).objects = _
      rw [hnext]
      rfl
    | refused => rfl
    | ensured p next hnext =>
      show ((next.tile? p).getD {}).objects = _
      rw [hnext]
      rfl
    | looked => rfl
    | removed p stack next t above below ht _ _ hnext =>
      show ((next.tile? p).getD {}).objects = ((m.tile? p).getD {}).objects
      rw [hnext, ht]
      rfl
    | missed => rfl
  · rw [tile?_perform_of_ne m a hq]

/-- A tile stays, and a new one comes only where an action sees to it. -/
theorem isSome_tile?_perform (m : WorldMap) (a : Action) (q : Vec3) :
    ((m.perform a).1.tile? q).isSome ↔ (m.tile? q).isSome ∨ a.settles? (m.perform a).2 = some q := by
  have heffect : Effect m m a (m.perform a) := effect_perform rfl a
  have hframe : q ≠ a.position → (m.perform a).1.tile? q = m.tile? q := tile?_perform_of_ne m a
  generalize m.perform a = out at heffect hframe
  have hnew {p : Vec3} {next : WorldMap} (hsome : (next.tile? p).isSome)
      (hframe : q ≠ p → next.tile? q = m.tile? q) :
      (next.tile? q).isSome ↔ (m.tile? q).isSome ∨ some p = some q := by
    by_cases hq : q = p
    · subst hq
      simp [hsome]
    · simp [hframe hq, Ne.symm hq]
  -- only a tile that is dropped on or asked for can be new
  cases heffect with
  | dropped p stack next _ hnext => exact hnew (by rw [hnext]; rfl) hframe
  | refused => simp [Action.settles?]
  | ensured p next hnext => exact hnew (by rw [hnext]; rfl) hframe
  | looked => simp [Action.settles?]
  | removed p stack next t above below ht _ _ hnext =>
    by_cases hq : q = p
    · subst hq
      simp [hnext, ht]
    · simp [hframe hq, Action.settles?]
  | missed => simp [Action.settles?]

/-! ### A row of actions -/

/-- Where there are tiles that actions have seen to. -/
def settled (actions : List Action) (outcomes : List Outcome) : List Vec3 :=
  (actions.zip outcomes).filterMap fun (a, outcome) => a.settles? outcome

theorem mem_settled_cons (a : Action) (actions : List Action) (outcome : Outcome) (outcomes : List Outcome) :
    q ∈ settled (a :: actions) (outcome :: outcomes) ↔
      a.settles? outcome = some q ∨ q ∈ settled actions outcomes := by
  cases h : a.settles? outcome with
  | none => simp [settled, h]
  | some p => simp [settled, h, @eq_comm _ q p]

theorem performAll_cons (a : Action) (actions : List Action) (m : WorldMap) : performAll (a :: actions) m =
    ((performAll actions (m.perform a).1).1, (m.perform a).2 :: (performAll actions (m.perform a).1).2) := rfl

theorem regions_performAll (actions : List Action) (m : WorldMap) :
    (performAll actions m).1.regions = m.regions := by
  induction actions generalizing m with
  | nil => rfl
  | cons a actions ih => rw [performAll_cons, ih, regions_perform]

theorem objects_performAll (actions : List Action) (m : WorldMap) (q : Vec3) :
    (((performAll actions m).1.tile? q).getD {}).objects = ((m.tile? q).getD {}).objects := by
  induction actions generalizing m with
  | nil => rfl
  | cons a actions ih => rw [performAll_cons, ih, objects_perform]

theorem isSome_tile?_performAll (actions : List Action) (m : WorldMap) (q : Vec3) :
    ((performAll actions m).1.tile? q).isSome ↔
      (m.tile? q).isSome ∨ q ∈ settled actions (performAll actions m).2 := by
  induction actions generalizing m with
  | nil => simp [performAll, settled]
  | cons a actions ih =>
    rw [performAll_cons, ih, isSome_tile?_perform, or_assoc, mem_settled_cons]

theorem tileCount_eq (h : ∀ p, (m.tile? p).isSome ↔ p ∈ touched) : m.tileCount = touched.dedup.length := by
  have hkeys : m.tiles.keys.Perm touched.dedup := by
    rw [List.perm_ext_iff_of_nodup Std.TreeMap.nodup_keys (List.nodup_dedup _)]
    intro p
    rw [Std.TreeMap.mem_keys, Std.TreeMap.mem_iff_isSome_getElem?, List.mem_dedup]
    exact h p
  rw [← hkeys.length_eq, Std.TreeMap.length_keys]
  rfl

/-- What holds of a map that was built from streams and has tiles where it was touched, and what can happen to it
next. -/
structure Running (built : WorldMap) (streams : List (List Placement)) (touched : List Vec3) (m : WorldMap) :
    Prop where
  objects : ∀ p t, m.tile? p = some t →
    t.objects = ((streams.flatten.filter (·.position = p)).map placed).toArray
  present : ∀ p, (m.tile? p).isSome ↔ p ∈ touched
  tileCount : m.tileCount = touched.dedup.length
  effect : ∀ a, Effect built m a (m.perform a)
  frame : ∀ a q, q ≠ a.position → (m.perform a).1.tile? q = m.tile? q
  keeps : ∀ a q t, m.tile? q = some t → ∃ t', (m.perform a).1.tile? q = some t' ∧ t'.objects = t.objects

theorem objects_tileOf (ps : List Placement) : ((tileOf ps).getD {}).objects = (ps.map placed).toArray := by
  cases ps <;> rfl

theorem running_performAll (hbuilt : ∀ q, built.tile? q = tileOf (streams.flatten.filter (·.position = q)))
    (actions : List Action) :
    Running built streams (streams.flatten.map (·.position) ++ settled actions (performAll actions built).2)
      (performAll actions built).1 := by
  have hpresent : ∀ q, ((performAll actions built).1.tile? q).isSome ↔
      q ∈ streams.flatten.map (·.position) ++ settled actions (performAll actions built).2 := by
    intro q
    rw [isSome_tile?_performAll, hbuilt, isSome_tileOf_filter, List.mem_append, List.mem_map]
  refine ⟨fun q t ht => ?objects, hpresent, tileCount_eq hpresent,
    effect_perform (regions_performAll actions built), fun a q => tile?_perform_of_ne _ a, fun a q t ht => ?keeps⟩
  case objects =>
    have hobjects := objects_performAll actions built q
    rwa [ht, hbuilt, objects_tileOf] at hobjects
  case keeps =>
    have hstays := (isSome_tile?_perform _ a q).2 (.inl (Option.isSome_of_eq_some ht))
    obtain ⟨t', ht'⟩ := Option.isSome_iff_exists.1 hstays
    have hobjects := objects_perform (performAll actions built).1 a q
    rw [ht, ht'] at hobjects
    exact ⟨t', ht', hobjects⟩

/-- Whatever is done to a built map, its objects stay as they were placed, an action changes the tile at its own
position only, and there are as many tiles as positions that were placed on, asked for or dropped on. -/
theorem build_performAll {regions : List Region} {objectCount : ℕ} {fetch : UInt16 → Except LoadError Bytes}
    (h : (build regions objectCount fetch).2 = .ok built) :
    ∃ streams, List.Forall₂ (Places objectCount fetch) regions streams ∧ ∀ actions,
      Running built streams (streams.flatten.map (·.position) ++ settled actions (performAll actions built).2)
        (performAll actions built).1 := by
  rcases places_or_firstFault objectCount fetch regions with ⟨streams, hstreams⟩ | ⟨fault, hfault⟩
  · rw [build_of_places hstreams] at h
    cases h
    exact ⟨streams, hstreams, running_performAll (getElem?_foldl_put streams.flatten)⟩
  · rw [build_of_firstFault hfault] at h
    nomatch h

/-- Drops in and out of bounds, on an object and on the ground, a tile out of bounds, and two things picked up. -/
def someActions : List Action :=
  [.drop ⟨0, 64, 0⟩ ⟨995, 10⟩, .drop ⟨-1, 0, 0⟩ ⟨995, 1⟩, .ensure ⟨-1, 0, 0⟩, .drop ⟨-1, 0, 0⟩ ⟨995, 1⟩,
    .drop ⟨191, 127, 3⟩ ⟨526, 1⟩, .drop ⟨0, 64, 0⟩ ⟨526, 1⟩, .remove ⟨0, 64, 0⟩ 995, .remove ⟨0, 64, 0⟩ 995]

theorem build_performAll_shared : ∃ built, (build shared 3 sharedFiles).2 = .ok built ∧
    (performAll someActions built).2 = [.dropped true, .dropped false, .tile (some {}), .dropped false,
      .dropped true, .dropped true, .removed (some ⟨995, 10⟩), .removed none] ∧
    (performAll someActions built).1.tileCount = 6 := by
  have hbuild := build_of_places places_shared
  obtain ⟨streams, hstreams, hrunning⟩ := build_performAll hbuild
  obtain rfl : streams = sharedStreams := rightUnique_places.forall₂ hstreams places_shared
  have hanswers : (performAll someActions { regions := shared, tiles := sharedStreams.flatten.foldl put ∅ }).2 =
      [.dropped true, .dropped false, .tile (some {}), .dropped false, .dropped true, .dropped true,
        .removed (some ⟨995, 10⟩), .removed none] := by decide +kernel
  refine ⟨_, hbuild, hanswers, ?_⟩
  rw [(hrunning someActions).tileCount, hanswers]
  decide +kernel

end AssetCache.WorldMap
