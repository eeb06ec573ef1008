import Mathlib
import AssetCache.Manager.Session
import AssetCache.Proofs.LoadWritten

/-!
# Sessions with a manager

Until a manager is closed, a session answers each request as a new manager would, and what it leaves behind is
what all the demands on its way do one after the other (`serve_of_coherent`). `Grown` says what that is: which
archives are kept and what was read. Main statement: `serve_session`, a session up to its first closing and from
there on.
-/

namespace AssetCache

namespace Source

variable (source : Source)

/-- What a request is answered with, straight from the source. -/
def reply : Request → Except LoadError Reply
  | .archive category id => .archive <$> source.archive category id
  | .file category id name => .file <$> source.file category id name
  | .items => .items <$> source.items
  | .objects => .objects <$> source.objects
  | .interfaces => .interfaces <$> source.interfaces
  | .map => .map <$> source.map
  | .loadAll => .assets <$> source.loadAll
  | .close => .ok .closed

/-- What a request demands on its way. -/
def demands : Request → List Demand
  | .archive category id => [.archive (category, id)]
  | .file category id _ => [.archive (category, id)]
  | .items => [.config]
  | .objects => [.config]
  | .interfaces => [.interfaces]
  | .map => source.mapDemands
  | .loadAll => source.loadAllDemands
  | .close => []

/-- The archives among demands that can be read and parsed. -/
def parsed (ds : List Demand) : List (UInt8 × UInt32) :=
  ds.filterMap fun d =>
    match d with
    | .archive key => if (source.archive key.1 key.2).isOk then some key else none
    | .mapFile _ => none

/-- What is read for a demand after earlier ones: a map file always, an archive unless it has been read and
parsed before. -/
def readsFor (earlier : List Demand) : Demand → List (UInt8 × UInt32)
  | .archive key => if key ∈ source.parsed earlier then [] else [key]
  | .mapFile id => [(Manager.mapCategory, id.toUInt32)]

/-- What is read for demands that come after earlier ones. -/
def readsAfter (earlier : List Demand) : List Demand → List (UInt8 × UInt32)
  | [] => []
  | d :: ds => source.readsFor earlier d ++ readsAfter (earlier ++ [d]) ds

theorem readsAfter_append (earlier ds es : List Demand) : source.readsAfter earlier (ds ++ es) =
    source.readsAfter earlier ds ++ source.readsAfter (earlier ++ ds) es := by
  induction ds generalizing earlier with
  | nil => simp [readsAfter]
  | cons d ds ih => simp [readsAfter, ih]

theorem parsed_append (ds es : List Demand) : source.parsed (ds ++ es) = source.parsed ds ++ source.parsed es :=
  List.filterMap_append

theorem ok_of_mem_parsed {key : UInt8 × UInt32} {ds : List Demand} (h : key ∈ source.parsed ds) :
    ∃ a, source.archive key.1 key.2 = .ok a := by
  obtain ⟨d, -, hd⟩ := List.mem_filterMap.1 h
  cases d with
  | mapFile id => nomatch hd
  | archive key' =>
    dsimp only at hd
    split at hd
    · next hok =>
      cases hd
      cases ha : source.archive key.1 key.2 with
      | ok a => exact ⟨a, rfl⟩
      | error e => rw [ha] at hok; nomatch hok
    · nomatch hd

end Source

namespace Manager
variable {source : Source} {m : Manager} {α β : Type}

/-! ### What demands leave behind -/

/-- What has become of a new manager once demands were met: it keeps the archives among them that could be
parsed, each of them once, and has read what had to be read. -/
structure Grown (source : Source) (ds : List Demand) (m : Manager) : Prop where
  kept : ∀ key, (m.kept.lookup key).isSome ↔ key ∈ source.parsed ds
  nodup : (m.kept.map (·.1)).Nodup
  reads : m.reads.reverse = source.readsAfter [] ds

theorem lookup_isSome {key : UInt8 × UInt32} {kept : List ((UInt8 × UInt32) × Archive)} :
    (kept.lookup key).isSome ↔ key ∈ kept.map (·.1) := by
  induction kept with
  | nil => simp
  | cons p kept ih =>
    rw [List.lookup_cons, List.map_cons, List.mem_cons, ← ih]
    split
    · next h => simp [eq_of_beq h]
    · next h => simp [ne_of_beq_false h]

theorem Grown.new (source : Source) : Grown source [] {} := ⟨by simp [Source.parsed], by simp, rfl⟩

theorem Grown.meet {ds : List Demand} (h : Grown source ds m) (d : Demand) :
    Grown source (ds ++ [d]) (m.meet source d) := by
  have hreads : source.readsAfter [] (ds ++ [d]) = m.reads.reverse ++ source.readsFor ds d := by
    simp [Source.readsAfter_append, Source.readsAfter, h.reads]
  cases d with
  | mapFile id =>
    refine ⟨fun key => ?_, h.nodup, ?_⟩
    · rw [Source.parsed_append]
      exact (h.kept key).trans (by simp [Source.parsed])
    · rw [hreads]
      exact List.reverse_cons
  | archive key =>
    cases hk : m.kept.lookup key with
    | some a =>
      -- a demand that was met before leaves everything as it is
      have hparsed : key ∈ source.parsed ds := (h.kept key).1 (by rw [hk]; rfl)
      obtain ⟨b, hb⟩ := source.ok_of_mem_parsed hparsed
      have hm : m.meet source (.archive key) = m := by simp only [Manager.meet, hk]
      rw [hm]
      refine ⟨fun key' => ?_, h.nodup, by rw [hreads, Source.readsFor, if_pos hparsed, List.append_nil]⟩
      rw [h.kept, Source.parsed_append, List.mem_append, or_iff_left_of_imp]
      intro hkey'
      have : key' = key := by simpa [Source.parsed, hb, Except.isOk, Except.toBool] using hkey'
      exact this ▸ hparsed
    | none =>
      have hnone : ¬ (m.kept.lookup key).isSome := by rw [hk]; exact Bool.false_ne_true
      have hparsed : key ∉ source.parsed ds := fun hc => hnone ((h.kept key).2 hc)
      have hreads' : (key :: m.reads).reverse = source.readsAfter [] (ds ++ [.archive key]) := by
        rw [hreads, Source.readsFor, if_neg hparsed, List.reverse_cons]
      cases ha : source.archive key.1 key.2 with
      | error e =>
        -- read, but not kept: the next demand for it reads it again
        simp only [Manager.meet, hk, ha]
        refine ⟨fun key' => ?_, h.nodup, hreads'⟩
        rw [h.kept, Source.parsed_append]
        simp [Source.parsed, ha, Except.isOk, Except.toBool]
      | ok a =>
        simp only [Manager.meet, hk, ha]
        refine ⟨fun key' => ?_, ?_, hreads'⟩
        · rw [lookup_isSome, List.map_cons, List.mem_cons, ← lookup_isSome, h.kept, Source.parsed_append,
            List.mem_append, or_comm]
          simp [Source.parsed, ha, Except.isOk, Except.toBool]
        · exact List.nodup_cons.2 ⟨fun hc => hnone (lookup_isSome.2 hc), h.nodup⟩

theorem Grown.meetAll {ds : List Demand} (h : Grown source ds m) (es : List Demand) :
    Grown source (ds ++ es) (es.foldl (Manager.meet source) m) := by
  induction es generalizing ds m with
  | nil => rwa [List.append_nil]
  | cons e es ih =>
    have := ih (h.meet e)
    rwa [List.append_assoc] at this

/-- As many archives are kept as there are different ones that could be parsed. -/
theorem Grown.keptCount {ds : List Demand} (h : Grown source ds m) :
    m.keptCount = (source.parsed ds).toFinset.card := by
  have hkeys : (m.kept.map (·.1)).toFinset = (source.parsed ds).toFinset := by
    ext key
    rw [List.mem_toFinset, List.mem_toFinset, ← lookup_isSome, h.kept]
  rw [← hkeys, List.toFinset_card_of_nodup h.nodup, List.length_map]
  rfl

/-! ### Until the manager is closed -/

theorem meets_perform {r : Request} (hr : r ≠ .close) :
    Meets source (r.perform source) (source.reply r) (source.demands r) := by
  cases r with
  | archive category id => exact (meets_archive category id).map _
  | file category id name => exact (meets_file category id name).map _
  | items => exact meets_items.map _
  | objects => exact meets_objects.map _
  | interfaces => exact meets_interfaces.map _
  | map => exact meets_map.map _
  | loadAll => exact meets_loadAll.map _
  | close => exact absurd rfl hr

theorem serve_cons (source : Source) (r : Request) (rs : List Request) (m : Manager) :
    serve source (r :: rs) m =
      (((r.perform source).run m).1 :: (serve source rs ((r.perform source).run m).2).1,
        (serve source rs ((r.perform source).run m).2).2) := rfl

theorem serve_of_coherent {rs : List Request} (hrs : .close ∉ rs) (hm : Coherent source m) :
    serve source rs m = (rs.map source.reply, (rs.flatMap source.demands).foldl (meet source) m) := by
  induction rs generalizing m with
  | nil => rfl
  | cons r rs ih =>
    obtain ⟨hr, hrs⟩ := not_or.1 (fun h => hrs (List.mem_cons.2 h))
    rw [serve_cons, meets_perform (Ne.symm hr) m hm, ih hrs (hm.meetAll _), List.map_cons, List.flatMap_cons,
      List.foldl_append]

/-! ### Once it is closed -/

/-- That an action fails at once on a closed manager. -/
def Refused (x : Load α) : Prop := ∀ m : Manager, m.closed = true → x.run m = (.error .closed, m)

theorem Refused.bind {x : Load α} (hx : Refused x) (f : α → Load β) : Refused (x >>= f) := by
  intro m hm
  rw [run_bind, hx m hm]

theorem Refused.map {x : Load α} (hx : Refused x) (f : α → β) : Refused (f <$> x) := hx.bind _

theorem refused_archive (source : Source) (category : UInt8) (id : UInt32) :
    Refused (archive source category id) := by
  rw [archive_eq]
  refine Refused.bind (fun m hm => ?_) _
  rw [run_requireOpen, if_pos hm]

theorem refused_items (source : Source) : Refused (items source) := (refused_archive source _ _).bind _

theorem refused_objects (source : Source) : Refused (objects source) := (refused_archive source _ _).bind _

theorem refused_file (source : Source) (category : UInt8) (id : UInt32) (name : String) :
    Refused (file source category id name) := (refused_archive source _ _).bind _

theorem refused_perform (source : Source) {r : Request} (hr : r ≠ .close) : Refused (r.perform source) := by
  cases r with
  | archive category id => exact (refused_archive source category id).map _
  | file category id name => exact (refused_file source category id name).map _
  | items => exact (refused_items source).map _
  | objects => exact (refused_objects source).map _
  | interfaces => exact ((refused_file source _ _ _).bind _).map _
  | map => exact ((refused_objects source).bind _).map _
  | loadAll => exact ((refused_items source).bind _).map _
  | close => exact absurd rfl hr

theorem run_close (source : Source) (m : Manager) :
    (Request.close.perform source).run m = (.ok .closed, m.close) := rfl

/-- What a request is answered with by a closed manager. -/
def closedReply (r : Request) : Except LoadError Reply := if r = .close then .ok .closed else .error .closed

theorem serve_close (source : Source) (rs : List Request) (m : Manager) :
    serve source rs m.close = (rs.map closedReply, m.close) := by
  induction rs with
  | nil => rfl
  | cons r rs ih =>
    have hrun : (r.perform source).run m.close = (closedReply r, m.close) := by
      by_cases hr : r = .close
      · subst hr
        rfl
      · rw [refused_perform source hr _ rfl, closedReply, if_neg hr]
    rw [serve_cons, hrun, ih, List.map_cons]

/-- Up to its first closing, a session answers as a new manager would, reads an archive only if it has not been
read and parsed before, and keeps as many archives as could be parsed; from there on it refuses
everything but to be closed, and neither reads nor keeps anything. -/
theorem serve_session (source : Source) {before : List Request} (hbefore : .close ∉ before)
    (after : List Request) :
    ∃ m, serve source before {} = (before.map fun r => ((r.perform source).run {}).1, m) ∧
      m.reads.reverse = source.readsAfter [] (before.flatMap source.demands) ∧
      m.keptCount = (source.parsed (before.flatMap source.demands)).toFinset.card ∧
      ∃ m', serve source (.close :: after) m = (.ok .closed :: after.map closedReply, m') ∧
        m'.reads = m.reads ∧ m'.keptCount = 0 ∧ m'.closed = true := by
  have hfresh : before.map source.reply = before.map fun r => ((r.perform source).run {}).1 := by
    refine List.map_congr_left fun r hr => ?_
    rw [meets_perform (fun h => hbefore (h ▸ hr)) {} (coherent_new source)]
  have hgrown := (Grown.new source).meetAll (before.flatMap source.demands)
  refine ⟨_, ?_, hgrown.reads, hgrown.keptCount, close _, ?_, rfl, rfl, rfl⟩
  · rw [serve_of_coherent hbefore (coherent_new source), hfresh]
  · rw [serve_cons, run_close, serve_close]

/-- A source of the small files. -/
def stocked : Source := fun category id =>
  match category, id with
  | 0, 2 => .ok (Archive.ofNamed [("obj.dat", smallFiles.itemData), ("obj.idx", smallFiles.itemIndex),
      ("loc.dat", smallFiles.objectData), ("loc.idx", smallFiles.objectIndex)])
  | 0, 3 => .ok (Archive.ofNamed [("data", smallFiles.interfaces)])
  | 0, 5 => .ok (Archive.ofNamed [("map_index", smallFiles.regions)])
  | 4, 3 => .ok smallMap
  | category, _ => .error (.categoryNotFound category)

/-- Requests that read every archive of the source, and twice one that it does not have. -/
def someRequests : List Request :=
  [.map, .archive 0 9, .loadAll, .archive 0 9, .file 0 2 "loc.idx", .objects]

theorem serve_session_stocked : ∃ m,
    serve stocked someRequests {} = (someRequests.map fun r => ((r.perform stocked).run {}).1, m) ∧
    m.reads.reverse = [(0, 2), (0, 5), (4, 3), (0, 9), (0, 3), (4, 3), (0, 9)] ∧ m.keptCount = 3 ∧
    ∃ m', serve stocked [.close, .items, .close] m = ([.ok .closed, .error .closed, .ok .closed], m') ∧
      m'.reads = m.reads ∧ m'.keptCount = 0 := by
  obtain ⟨m, hserve, hreads, hcount, m', hserve', hreads', hcount', -⟩ :=
    serve_session stocked (show Request.close ∉ someRequests by decide) [.items, .close]
  refine ⟨m, hserve, hreads.trans ?_, hcount.trans ?_, m', hserve', hreads', hcount'⟩
  · decide +kernel
  · decide +kernel

end Manager

end AssetCache
