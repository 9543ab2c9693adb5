-- SUMMARY: Service endpoints grouped by zone and sorted into the zone tiers.
import ZonePool.Instance
import ZonePool.KeyMap
import ZonePool.Tier

/-!
# Zones

A zone that shares an address with the `Default` tier is the pool's own,
whatever the directory calls it; every other zone is a different one. Each of
the two buckets holds one zone: of several zones in name order the last one
stays, and each zone that is overwritten on the way is named in a warning.
-/

namespace ZonePool

/-- Service endpoints by zone. -/
abbrev Zones := KeyMap (List String)

namespace Zones

/-- The service endpoints of instances by zone, in the order of the instances. -/
def ofInstances (instances : List Instance) : Zones :=
  instances.foldl (fun zones i =>
    match i.restEndpoint with
    | some endpoint => zones.alter i.zone fun found => found.getD [] ++ [endpoint]
    | none => zones) .empty

end Zones

/-! ## Classification -/

/-- The relation of a zone to the pool. -/
inductive Bucket where
  | sameAz
  | diffAz
  deriving DecidableEq, Repr

/-- A zone that gave way to a later one in its bucket. -/
structure Overwrite where
  bucket : Bucket
  overwritten : String
  kept : String
  deriving DecidableEq, Repr

namespace Overwrite

def message (w : Overwrite) : String :=
  let bucket :=
    match w.bucket with
    | .sameAz => "same az"
    | .diffAz => "diff az"
  "pool: resync: multiple zones classified as " ++ bucket ++ ", overwritten=" ++ w.overwritten ++
    ", kept=" ++ w.kept

end Overwrite

/-- A zone and its members, each once. -/
structure Placed where
  zone : String
  members : List String
  deriving DecidableEq, Repr

/-- The zone in each bucket, and the zones that gave way in the order in which they did. -/
structure Classification where
  sameAz : Option Placed := none
  diffAz : Option Placed := none
  overwrites : List Overwrite := []
  deriving DecidableEq, Repr

namespace Classification

/-- What is overwritten when `zone` comes into a bucket. -/
def displaced (bucket : Bucket) (zone : String) : Option Placed → List Overwrite
  | some before => [⟨bucket, before.zone, zone⟩]
  | none => []

/-- Sort one more zone into its bucket. -/
def add (home : List String) (c : Classification) (zone : String) (addresses : List String) :
    Classification :=
  let placed : Placed := ⟨zone, distinct addresses⟩
  if placed.members.any (home.contains ·) then
    { c with
      sameAz := some placed
      overwrites := c.overwrites ++ displaced .sameAz zone c.sameAz }
  else
    { c with
      diffAz := some placed
      overwrites := c.overwrites ++ displaced .diffAz zone c.diffAz }

/-- Sort zones into buckets; `home` are the members of the `Default` tier. -/
def ofZones (zones : Zones) (home : List String) : Classification :=
  zones.entries.foldl (fun c z => c.add home z.1 z.2) {}

/-- The new members of `SameAz`, if some zone is the pool's own. -/
def sameAzMembers (c : Classification) : Option (List String) :=
  c.sameAz.map (·.members)

/-- The new members of `DiffAz`, if some zone is a different one. -/
def diffAzMembers (c : Classification) : Option (List String) :=
  c.diffAz.map (·.members)

end Classification

end ZonePool
