-- SUMMARY: Directory records of instances, with their zones and service endpoints.
import ZonePool.Json.Reader
import ZonePool.Json.Writer
import ZonePool.Net.RestUri

/-!
# Instances

A directory lists instances: where each one offers its service and in which
availability zone it runs. This module reads such records from documents and
writes them back, and says which zone and which service endpoint an instance
counts with.
-/

namespace ZonePool

/-! ## Records -/

/-- Where an instance runs. -/
structure DataCenter where
  name : String := ""
  region : String := ""
  zone : String := ""
  deriving DecidableEq, Repr

structure Instance where
  /-- URIs under which the instance can be reached. -/
  endpoints : List String := []
  dataCenter : Option DataCenter := none
  deriving DecidableEq, Repr

namespace DataCenter

/-- The fields in order, with the names that each goes by. -/
def fields : List (List String) :=
  [["name"], ["region"], ["availableZone", "availabilityZone"]]

def ofDocument? (d : Document) : Option DataCenter := do
  match ← d.slots? .refused fields with
  | [name, region, zone] =>
    return {
      name := ← Document.orElse? Document.text? "" name
      region := ← Document.orElse? Document.text? "" region
      zone := ← Document.orElse? Document.text? "" zone }
  | _ => none

def toDocument (dc : DataCenter) : Document :=
  .ofMembers [("name", .text dc.name), ("region", .text dc.region), ("availableZone", .text dc.zone)]

end DataCenter

namespace Instance

/-- The fields in order, with the names that each goes by. -/
def fields : List (List String) :=
  [["endpoints"], ["dataCenterInfo"]]

def ofDocument? (d : Document) : Option Instance := do
  match ← d.slots? .refused fields with
  | [endpoints, dataCenter] =>
    return {
      endpoints := ← Document.orElse? (Document.listOrNull? Document.text?) [] endpoints
      dataCenter := ← Document.orElse? (Document.nullable? DataCenter.ofDocument?) none dataCenter }
  | _ => none

def toDocument (i : Instance) : Document :=
  .ofMembers [
    ("endpoints", .ofTexts i.endpoints),
    ("dataCenterInfo", .ofNullable DataCenter.toDocument i.dataCenter)]

/-! ## Lists of records -/

/-- The instances in the answer of a directory. -/
def listOfDocument? (d : Document) : Option (List Instance) := do
  match ← d.slots? .refused [["instances"]] with
  | [instances] => Document.orElse? (Document.listOrNull? ofDocument?) [] instances
  | _ => none

def listToDocument (instances : List Instance) : Document :=
  .ofMembers [("instances", .list (instances.map toDocument))]

/-- Read the answer of a directory. -/
def parse? (body : String) : Option (List Instance) :=
  (Json.read? body.toList).bind listOfDocument?

/-! ## Zone and endpoint -/

/-- The zone of the instances that name none. -/
def unknownZone : String := "unknown"

def zone (i : Instance) : String :=
  match i.dataCenter with
  | some dc => if dc.zone.isEmpty then unknownZone else dc.zone
  | none => unknownZone

/-- The last of some URIs that names a service endpoint decides which one. -/
def endpointOf (uris : List String) : Option String :=
  uris.foldl (fun found uri => (Net.RestUri.endpoint? uri).or found) none

/-- The endpoint under which an instance offers its service. -/
def restEndpoint (i : Instance) : Option String :=
  endpointOf i.endpoints

end Instance

end ZonePool
