-- SUMMARY: The settings of the service, as records in a document.
import ZonePool.Failure
import ZonePool.Json.Writer
import ZonePool.Pool

/-!
# Settings

The settings of the service: the addresses of its pool, how and how often they
are probed, the directory they are resynced from, and the address of the admin
server. This module reads settings from documents, writes them back, and says
which ones are valid.
-/

namespace ZonePool

/-! ## Records -/

/-- The directory to resync from. -/
structure DirectorySettings where
  url : String
  pollSecs : Nat := 30
  timeoutSecs : Nat := 10
  deriving DecidableEq, Repr

@[ext]
structure Config where
  addresses : List String := []
  diffAz : List String := []
  healthCheckSecs : Nat := 15
  probeConcurrency : Nat := 1
  httpProbe : Option HttpProbe := none
  directory : Option DirectorySettings := none
  adminListen : String := "0.0.0.0:9091"
  deriving DecidableEq, Repr

/-! ## Documents -/

namespace HttpProbe

/-- The fields in order. -/
def fields : List (List String) :=
  [["protocol"], ["path"]]

def ofDocument? (surplus : Document.Surplus) (d : Document) : Option HttpProbe := do
  match ← d.slots? surplus fields with
  | [protocol, path] =>
    return {
      protocol := ← Document.orElse? Document.text? "http" protocol
      path := ← Document.orElse? Document.text? "" path }
  | _ => none

def toDocument (p : HttpProbe) : Document :=
  .ofMembers [("protocol", .text p.protocol), ("path", .text p.path)]

end HttpProbe

namespace DirectorySettings

/-- The fields in order. -/
def fields : List (List String) :=
  [["url"], ["poll_interval_secs"], ["timeout_secs"]]

def ofDocument? (surplus : Document.Surplus) (d : Document) : Option DirectorySettings := do
  match ← d.slots? surplus fields with
  | [url, poll, timeout] =>
    return {
      url := ← Document.required? Document.text? url
      pollSecs := ← Document.orElse? Document.word? 30 poll
      timeoutSecs := ← Document.orElse? Document.word? 10 timeout }
  | _ => none

def toDocument (d : DirectorySettings) : Document :=
  .ofMembers [
    ("url", .text d.url),
    ("poll_interval_secs", .whole d.pollSecs),
    ("timeout_secs", .whole d.timeoutSecs)]

end DirectorySettings

namespace Config

/-- The fields in order. -/
def fields : List (List String) :=
  [["addresses"], ["diff_az_addresses"], ["health_check_interval_secs"], ["probe_concurrency"],
    ["http_probe"], ["directory"], ["admin_listen"]]

def ofDocument? (surplus : Document.Surplus) (d : Document) : Option Config := do
  match ← d.slots? surplus fields with
  | [addresses, diffAz, healthCheck, concurrency, httpProbe, directory, adminListen] =>
    return {
      addresses := ← Document.orElse? (Document.listOrNull? Document.text?) [] addresses
      diffAz := ← Document.orElse? (Document.listOrNull? Document.text?) [] diffAz
      healthCheckSecs := ← Document.orElse? Document.word? 15 healthCheck
      probeConcurrency := ← Document.orElse? Document.word? 1 concurrency
      httpProbe :=
        ← Document.orElse? (Document.nullable? (HttpProbe.ofDocument? surplus)) none httpProbe
      directory :=
        ← Document.orElse? (Document.nullable? (DirectorySettings.ofDocument? surplus)) none directory
      adminListen := ← Document.orElse? Document.text? "0.0.0.0:9091" adminListen }
  | _ => none

def toDocument (c : Config) : Document :=
  .ofMembers [
    ("addresses", .ofTexts c.addresses),
    ("diff_az_addresses", .ofTexts c.diffAz),
    ("health_check_interval_secs", .whole c.healthCheckSecs),
    ("probe_concurrency", .whole c.probeConcurrency),
    ("http_probe", .ofNullable HttpProbe.toDocument c.httpProbe),
    ("directory", .ofNullable DirectorySettings.toDocument c.directory),
    ("admin_listen", .text c.adminListen)]

/-! ## Validity -/

/-- What is wrong with settings. -/
inductive Fault where
  | emptyAddress
  | noConcurrency
  | blankDirectoryUrl
  | zeroPollInterval
  deriving DecidableEq, Repr

def Fault.detail : Fault → String
  | .emptyAddress => "address list has an empty entry"
  | .noConcurrency => "probe_concurrency must be at least 1"
  | .blankDirectoryUrl => "directory.url must not be empty"
  | .zeroPollInterval => "directory.poll_interval_secs must be at least 1"

/-- The first fault of some settings. -/
def fault? (c : Config) : Option Fault :=
  if (c.addresses ++ c.diffAz).any Text.isBlankText then some .emptyAddress
  else if c.probeConcurrency = 0 then some .noConcurrency
  else
    match c.directory with
    | none => none
    | some d =>
      if Text.isBlankText d.url then some .blankDirectoryUrl
      else if d.pollSecs = 0 then some .zeroPollInterval
      else none

/-! ## Use -/

/-- The options of the pool; an interval of zero leaves the choice open. -/
def poolOptions (c : Config) : PoolOptions where
  http := c.httpProbe
  diffAz := c.diffAz
  checkInterval := if c.healthCheckSecs = 0 then none else some (.ofSecs c.healthCheckSecs)
  concurrency := c.probeConcurrency

end Config

end ZonePool
