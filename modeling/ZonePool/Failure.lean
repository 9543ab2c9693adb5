-- SUMMARY: The ways in which probing and resyncing fail, and their wording.
import ZonePool.Http.Fault
import ZonePool.Span
import ZonePool.Text.Decimal

/-!
# Failures

Each failure of a probe, of a directory round or of a configuration is a cause;
`Failure.message` words it, and `Failure.source` is the text of the underlying
error where one is kept.
-/

namespace ZonePool

/-- Why a configuration, a probe or a directory round failed. -/
inductive Failure where
  /-- The directory lists no usable endpoint at all. -/
  | noUsableEndpoints
  | config (detail : String)
  /-- A connection could not be made. -/
  | probeConnect (reason : String)
  /-- A connection was not made in time. -/
  | probeTimeout (limit : Span)
  /-- The health route answered, but neither well nor with `404`. -/
  | probeStatus (status : Nat) (body : String)
  /-- A request got no answer. -/
  | http (fault : HttpFault)
  | directory (detail : String)
  deriving DecidableEq, Repr

namespace Failure

open Text (decimal)

def message : Failure → String
  | .noUsableEndpoints => "sync produced no usable endpoints"
  | .config detail => "config error: " ++ detail
  | .probeConnect reason => "probe connect error: " ++ reason
  | .probeTimeout limit => "probe timed out after " ++ String.ofList (decimal limit.millis) ++ "ms"
  | .probeStatus status body =>
    "probe http status: " ++ String.ofList (decimal status) ++ ", resp: " ++ body
  | .http fault => "http error: " ++ fault.message
  | .directory detail => "directory error: " ++ detail

/-- The text of the error underneath, for the failures that wrap one. -/
def source : Failure → Option String
  | .probeConnect reason => some reason
  | .http fault => some fault.message
  | _ => none

/-- Whether a check failed by waiting for a silent peer. -/
def isTimeout : Failure → Bool
  | .probeTimeout _ => true
  | .http fault => fault == .timedOut
  | _ => false

end Failure

end ZonePool
