-- SUMMARY: Why a request has no answer.

/-!
# Faults of requests

A request that ends without an answer, or whose answer cannot be read to its
end, has one of these faults.
-/

namespace ZonePool

inductive HttpFault where
  /-- The URL cannot be read or has no scheme of the web. -/
  | badUrl
  /-- No connection could be made, or the peer closed it without an answer. -/
  | unreachable
  /-- The peer neither accepted nor refused. -/
  | timedOut
  | tooManyRedirects
  /-- The body ended before its announced length. -/
  | cutShort
  deriving DecidableEq, Repr

def HttpFault.message : HttpFault → String
  | .badUrl => "builder error"
  | .unreachable => "error sending request"
  | .timedOut => "operation timed out"
  | .tooManyRedirects => "error following redirect"
  | .cutShort => "error decoding response body"

end ZonePool
