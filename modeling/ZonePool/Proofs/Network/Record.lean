-- SUMMARY: What connecting and asking add to the record of a network.
import ZonePool.Http.Client

/-!
# The record of attempts

Every attempt to connect is recorded, whatever becomes of it, and nothing is ever
taken off the record. A request makes one attempt, unless its host is not found.
-/

namespace ZonePool

open Net (SocketAddress WebUrl)

namespace Network

theorem dials_dial (n : Network) (a : SocketAddress) : (n.dial a).2.dials = n.dials ++ [a] := by
  unfold dial
  dsimp only
  split
  · rfl
  · rfl
  · rfl
  · split <;> rfl

theorem hits_dial (n : Network) (a : SocketAddress) : (n.dial a).2.hits = n.hits := by
  unfold dial
  dsimp only
  split
  · rfl
  · rfl
  · rfl
  · split <;> rfl

end Network

namespace Http

/-- What becomes of a request on a connection. -/
def react (url : WebUrl) (a : SocketAddress) :
    Connection → Network → Except HttpFault Reply × Network
  | .refused, n => (.error .unreachable, n)
  | .hanging, n => (.error .timedOut, n)
  | .accepted none, n => (.error .unreachable, n)
  | .accepted (some routes), n =>
    if url.encrypted then (.error .unreachable, n)
    else
      let target := String.ofList url.target
      let reply := answer routes target
      (if isFinal reply.status then .ok reply else .error .unreachable, n.serve ⟨a, "GET", target⟩)

theorem request_eq (url : WebUrl) (n : Network) :
    request url n =
      match url.locate n.resolver with
      | .found a => react url a (n.dial a).1 (n.dial a).2
      | .failed _ => (.error .unreachable, n)
      | .hanging => (.error .timedOut, n) := by
  unfold request
  cases url.locate n.resolver with
  | failed reason => rfl
  | hanging => rfl
  | found a =>
    dsimp only
    rcases n.dial a with ⟨_ | _ | _ | routes, m⟩
    · rfl
    · rfl
    · rfl
    · dsimp only [react]
      split
      · rfl
      · split <;> rfl

theorem dials_react (url : WebUrl) (a : SocketAddress) (connection : Connection) (n : Network) :
    (react url a connection n).2.dials = n.dials := by
  rcases connection with _ | _ | _ | routes
  · rfl
  · rfl
  · rfl
  · dsimp only [react]
    split <;> rfl

theorem dials_request (url : WebUrl) (n : Network) :
    (request url n).2.dials = n.dials ++ (url.locate n.resolver).toOption.toList := by
  rw [request_eq]
  cases url.locate n.resolver with
  | failed | hanging => exact (List.append_nil _).symm
  | found a =>
    dsimp only
    rw [dials_react, n.dials_dial]
    rfl

end Http

end ZonePool
