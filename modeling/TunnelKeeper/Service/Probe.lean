import TunnelKeeper.Service.Ask

/-!
# Probes — is the tunnel behind a fresh proxy usable?

Three checks run side by side on the pool.  If datagrams are relayed the tunnel is usable and the
other two results are not waited for.  Otherwise valid credentials make it usable for connections
only, and a reachable server alone means that the credentials are wrong.  A check that fails to give
a result, or not in time, makes the server count as unreachable.  Each wait may have a limit of its
own, and the whole probe may lie inside an attempt that ends at a time (`Waited.outOfTime`).
-/

namespace TunnelKeeper.Service

open Pool (Joined)

/-- What waiting for a check gives. -/
inductive Waited where
  | answered (b : Bool)
  /-- There is no result, or not in time. -/
  | failed
  /-- The attempt around the wait has come to its end. -/
  | outOfTime
deriving DecidableEq, Repr

/-- The earlier of two limits. -/
def earlier : Option Time → Option Time → Option Time
  | none, b => b
  | a, none => a
  | some a, some b => some (min a b)

/-- Whether the limit of the attempt comes strictly before the limit of the wait. -/
def attemptFirst (wait attempt : Option Time) : Bool :=
  match wait, attempt with
  | _, none => false
  | none, some _ => true
  | some w, some a => a < w

namespace Program

/-- Waits for a check, for at most a span of time and until the end of the attempt.  If both end at
the same time it is the wait that has failed. -/
def waitFor (id : UnitId) (span attempt : Option Time) : Program Waited := do
  let start ← now
  let wait := span.map (start + ·)
  match ← join id (earlier wait attempt) with
  | .value b => return .answered b
  | .panicked => return .failed
  | .refused => return .failed
  | .timedOut => return if attemptFirst wait attempt then .outOfTime else .failed

/-- The verdict once datagrams are known not to be relayed; none where the attempt has ended. -/
def judge (server credentials : UnitId) (span attempt : Option Time) :
    Program (Option ProbeResult) := do
  match ← waitFor server span attempt with
  | .outOfTime => return none
  | .failed => return some .unreachable
  | .answered reachable =>
    match ← waitFor credentials span attempt with
    | .outOfTime => return none
    | .failed => return some .unreachable
    | .answered true => return some .usableNoUdp
    | .answered false => return some (if reachable then .invalidCredentials else .unreachable)

/-- Probes the proxy at an address for a server; none where the attempt around it has ended. -/
def probe (span attempt : Option Time) (proxy : SocketAddress) (host : String) (port : UInt16) :
    Program (Option ProbeResult) := do
  let udp ← spawn (.checkUdp proxy)
  let server ← spawn (.checkServer host port)
  let credentials ← spawn (.checkCredentials proxy)
  let verdict ←
    match ← waitFor udp span attempt with
    | .outOfTime => pure none
    | .failed => pure (some .unreachable)
    | .answered true => pure (some .usable)
    | .answered false => judge server credentials span attempt
  abandon udp
  abandon server
  abandon credentials
  return verdict

/-- Checks once more whether datagrams are relayed. -/
def probeUdp (span : Option Time) (proxy : SocketAddress) : Program Bool := do
  let udp ← spawn (.checkUdp proxy)
  let relayed ← waitFor udp span none
  abandon udp
  match relayed with
  | .answered b => return b
  | _ => return false

end Program

end TunnelKeeper.Service
