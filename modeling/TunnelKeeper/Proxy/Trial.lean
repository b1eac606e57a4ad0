import TunnelKeeper.Proxy.Launcher

/-!
# Trials — a launcher among known surroundings

A trial fixes whether the program can be launched, whether its processes end by themselves soon, and
whether the local address takes connections.  Calls are made one at a time, and the clock moves
whenever a call rests; that is also when a process ends.  Every move is a step of the launcher.
-/

namespace TunnelKeeper.Proxy

/-- A launcher and what it meets. -/
structure Trial where
  launcher : Launcher
  clock : Instant := 0
  launches : Bool := true
  accepts : Bool := false
  /-- How a launched process ends while its start rests, if it does. -/
  ending : Option String := none

namespace Trial

def surroundings (t : Trial) : Surroundings :=
  { clock := t.clock, launches := t.launches, accepts := t.accepts }

/-- The launcher after the process that was launched last has ended by itself, if it does. -/
def endLaunched (t : Trial) : Launcher :=
  match t.ending with
  | some how => (t.launcher.step? (.exit (t.launcher.launched - 1) how)).getD t.launcher
  | none => t.launcher

/-- A call goes on, or time passes. -/
def next (t : Trial) (call : CallId) : Trial :=
  match t.launcher.step? (.turn call t.surroundings) with
  | some launcher => { t with launcher }
  | none => { t with clock := t.clock + restMs, launcher := t.endLaunched }

/-- The trial after so many moves of a call, or fewer if it is over. -/
def goOn : (moves : Nat) → Trial → CallId → Trial
  | 0, t, _ => t
  | moves + 1, t, call =>
    if (t.launcher.result? call).isSome then t else goOn moves (t.next call) call

/-- More moves than a start within its time can make. -/
def enough (t : Trial) : Nat := 4 * (t.launcher.settings.readyTimeoutMs / restMs + 2) + 8

/-- Makes a call and carries it out. -/
def carryOut (t : Trial) (label : Label) : Trial × Option (Except LaunchError Unit) :=
  let call := t.launcher.calls.length
  match t.launcher.step? label with
  | none => (t, none)
  | some launcher =>
    let t := goOn t.enough { t with launcher } call
    (t, t.launcher.result? call)

end Trial

end TunnelKeeper.Proxy
