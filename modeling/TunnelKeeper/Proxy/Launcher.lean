import TunnelKeeper.Proxy.Arguments

/-!
# Launchers — one proxy process at a time

A launcher keeps the process of the proxy in a slot.  A start takes the slot's process out and kills
it, launches a new one, and waits until the local address takes connections; only then the process
goes into the slot.  A stop empties the slot.  Calls take their turns on the slot in the order in
which they asked for it, and every call may be dropped while it waits, which kills the processes it
holds.  `Launcher.step?` makes one step, named by a label: calls go on, and processes end by
themselves at any time.
-/

namespace TunnelKeeper.Proxy

open Settings (ProxySettings)

/-- The number of a process, in the order of launching. -/
abbrev ProcessId := Nat

/-- The number of a call, in the order of calling. -/
abbrev CallId := Nat

/-- A point in time, in milliseconds. -/
abbrev Instant := Nat

/-- Why the proxy is not up. -/
inductive LaunchError where
  | config (e : ConfigError)
  /-- There is no such program. -/
  | notLaunched
  /-- The process ended early, in a way that has words. -/
  | exited (how : String)
  /-- Nothing listens at the address in time. -/
  | notReady (address : SocketAddress)
  /-- The process cannot be looked at. -/
  | lost
deriving DecidableEq, Repr

/-- The words for it, as far as they are the launcher's own. -/
def LaunchError.message : LaunchError → String
  | config e => "Invalid tunnel config: " ++ e.message
  | notLaunched => "Failed to spawn proxy"
  | exited how => "Proxy exited early: " ++ how
  | notReady address => "Proxy not accepting connections on " ++ address.text
  | lost => "IO error"

/-- How long a start rests between two looks, in milliseconds. -/
def restMs : Nat := 100

/-- What a call is at. -/
inductive Stage where
  /-- It waits for its turn, to start with some arguments. -/
  | starting (args : List String)
  /-- It waits for its turn, to stop. -/
  | ending
  /-- It kills the former process, and will go on with some arguments. -/
  | replacing (former : ProcessId) (args : List String)
  /-- It kills the process for good. -/
  | stopping (former : ProcessId)
  /-- It tries to connect to the local address. -/
  | connecting (child : ProcessId) (deadline : Instant)
  /-- It could not connect and looks at the process and the clock. -/
  | looking (child : ProcessId) (deadline : Instant)
  /-- It rests until a time. -/
  | resting (child : ProcessId) (deadline wake : Instant)
  /-- It kills the process that is of no use. -/
  | discarding (child : ProcessId) (e : LaunchError)
  | finished (result : Except LaunchError Unit)
  /-- It was dropped. -/
  | dropped

/-- The processes that a call holds. -/
def Stage.held : Stage → List ProcessId
  | replacing former _ => [former]
  | stopping former => [former]
  | connecting child _ => [child]
  | looking child _ => [child]
  | resting child _ _ => [child]
  | discarding child _ => [child]
  | _ => []

/-- Whether a call is over. -/
def Stage.isOver : Stage → Bool
  | finished _ => true
  | dropped => true
  | _ => false

/-- Whether a call waits for something and can be dropped. -/
def Stage.isSuspended : Stage → Bool
  | looking _ _ => false
  | s => !s.isOver

/-- What a call meets in one turn. -/
structure Surroundings where
  clock : Instant := 0
  /-- The program can be launched. -/
  launches : Bool := true
  /-- The local address takes connections, whoever listens there. -/
  accepts : Bool := false
  /-- A process can be looked at. -/
  observes : Bool := true

/-- The slot, the processes and the calls. -/
structure Launcher where
  settings : ProxySettings
  /-- The process that is up. -/
  slot : Option ProcessId := none
  /-- The processes that have not ended. -/
  alive : List ProcessId := []
  /-- How the processes have ended that ended by themselves. -/
  exits : List (ProcessId × String) := []
  /-- How many processes were launched. -/
  launched : Nat := 0
  calls : List Stage := []
  /-- The calls that are not over and have asked for the slot, in order; the first has it. -/
  line : List CallId := []

/-- The name of a step. -/
inductive Label where
  /-- A call to start the proxy for a tunnel. -/
  | start (config : TunnelConfig)
  /-- A call to stop it. -/
  | stop
  /-- A call goes on. -/
  | turn (call : CallId) (around : Surroundings)
  /-- A call is dropped. -/
  | drop (call : CallId)
  /-- A process ends by itself. -/
  | exit (process : ProcessId) (how : String)

namespace Launcher

/-- A process ends at the hand of the launcher. -/
def kill (l : Launcher) (process : ProcessId) : Launcher :=
  { l with alive := l.alive.filter (· != process) }

/-- A call goes on to another stage. -/
def move (l : Launcher) (call : CallId) (stage : Stage) : Launcher :=
  { l with calls := l.calls.set call stage }

/-- A call is over and leaves the line. -/
def leave (l : Launcher) (call : CallId) (stage : Stage) : Launcher :=
  { l.move call stage with line := l.line.filter (· != call) }

/-- A call ends with a result. -/
def finish (l : Launcher) (call : CallId) (result : Except LaunchError Unit) : Launcher :=
  l.leave call (.finished result)

/-- A call launches the program. -/
def launch (l : Launcher) (call : CallId) (around : Surroundings) : Launcher :=
  if around.launches then
    let deadline := around.clock + l.settings.readyTimeoutMs
    { l.move call (.connecting l.launched deadline) with
      alive := l.launched :: l.alive, launched := l.launched + 1 }
  else l.finish call (.error .notLaunched)

/-- How a process has ended, in words. -/
def exitWords (l : Launcher) (process : ProcessId) : String :=
  (l.exits.lookup process).getD ""

/-- A call that could not connect decides how to go on. -/
def look (l : Launcher) (child : ProcessId) (deadline : Instant) (around : Surroundings) : Stage :=
  if !around.observes then .discarding child .lost
  else if !l.alive.contains child then .discarding child (.exited (l.exitWords child))
  else if deadline ≤ around.clock then .discarding child (.notReady l.settings.localAddr)
  else .resting child deadline (around.clock + restMs)

/-- A call goes on; none where it has to wait or is over. -/
def turn? (l : Launcher) (call : CallId) (around : Surroundings) : Option Launcher := do
  match ← l.calls[call]? with
  | .starting args =>
    if l.line.head? == some call then
      match l.slot with
      | some former => some { l.move call (.replacing former args) with slot := none }
      | none => some (l.launch call around)
    else none
  | .ending =>
    if l.line.head? == some call then
      match l.slot with
      | some former => some { l.move call (.stopping former) with slot := none }
      | none => some (l.finish call (.ok ()))
    else none
  | .replacing former _ => some ((l.kill former).launch call around)
  | .stopping former => some ((l.kill former).finish call (.ok ()))
  | .connecting child deadline =>
    if around.accepts then some { l.finish call (.ok ()) with slot := some child }
    else some (l.move call (.looking child deadline))
  | .looking child deadline => some (l.move call (l.look child deadline around))
  | .resting child deadline wake =>
    if wake ≤ around.clock then some (l.move call (.connecting child deadline)) else none
  | .discarding child e => some ((l.kill child).finish call (.error e))
  | .finished _ => none
  | .dropped => none

/-- A call is dropped, which kills the processes it holds. -/
def drop? (l : Launcher) (call : CallId) : Option Launcher := do
  let stage ← l.calls[call]?
  if stage.isSuspended then some ((stage.held.foldl kill l).leave call .dropped) else none

/-- A new call that asks for the slot. -/
def enter (l : Launcher) (stage : Stage) : Launcher :=
  { l with calls := l.calls ++ [stage], line := l.line ++ [l.calls.length] }

/-- One step, where it is possible.  A start whose arguments cannot be made is over at once. -/
def step? (l : Launcher) : Label → Option Launcher
  | .start config =>
    match l.settings.renderArgs config with
    | .error e => some { l with calls := l.calls ++ [.finished (.error (.config e))] }
    | .ok args => some (l.enter (.starting args))
  | .stop => some (l.enter .ending)
  | .turn call around => l.turn? call around
  | .drop call => l.drop? call
  | .exit process how =>
    if l.alive.contains process then
      some { l.kill process with exits := (process, how) :: l.exits }
    else none

/-- The launcher after a list of steps, where all of them are possible. -/
def run? (l : Launcher) (labels : List Label) : Option Launcher := labels.foldlM step? l

/-- What a call has ended with. -/
def result? (l : Launcher) (call : CallId) : Option (Except LaunchError Unit) :=
  match l.calls[call]? with
  | some (.finished result) => some result
  | _ => none

end Launcher

end TunnelKeeper.Proxy
