import TunnelKeeper.Service.Machine
import TunnelKeeper.Text.Digits

/-!
# Rehearsals — machines against a script, in virtual time

A rehearsal runs a machine whose collaborators follow a script.  Every scripted word may come with a
delay; one word never comes and one ends abnormally.  Tasks run until they have to wait, then units
of work begin and end, and once nothing can move the clock jumps to the next time at which something
happens.  Every move is a step of the machine.
-/

namespace TunnelKeeper.Service

/-- A scripted word and when it comes; without a delay it never comes. -/
structure Cue where
  delay : Option Time
  word : String
deriving DecidableEq, Repr

namespace Cue

/-- The cue of a text: a word, or a word, the sign and a number of milliseconds. -/
def ofText (s : String) : Cue :=
  let chars := s.toList
  let word := chars.takeWhile (· != '@')
  let span := (Digits.read? (chars.drop (word.length + 1))).getD 0
  if word == ['h', 'a', 'n', 'g'] then ⟨none, "hang"⟩ else ⟨some span, String.ofList word⟩

/-- Whether the collaborator fails abnormally. -/
def panics (c : Cue) : Bool := c.word == "panic"

end Cue

/-- How a check answers: always alike, or by its argument and otherwise with no. -/
inductive CheckScript where
  | always (text : String)
  | byArgument (texts : List (String × String))
deriving Repr

def CheckScript.cue (c : CheckScript) (argument : String) : Cue :=
  match c with
  | always text => .ofText text
  | byArgument texts => .ofText ((texts.lookup argument).getD "false")

/-- How all collaborators answer. -/
structure Script where
  udp : CheckScript := .always "true"
  server : CheckScript := .always "true"
  credentials : CheckScript := .always "true"
  proxy : String := "ok"
  establish : String := "true"
  connect : String := "ok"
  proxyAddress : SocketAddress := .ofV4 127 0 0 1 1081
  prepared : Bool := true
  binds : Bool := true
  registers : Bool := true
  unregisters : Bool := true
  saves : Bool := true
  savesUdp : Bool := true
  savesStatus : Bool := true
  loads : Bool := true
  networks : List (NetworkId × NetworkState) := []
  activeNetwork : Option NetworkState := none
deriving Repr

namespace Script

/-- How collaborators answer at once. -/
def surroundings (s : Script) : Surroundings where
  proxyAddress := s.proxyAddress
  establishes := (Cue.ofText s.establish).word == "true"
  connects := (Cue.ofText s.connect).word == "ok"
  binds := s.binds
  prepared := s.prepared
  loads := s.loads
  writes
    | .tunnel _ => s.saves
    | .udpSupported _ => s.savesUdp
    | .status _ => s.savesStatus
  registers := s.registers
  unregisters := s.unregisters
  networkState network := s.networks.lookup network
  activeNetwork := s.activeNetwork

/-- How a unit of work goes. -/
def workCue (s : Script) : Work → Cue
  | .startProxy _ => .ofText s.proxy
  | .checkUdp proxy => s.udp.cue proxy.text
  | .checkServer host port => s.server.cue (host ++ ":" ++ Digits.text port.toNat)
  | .checkCredentials proxy => s.credentials.cue proxy.text
  | .errand label => .ofText label

/-- The result of a unit of work; none where it ends abnormally. -/
def workResult (s : Script) (work : Work) : Option Bool :=
  let cue := s.workCue work
  if cue.panics then none
  else
    match work with
    | .startProxy _ => some (cue.word == "ok")
    | .errand _ => some true
    | _ => some (cue.word == "true")

/-- How long a call of a collaborator takes, and whether it ends abnormally. -/
def callCue (s : Script) : Call → Cue
  | .establish => .ofText s.establish
  | .connect _ _ => .ofText s.connect
  | _ => ⟨some 0, ""⟩

end Script

/-- A machine, its script, and what is under way. -/
structure Rehearsal where
  machine : Machine
  script : Script
  /-- When units of work end, and with what. -/
  units : List (UnitId × Option Time × Option Bool) := []
  /-- When the last call of a task comes to its end, and whether abnormally. -/
  calls : List (TaskId × Option Time × Bool) := []

namespace Rehearsal

def clock (r : Rehearsal) : Time := r.machine.world.clock

/-- The same rehearsal after a step of its machine. -/
def step? (r : Rehearsal) (label : Label) : Option Rehearsal :=
  (r.machine.step? label).map fun machine => { r with machine }

/-- The same rehearsal after a step, if it is possible. -/
def tryStep (r : Rehearsal) (label : Label) : Rehearsal := (r.step? label).getD r

/-- A time that is a span after now. -/
def after (r : Rehearsal) (span : Option Time) : Option Time := span.map (r.clock + ·)

/-- Whether a time has come. -/
def isDue (r : Rehearsal) (time : Option Time) : Bool := time.any (· ≤ r.clock)

/-- A turn of a task. -/
def turn? (r : Rehearsal) (t : TaskId) : Option Rehearsal := do
  let task ← r.machine.tasks[t]?
  let turn := Label.turn t r.script.surroundings
  match task.program with
  | .ask .pause _ =>
    match r.calls.lookup t with
    | some (time, panics) =>
      if r.isDue time then r.step? (if panics then .drop t else turn) else none
    | none => r.step? turn
  | .ask (.call c) _ =>
    let cue := r.script.callCue c
    let r ← r.step? turn
    return { r with calls := (t, r.after cue.delay, cue.panics) :: r.calls }
  | _ => r.step? turn

/-- A turn of the first task that can take one. -/
def anyTurn? (r : Rehearsal) : Option Rehearsal :=
  (List.range r.machine.tasks.length).findSome? r.turn?

/-- A unit of work begins. -/
def begin? (r : Rehearsal) (id : UnitId) : Option Rehearsal := do
  let u ← r.machine.pool.units[id]?
  let r ← r.step? (.begin id)
  let time := r.after (r.script.workCue u.work).delay
  return { r with units := (id, time, r.script.workResult u.work) :: r.units }

/-- The next unit of work takes its turn.  Those that have not had one yet come first: each asks for
a permit, and begins at once if there is one for it. -/
def anyUnit? (r : Rehearsal) : Option Rehearsal :=
  match r.machine.pool.fresh.head? with
  | some id => (r.step? (.ask id)).map fun r => (r.begin? id).getD r
  | none => r.machine.pool.granted.head?.bind r.begin?

/-- Whether a unit of work runs. -/
def isRunning (r : Rehearsal) (id : UnitId) : Bool := r.machine.pool.units[id]?.any Pool.isRunning

/-- A unit of work whose time has come ends. -/
def end? (r : Rehearsal) : Option Rehearsal :=
  r.units.reverse.findSome? fun (id, time, result) =>
    if r.isRunning id && r.isDue time then
      r.step? (match result with
        | some b => .finish id b
        | none => .panic id)
    else none

/-- Lets everything happen that can happen now. -/
def settle : (fuel : Nat) → Rehearsal → Rehearsal
  | 0, r => r
  | fuel + 1, r =>
    match r.anyTurn? with
    | some r => settle fuel r
    | none =>
      match r.anyUnit? with
      | some r => settle fuel r
      | none =>
        match r.end? with
        | some r => settle fuel r
        | none => r

/-- The times at which tasks can go on. -/
def taskTimes (r : Rehearsal) : List Time :=
  (List.range r.machine.tasks.length).filterMap fun t => do
    let task ← r.machine.tasks[t]?
    match task.program with
    | .ask .pause _ => (r.calls.lookup t).bind (·.1)
    | .ask (.join _ limit) _ => limit
    | _ => none

/-- The next time at which something happens. -/
def nextTime? (r : Rehearsal) : Option Time :=
  let unitTimes := r.units.filterMap fun (id, time, _) => if r.isRunning id then time else none
  ((r.taskTimes ++ unitTimes).filter (r.clock < ·)).min?

/-- Moves the clock. -/
def moveTo (r : Rehearsal) (time : Time) : Rehearsal := r.tryStep (.elapse (time - r.clock))

/-- More moves than are ever made at one time, and more times than ever matter. -/
def plenty : Nat := 1000000

/-- Runs until a goal is reached or a time has come. -/
def runUntil (reached : Rehearsal → Bool) (limit : Time) : (fuel : Nat) → Rehearsal → Rehearsal
  | 0, r => r
  | fuel + 1, r =>
    let r := r.settle plenty
    if reached r then r
    else
      match r.nextTime? with
      | some time =>
        if time ≤ limit then runUntil reached limit fuel (r.moveTo time) else r.moveTo limit
      | none => r.moveTo limit

/-- Lets a span of time pass. -/
def advance (r : Rehearsal) (span : Time) : Rehearsal :=
  (runUntil (fun _ => false) (r.clock + span) plenty r).settle plenty

/-- Lets everything happen that can happen now, and keeps the clock. -/
def settled (r : Rehearsal) : Rehearsal := r.settle plenty

/-- Somebody else hands in so many units of work, all alike. -/
def occupy (r : Rehearsal) (count : Nat) (label : String) : Rehearsal × List UnitId :=
  let first := r.machine.pool.units.length
  ((List.range count).foldl (fun r _ => r.tryStep (.occupy (.errand label))) r,
    (List.range count).map (first + ·))

/-- Somebody else gives up units of work. -/
def vacate (r : Rehearsal) (ids : List UnitId) : Rehearsal :=
  ids.foldl (fun r id => r.tryStep (.vacate id)) r

def closePool (r : Rehearsal) : Rehearsal := (r.tryStep .closePool).settled

/-- Puts an event into the channel of the latest registration, if somebody reads it. -/
def announce? (r : Rehearsal) (e : NetworkEvent) : Option Rehearsal :=
  (r.step? (.deliver (r.machine.world.channels.length - 1) e)).map settled

/-- How a call of the service ends. -/
inductive Result where
  | reply (r : Reply)
  | panicked
  /-- It would take longer than anybody waits. -/
  | hangs

/-- What a task has come to. -/
def result? (r : Rehearsal) (t : TaskId) : Option Result := do
  let task ← r.machine.tasks[t]?
  if !task.alive then some .panicked else task.reply?.map .reply

/-- Nobody waits longer than an hour. -/
def patience : Time := 3600000

/-- Waits for a task, and drops it where that takes too long. -/
def await (r : Rehearsal) (t : TaskId) : Rehearsal × Result :=
  let r := runUntil (fun r => (r.result? t).isSome) (r.clock + patience) plenty r
  match r.result? t with
  | some result => (r.settle plenty, result)
  | none => ((r.tryStep (.drop t)).settle plenty, .hangs)

/-- Begins a task. -/
def begin (r : Rehearsal) (program : Program Reply) : Rehearsal × TaskId :=
  let (t, machine) := r.machine.addTask { program }
  ({ r with machine }, t)

/-- Carries out a program in the foreground. -/
def carryOut (r : Rehearsal) (program : Program Reply) : Rehearsal × Result :=
  let (r, t) := r.begin program
  r.await t

/-- The entries of the log from a position on. -/
def logFrom (r : Rehearsal) (position : Nat) : List Entry := r.machine.world.log.drop position

end Rehearsal

end TunnelKeeper.Service
