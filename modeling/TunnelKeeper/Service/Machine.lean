import TunnelKeeper.Service.World

/-!
# Machines — operations, reactors and workers side by side

A machine has tasks, which are callers' operations and reactors, a pool of workers, and the world
they share.  `Machine.step?` makes one step of a machine, named by a label: a task takes a turn, a
unit of work asks for a permit, begins or ends, a network event is delivered, a caller drops its
call, time passes.
Every interleaving is a list of labels (`Machine.run?`).  The lock of the session goes to waiting
tasks in the order in which they asked for it.
-/

namespace TunnelKeeper.Service

/-- What a caller asks the service for. -/
inductive Operation where
  | start (id : String) (config : TunnelConfig)
  | stop (id : String)
  | isActive (id : String)
  | overview (id : Option String)
  | resume
  | revoke
  | destroy
deriving Repr

/-- What a task ends with. -/
inductive Reply where
  | started (result : Except TunnelError ErrorCode)
  | stopped (result : Except TunnelError Unit)
  | isActive (result : Except TunnelError Bool)
  | overview (result : Except TunnelError Overview)
  | resumed (code : Option ErrorCode)
  | probed (verdict : Option ProbeResult)
  | relayed (udp : Bool)
  | joined (result : Pool.Joined Bool)
  | finished

/-- The program of an operation. -/
def Operation.program (limits : Limits) : Operation → Program Reply
  | start id config => (Program.start limits id config).bind fun r => .done (.started r)
  | stop id => (Program.stop id).bind fun r => .done (.stopped r)
  | isActive id => (Program.isActive id).bind fun r => .done (.isActive r)
  | overview id => (Program.overview id).bind fun r => .done (.overview r)
  | resume => (Program.resume limits).bind fun r => .done (.resumed r)
  | revoke => Program.revoke.bind fun _ => .done .finished
  | destroy => Program.destroy.bind fun _ => .done .finished

/-- A program that is being carried out. -/
structure Task where
  program : Program Reply
  /-- The registration whose events a reactor reads. -/
  registration : Option Nat := none
  /-- It takes further turns. -/
  alive : Bool := true

/-- The program of a reactor between two events. -/
def Task.idle : Program Reply := .done .finished

/-- What a task has ended with. -/
def Task.reply? (task : Task) : Option Reply :=
  match task.program with
  | .done r => some r
  | .ask _ _ => none

/-- Whether a task waits for something that other tasks or time bring about. -/
def Task.isSuspended (task : Task) : Bool :=
  match task.program with
  | .ask .lock _ => true
  | .ask (.join _ _) _ => true
  | .ask .pause _ => true
  | _ => false

/-- Tasks, workers and the world they share. -/
structure Machine where
  limits : Limits
  world : World := {}
  pool : Pool Work Bool := Pool.ofSize Pool.defaultSize
  tasks : List Task := []
  /-- The task that has the lock. -/
  holder : Option TaskId := none
  /-- The tasks that wait for the lock, in order. -/
  queue : List TaskId := []

/-- The name of a step. -/
inductive Label where
  /-- A caller begins an operation. -/
  | call (op : Operation)
  /-- A task takes a turn. -/
  | turn (task : TaskId) (around : Surroundings)
  /-- A unit of work asks for a permit. -/
  | ask (id : UnitId)
  /-- A unit of work begins. -/
  | begin (id : UnitId)
  /-- A unit of work ends with a result. -/
  | finish (id : UnitId) (result : Bool)
  /-- A unit of work ends abnormally. -/
  | panic (id : UnitId)
  /-- A network event goes into the channel of a registration. -/
  | deliver (registration : Nat) (e : NetworkEvent)
  /-- Nobody writes to the channel of a registration any more. -/
  | silence (registration : Nat)
  /-- A caller drops its call, or a task ends abnormally. -/
  | drop (task : TaskId)
  /-- Somebody else hands work to the pool. -/
  | occupy (work : Work)
  /-- Somebody else gives up a unit of work. -/
  | vacate (id : UnitId)
  /-- The pool takes no more work. -/
  | closePool
  /-- Time passes. -/
  | elapse (span : Time)

namespace Machine

/-- Adds a task. -/
def addTask (s : Machine) (task : Task) : TaskId × Machine :=
  (s.tasks.length, { s with tasks := s.tasks ++ [task] })

/-- Replaces a task. -/
def setTask (s : Machine) (t : TaskId) (task : Task) : Machine :=
  { s with tasks := s.tasks.set t task }

/-- A task goes on with a program. -/
def goOn (s : Machine) (t : TaskId) (program : Program Reply) : Machine :=
  { s with tasks := s.tasks.modify t fun task => { task with program } }

/-- The lock goes to the task that has waited longest. -/
def passLock (s : Machine) : Machine := { s with holder := s.queue.head?, queue := s.queue.tail }

/-- The answer to a question other than the one for the lock; none while it has to wait. -/
def respond (s : Machine) (t : TaskId) (around : Surroundings) :
    (q : Ask) → Option (q.Answer × Machine)
  | .lock => none
  | .unlock => some ((), s.passLock)
  | .session => some (s.world.session, s)
  | .setActive active =>
    let session := { s.world.session with active }
    some ((), { s with world := { s.world with session } })
  | .setMonitored monitored =>
    let session := { s.world.session with monitored }
    some ((), { s with world := { s.world with session } })
  | .spawnReactor =>
    let registration := some (s.world.channels.length - 1)
    some ((), (s.addTask { program := Task.idle, registration }).2)
  | .publishActive active => some ((), { s with world := { s.world with visibleActive := active } })
  | .publishStatus status => some ((), { s with world := { s.world with visibleStatus := status } })
  | .visibleActive => some (s.world.visibleActive, s)
  | .visibleStatus => some (s.world.visibleStatus, s)
  | .now => some (s.world.clock, s)
  | .spawn work =>
    let (id, pool) := s.pool.spawn (some t) work
    some (id, { s with pool })
  | .join id limit =>
    match s.pool.joined? id with
    | some joined => some (joined, s)
    | none =>
      match limit with
      | some limit => if limit ≤ s.world.clock then some (.timedOut, s) else none
      | none => none
  | .abandon id => some ((), { s with pool := s.pool.drop id })
  | .call c =>
    let (a, world) := s.world.perform t around c
    some (a, { s with world })
  | .pause => some ((), s)

/-- A task asks for the lock.  It gets it if nobody has it or it was passed on to it; otherwise it
queues up, once. -/
def takeLock (s : Machine) (t : TaskId) (program : Program Reply) : Option Machine :=
  match s.holder with
  | none => some { s.goOn t program with holder := some t }
  | some holder =>
    if holder == t then some (s.goOn t program)
    else if s.queue.contains t then none
    else some { s with queue := s.queue ++ [t] }

/-- An idle reactor takes the next event of its channel, or ends with it. -/
def receive (s : Machine) (t : TaskId) (task : Task) : Option Machine := do
  let registration ← task.registration
  let channel ← s.world.channels[registration]?
  match channel.receive with
  | (.event e, channel) =>
    let world := s.world.changeChannel registration fun _ => channel
    let program := (Program.react s.limits e).bind fun _ => Task.idle
    return { s.goOn t program with world }
  | (.closed, _) => return s.setTask t { task with alive := false }
  | (.empty, _) => none

/-- A task takes a turn; none while it has to wait. -/
def turn? (s : Machine) (t : TaskId) (around : Surroundings) : Option Machine := do
  let task ← s.tasks[t]?
  if !task.alive then none
  else
    match task.program with
    | .done _ => s.receive t task
    | .ask .lock next => s.takeLock t (next ())
    | .ask q next =>
      let (a, s) ← s.respond t around q
      return s.goOn t (next a)

/-- A task ends early.  It gives up its work, its place in the queue, the lock if it has it, and the
channel it reads. -/
def dropTask (s : Machine) (t : TaskId) : Machine :=
  match s.tasks[t]? with
  | none => s
  | some task =>
    let s := s.setTask t { task with alive := false, program := Task.idle }
    let s := { s with pool := s.pool.dropAll t, queue := s.queue.filter (· != t) }
    let s := if s.holder == some t then s.passLock else s
    match task.registration with
    | some registration => { s with world := s.world.changeChannel registration .closeReader }
    | none => s

/-- A unit of work begins. -/
def begin? (s : Machine) (id : UnitId) : Option Machine := do
  let pool ← s.pool.begin? id
  let u ← pool.units[id]?
  return { s with pool, world := s.world.note (.began id u.work) }

/-- A running unit of work ends. -/
def end? (s : Machine) (id : UnitId) (result : Option Bool) : Option Machine := do
  let u ← s.pool.units[id]?
  if Pool.isRunning u then
    let pool := match result with
      | some b => s.pool.finish id b
      | none => s.pool.panic id
    return { s with pool, world := s.world.note (.ended id u.work result) }
  else none

/-- One step of a machine, where it is possible. -/
def step? (s : Machine) : Label → Option Machine
  | .call op => some (s.addTask { program := op.program s.limits }).2
  | .turn t around => s.turn? t around
  | .ask id => (s.pool.ask? id).map fun pool => { s with pool }
  | .begin id => s.begin? id
  | .finish id result => s.end? id (some result)
  | .panic id => s.end? id none
  | .deliver registration e => do
    let channel ← s.world.channels[registration]?
    if channel.hasWriter && channel.hasReader then
      return { s with world := s.world.changeChannel registration fun c => c.send e }
    else none
  | .silence registration =>
    some { s with world := s.world.changeChannel registration .closeWriter }
  | .drop t =>
    match s.tasks[t]? with
    | some task => if task.isSuspended then some (s.dropTask t) else none
    | none => none
  | .occupy work => some { s with pool := (s.pool.spawn none work).2 }
  | .vacate id => some { s with pool := s.pool.drop id }
  | .closePool => some { s with pool := s.pool.close }
  | .elapse span => some { s with world := { s.world with clock := s.world.clock + span } }

/-- The machine after a list of steps, where all of them are possible. -/
def run? (s : Machine) (labels : List Label) : Option Machine := labels.foldlM step? s

/-- A service that has just been built over a store. -/
def fresh (limits : Limits) (poolSize : Nat) (store : Store.Persisted) : Machine :=
  { limits, pool := Pool.ofSize poolSize, world := { store } }

end Machine

end TunnelKeeper.Service
