/-!
# Worker pools — a bounded number of units of work at a time

A pool has a fixed number of permits.  A unit of work asks for one when it first gets its turn, some
time after it was handed in; permits go to units in the order in which they have asked.  A unit for
which a permit is set aside begins when it gets its next turn, and holds the permit while it runs.
Every unit has one fate: it finishes with a result, panics, is refused because the pool was closed
before it began, or is dropped by whoever handed it in.  `Pool.begin?`, `Pool.finish`, `Pool.panic`
and `Pool.drop` are the only moves of permits, and `Pool.run?` makes a list of moves.
-/

namespace TunnelKeeper

/-- The number of a unit, in the order of handing in. -/
abbrev UnitId := Nat

/-- What has become of a unit. -/
inductive Stage (α : Type) where
  /-- It has not begun, whether it has asked for a permit or not. -/
  | waiting
  /-- It holds a permit. -/
  | running
  | finished (result : α)
  | panicked
  /-- The pool was closed before it began. -/
  | refused
  /-- Nobody wants its result any more. -/
  | dropped
deriving DecidableEq, Repr

/-- A unit of work and whoever handed it in, if that matters. -/
structure WorkUnit (ω α : Type) where
  owner : Option Nat
  work : ω
  stage : Stage α
deriving Repr

/-- Units of work and the permits they share. -/
structure Pool (ω α : Type) where
  size : Nat
  /-- The permits that no unit at work holds. -/
  free : Nat
  closed : Bool := false
  /-- All units ever handed in, in order. -/
  units : List (WorkUnit ω α) := []
  /-- The units that have asked for a permit and have not begun, in the order of asking. -/
  queue : List UnitId := []
deriving Repr

namespace Pool

variable {ω α : Type}

/-- A pool never has fewer permits: three checks and the proxy start of a later attempt. -/
def leastSize : Nat := 4

def defaultSize : Nat := 5

/-- There can be no more permits than this. -/
def greatestSize : Nat := Nat.pow 2 61 - 1

/-- A pool without work that has at least `leastSize` permits. -/
def ofSize (size : Nat) : Pool ω α := { size := max size leastSize, free := max size leastSize }

/-- A pool of a size, where there can be one. -/
def ofSize? (size : Nat) : Option (Pool ω α) :=
  if max size leastSize ≤ greatestSize then some (ofSize size) else none

/-- Hands in a unit.  A closed pool refuses it. -/
def spawn (p : Pool ω α) (owner : Option Nat) (work : ω) : UnitId × Pool ω α :=
  let stage := if p.closed then .refused else .waiting
  (p.units.length, { p with units := p.units ++ [⟨owner, work, stage⟩] })

/-- What has become of a unit. -/
def stage? (p : Pool ω α) (id : UnitId) : Option (Stage α) := p.units[id]?.map (·.stage)

def setStage (p : Pool ω α) (id : UnitId) (stage : Stage α) : Pool ω α :=
  { p with units := p.units.modify id fun u => { u with stage } }

/-- A unit that waits. -/
def isWaiting (u : WorkUnit ω α) : Bool :=
  match u.stage with
  | .waiting => true
  | _ => false

/-- A unit that holds a permit. -/
def isRunning (u : WorkUnit ω α) : Bool :=
  match u.stage with
  | .running => true
  | _ => false

/-- The units for which a permit is set aside: as many of those that have asked first as there are
permits. -/
def granted (p : Pool ω α) : List UnitId := p.queue.take p.free

/-- The permits that nobody holds and that are set aside for nobody. -/
def available (p : Pool ω α) : Nat := p.free - p.queue.length

/-- The units that have not asked for a permit yet, in the order of handing in. -/
def fresh (p : Pool ω α) : List UnitId :=
  (List.range p.units.length).filter fun id =>
    p.units[id]?.any isWaiting && !p.queue.contains id

/-- A unit asks for a permit, once. -/
def ask? (p : Pool ω α) (id : UnitId) : Option (Pool ω α) :=
  if p.units[id]?.any isWaiting && !p.queue.contains id then
    some { p with queue := p.queue ++ [id] }
  else none

/-- A unit takes the permit that is set aside for it. -/
def begin? (p : Pool ω α) (id : UnitId) : Option (Pool ω α) :=
  if p.units[id]?.any isWaiting && p.granted.contains id then
    some { p.setStage id .running with free := p.free - 1, queue := p.queue.erase id }
  else none

/-- A running unit ends in a stage and gives its permit back. -/
def release (p : Pool ω α) (id : UnitId) (stage : Stage α) : Pool ω α :=
  match p.units[id]? with
  | some u => if isRunning u then { p.setStage id stage with free := p.free + 1 } else p
  | none => p

/-- A running unit ends with a result. -/
def finish (p : Pool ω α) (id : UnitId) (result : α) : Pool ω α := p.release id (.finished result)

/-- A running unit ends abnormally. -/
def panic (p : Pool ω α) (id : UnitId) : Pool ω α := p.release id .panicked

/-- Nobody wants the result of a unit any more.  One that waits never begins, one that runs stops.
-/
def drop (p : Pool ω α) (id : UnitId) : Pool ω α :=
  match p.units[id]? with
  | some u =>
    if isWaiting u then { p.setStage id .dropped with queue := p.queue.erase id }
    else p.release id .dropped
  | none => p

/-- Drops all units of an owner. -/
def dropAll (p : Pool ω α) (owner : Nat) : Pool ω α :=
  (List.range p.units.length).foldl
    (fun q id => if (p.units[id]?.bind (·.owner)) == some owner then q.drop id else q) p

/-- Refuses all units that wait, also those for which a permit is set aside, and all that are handed
in later. -/
def close (p : Pool ω α) : Pool ω α :=
  { p with
    closed := true
    queue := []
    units := p.units.map fun u => if isWaiting u then { u with stage := .refused } else u }

/-- How many units hold a permit. -/
def running (p : Pool ω α) : Nat := p.units.countP isRunning

/-- What joining a unit gives. -/
inductive Joined (α : Type) where
  | value (result : α)
  | panicked
  /-- The unit was never begun. -/
  | refused
  /-- The unit took too long. -/
  | timedOut
deriving DecidableEq, Repr

/-- What joining a unit gives, once it has ended. -/
def joined? (p : Pool ω α) (id : UnitId) : Option (Joined α) :=
  match p.stage? id with
  | some (.finished result) => some (.value result)
  | some .panicked => some .panicked
  | some .refused => some .refused
  | _ => none

/-- The name of a move. -/
inductive Label (ω α : Type) where
  | spawn (owner : Option Nat) (work : ω)
  /-- A unit asks for a permit. -/
  | ask (id : UnitId)
  /-- A unit begins. -/
  | begin (id : UnitId)
  | finish (id : UnitId) (result : α)
  | panic (id : UnitId)
  | drop (id : UnitId)
  | close
deriving Repr

/-- One move, where it is possible. -/
def step? (p : Pool ω α) : Label ω α → Option (Pool ω α)
  | .spawn owner work => some (p.spawn owner work).2
  | .ask id => p.ask? id
  | .begin id => p.begin? id
  | .finish id result => if p.units[id]?.any isRunning then some (p.finish id result) else none
  | .panic id => if p.units[id]?.any isRunning then some (p.panic id) else none
  | .drop id => some (p.drop id)
  | .close => some p.close

/-- The pool after a list of moves, where all of them are possible. -/
def run? (p : Pool ω α) (labels : List (Label ω α)) : Option (Pool ω α) := labels.foldlM step? p

end Pool

end TunnelKeeper
