import TunnelKeeper.Tunnel.Event

/-!
# Broadcasts — one stream of events for many readers

A broadcast keeps the last events, as many as its capacity.  A reader has a position in the stream.
One that has fallen behind further than that is told how many events it missed and goes on with the
oldest event that is kept.
-/

namespace TunnelKeeper

/-- The stream and what is kept of it. -/
structure Broadcast where
  capacity : Nat
  /-- How many events were sent. -/
  sent : Nat := 0
  /-- The last events, oldest first. -/
  kept : List Event := []
  /-- Nothing more is sent. -/
  closed : Bool := false
deriving Repr

namespace Broadcast

/-- What a reader gets. -/
inductive Received where
  | event (e : Event)
  /-- So many events are lost. -/
  | lagged (missed : Nat)
  /-- There is nothing yet. -/
  | empty
  /-- There will be nothing more. -/
  | closed
deriving DecidableEq, Repr

/-- The least power of two that is at least `n`, starting from `power`. -/
def powerFrom : (fuel power n : Nat) → Nat
  | 0, power, _ => power
  | fuel + 1, power, n => if n ≤ power then power else powerFrom fuel (2 * power) n

/-- How many events are kept when `wanted` are asked for: at least one, and a power of two. -/
def roundedCapacity (wanted : Nat) : Nat := powerFrom wanted 1 wanted

/-- A broadcast that keeps at least the wanted number of events. -/
def ofCapacity (wanted : Nat) : Broadcast := { capacity := roundedCapacity wanted }

/-- How many events are kept unless something else is asked for. -/
def defaultCapacity : Nat := 64

def default : Broadcast := ofCapacity defaultCapacity

/-- Sends an event. -/
def send (b : Broadcast) (e : Event) : Broadcast :=
  let kept := b.kept ++ [e]
  { b with sent := b.sent + 1, kept := kept.drop (kept.length - b.capacity) }

def close (b : Broadcast) : Broadcast := { b with closed := true }

/-- The position of a new reader. -/
def subscribe (b : Broadcast) : Nat := b.sent

/-- What the reader at a position gets, and its position afterwards. -/
def receive (b : Broadcast) (position : Nat) : Received × Nat :=
  let oldest := b.sent - b.kept.length
  if position < oldest then (.lagged (oldest - position), oldest)
  else
    match b.kept[position - oldest]? with
    | some e => (.event e, position + 1)
    | none => (if b.closed then .closed else .empty, position)

/-- Up to `n` receives, the last of which may find nothing. -/
def drain (b : Broadcast) : (n position : Nat) → List Received × Nat
  | 0, position => ([], position)
  | n + 1, position =>
    match b.receive position with
    | (.empty, position) => ([.empty], position)
    | (.closed, position) => ([.closed], position)
    | (received, position) =>
      let (rest, position) := b.drain n position
      (received :: rest, position)

example : roundedCapacity 0 = 1 ∧ roundedCapacity 5 = 8 ∧ roundedCapacity 64 = 64 := by decide

end Broadcast

end TunnelKeeper
