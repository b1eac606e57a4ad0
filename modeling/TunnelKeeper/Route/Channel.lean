import TunnelKeeper.Route.Table

/-!
# Channels — network events on their way to a reader

Each registration has a channel that delivers events in order.  It ends for the reader once nobody
writes to it any more and it is empty; a writer notices that the reader is gone.
-/

namespace TunnelKeeper

/-- The events of a registration. -/
structure Channel where
  /-- The events that wait, oldest first. -/
  waiting : List NetworkEvent := []
  /-- Somebody may still write. -/
  hasWriter : Bool := true
  /-- Somebody still reads. -/
  hasReader : Bool := true
deriving DecidableEq, Repr

namespace Channel

/-- How many events may wait. -/
def capacity : Nat := 16

/-- What a reader gets. -/
inductive Received where
  | event (e : NetworkEvent)
  | empty
  | closed
deriving DecidableEq, Repr

/-- Takes the oldest event. -/
def receive (c : Channel) : Received × Channel :=
  match c.waiting with
  | e :: rest => (.event e, { c with waiting := rest })
  | [] => (if c.hasWriter then .empty else .closed, c)

/-- Whether an event fits. -/
def hasRoom (c : Channel) : Bool := c.waiting.length < capacity

/-- Puts an event at the end. -/
def send (c : Channel) (e : NetworkEvent) : Channel := { c with waiting := c.waiting ++ [e] }

def closeWriter (c : Channel) : Channel := { c with hasWriter := false }

def closeReader (c : Channel) : Channel := { c with waiting := [], hasReader := false }

end Channel

end TunnelKeeper
