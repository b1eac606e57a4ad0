import TunnelKeeper.Route.Channel

/-!
# Route watchers — polling the default route

A registration starts a task that looks at the default route, moves the route table, and sends the
events of the change one after the other.  Registering anew or unregistering ends the task wherever
it is, so events that it has not sent yet are gone, while the route table stays as it is.  A task
whose reader is gone ends by itself.
-/

namespace TunnelKeeper

/-- A monitor without registration. -/
inductive NetworkError where
  | notRegistered
deriving DecidableEq, Repr

/-- The words for the error. -/
def NetworkError.message : NetworkError → String
  | notRegistered => "Network monitor not registered"

/-- The watcher, its present task and the channel of the latest registration. -/
structure RouteWatcher where
  table : RouteTable := {}
  /-- A registration is outstanding. -/
  registered : Bool := false
  /-- The events that the running task has still to send. -/
  unsent : Option (List NetworkEvent) := none
  /-- The channel of the latest registration. -/
  channel : Option Channel := none
deriving DecidableEq, Repr

namespace RouteWatcher

/-- Starts watching, with a channel of its own. -/
def register (w : RouteWatcher) : RouteWatcher :=
  { w with registered := true, unsent := some [], channel := some {} }

/-- Stops watching. -/
def unregister (w : RouteWatcher) : Except NetworkError RouteWatcher :=
  if w.registered then
    .ok { w with registered := false, unsent := none, channel := w.channel.map .closeWriter }
  else .error .notRegistered

/-- The reader of the latest registration goes away. -/
def hangUp (w : RouteWatcher) : RouteWatcher := { w with channel := none }

/-- The task looks at the route.  It does so only once it has sent everything. -/
def poll (w : RouteWatcher) (route : Option IpAddress) : RouteWatcher :=
  match w.unsent with
  | some [] =>
    let (table, events) := w.table.transition route
    { w with table, unsent := some events }
  | _ => w

/-- The task sends its next event, or ends where nobody reads. -/
def send (w : RouteWatcher) : RouteWatcher :=
  match w.unsent, w.channel with
  | some (e :: rest), some c =>
    if c.hasRoom then { w with unsent := some rest, channel := some (c.send e) } else w
  | some (_ :: _), none => { w with unsent := none }
  | _, _ => w

/-- Looks at the route and sends what can be sent. -/
def pollAndSend (w : RouteWatcher) (route : Option IpAddress) : RouteWatcher :=
  -- A change has at most two events.
  (w.poll route).send.send

/-- The next event of the channel, if there is a channel. -/
def receive (w : RouteWatcher) : Option (Channel.Received × RouteWatcher) :=
  w.channel.map fun c =>
    let (received, c) := c.receive
    (received, { w with channel := some c })

end RouteWatcher

end TunnelKeeper
