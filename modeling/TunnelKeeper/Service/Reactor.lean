import TunnelKeeper.Service.Operations

/-!
# Reactors — following the network under a tunnel

A network that is available and connected makes the tunnel connected; datagrams are checked once
more, because they depend on the way through the network, and a change restarts the tunnel.  A lost
network makes the tunnel reconnecting unless another network is connected.  Everything that touches
the session happens under the lock and only while there is a tunnel to report on.
-/

namespace TunnelKeeper.Service.Program

/-- Reports a change of status for the active tunnel; gives that tunnel, if there is one. -/
def reportStatus (status : Status) : Program (Option Descriptor) := do
  lock
  match (← session).active with
  | none =>
    unlock
    return none
  | some active =>
    emit (.changed (some active.id) status)
    display active status
    publishStatus status
    unlock
    return some active

/-- Remembers whether datagrams work, if the tunnel is still active; gives what was remembered
before. -/
def recordUdp (d : Descriptor) (udp : Bool) : Program (Option Bool) := do
  lock
  if Descriptor.isSame (← session).active d then
    let previous ← udpSupported
    write (.udpSupported udp)
    unlock
    return some previous
  else
    unlock
    return none

/-- Restarts a tunnel, if it is still active. -/
def restartIfActive (limits : Limits) (d : Descriptor) : Program (Option ErrorCode) := do
  lock
  if Descriptor.isSame (← session).active d then
    let code ← startLocked limits d false
    unlock
    return some code
  else
    unlock
    return none

/-- Checks datagrams again after the network changed, and restarts the tunnel if that gives another
result than the one remembered. -/
def recheckUdp (limits : Limits) (active : Descriptor) : Program Unit := do
  let proxy ← proxyAddress
  let udp ← probeUdp limits.probe proxy
  match ← recordUdp active udp with
  | none => return ()
  | some previous =>
    if udp != previous then
      let _ ← restartIfActive limits active
      return ()

/-- A network is available. -/
def onAvailable (limits : Limits) (network : NetworkId) : Program Unit := do
  if (← networkState network) == some .connected then
    match ← reportStatus .connected with
    | none => return ()
    | some active =>
      let _ ← call (.bindNetwork (some network))
      recheckUdp limits active

/-- A network is lost. -/
def onLost (_network : NetworkId) : Program Unit := do
  if (← activeNetwork) == some .connected then return ()
  else if (← reportStatus .reconnecting).isSome then
    let _ ← call (.bindNetwork none)
    return ()

/-- What a reactor does about an event. -/
def react (limits : Limits) : NetworkEvent → Program Unit
  | .available network => onAvailable limits network
  | .lost network => onLost network

end TunnelKeeper.Service.Program
