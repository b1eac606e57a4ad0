import TunnelKeeper.Service.Probe

/-!
# Operations — starting, stopping and resuming the one tunnel

Every operation that changes something holds the session lock from its first look at the session to
its end, so operations never interleave.  A start replaces an active tunnel: the old one disconnects
logically before the new id is announced, and the interface is kept.  A start that fails takes
everything down again (`Program.tearDown`), which is also what stopping, revoking and destroying do.
-/

namespace TunnelKeeper.Service

/-- The limits of time; without one the service waits as long as it takes. -/
structure Limits where
  /-- For a proxy start with its probe. -/
  proxyStart : Option Time := none
  /-- For each single check. -/
  probe : Option Time := none
deriving DecidableEq, Repr

/-- Why an operation is refused. -/
inductive TunnelError where
  | missingTunnelId
  | missingConfig
  | notActive (id : String)
deriving DecidableEq, Repr

/-- The words for a refusal. -/
def TunnelError.message : TunnelError → String
  | missingTunnelId => "Missing tunnel ID"
  | missingConfig => "Missing tunnel configuration"
  | notActive id => "Tunnel not active: " ++ id

/-- What anybody can see of the service. -/
structure Overview where
  /-- Whether the tunnel that was asked for is the active one. -/
  active : Option Bool
  status : Status
  /-- The id of the active tunnel. -/
  tunnelId : Option String
  /-- Datagrams worked with the last tunnel that did. -/
  udpSupported : Bool
deriving DecidableEq, Repr

namespace Program

/-- The id of the active tunnel. -/
def activeId : Program (Option String) := do
  return (← session).active.map (·.id)

/-- Ends the monitoring of the network.  The reactor ends by itself. -/
def stopMonitoring : Program Unit := do
  if (← session).monitored then
    setMonitored false
    let _ ← call .unregister
    return ()

/-- Starts to follow the network, unless that is going on. -/
def startMonitoring : Program Unit := do
  if !(← session).monitored then
    if ← register then
      spawnReactor
      setMonitored true

/-- Takes everything down.  Safe when nothing is up. -/
def tearDown : Program Unit := do
  slowly .stopProxy
  slowly .disconnect
  slowly .tearDown
  clear
  setActive none
  stopMonitoring
  publishStatus .disconnected
  write (.status .disconnected)

/-- Ends a start that has failed. -/
def failStart (code : ErrorCode) : Program ErrorCode := do
  emit (.started (← activeId) code)
  tearDown
  return code

/-- One attempt to bring the proxy up, as a unit of work, and to probe it if that is wanted; none
where the attempt has come to its end. -/
def attempt (limits : Limits) (config : TunnelConfig) (host : String) (port : UInt16)
    (probing : Bool) (ending : Option Time) : Program (Option ErrorCode) := do
  let start ← spawn (.startProxy config)
  match ← join start ending with
  | .timedOut =>
    abandon start
    return none
  | .value true =>
    if probing then
      let proxy ← proxyAddress
      return (← probe limits.probe ending proxy host port).map ProbeResult.errorCode
    else return some .noError
  | .value false => return some .proxyStartFailure
  | .panicked => return some .proxyStartFailure
  | .refused => return some .proxyStartFailure

/-- Starts the proxy within the limit, if the configuration is complete. -/
def startProxy (limits : Limits) (config : TunnelConfig) (probing : Bool) : Program ErrorCode := do
  match config.endpoint with
  | .error _ => return .illegalServerConfiguration
  | .ok (host, port) =>
    let start ← now
    let code ← attempt limits config host port probing (limits.proxyStart.map (start + ·))
    return code.getD .proxyStartFailure

/-- Remembers a tunnel that is up. -/
def storeActive (d : Descriptor) (udp : Bool) : Program Unit := do
  write (.tunnel d)
  write (.udpSupported udp)
  write (.status .connected)

/-- Connects the interface, once it is up, and announces the tunnel. -/
def connectTunnel (d : Descriptor) (auto : Bool) (code : ErrorCode) : Program ErrorCode := do
  let udp ← if auto then udpSupported else pure (code == .noError)
  let proxy ← proxyAddress
  if ← connect proxy udp then
    emit (.started (← activeId) .noError)
    display d .connected
    publishStatus .connected
    storeActive d udp
    return code
  else failStart .vpnStartFailure

/-- Starts a tunnel while the lock is held.  An automatic start probes nothing and takes the UDP
mode from the store. -/
def startLocked (limits : Limits) (d : Descriptor) (auto : Bool) : Program ErrorCode := do
  let restart := (← session).active.isSome
  if restart then
    emit (.changed (← activeId) .disconnected)
    clear
  setActive (some d)
  publishStatus .connecting
  let code ← startProxy limits d.config (!auto)
  if !code.isContinuable then failStart code
  else if restart then
    slowly .disconnect
    connectTunnel d auto code
  else if ← establish then
    startMonitoring
    connectTunnel d auto code
  else failStart .vpnStartFailure

/-- Starts a tunnel, replacing the active one. -/
def start (limits : Limits) (id : String) (config : TunnelConfig) :
    Program (Except TunnelError ErrorCode) := do
  if id.isEmpty then return .error .missingTunnelId
  else if config.isEmpty then return .error .missingConfig
  else
    lock
    let code ← startLocked limits ⟨id, config⟩ false
    unlock
    return .ok code

/-- Stops a tunnel, which must be the active one. -/
def stop (id : String) : Program (Except TunnelError Unit) := do
  if id.isEmpty then return .error .missingTunnelId
  else
    lock
    if (← activeId) == some id then
      emit (.stopped (← activeId))
      tearDown
      unlock
      return .ok ()
    else
      unlock
      return .error (.notActive id)

/-- Whether a tunnel is the active one.  This never waits for the lock. -/
def isActive (id : String) : Program (Except TunnelError Bool) := do
  if id.isEmpty then return .error .missingTunnelId
  else return .ok ((← visibleActive).map (·.id) == some id)

/-- The state of the service at a glance, and of one tunnel if that is asked for.  This never waits
for the lock. -/
def overview (id : Option String) : Program (Except TunnelError Overview) := do
  match ← id.elim (pure (Except.ok none)) fun id => return (← isActive id).map some with
  | .error e => return .error e
  | .ok active =>
    let status ← visibleStatus
    let tunnel ← visibleActive
    return .ok ⟨active, status, tunnel.map (·.id), ← udpSupported⟩

/-- The stored tunnel, if it can be resumed. -/
def resumable? : Except Store.StoreError (Option Descriptor) → Option Descriptor
  | .ok (some d) => if !d.id.isEmpty && !d.config.isEmpty then some d else none
  | _ => none

/-- Brings back the last tunnel that worked, or asks the host to end the service. -/
def resume (limits : Limits) : Program (Option ErrorCode) := do
  lock
  match resumable? (← call .load) with
  | none =>
    call .requestExit
    unlock
    return none
  | some d =>
    if ← isPrepared then
      display d .reconnecting
      let code ← startLocked limits d true
      unlock
      return some code
    else
      call .requestExit
      unlock
      return none

/-- The permission for the tunnel is gone. -/
def revoke : Program Unit := do
  lock
  emit (.changed (← activeId) .disconnected)
  tearDown
  unlock

/-- The service ends; nobody is told. -/
def destroy : Program Unit := do
  lock
  tearDown
  unlock

end Program

end TunnelKeeper.Service
