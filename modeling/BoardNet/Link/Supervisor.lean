import BoardNet.Link.Status
import BoardNet.Nic.Scan
import BoardNet.Pin

/-!
The link supervisor brings the controller up, gives it an address and its listeners, and recovers
it when something fails. Each update is one bounded step: every wait is a stage with a stopwatch
that is looked at on the next update.
-/

namespace BoardNet.Link

def maxServicePorts : Nat := 4

structure Supervisor where
  /-- Drives the reset input of the controller, which is active low. -/
  resetLine : Pin
  mac : Mac
  addressing : Addressing
  timings : Timings
  /-- Ports that get a listener once the controller has an address. -/
  ports : List UInt16
  state : State := .initStart
  timer : Stopwatch := {}
  lastHardReset : Option Millis := none
  link : LinkStatus := .unknown
  ip : Ipv4 := .unspecified
  established : Bool := false
  serverReady : Bool := false
  retries : UInt8 := 0
  errors : UInt8 := 0
  initCycles : UInt32 := 0
  hardResets : UInt32 := 0
  softResets : UInt32 := 0
  deriving DecidableEq, Repr

namespace Supervisor

/-- Takes the ports that fit the table, in order, and says which do not. -/
def takePorts (taken : List UInt16) : List UInt16 → Logged (List UInt16)
  | [] => return taken
  | port :: ports => do
    if taken.length < maxServicePorts then takePorts (taken ++ [port]) ports
    else
      .note .warn s!"link: service port {port.toNat} ignored, table full"
      takePorts taken ports

/-- A supervisor that is about to bring the controller up, its reset line released. -/
def start (resetLine : Pin) (mac : Mac) (addressing : Addressing) (timings : Timings)
    (ports : List UInt16) : Logged Supervisor := do
  let ports ← takePorts [] ports
  return { resetLine := resetLine.raise, mac, addressing, timings, ports }

/-- The link is up, addressed, and listened on. -/
def isReady (supervisor : Supervisor) : Bool :=
  supervisor.state = .idle && supervisor.established && supervisor.serverReady

def isBusy (supervisor : Supervisor) : Bool :=
  match supervisor.state with
  | .idle | .disconnected | .error => false
  | _ => true

def status (supervisor : Supervisor) : Status where
  state := supervisor.state
  ready := supervisor.isReady
  busy := supervisor.isBusy
  link := supervisor.link
  server := supervisor.serverReady
  ip := supervisor.ip
  mac := supervisor.mac
  initCycles := supervisor.initCycles
  retries := supervisor.retries
  hardResets := supervisor.hardResets
  softResets := supervisor.softResets

/-- Nothing is served until bring-up is through again. -/
def dropService (supervisor : Supervisor) : Supervisor :=
  { supervisor with established := false, serverReady := false }

/-- Moves to a stage, in which time counts from now. -/
def enter (supervisor : Supervisor) (next : State) (now : Millis) : Logged Supervisor := do
  if next ≠ supervisor.state then
    .note .info s!"link: {supervisor.state.name} -> {next.name}"
  return { supervisor with state := next, timer := ⟨now⟩ }

/-- Counts a failure and waits before the next try. -/
def fail (supervisor : Supervisor) (now : Millis) : Logged Supervisor :=
  let errors := if supervisor.errors = 255 then 255 else supervisor.errors + 1
  ({ supervisor with errors }).dropService.enter .error now

/-- A pulse on the reset line was seen less than the least interval ago. -/
def isThrottled (supervisor : Supervisor) (now : Millis) : Bool :=
  match supervisor.lastHardReset with
  | none => false
  | some last => elapsed now last < supervisor.timings.hardResetMinInterval

/-- Asks for a pulse on the reset line. Soon after another pulse the controller is soft-reset
instead, unless the request is forced. -/
def requestHardReset (supervisor : Supervisor) (force : Bool) (now : Millis) :
    Logged Supervisor := do
  if supervisor.isThrottled now && !force then
    .note .warn "link: hard reset rate limited, soft reset instead"
    supervisor.enter .softResetStart now
  else supervisor.enter .hardResetStart now

/-- Replaces the addressing, has it stored, and brings the link up anew. -/
def applyAddressing (supervisor : Supervisor) (addressing : Addressing) (now : Millis) :
    Poll Supervisor := do
  Poll.notify (.store addressing)
  ({ supervisor with addressing }).dropService.enter .softResetStart now

/-- Takes over the addressing of a lease, and has it stored if that changed anything. A change is
put on record if a text for it is given. -/
def takeLease (supervisor : Supervisor) (lease : Lease) (changed : Option String := none) :
    Poll Supervisor := do
  let addressing := Addressing.ofLease lease
  if addressing ≠ supervisor.addressing then
    if let some text := changed then Poll.log .info text
    Poll.notify (.store addressing)
  return { supervisor with addressing, ip := lease.ip }

/-- Opens a listener on each port that has none. Stops at the first that cannot be opened and
answers its port and the failure. -/
def openPorts : List UInt16 → Poll (Option (UInt16 × NicError))
  | [] => return none
  | port :: ports => do
    if ← Nic.isListening port then openPorts ports
    else match ← Nic.listen port with
      | .ok _ => openPorts ports
      | .error error => return some (port, error)

def awaitSoftReset (supervisor : Supervisor) (now : Millis) : Poll Supervisor := do
  match ← Nic.pollSoftReset with
  | .finished => supervisor.enter .initStart now
  | .pending =>
    if supervisor.timer.expired now supervisor.timings.softResetTimeout then
      Poll.log .error "link: soft reset did not complete"
      supervisor.fail now
    else return supervisor
  | .failed error =>
    Poll.log .error s!"link: soft reset: {error.message}"
    supervisor.fail now

def probe (supervisor : Supervisor) (now : Millis) : Poll Supervisor := do
  let supervisor := { supervisor with initCycles := supervisor.initCycles + 1 }
  match ← Nic.probe with
  | .ok () => ({ supervisor with retries := 0 }).enter .initCheckLink now
  | .error error =>
    Poll.log .error s!"link: probe: {error.message}"
    supervisor.fail now

/-- Chooses how to get an address once the cable is in. -/
def checkLink (supervisor : Supervisor) (now : Millis) : Poll Supervisor := do
  let link ← Nic.linkStatus
  let supervisor := { supervisor with link }
  match link with
  | .on =>
    if supervisor.addressing.dhcp then supervisor.enter .initDhcp now
    else supervisor.enter .initStatic now
  | .off => supervisor.enter .disconnected now
  | .unknown =>
    if supervisor.timer.expired now supervisor.timings.linkUnknownTimeout then
      Poll.log .warn "link: PHY status unknown, forcing hard reset"
      supervisor.requestHardReset true now
    else return supervisor

/-- Tries to get a lease. When the tries are used up the board falls back to its static address. -/
def leaseAddress (supervisor : Supervisor) (now : Millis) : Poll Supervisor := do
  match ← Nic.dhcpLease supervisor.mac supervisor.timings.dhcpTimeout with
  | .ok lease =>
    Poll.log .info s!"link: DHCP lease {lease.ip}"
    let supervisor ← ({ supervisor with retries := 0 }).takeLease lease
    supervisor.enter .initServerStart now
  | .error error =>
    let retries := supervisor.retries + 1
    let most := supervisor.timings.dhcpMaxRetries
    Poll.log .warn s!"link: {error.message} (attempt {retries.toNat}/{most.toNat})"
    if retries ≥ most then
      let addressing := { supervisor.addressing with dhcp := false }
      Poll.notify (.store addressing)
      ({ supervisor with retries := 0, addressing }).enter .initStatic now
    else return { supervisor with retries }

/-- Configures the static address. If the controller does not take it the board asks for a lease
after all. -/
def configureAddress (supervisor : Supervisor) (now : Millis) : Poll Supervisor := do
  Nic.configureStatic supervisor.mac supervisor.addressing
  let ip ← Nic.localIp
  let supervisor := { supervisor with ip }
  if ip = .unspecified then
    Poll.log .warn "link: static address rejected, switching to DHCP"
    let addressing := { supervisor.addressing with dhcp := true }
    Poll.notify (.store addressing)
    ({ supervisor with addressing }).enter .initDhcp now
  else
    Poll.log .info s!"link: static address {ip}"
    supervisor.enter .initServerStart now

def startServers (supervisor : Supervisor) (now : Millis) : Poll Supervisor := do
  if supervisor.timer.elapsed now < supervisor.timings.serverSettle then return supervisor
  else match ← openPorts supervisor.ports with
    | some (port, error) =>
      Poll.log .error s!"link: listen on {port.toNat}: {error.message}"
      supervisor.fail now
    | none => ({ supervisor with serverReady := true }).enter .initComplete now

def complete (supervisor : Supervisor) (now : Millis) : Poll Supervisor := do
  Poll.log .info s!"link: network ready at {supervisor.ip}"
  Poll.notify (.ready supervisor.ip)
  ({ supervisor with established := true, errors := 0 }).enter .idle now

def maintainLease (supervisor : Supervisor) : Poll Supervisor := do
  match ← Nic.maintainLease with
  | .renewed lease | .rebound lease =>
    supervisor.takeLease lease (some s!"link: lease changed to {lease.ip}")
  | .renewFailed =>
    Poll.log .warn "link: DHCP renew failed"
    return supervisor
  | .rebindFailed =>
    Poll.log .warn "link: DHCP rebind failed"
    return supervisor
  | .nothing => return supervisor

def watch (supervisor : Supervisor) (now : Millis) : Poll Supervisor := do
  if supervisor.timer.elapsed now < supervisor.timings.idlePoll then return supervisor
  else
    let link ← Nic.linkStatus
    let supervisor := { supervisor with timer := ⟨now⟩, link }
    if link ≠ .on then
      Poll.log .warn "link: cable lost"
      Poll.notify .linkLost
      supervisor.dropService.enter .disconnected now
    else if supervisor.addressing.dhcp then supervisor.maintainLease
    else return supervisor

def awaitCable (supervisor : Supervisor) (now : Millis) : Poll Supervisor := do
  if supervisor.timer.elapsed now < supervisor.timings.disconnectedPoll then return supervisor
  else
    let supervisor := { supervisor with timer := ⟨now⟩ }
    match ← Nic.probe with
    | .error error =>
      Poll.log .warn s!"link: {error.message}, recovering bus"
      Poll.notify .recoverBus
      return supervisor
    | .ok () =>
      let link ← Nic.linkStatus
      let supervisor := { supervisor with link }
      if link = .on then
        Poll.log .info "link: cable back"
        supervisor.enter .initStart now
      else return supervisor

/-- Tries again after a failure, and resets the controller after too many in a row. -/
def retry (supervisor : Supervisor) (now : Millis) : Logged Supervisor := do
  if supervisor.timer.elapsed now < supervisor.timings.errorRetry then return supervisor
  else if supervisor.errors ≥ supervisor.timings.maxErrorRetries then
    .note .error s!"link: {supervisor.errors.toNat} consecutive failures, hard reset"
    ({ supervisor with errors := 0 }).requestHardReset true now
  else supervisor.enter .initStart now

def update (supervisor : Supervisor) (now : Millis) : Poll Supervisor := do
  match supervisor.state with
  | .hardResetStart =>
    ({ supervisor.dropService with
        resetLine := supervisor.resetLine.lower
        hardResets := supervisor.hardResets + 1
        lastHardReset := some now }).enter .hardResetLow now
  | .hardResetLow =>
    if supervisor.timer.elapsed now ≥ supervisor.timings.resetLow then
      ({ supervisor with resetLine := supervisor.resetLine.raise }).enter .hardResetWait now
    else return supervisor
  | .hardResetWait =>
    if supervisor.timer.elapsed now ≥ supervisor.timings.resetSettle then
      supervisor.enter .softResetStart now
    else return supervisor
  | .softResetStart =>
    Nic.beginSoftReset
    ({ supervisor.dropService with softResets := supervisor.softResets + 1 }).enter
      .softResetWait now
  | .softResetWait => supervisor.awaitSoftReset now
  | .initStart => supervisor.probe now
  | .initCheckLink => supervisor.checkLink now
  | .initDhcp => supervisor.leaseAddress now
  | .initStatic => supervisor.configureAddress now
  | .initServerStart => supervisor.startServers now
  | .initComplete => supervisor.complete now
  | .idle => supervisor.watch now
  | .disconnected => supervisor.awaitCable now
  | .error => supervisor.retry now

end Supervisor

end BoardNet.Link
