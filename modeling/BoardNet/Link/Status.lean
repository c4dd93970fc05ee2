import BoardNet.Address
import BoardNet.Clock
import BoardNet.Nic.Status

namespace BoardNet.Link

/-- Stages of bringing the controller up, of running, and of recovering it. -/
inductive State where
  | hardResetStart
  | hardResetLow
  | hardResetWait
  | softResetStart
  | softResetWait
  | initStart
  | initCheckLink
  | initDhcp
  | initStatic
  | initServerStart
  | initComplete
  | idle
  | disconnected
  | error
  deriving DecidableEq, Repr

def State.name : State → String
  | .hardResetStart => "HARD_RESET_START"
  | .hardResetLow => "HARD_RESET_LOW"
  | .hardResetWait => "HARD_RESET_WAIT"
  | .softResetStart => "SOFT_RESET_START"
  | .softResetWait => "SOFT_RESET_WAIT"
  | .initStart => "INIT_START"
  | .initCheckLink => "INIT_CHECK_LINK"
  | .initDhcp => "INIT_DHCP"
  | .initStatic => "INIT_STATIC"
  | .initServerStart => "INIT_SERVER_START"
  | .initComplete => "INIT_COMPLETE"
  | .idle => "IDLE"
  | .disconnected => "DISCONNECTED"
  | .error => "ERROR"

def State.all : List State :=
  [.hardResetStart, .hardResetLow, .hardResetWait, .softResetStart, .softResetWait, .initStart,
    .initCheckLink, .initDhcp, .initStatic, .initServerStart, .initComplete, .idle, .disconnected,
    .error]

/-- How long the supervisor waits in each stage and how often it tries again. -/
structure Timings where
  resetLow : Millis := 2
  resetSettle : Millis := 3000
  hardResetMinInterval : Millis := 90000
  softResetTimeout : Millis := 1000
  linkUnknownTimeout : Millis := 5000
  dhcpTimeout : Millis := 4000
  dhcpMaxRetries : UInt8 := 3
  serverSettle : Millis := 50
  idlePoll : Millis := 1000
  disconnectedPoll : Millis := 2000
  errorRetry : Millis := 5000
  maxErrorRetries : UInt8 := 3
  deriving DecidableEq, Repr

structure Status where
  state : State
  ready : Bool
  busy : Bool
  link : LinkStatus
  server : Bool
  ip : Ipv4
  mac : Mac
  initCycles : UInt32
  retries : UInt8
  hardResets : UInt32
  softResets : UInt32
  deriving DecidableEq, Repr

end BoardNet.Link
