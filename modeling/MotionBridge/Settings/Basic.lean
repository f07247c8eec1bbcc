/-
MotionBridge/Settings/Basic.lean

The bridge's settings and their defaults, and what is wrong with settings
that cannot be used.
-/
import MotionBridge.Board.Basic
import MotionBridge.DeviceError
import MotionBridge.Serial.Parity

namespace MotionBridge

/-! ### Groups of settings -/

/-- The address that stands for every address of the host. -/
def anyAddress : Vector UInt8 4 := #v[0, 0, 0, 0]

/-- Where the bridge listens. -/
structure NetworkSettings where
  /-- The address to listen on. -/
  ip : Vector UInt8 4 := anyAddress
  commandPort : UInt16 := 23
  /-- The longest frame that the command channel puts together. -/
  maxFrame : Nat := 254
  /-- Whether a frame that the controller left unanswered is answered with
  the error value. -/
  answerUnreachable : Bool := true
deriving Repr, DecidableEq

/-- The handshake bus. -/
structure BusSettings where
  /-- What drives the lines. -/
  backend : String := "simulated"
  /-- Milliseconds that a handshake wait may take. -/
  stepTimeout : Nat := 1000
  attempts : Nat := 3
  maxReply : Nat := 254
deriving Repr, DecidableEq

/-- The board. -/
structure BoardSettings where
  /-- Whether the controller must tell its version at startup. -/
  startupCheck : Bool := true
  inputPoll : Nat := 10
  watchedBit : UInt8 := 5
deriving Repr, DecidableEq

/-- One tunneled serial port. -/
structure SerialSettings where
  number : UInt8
  path : String := ""
  baudRate : UInt32 := 9600
  dataBits : UInt8 := 8
  parity : Parity := .none
  stopBits : UInt8 := 1
  /-- The TCP port, unless the one that goes with the number is meant. -/
  tcpPort : Option UInt16 := none
  ringCapacity : Nat := 1024
deriving Repr, DecidableEq

/-- What is logged, and where. -/
structure LoggingSettings where
  debug : Bool := false
  logDir : Option String := none
deriving Repr, DecidableEq

/-- All settings. -/
structure Settings where
  network : NetworkSettings := {}
  bus : BusSettings := {}
  board : BoardSettings := {}
  serial : List SerialSettings := []
  logging : LoggingSettings := {}
deriving Repr, DecidableEq

/-! ### Derived settings -/

namespace SerialSettings

/-- The settings of a port of which only the number is known. -/
def forPort (number : UInt8) : SerialSettings :=
  { number, path := s!"/dev/ttyS{number.toNat - 1}" }

/-- The TCP port in effect. -/
def effectivePort (s : SerialSettings) : UInt16 :=
  s.tcpPort.getD (10000 + s.number.toUInt16)

end SerialSettings

/-- A port of the listening address, in the usual notation. -/
def NetworkSettings.address (n : NetworkSettings) (port : UInt16) : String :=
  ".".intercalate (n.ip.toList.map fun b => toString b.toNat) ++ s!":{port.toNat}"

namespace Settings

/-- The bus settings as the master takes them: after its first look the
master looks at most once more for every millisecond of the timeout. -/
def busConfig (s : Settings) : BusConfig :=
  { patience := s.bus.stepTimeout, attempts := s.bus.attempts, maxReply := s.bus.maxReply }

/-- The board settings as the board takes them. -/
def boardConfig (s : Settings) : BoardConfig :=
  { inputPoll := s.board.inputPoll, watchedBit := s.board.watchedBit.toNat }

/-- What can drive the bus lines. -/
def backends : List String := ["simulated"]

end Settings

/-! ### Errors -/

/-- Why settings cannot be used. -/
inductive SettingsError
  /-- The file cannot be read. -/
  | unreadable (path reason : String)
  /-- The text is no settings document. -/
  | badDocument
  | unknownBackend (name : String)
  | noAttempts
  | frameLimitTooSmall
  | watchedBitOutOfRange
  | duplicateNumber (number : UInt8)
  | duplicatePort (port : UInt16)
  | emptyRing (number : UInt8)
  | badValue (key value : String)
deriving Repr, DecidableEq

namespace SettingsError

/-- The reported text. -/
def text : SettingsError → String
  | .unreadable path reason => s!"read {path}: {reason}"
  | .badDocument => "TOML parse error"
  | .unknownBackend name =>
    let known := ", ".intercalate Settings.backends
    s!"unknown bus backend '{name}' (expected one of: {known})"
  | .noAttempts => "bus.attempts must be at least 1"
  | .frameLimitTooSmall => "network.max_frame_len is too small to hold a frame"
  | .watchedBitOutOfRange => "board.watched_input_bit must be 0-7"
  | .duplicateNumber number => s!"serial port {number.toNat} configured twice"
  | .duplicatePort port => s!"TCP port {port.toNat} used more than once"
  | .emptyRing number => s!"serial port {number.toNat} ring_capacity must be non-zero"
  | .badValue key value => s!"invalid value '{value}' for {key}"

/-- The error as a failure of the settings. -/
def toDeviceError (e : SettingsError) : DeviceError :=
  ⟨.configuration, "settings", e.text⟩

end SettingsError

end MotionBridge
