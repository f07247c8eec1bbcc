/-
MotionBridge/Settings/Document.lean

Settings written as a TOML document.  Every setting has a default, except the
number of a serial port; unknown keys are ignored.

A group of settings is a table, or an array of its values in their fixed
order.
-/
import MotionBridge.Settings.Validate
import MotionBridge.Toml.Document

namespace MotionBridge

open Toml

namespace Settings

/-! ### Groups and their fields -/

/-- How the fields of a group are found: by key, or by place in the fixed
order. -/
def fieldOf (names : List String) : Value → Option (String → Option Value)
  | .table _ entries => some fun name => entries.lookup name
  | .array items => some fun name => items[names.idxOf name]?
  | .tables elements => some fun name =>
    (elements[names.idxOf name]?).map fun entries => .table .header entries
  | .datetime => some fun _ => none
  | _ => none

/-- A field, or its default where it is missing. -/
def orElse {α : Type} (v : Option Value) (read : Value → Option α) (default : α) : Option α :=
  match v with
  | some v => read v
  | none => some default

/-! ### Single values -/

/-- A truth value. -/
def readBool : Value → Option Bool
  | .boolean b => some b
  | _ => none

/-- A string. -/
def readString : Value → Option String
  | .string s => some s
  | _ => none

/-- A number of at most `limit`. -/
def readNat (limit : Nat) : Value → Option Nat
  | .integer n => if 0 ≤ n && n ≤ limit then some n.toNat else none
  | _ => none

/-- The largest integer that a document can write. -/
def largest : Nat := 9223372036854775807

/-- A byte. -/
def readUInt8 (v : Value) : Option UInt8 :=
  (readNat 255 v).map UInt8.ofNat

/-- A port number. -/
def readUInt16 (v : Value) : Option UInt16 :=
  (readNat 65535 v).map UInt16.ofNat

/-- A value that may also be unset. -/
def readSome {α : Type} (read : Value → Option α) (v : Value) : Option (Option α) :=
  (read v).map some

/-- The items of an array. -/
def readItems : Value → Option (List Value)
  | .array items => some items
  | .tables elements => some (elements.map fun entries => .table .header entries)
  | _ => none

/-- Four bytes, the first four items of an array. -/
def readAddress (v : Value) : Option (Vector UInt8 4) := do
  match (← readItems v) with
  | a :: b :: c :: d :: _ =>
    some #v[← readUInt8 a, ← readUInt8 b, ← readUInt8 c, ← readUInt8 d]
  | _ => none

/-- A parity: its keyword, or a table with a single entry whose key is the
keyword and whose value is empty. -/
def readParity : Value → Option Parity
  | .string s => Parity.ofKeyword s
  | .table _ [(k, v)] => if isEmptyValue v then Parity.ofKeyword k else none
  | _ => none
where
  isEmptyValue : Value → Bool
    | .table _ entries => entries.isEmpty
    | .array items => items.isEmpty
    | .tables elements => elements.isEmpty
    | _ => false

/-! ### Groups -/

/-- The network settings. -/
def readNetwork (v : Value) : Option NetworkSettings := do
  let get ← fieldOf ["ip", "command_port", "max_frame_len", "unreachable_reply"] v
  let d : NetworkSettings := {}
  some
    { ip := ← orElse (get "ip") readAddress d.ip
      commandPort := ← orElse (get "command_port") readUInt16 d.commandPort
      maxFrame := ← orElse (get "max_frame_len") (readNat largest) d.maxFrame
      answerUnreachable := ← orElse (get "unreachable_reply") readBool d.answerUnreachable }

/-- The bus settings. -/
def readBus (v : Value) : Option BusSettings := do
  let get ← fieldOf ["backend", "step_timeout_ms", "attempts", "max_reply_len"] v
  let d : BusSettings := {}
  some
    { backend := ← orElse (get "backend") readString d.backend
      stepTimeout := ← orElse (get "step_timeout_ms") (readNat largest) d.stepTimeout
      attempts := ← orElse (get "attempts") (readNat 4294967295) d.attempts
      maxReply := ← orElse (get "max_reply_len") (readNat largest) d.maxReply }

/-- The board settings. -/
def readBoard (v : Value) : Option BoardSettings := do
  let get ← fieldOf ["startup_check", "input_poll_ms", "watched_input_bit"] v
  let d : BoardSettings := {}
  some
    { startupCheck := ← orElse (get "startup_check") readBool d.startupCheck
      inputPoll := ← orElse (get "input_poll_ms") (readNat largest) d.inputPoll
      watchedBit := ← orElse (get "watched_input_bit") readUInt8 d.watchedBit }

/-- The settings of one serial port. -/
def readSerial (v : Value) : Option SerialSettings := do
  let get ← fieldOf ["number", "path", "baud_rate", "data_bits", "parity", "stop_bits",
    "tcp_port", "ring_capacity"] v
  let d : SerialSettings := { number := ← readUInt8 (← get "number") }
  some
    { number := d.number
      path := ← orElse (get "path") readString d.path
      baudRate := ← orElse (get "baud_rate")
        (fun v => (readNat 4294967295 v).map UInt32.ofNat) d.baudRate
      dataBits := ← orElse (get "data_bits") readUInt8 d.dataBits
      parity := ← orElse (get "parity") readParity d.parity
      stopBits := ← orElse (get "stop_bits") readUInt8 d.stopBits
      tcpPort := ← orElse (get "tcp_port") (readSome readUInt16) d.tcpPort
      ringCapacity := ← orElse (get "ring_capacity") (readNat largest) d.ringCapacity }

/-- The logging settings. -/
def readLogging (v : Value) : Option LoggingSettings := do
  let get ← fieldOf ["debug", "log_dir"] v
  let d : LoggingSettings := {}
  some
    { debug := ← orElse (get "debug") readBool d.debug
      logDir := ← orElse (get "log_dir") (readSome readString) d.logDir }

/-- The settings of a document's root table. -/
def ofEntries (root : Entries) : Option Settings := do
  let d : Settings := {}
  some
    { network := ← orElse (root.lookup "network") readNetwork d.network
      bus := ← orElse (root.lookup "bus") readBus d.bus
      board := ← orElse (root.lookup "board") readBoard d.board
      serial := ← orElse (root.lookup "serial")
        (fun v => do (← readItems v).mapM readSerial) d.serial
      logging := ← orElse (root.lookup "logging") readLogging d.logging }

/-- The settings of a text, not yet checked. -/
def read (text : String) : Except SettingsError Settings :=
  match (parse text).bind ofEntries with
  | some s => .ok s
  | none => .error .badDocument

/-- The settings of a text that can be used. -/
def ofText (text : String) : Except SettingsError Settings := do
  let s ← read text
  s.validate
  pure s

end Settings

end MotionBridge
