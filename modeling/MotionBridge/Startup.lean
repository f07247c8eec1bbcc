/-
MotionBridge/Startup.lean

Starting the bridge from its settings, and the whole program from its
arguments.

The log file comes first, then the check of the settings, then the
controller, the command channel and the serial channels in order.  The first
failure ends the start; what was opened before it is given up.
-/
import MotionBridge.Channel.Tcp
import MotionBridge.CommandLine
import MotionBridge.Host.Basic
import MotionBridge.Serial.Port
import MotionBridge.Settings.Document
import MotionBridge.Settings.Legacy

namespace MotionBridge

namespace Startup

variable {m : Type → Type} [Monad m]

/-- An outcome as a step that may end the start. -/
def orStop {ε α : Type} (toError : ε → DeviceError) : Except ε α → ExceptT DeviceError m α
  | .ok a => pure a
  | .error e => throw (toError e)

/-- Bytes that the command channel can hold between two polls. -/
def commandRing : Nat := 1024

/-- A router over the simulated controller, with the board at rest. -/
def router (s : Settings) (now : Time) : Router Controller Pins :=
  { bus := .start {} s.busConfig, board := .start {} s.boardConfig now }

/-- Checks the controller, if the settings ask for it. -/
def checkController (h : Host m) (s : Settings) (r : Router Controller Pins) :
    ExceptT DeviceError m (Router Controller Pins) := do
  if s.board.startupCheck then
    h.say (.note "[main] Checking motor controller")
    let (checked, r, log) := r.startupCheck
    for line in log do
      h.say line
    let _ ← orStop id checked
    pure r
  else
    pure r

/-- Opens the listener of a channel. -/
def openListener (h : Host m) (s : Settings) (name : String) (port : UInt16) :
    ExceptT DeviceError m Unit := do
  let opened ← h.listen name s.network port
  let address ← orStop (listenError name (s.network.address port)) opened
  h.say (listeningLine name address)

/-- Opens a serial channel behind those already open. -/
def openTunnel (h : Host m) (s : Settings) (b : RunningBridge) (serial : SerialSettings) :
    ExceptT DeviceError m RunningBridge := do
  let opened ← h.openSerial serial
  orStop (fun reason => ⟨.connection, serial.portName, reason⟩) opened
  h.say serial.openedLine
  let name := s!"serial{serial.number.toNat}"
  openListener h s name serial.effectivePort
  let ring := Ring.ofCapacity serial.ringCapacity
  let (tunnels, log) := b.tunnels.add
    { number := serial.number, ring, sink := .working [], link := { name } }
  for line in log do
    h.say line
  pure { b with tunnels, inbound := b.inbound ++ [{ port := serial.number, ring }] }

/-- The line that tells that nothing behind the bridge is real. -/
def simulatedLine (s : Settings) : LogLine :=
  .note (s!"[main] Bus backend '{s.bus.backend}' and board I/O are simulated; " ++
    "controller replies and inputs are not from hardware")

/-- Everything up to the poll loop. -/
def prepare (h : Host m) (s : Settings) : ExceptT DeviceError m RunningBridge := do
  h.setDebug s.logging.debug
  if let some dir := s.logging.logDir then
    let started ← h.startLogFile dir
    orStop (fun reason => ⟨.configuration, "logging", reason⟩) started
  orStop SettingsError.toDeviceError s.validate
  let now ← h.now
  let r := router s now
  h.say (simulatedLine s)
  let r ← checkController h s r
  openListener h s "command" s.network.commandPort
  let command := CommandChannel.start (.ofCapacity commandRing) { name := "command" }
    s.network.maxFrame s.network.answerUnreachable
  s.serial.foldlM (openTunnel h s) { command, router := r }

/-- Starts the bridge and runs it until it is interrupted. -/
def run (h : Host m) (s : Settings) : m (Except DeviceError Unit) := ExceptT.run do
  let b ← prepare h s
  h.say Bridge.loopStarted
  h.say (.note "[main] Running")
  h.serve b
  h.say (.note "[main] Shutting down")
  h.say Bridge.loopStopped
  h.stopLogFile

end Startup

/-! ### The program -/

namespace Program

variable {m : Type → Type} [Monad m]

/-- The name of the program. -/
def name : String := "propbridge"

/-- How the program is called. -/
def usage : String :=
  s!"Usage: {name} [OPTIONS]"

/-- What the program does and what its options mean. -/
def help : String :=
  "TCP bridge for a handshake-bus motor controller and tunneled serial ports\n\n" ++
  usage ++ "\n\nOptions:\n" ++
  "  -c, --config <CONFIG>                TOML settings file\n" ++
  "      --legacy-config <LEGACY_CONFIG>  key=value config file applied over the TOML settings\n" ++
  "      --debug                          Enable debug logging (frame dumps, bus retries)\n" ++
  "      --log-dir <LOG_DIR>              Also write logs to this directory\n" ++
  "  -h, --help                           Print help\n" ++
  "  -V, --version                        Print version\n"

/-- The version of the program. -/
def version : String := s!"{name} 0.1.0"

/-- The text of a settings file. -/
def readFile (h : Host m) (path : String) : ExceptT SettingsError m String := do
  match ← h.readText path with
  | .ok text => pure text
  | .error reason => throw (.unreadable path reason)

/-- The settings that the arguments ask for: those of the settings file, with
the older file over them, and then the arguments' own. -/
def loadSettings (h : Host m) (a : Arguments) : m (Except SettingsError Settings) := ExceptT.run do
  let s ← match a.config with
    | some path => do
      let text ← readFile h path
      liftExcept (Settings.ofText text)
    | none => pure ({} : Settings)
  let s ← match a.legacyConfig with
    | some path => do
      let text ← readFile h path
      let (s, outcome) := Settings.applyLegacy text s
      liftExcept outcome
      pure s
    | none => pure s
  let debug := s.logging.debug || a.debug
  let logDir := a.logDir.or s.logging.logDir
  pure { s with logging := { debug, logDir } }
where
  liftExcept {α : Type} : Except SettingsError α → ExceptT SettingsError m α
    | .ok v => pure v
    | .error e => throw e

/-- Runs the program with its arguments; the exit code. -/
def run (h : Host m) (args : List String) : m UInt32 := do
  match Arguments.parse args with
  | .error .displayHelp => do
    h.print help
    pure 0
  | .error .displayVersion => do
    h.print version
    pure 0
  | .error _ => do
    h.complain usage
    pure 2
  | .ok a =>
    match ← loadSettings h a with
    | .error e => do
      h.complain s!"{name}: {e.toDeviceError.text}"
      pure 1
    | .ok s =>
      match ← Startup.run h s with
      | .error e => do
        h.say (.note s!"[main] {e.text}")
        pure 1
      | .ok () => pure 0

end Program

end MotionBridge
