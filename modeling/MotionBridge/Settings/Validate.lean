/-
MotionBridge/Settings/Validate.lean

Which settings can be used.  The checks run in a fixed order and the first
that fails is reported; the serial ports are checked one by one, each against
those before it.
-/
import MotionBridge.Settings.Basic

namespace MotionBridge

namespace Settings

/-- Checks serial ports in order, given the numbers and TCP ports already
taken. -/
def checkSerial (numbers : List UInt8) (ports : List UInt16) :
    List SerialSettings → Except SettingsError Unit
  | [] => .ok ()
  | s :: rest =>
    if s.number ∈ numbers then .error (.duplicateNumber s.number)
    else if s.effectivePort ∈ ports then .error (.duplicatePort s.effectivePort)
    else if s.ringCapacity = 0 then .error (.emptyRing s.number)
    else checkSerial (s.number :: numbers) (s.effectivePort :: ports) rest

/-- Checks all settings. -/
def validate (s : Settings) : Except SettingsError Unit :=
  if s.bus.backend ∉ backends then .error (.unknownBackend s.bus.backend)
  else if s.bus.attempts = 0 then .error .noAttempts
  else if s.network.maxFrame < 3 then .error .frameLimitTooSmall
  else if 7 < s.board.watchedBit then .error .watchedBitOutOfRange
  else checkSerial [] [s.network.commandPort] s.serial

end Settings

end MotionBridge
