/-
MotionBridge/Bus/Command.lean

The commands of the motor controller and their codes.  Codes are four apart,
so that the low two bits of a command byte carry the axis.
-/
import MotionBridge.Bytes

namespace MotionBridge

/-- A motor controller command. -/
inductive MotorCommand
  | homeAxis
  | moveAbs
  | moveInc
  | stopAxis
  | isAxisBusy
  | getEncoderPosition
  | getLogicalPosition
  | setStartSpeed
  | setDriveSpeed
  | setHomeSpeed
  | setAccelerationRate
  | setMotorDirection
  | setEncoderDirection
  | getInitialSpeed
  | getDriveSpeed
  | getHomeSpeed
  | getAccelerationRate
  | getMotorDirection
  | getEncoderDirection
  | setEncoderPosition
  | setLogicalPosition
  | lineMoveAbs
  | lineMoveInc
  | queryHomeInput
  | queryHomeStatus
  | switchAuxOutput
  | setHomeTimeout
  | setHomeOffsetSpeed
  | setHomeChangeDirectionDelay
  | toggleEnableLine
  | getEstopState
  | clearEstopState
  | queryResetFlag
  | clearResetFlag
  | getVersionInfo
  | moveContinuous
  | slowStop
deriving Repr, DecidableEq

namespace MotorCommand

/-- Every command, by code. -/
def all : List MotorCommand :=
  [.homeAxis, .moveAbs, .moveInc, .stopAxis, .isAxisBusy, .getEncoderPosition,
    .getLogicalPosition, .setStartSpeed, .setDriveSpeed, .setHomeSpeed,
    .setAccelerationRate, .setMotorDirection, .setEncoderDirection, .getInitialSpeed,
    .getDriveSpeed, .getHomeSpeed, .getAccelerationRate, .getMotorDirection,
    .getEncoderDirection, .setEncoderPosition, .setLogicalPosition, .lineMoveAbs,
    .lineMoveInc, .queryHomeInput, .queryHomeStatus, .switchAuxOutput, .setHomeTimeout,
    .setHomeOffsetSpeed, .setHomeChangeDirectionDelay, .toggleEnableLine, .getEstopState,
    .clearEstopState, .queryResetFlag, .clearResetFlag, .getVersionInfo, .moveContinuous,
    .slowStop]

/-- The code of a command, which is its command byte for the first axis. -/
def code : MotorCommand → UInt8
  | homeAxis => 4
  | moveAbs => 8
  | moveInc => 12
  | stopAxis => 16
  | isAxisBusy => 20
  | getEncoderPosition => 24
  | getLogicalPosition => 28
  | setStartSpeed => 32
  | setDriveSpeed => 36
  | setHomeSpeed => 40
  | setAccelerationRate => 44
  | setMotorDirection => 48
  | setEncoderDirection => 52
  | getInitialSpeed => 56
  | getDriveSpeed => 60
  | getHomeSpeed => 64
  | getAccelerationRate => 68
  | getMotorDirection => 72
  | getEncoderDirection => 76
  | setEncoderPosition => 80
  | setLogicalPosition => 84
  | lineMoveAbs => 88
  | lineMoveInc => 92
  | queryHomeInput => 96
  | queryHomeStatus => 100
  | switchAuxOutput => 104
  | setHomeTimeout => 108
  | setHomeOffsetSpeed => 112
  | setHomeChangeDirectionDelay => 116
  | toggleEnableLine => 120
  | getEstopState => 200
  | clearEstopState => 204
  | queryResetFlag => 208
  | clearResetFlag => 212
  | getVersionInfo => 216
  | moveContinuous => 220
  | slowStop => 224

/-- The command with a given code. -/
def ofCode (code : UInt8) : Option MotorCommand :=
  all.find? fun c => c.code == code

/-- The command and the axis, counted from one, of a command byte. -/
def ofWire (wire : UInt8) : Option (MotorCommand × UInt8) :=
  (ofCode (wire &&& 0xFC)).map fun c => (c, (wire &&& 0x03) + 1)

/-- Whether the command is answered with a value and not with an
acknowledgement. -/
def isQuery : MotorCommand → Bool
  | isAxisBusy | getEncoderPosition | getLogicalPosition | getInitialSpeed | getDriveSpeed
  | getHomeSpeed | getAccelerationRate | getMotorDirection | getEncoderDirection
  | queryHomeInput | queryHomeStatus | getEstopState | queryResetFlag | getVersionInfo => true
  | _ => false

/-- The command whose stored value a query reads back. -/
def setter : MotorCommand → Option MotorCommand
  | getEncoderPosition => some setEncoderPosition
  | getLogicalPosition => some setLogicalPosition
  | getInitialSpeed => some setStartSpeed
  | getDriveSpeed => some setDriveSpeed
  | getHomeSpeed => some setHomeSpeed
  | getAccelerationRate => some setAccelerationRate
  | getMotorDirection => some setMotorDirection
  | getEncoderDirection => some setEncoderDirection
  | _ => none

/-- The command's name in reports. -/
def name : MotorCommand → String
  | homeAxis => "HomeAxis"
  | moveAbs => "MoveAbs"
  | moveInc => "MoveInc"
  | stopAxis => "StopAxis"
  | isAxisBusy => "IsAxisBusy"
  | getEncoderPosition => "GetEncoderPosition"
  | getLogicalPosition => "GetLogicalPosition"
  | setStartSpeed => "SetStartSpeed"
  | setDriveSpeed => "SetDriveSpeed"
  | setHomeSpeed => "SetHomeSpeed"
  | setAccelerationRate => "SetAccelerationRate"
  | setMotorDirection => "SetMotorDirection"
  | setEncoderDirection => "SetEncoderDirection"
  | getInitialSpeed => "GetInitialSpeed"
  | getDriveSpeed => "GetDriveSpeed"
  | getHomeSpeed => "GetHomeSpeed"
  | getAccelerationRate => "GetAccelerationRate"
  | getMotorDirection => "GetMotorDirection"
  | getEncoderDirection => "GetEncoderDirection"
  | setEncoderPosition => "SetEncoderPosition"
  | setLogicalPosition => "SetLogicalPosition"
  | lineMoveAbs => "LineMoveAbs"
  | lineMoveInc => "LineMoveInc"
  | queryHomeInput => "QueryHomeInput"
  | queryHomeStatus => "QueryHomeStatus"
  | switchAuxOutput => "SwitchAuxOutput"
  | setHomeTimeout => "SetHomeTimeout"
  | setHomeOffsetSpeed => "SetHomeOffsetSpeed"
  | setHomeChangeDirectionDelay => "SetHomeChangeDirectionDelay"
  | toggleEnableLine => "ToggleEnableLine"
  | getEstopState => "GetEstopState"
  | clearEstopState => "ClearEstopState"
  | queryResetFlag => "QueryResetFlag"
  | clearResetFlag => "ClearResetFlag"
  | getVersionInfo => "GetVersionInfo"
  | moveContinuous => "MoveContinuous"
  | slowStop => "SlowStop"

end MotorCommand

end MotionBridge
