/-
MotionBridge/Serial/Port.lean

An open serial port: a reader that moves received bytes into a ring, and an
output.  The reader ends when it is stopped or when the far end goes away.
-/
import MotionBridge.Ring
import MotionBridge.Serial.Sink
import MotionBridge.Settings.Basic

namespace MotionBridge

namespace SerialSettings

/-- The name of a port in reports. -/
def portName (s : SerialSettings) : String :=
  s!"serial{s.number.toNat}({s.path})"

/-- The line that tells of a port that was opened. -/
def openedLine (s : SerialSettings) : LogLine :=
  let format := s!"{s.dataBits.toNat}{s.parity.name}{s.stopBits.toNat}"
  .note s!"[serial] {s.portName} open ({s.baudRate.toNat} baud, {format})"

end SerialSettings

/-- An open port. -/
structure Port where
  name : String
  /-- Bytes received and not yet taken. -/
  ring : Ring
  /-- Whether bytes that arrive are still moved into the ring. -/
  reading : Bool := true
  /-- Whether anything is at the far end. -/
  plugged : Bool := true

namespace Port

/-- Bytes arrive.  Those that do not fit are dropped. -/
def arrive (p : Port) (data : Bytes) : Port × Log :=
  if p.reading && p.plugged then
    let (stored, ring) := p.ring.pushAll data
    ({ p with ring },
      if stored < data.length then
        [.trace s!"[serial] {p.name} ring full, dropped {data.length - stored} bytes"]
      else [])
  else (p, [])

/-- The reader ends. -/
def stop (p : Port) : Port × Log :=
  ({ p with reading := false },
    if p.reading then [.note s!"[serial] {p.name} reader stopped"] else [])

/-- The far end goes away, and the reader ends with an error. -/
def unplug (p : Port) : Port × Log :=
  let failed : Log :=
    if p.reading then [.note s!"[serial] {p.name} read error: Broken pipe"] else []
  let (p, log) := { p with plugged := false }.stop
  (p, failed ++ log)

/-- Writes bytes out.  With nothing at the far end no byte goes out, and what
cannot be done is to flush the output. -/
def write (p : Port) (data : Bytes) : Except DeviceError Bytes :=
  if p.plugged then .ok data
  else if data.isEmpty then .error ⟨.write, p.name, "flush failed"⟩
  else .error ⟨.write, p.name, "Broken pipe"⟩

end Port

end MotionBridge
