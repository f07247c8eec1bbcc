/-
MotionBridge/Host/Memory.lean

A host held in memory: files, a journal, and listeners.  It has no network,
so every address is its to listen on and no client ever connects; it is
interrupted as soon as the bridge runs.
-/
import MotionBridge.Host.Basic
import MotionBridge.Host.Layout
import MotionBridge.Journal

namespace MotionBridge

/-- The state of the host. -/
structure MemoryHost where
  journal : Journal
  /-- What was written to the standard output. -/
  output : String := ""
  /-- The time of day, as it stands before a line. -/
  clock : String := "00:00:00.000"
  /-- Date and time in digits, as they stand in the name of a log file. -/
  moment : String := "00000000-000000"
  /-- The port that a listener gets when it asks for any. -/
  freePort : UInt16 := 49152

namespace MemoryHost

/-- A host with files in its working directory. -/
def ofFiles (files : List (String × Bytes)) : MemoryHost :=
  { journal := { files := .ofWorking files } }

/-- The text of a file. -/
def readText (w : MemoryHost) (path : String) : Except String String :=
  match w.journal.files.read path with
  | .error e => .error e.text
  | .ok content =>
    match String.fromUTF8? ⟨content.toArray⟩ with
    | some text => .ok text
    | none => .error notText

/-- The effects of the host. -/
def host : Host (StateM MemoryHost) where
  readText path := do return (← get).readText path
  print text := modify fun w => { w with output := w.output ++ text }
  complain text := modify fun w =>
    { w with journal.errorStream := w.journal.errorStream ++ [text] }
  say line := modify fun w => { w with journal := w.journal.report w.clock line }
  setDebug on := modify fun w => { w with journal.debug := on }
  startLogFile dir := modifyGet fun w =>
    let (outcome, journal) := w.journal.start dir w.moment
    (outcome, { w with journal })
  stopLogFile := modify fun w => { w with journal := w.journal.stop }
  now := pure 0
  listen _ network port := modifyGet fun w =>
    if port = 0 then
      (.ok (network.address w.freePort), { w with freePort := w.freePort + 1 })
    else (.ok (network.address port), w)
  openSerial serial := do
    match (← get).journal.files.openTerminal serial.path with
    | .ok () => pure (.ok ())
    | .error e => pure (.error e.phrase)
  serve _ := pure ()

end MemoryHost

end MotionBridge
