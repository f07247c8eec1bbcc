/-
MotionBridge/Journal.lean

Where reported lines go: to the standard error stream, and to a log file
while one is open.  Each line is stamped with the time of day.

A log file is named for the moment it was opened; a link of a fixed name in
the same directory leads to the newest.
-/
import MotionBridge.Host.Files
import MotionBridge.Log

namespace MotionBridge

namespace Journal

/-- The name of the link to the newest log file, and the end of each log
file's own name. -/
def linkName : String := "propbridge.log"

/-- The name of the log file opened at a moment, given as date and time in
digits. -/
def fileName (moment : String) : String :=
  s!"{moment}-{linkName}"

/-- The line that tells of a log file that was opened. -/
def startedLine (dir moment : String) : String :=
  let path := Path.join dir (fileName moment)
  s!"[logging] File logging started: {path}"

/-- The line that tells that the log file was closed. -/
def stoppedLine : String := "[logging] File logging stopped"

/-- The line that tells that the link could not be made. -/
def linkFailedLine (e : OsError) : String :=
  s!"[logging] Failed to create {linkName} symlink: {e.text}"

/-- Why there is no directory for log files. -/
def directoryFailed (e : OsError) : String :=
  s!"Failed to create log dir: {e.text}"

/-- Why there is no log file. -/
def fileFailed (e : OsError) : String :=
  s!"Failed to create log file: {e.text}"

/-- A line with its time of day. -/
def stamped (clock text : String) : String :=
  s!"{clock} {text}"

/-- The width of a stamp: hours, minutes, seconds and milliseconds, and the
blank behind them. -/
def stampWidth : Nat := 13

/-- Whether a line begins with a stamp. -/
def hasStamp (line : List Char) : Bool :=
  line.length ≥ stampWidth &&
    (line.zip "00:00:00.000 ".toList).all fun (c, form) =>
      if form = '0' then c.isDigit else c = form

/-- A line without its stamp. -/
def withoutStamp (line : List Char) : List Char :=
  if hasStamp line then line.drop stampWidth else line

end Journal

/-- The journal of a running bridge. -/
structure Journal where
  debug : Bool := false
  /-- Where the open log file is. -/
  file : Option Place := none
  /-- The lines on the standard error stream, without stamps. -/
  errorStream : List String := []
  files : Files
deriving Repr

namespace Journal

/-- Appends text to a file. -/
def append (fs : Files) (p : Place) (text : String) : Files :=
  match fs.at? p with
  | some (.file content) => fs.put p (.file (content ++ text.toUTF8.toList))
  | _ => fs

/-- Reports a line, with the time of day. -/
def report (j : Journal) (clock : String) (line : LogLine) : Journal :=
  if line.isShown j.debug then
    { j with
      errorStream := j.errorStream ++ [line.text]
      files := match j.file with
        | some p => append j.files p (stamped clock line.text ++ "\n")
        | none => j.files }
  else j

/-- Reports lines in order. -/
def reportAll (j : Journal) (clock : String) (log : Log) : Journal :=
  log.foldl (fun j line => j.report clock line) j

/-- Leads the link beside a log file to it.  Something in the way of the link
is removed, unless it is a directory. -/
def linkBeside (fs : Files) (file : Place) (moment : String) : Except OsError Files :=
  let link := file.dropLast ++ [linkName]
  if (fs.at? link).any Node.isDirectory then .error .entryExists
  else .ok ((fs.remove link).put link (.link (fileName moment)))

/-- Opens a log file in a directory, which is made if need be.  That there is
no link to it does no harm. -/
def start (j : Journal) (dir moment : String) : Except String Unit × Journal :=
  match j.files.after (Files.ensureDirectories dir) with
  | (.error e, files) => (.error (directoryFailed e), { j with files })
  | (.ok (), files) =>
    match files.after (Files.openAppend (Path.join dir (fileName moment))) with
    | (.error e, files) => (.error (fileFailed e), { j with files })
    | (.ok file, files) =>
      let (files, notes) := match linkBeside files file moment with
        | .ok files => (files, [])
        | .error e => (files, [linkFailedLine e])
      (.ok (), { j with
        files
        file := some file
        errorStream := j.errorStream ++ notes ++ [startedLine dir moment] })

/-- Closes the log file, if one is open. -/
def stop (j : Journal) : Journal :=
  match j.file with
  | none => j
  | some _ => { j with file := none, errorStream := j.errorStream ++ [stoppedLine] }

/-- A line without the carriage return at its end. -/
def withoutReturn (line : List Char) : List Char :=
  if line.getLast? = some '\r' then line.dropLast else line

/-- The lines of a file. -/
def linesOf (fs : Files) (p : Place) : List (List Char) :=
  match fs.at? p with
  | some (.file content) =>
    match String.fromUTF8? ⟨content.toArray⟩ with
    | some text => (text.toList.splitOn '\n').dropLast.map withoutReturn
    | none => []
  | _ => []

end Journal

end MotionBridge
