/-
MotionBridge/Host/Files.lean

A file system held in memory: what the bridge finds when it reads its
configuration, opens its serial ports and writes its logs.

A place is found by following the parts of a path, through links where they
lead on (`walk`).  Every part but the last must be a directory; whether the
last must be there is for the operation to say.
-/
import MotionBridge.Bytes
import MotionBridge.Host.Path
import MotionBridge.Table

namespace MotionBridge

/-- What is found under a name. -/
inductive Node
  | file (content : Bytes)
  | directory
  /-- A directory in which nothing can be made. -/
  | sealed
  /-- A device that is no serial line, for a reason.  It reads as empty, unless
  nothing is behind it (`noDevice`). -/
  | device (reason : OsError)
  /-- A serial line. -/
  | terminal
  | link (target : String)
deriving Repr, DecidableEq

/-- Whether names can be looked up in it. -/
def Node.isDirectory : Node → Bool
  | .directory | .sealed => true
  | _ => false

/-- A place: the names on the way from the root. -/
abbrev Place := List String

/-- A file system and the directory that relative paths begin at. -/
structure Files where
  nodes : Table Place Node
  working : Place
deriving Repr

namespace Files

/-! ### Places -/

/-- What is at a place.  The root is a directory. -/
def at? (fs : Files) (p : Place) : Option Node :=
  if p.isEmpty then some .directory else fs.nodes.find? p

/-- Puts something at a place. -/
def put (fs : Files) (p : Place) (n : Node) : Files :=
  { fs with nodes := fs.nodes.insert p n }

/-- Takes away what is at a place. -/
def remove (fs : Files) (p : Place) : Files :=
  { fs with nodes := fs.nodes.erase p }

/-- The names in a directory. -/
def names (fs : Files) (p : Place) : List String :=
  fs.nodes.entries.filterMap fun (q, _) =>
    if q.dropLast = p then q.getLast? else none

/-! ### Following paths -/

/-- The longest name, in bytes. -/
def nameLimit : Nat := 255

/-- How many links a path may lead through. -/
def linkLimit : Nat := 40

/-- Where a path begins, seen from a directory. -/
def base (dir : Place) (path : String) : Place :=
  if Path.isAbsolute path then [] else dir

/-- Follows parts from a place; `throughLink` goes on at the place and with
the parts that a link leads to. -/
def walkWith (fs : Files) (throughLink : Place → List String → Except OsError Place) :
    Place → List String → Except OsError Place
  | p, [] => .ok p
  | p, part :: rest =>
    match fs.at? p with
    | none => .error .noEntry
    | some node =>
      if !node.isDirectory then .error .notDirectory
      else if nameLimit < part.utf8ByteSize then .error .nameTooLong
      else if part = "." then fs.walkWith throughLink p rest
      else if part = ".." then fs.walkWith throughLink p.dropLast rest
      else
        match fs.at? (p ++ [part]) with
        | some (.link target) => throughLink (base p target) (Path.steps target ++ rest)
        | _ => fs.walkWith throughLink (p ++ [part]) rest

/-- Follows parts from a place, through at most so many links. -/
def walk (fs : Files) : (links : Nat) → Place → List String → Except OsError Place
  | 0 => fs.walkWith fun _ _ => .error .tooManyLinks
  | links + 1 => fs.walkWith (fs.walk links)

/-- The place of a path. -/
def resolve (fs : Files) (path : String) : Except OsError Place :=
  match Path.refusal? path with
  | some e => .error e
  | none => fs.walk linkLimit (base fs.working path) (Path.steps path)

/-! ### Reading and opening -/

/-- The contents of a file. -/
def read (fs : Files) (path : String) : Except OsError Bytes := do
  let p ← fs.resolve path
  match fs.at? p with
  | none => .error .noEntry
  | some (.file content) => .ok content
  | some (.device .noDevice) => .error .noDevice
  | some node => if node.isDirectory then .error .isDirectory else .ok []

/-- Opens a serial line for reading and writing.  A path that holds a NUL is
no argument to begin with. -/
def openTerminal (fs : Files) (path : String) : Except OsError Unit := do
  if Path.hasNul path then .error .invalidArgument
  let p ← fs.resolve path
  match fs.at? p with
  | none => .error .noEntry
  | some .terminal => .ok ()
  | some (.device reason) => .error reason
  | some node => .error (if node.isDirectory then .isDirectory else .notTerminal)

/-! ### Making directories and files -/

/-- Makes the directory that the last part names.  The others must lead to a
directory. -/
def makeDirectory (fs : Files) (start : Place) (parts : List String) : Except OsError Files := do
  let around ← fs.walk linkLimit start parts.dropLast
  match fs.at? around, parts.getLast? with
  | none, _ => .error .noEntry
  | some _, none => .error .entryExists
  | some node, some name =>
    if !node.isDirectory then .error .notDirectory
    else if name = "." ∨ name = ".." then .error .entryExists
    else if nameLimit < name.utf8ByteSize then .error .nameTooLong
    else if (fs.at? (around ++ [name])).isSome then .error .entryExists
    else if node = .sealed then .error .noEntry
    else .ok (fs.put (around ++ [name]) .directory)

/-- Whether parts lead to a directory. -/
def isDirectory (fs : Files) (start : Place) (parts : List String) : Bool :=
  match fs.walk linkLimit start parts with
  | .ok p => (fs.at? p).any Node.isDirectory
  | .error _ => false

/-- Work on a file system that may fail.  What was done before a failure
stays done. -/
abbrev Work := ExceptT OsError (StateM Files)

/-- What comes of work, and the file system after it. -/
def after {α : Type} (fs : Files) (work : Work α) : Except OsError α × Files :=
  work.run.run fs

/-- Makes a directory unless it is already there. -/
def ensureDirectory (start : Place) (parts : List String) : Work Unit := do
  let fs ← get
  match fs.makeDirectory start parts with
  | .ok made => set made
  | .error e => if fs.isDirectory start parts then pure () else throw e

/-- Makes a directory and those it lies in, by its own name and theirs, the
nearest first. -/
def ensureNested (start : Place) : (nearest : List String) → Work Unit
  | [] => pure ()
  | name :: around => do
    let here := (name :: around).reverse
    try ensureDirectory start here
    catch e =>
      if e = .noEntry then
        ensureNested start around
        ensureDirectory start here
      else throw e

/-- Makes the directory of a path and those it lies in.  The path is tried as
it is written before and after those are made, so a dot at its end is looked
up in a directory that nothing made. -/
def ensureDirectories (path : String) : Work Unit := do
  if path.isEmpty then return
  if let some e := Path.refusal? path then throw e
  let start := base (← get).working path
  try ensureDirectory start (Path.parts path)
  catch e =>
    if e = .noEntry then
      ensureNested start (Path.outer path)
      ensureDirectory start (Path.parts path)
    else throw e

/-- Opens a file for appending, which is made if it is not there. -/
def openAppend (path : String) : Work Place := do
  let fs ← get
  let p ← MonadExcept.ofExcept (fs.resolve path)
  match fs.at? p with
  | none =>
    if fs.at? p.dropLast = some .sealed then throw .noEntry
    set (fs.put p (.file []))
  | some node => if node.isDirectory then throw .isDirectory
  pure p

end Files

end MotionBridge
