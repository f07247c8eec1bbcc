/-
MotionBridge/Host/Path.lean

Paths as they are written: names between slashes.  Empty parts say nothing; a
dot stays where one is, two dots lead to the directory around.  A slash at
the end says that a directory is meant.
-/
import MotionBridge.Host.OsError

namespace MotionBridge

namespace Path

/-- Paths are shorter than this, in bytes. -/
def sizeLimit : Nat := 4096

/-- Whether a path holds a NUL. -/
def hasNul (path : String) : Bool :=
  path.toList.contains '\x00'

/-- Why a path cannot be looked up, whatever the files are. -/
def refusal? (path : String) : Option OsError :=
  if hasNul path then some .nulInName
  else if path.isEmpty then some .noEntry
  else if sizeLimit ≤ path.utf8ByteSize then some .nameTooLong
  else none

/-- Whether a path begins at the root. -/
def isAbsolute (path : String) : Bool :=
  path.startsWith "/"

/-- The parts of a path. -/
def parts (path : String) : List String :=
  (path.splitOn "/").filter (· ≠ "")

/-- The parts to follow to what a path names.  Where a directory is meant, a
dot comes last, which only a directory can be followed by. -/
def steps (path : String) : List String :=
  if path.endsWith "/" then parts path ++ ["."] else parts path

/-- The parts that lead to the directory around what a path names, the
nearest first.  A dot, also one at the end, is no part of its own. -/
def outer (path : String) : List String :=
  ((parts path).filter (· ≠ ".")).reverse.tail

/-- The path of a name in a directory. -/
def join (dir name : String) : String :=
  if dir.isEmpty || dir.endsWith "/" then dir ++ name else s!"{dir}/{name}"

end Path

end MotionBridge
