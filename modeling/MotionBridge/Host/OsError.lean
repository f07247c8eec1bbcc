/-
MotionBridge/Host/OsError.lean

Errors of the operating system that the bridge can meet.
-/

namespace MotionBridge

/-- An error of the operating system. -/
inductive OsError
  | noEntry
  | noDevice
  | permissionDenied
  | entryExists
  | notDirectory
  | isDirectory
  | invalidArgument
  | notTerminal
  | nameTooLong
  | tooManyLinks
  | addressInUse
  | addressNotAvailable
  | networkUnreachable
  /-- A path that is refused before the system sees it, since no name can hold
  a NUL.  It has no number. -/
  | nulInName
  /-- Any other error, with its number and its words. -/
  | other (number : Nat) (words : String)
deriving Repr, DecidableEq

namespace OsError

/-- The number of an error. -/
def number? : OsError → Option Nat
  | noEntry => some 2
  | noDevice => some 6
  | permissionDenied => some 13
  | entryExists => some 17
  | notDirectory => some 20
  | isDirectory => some 21
  | invalidArgument => some 22
  | notTerminal => some 25
  | nameTooLong => some 36
  | tooManyLinks => some 40
  | addressInUse => some 98
  | addressNotAvailable => some 99
  | networkUnreachable => some 101
  | nulInName => none
  | other number _ => some number

/-- The words for an error. -/
def phrase : OsError → String
  | noEntry => "No such file or directory"
  | noDevice => "No such device or address"
  | permissionDenied => "Permission denied"
  | entryExists => "File exists"
  | notDirectory => "Not a directory"
  | isDirectory => "Is a directory"
  | invalidArgument => "Invalid argument"
  | notTerminal => "Not a typewriter"
  | nameTooLong => "File name too long"
  | tooManyLinks => "Too many levels of symbolic links"
  | addressInUse => "Address already in use"
  | addressNotAvailable => "Cannot assign requested address"
  | networkUnreachable => "Network is unreachable"
  | nulInName => "file name contained an unexpected NUL byte"
  | other _ words => words

/-- The errors that have a number of their own. -/
def numbered : List OsError :=
  [noEntry, noDevice, permissionDenied, entryExists, notDirectory, isDirectory, invalidArgument,
    notTerminal, nameTooLong, tooManyLinks, addressInUse, addressNotAvailable, networkUnreachable]

/-- The error of a number; `words` serve where it has none of its own. -/
def ofNumber (number : Nat) (words : String) : OsError :=
  (numbered.find? fun e => e.number? = some number).getD (other number words)

/-- The words with the number. -/
def text (e : OsError) : String :=
  match e.number? with
  | some number => s!"{e.phrase} (os error {number})"
  | none => e.phrase

end OsError

end MotionBridge
