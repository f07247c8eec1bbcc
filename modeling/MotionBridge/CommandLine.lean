/-
MotionBridge/CommandLine.lean

The arguments of the program.

There are three options with a value and one flag, each of which may occur
once, and the requests for help and for the version.  An option's value is
the next argument, or is attached to it.  A value is looked at only when the
next option is, or at the end; an argument that is not known is reported
before a value that is not right.
-/

namespace MotionBridge

/-- The arguments, read. -/
structure Arguments where
  config : Option String := none
  legacyConfig : Option String := none
  debug : Bool := false
  logDir : Option String := none
deriving Repr, DecidableEq

/-- Why the program does not run with its arguments. -/
inductive UsageError
  | displayHelp
  | displayVersion
  | unknownArgument
  /-- A value is missing or empty. -/
  | invalidValue
  /-- An option occurs twice. -/
  | argumentConflict
  /-- A flag has a value attached. -/
  | tooManyValues
deriving Repr, DecidableEq

/-- An option with a value. -/
inductive ValueOption
  | config
  | legacyConfig
  | logDir
deriving Repr, DecidableEq

/-- An argument that stands for itself. -/
inductive FlagOption
  | debug
  | help
  | version
deriving Repr, DecidableEq

namespace Arguments

/-! ### Names -/

/-- The option or flag of a long name. -/
def ofLong : String → Option (ValueOption ⊕ FlagOption)
  | "config" => some (.inl .config)
  | "legacy-config" => some (.inl .legacyConfig)
  | "log-dir" => some (.inl .logDir)
  | "debug" => some (.inr .debug)
  | "help" => some (.inr .help)
  | "version" => some (.inr .version)
  | _ => none

/-- The option or flag of a letter. -/
def ofShort : Char → Option (ValueOption ⊕ FlagOption)
  | 'c' => some (.inl .config)
  | 'h' => some (.inr .help)
  | 'V' => some (.inr .version)
  | _ => none

/-- The value of an option so far. -/
def get (a : Arguments) : ValueOption → Option String
  | .config => a.config
  | .legacyConfig => a.legacyConfig
  | .logDir => a.logDir

/-- Sets the value of an option. -/
def set (a : Arguments) (o : ValueOption) (value : String) : Arguments :=
  match o with
  | .config => { a with config := some value }
  | .legacyConfig => { a with legacyConfig := some value }
  | .logDir => { a with logDir := some value }

/-! ### Reading -/

/-- The arguments so far, and an option whose value has not been looked
at. -/
structure Progress where
  done : Arguments := {}
  pending : Option (ValueOption × Option String) := none

/-- Gives an option its value. -/
def assign (a : Arguments) (o : ValueOption) (value : String) : Except UsageError Arguments :=
  if (a.get o).isSome then .error .argumentConflict
  else if value.isEmpty then .error .invalidValue
  else .ok (a.set o value)

namespace Progress

/-- Looks at the value of the pending option. -/
def settle (p : Progress) : Except UsageError Arguments :=
  match p.pending with
  | none => .ok p.done
  | some (_, none) => .error .invalidValue
  | some (o, some value) => p.done.assign o value

/-- Takes an option, with the value attached to it. -/
def takeOption (p : Progress) (o : ValueOption) (attached : Option String) :
    Except UsageError Progress := do
  let a ← p.settle
  match attached with
  | some value => pure { done := ← a.assign o value }
  | none => pure { done := a, pending := some (o, none) }

/-- Takes a flag. -/
def takeFlag (p : Progress) (f : FlagOption) : Except UsageError Progress := do
  let a ← p.settle
  match f with
  | .help => .error .displayHelp
  | .version => .error .displayVersion
  | .debug =>
    if a.debug then .error .argumentConflict else pure { done := { a with debug := true } }

/-- Takes an argument that begins with two dashes. -/
def takeLong (p : Progress) (body : List Char) : Except UsageError Progress :=
  let name := String.ofList (body.takeWhile (· != '='))
  let attached := match body.dropWhile (· != '=') with
    | [] => none
    | _ :: value => some (String.ofList value)
  match ofLong name, attached with
  | none, _ => .error .unknownArgument
  | some (.inr _), some _ => .error .tooManyValues
  | some (.inr f), none => p.takeFlag f
  | some (.inl o), attached => p.takeOption o attached

/-- Takes an argument of one dash and letters.  What follows an option's
letter is its value, behind an equals sign or not. -/
def takeShort (p : Progress) : List Char → Except UsageError Progress
  | [] => .ok p
  | letter :: rest =>
    match ofShort letter with
    | none => .error .unknownArgument
    | some (.inr f) => do
      let p ← p.takeFlag f
      p.takeShort rest
    | some (.inl o) =>
      match rest with
      | [] => p.takeOption o none
      | '=' :: value => p.takeOption o (some (String.ofList value))
      | value => p.takeOption o (some (String.ofList value))

/-- Takes the arguments one by one.  Two dashes alone end the options; behind
them no argument is known. -/
def takeAll (p : Progress) : List String → Except UsageError Arguments
  | [] => p.settle
  | arg :: rest =>
    match arg.toList with
    | ['-', '-'] => if rest.isEmpty then p.settle else .error .unknownArgument
    | '-' :: '-' :: body => do
      let p ← p.takeLong body
      p.takeAll rest
    | '-' :: letter :: body => do
      let p ← p.takeShort (letter :: body)
      p.takeAll rest
    | _ =>
      match p.pending with
      | some (o, none) => { p with pending := some (o, some arg) }.takeAll rest
      | _ => .error .unknownArgument

end Progress

/-- Reads the arguments of the program. -/
def parse (args : List String) : Except UsageError Arguments :=
  ({} : Progress).takeAll args

end Arguments

end MotionBridge
