/-
MotionBridge/Toml/Document.lean

Whole TOML documents: values that hold others, the statements of a document,
and the tables that they build.
-/
import MotionBridge.Toml.Scalar

namespace MotionBridge.Toml

open TextParser

/-! ### Values -/

/-- An array of items, with blanks, line ends and comments between them; a
comma may follow the last. -/
def array (item : TextParser Value) : TextParser Value := do
  char '['
  let items ← separated (do filler; let v ← item; filler; pure v) (char ',')
  if !items.isEmpty then
    let _ ← optional (char ',')
  filler
  char ']'
  pure (.array items)

/-- A key and its value within braces. -/
def bracedEntry (item : TextParser Value) : TextParser (List String × Value) := do
  let keys ← key
  char '='
  blanks
  let v ← item
  blanks
  pure (keys, v)

/-- Adds an entry under a key that may be dotted. -/
def addEntry (es : Entries) (keys : List String) (v : Value) : Option Entries := do
  es.insert .header keys.dropLast (← keys.getLast?) v

/-- A table between braces, on one line. -/
def bracedTable (item : TextParser Value) : TextParser Value := do
  char '{'
  let pairs ← separated (bracedEntry item) (char ',')
  blanks
  char '}'
  match pairs.foldlM (fun es p => addEntry es p.1 p.2) ([] : Entries) with
  | some es => pure (.table .braced es)
  | none => failure

/-- A value that holds others at most `depth` deep. -/
def value : (depth : Nat) → TextParser Value
  | 0 => scalar
  | depth + 1 => scalar <|> array (value depth) <|> bracedTable (value depth)

/-! ### Statements -/

/-- A statement of a document. -/
inductive Statement
  /-- A key that may be dotted, and its value. -/
  | entry (keys : List String) (v : Value)
  /-- A table begins. -/
  | table (path : List String)
  /-- The next element of an array of tables begins. -/
  | element (path : List String)

/-- A key with its value, on a line of its own. -/
def entryLine : TextParser Statement := do
  let keys ← key
  char '='
  blanks
  let v ← value (nestingLimit - 1)
  lineEnd
  pure (.entry keys v)

/-- The header of a table. -/
def tableLine : TextParser Statement := do
  char '['
  let path ← key
  char ']'
  lineEnd
  pure (.table path)

/-- The header of an array element. -/
def elementLine : TextParser Statement := do
  chars ['[', '[']
  let path ← key
  chars [']', ']']
  lineEnd
  pure (.element path)

/-- A line, which may hold no statement. -/
def line : TextParser (Option Statement) := do
  match ← peek? with
  | some '#' => do
    comment
    newline <|> ended
    pure none
  | some '\n' => do
    newline
    pure none
  | some '\r' => do
    newline
    pure none
  | _ => do
    pure (some (← elementLine <|> tableLine <|> entryLine))

/-- The statements of a document, which may begin with a byte order mark. -/
def statements : TextParser (List Statement) := do
  let _ ← optional (char (Char.ofNat 0xFEFF))
  blanks
  let found ← many (do let s ← line; blanks; pure s)
  ended
  pure (found.filterMap id)

/-! ### Building the tables -/

/-- The tables so far, and the one being filled. -/
structure Assembly where
  root : Entries := []
  /-- The entries of the table being filled. -/
  current : Entries := []
  /-- Where that table belongs; the root, if there is no path. -/
  path : List String := []
  /-- Whether it is an element of an array. -/
  isElement : Bool := false

namespace Assembly

/-- Puts the table being filled in its place. -/
def finish (a : Assembly) : Option Entries := do
  match a.path.getLast? with
  | none => some a.current
  | some name =>
    let place (_ : TableKind) (es : Entries) : Option (Unit × Entries) :=
      if a.isElement then
        match es.lookup name with
        | none => some ((), es ++ [(name, .tables [a.current])])
        | some (.tables elements) =>
          some ((), es.replace name (.tables (elements ++ [a.current])))
        | some _ => none
      else some ((), es ++ [(name, .table .header a.current)])
    let (_, root) ← Entries.alterAt false place a.path.dropLast .header a.root
    some root

/-- Begins a table.  One that a longer header implied keeps what it holds;
any other table of that name is an error. -/
def beginTable (a : Assembly) (path : List String) : Option Assembly := do
  let root ← a.finish
  let name ← path.getLast?
  let take (_ : TableKind) (es : Entries) : Option (Entries × Entries) :=
    match es.lookup name with
    | none => some ([], es)
    | some (.table .implied held) => some (held, es.remove name)
    | some _ => none
  let (current, root) ← Entries.alterAt false take path.dropLast .header root
  some { root, current, path }

/-- Begins an element of an array of tables. -/
def beginElement (a : Assembly) (path : List String) : Option Assembly := do
  let root ← a.finish
  let name ← path.getLast?
  let check (_ : TableKind) (es : Entries) : Option (Unit × Entries) :=
    match es.lookup name with
    | none => some ((), es)
    | some (.tables _) => some ((), es)
    | some _ => none
  let (_, root) ← Entries.alterAt false check path.dropLast .header root
  some { root, path, isElement := true }

/-- Takes one statement in. -/
def step (a : Assembly) : Statement → Option Assembly
  | .entry keys v => (addEntry a.current keys v).map fun current => { a with current }
  | .table path => a.beginTable path
  | .element path => a.beginElement path

end Assembly

/-- The root table of a document, unless the text is not one. -/
def parse (text : String) : Option Entries := do
  let found ← statements text.toList
  let a ← found.value.foldlM Assembly.step ({} : Assembly)
  a.finish

end MotionBridge.Toml
