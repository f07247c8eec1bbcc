/-
MotionBridge/Toml/Value.lean

The values of a TOML document.  Of floating-point numbers and dates only the
kind is kept, since no setting takes one.
-/

namespace MotionBridge.Toml

/-- How a table came about, which decides what may still be added to it. -/
inductive TableKind
  /-- Opened by a header of its own, or the root. -/
  | header
  /-- Implied by the header of a table inside it. -/
  | implied
  /-- Implied by a dotted key. -/
  | dotted
  /-- Written between braces: nothing can be added. -/
  | braced
deriving Repr, DecidableEq

/-- A value. -/
inductive Value
  | string (s : String)
  | integer (n : Int)
  | float
  | boolean (b : Bool)
  | datetime
  | array (items : List Value)
  | table (kind : TableKind) (entries : List (String × Value))
  /-- An array of tables, each opened by a header. -/
  | tables (elements : List (List (String × Value)))
deriving Repr

/-- The entries of a table, by key. -/
abbrev Entries := List (String × Value)

namespace Entries

/-- Replaces the value of a key. -/
def replace (key : String) (v : Value) : Entries → Entries
  | [] => []
  | (k, old) :: rest => if k = key then (k, v) :: rest else (k, old) :: replace key v rest

/-- Removes a key. -/
def remove (es : Entries) (key : String) : Entries :=
  es.filter fun e => e.1 != key

/-- Works on the table at a path of keys.  Tables on the way that do not
exist are made: by a dotted key or by a header.  A dotted key does not lead
through a table with a header of its own, and nothing leads through a value
or a braced table.  An array of tables stands for its last element. -/
def alterAt {α : Type} (byDots : Bool) (f : TableKind → Entries → Option (α × Entries)) :
    List String → TableKind → Entries → Option (α × Entries)
  | [], kind, es => f kind es
  | key :: path, _, es =>
    match es.lookup key with
    | none => do
      let kind := if byDots then TableKind.dotted else .implied
      let (a, sub) ← alterAt byDots f path kind []
      pure (a, es ++ [(key, .table kind sub)])
    | some (.table kind sub) =>
      if kind = .braced || (byDots && kind = .header) then none
      else do
        let (a, sub) ← alterAt byDots f path kind sub
        pure (a, replace key (.table kind sub) es)
    | some (.tables elements) =>
      match elements.getLast? with
      | none => none
      | some last => do
        let (a, last) ← alterAt byDots f path .header last
        pure (a, replace key (.tables (elements.dropLast ++ [last])) es)
    | some _ => none

/-- Adds a key with its value, where the key may be dotted.  A dotted key
must end in a table made by dotted keys, and a plain one must not. -/
def insert (es : Entries) (kind : TableKind) (path : List String) (key : String) (v : Value) :
    Option Entries := do
  let add (kind : TableKind) (es : Entries) : Option (Unit × Entries) :=
    if decide (kind = .dotted) == path.isEmpty then none
    else if (es.lookup key).isSome then none
    else some ((), es ++ [(key, v)])
  let (_, es) ← alterAt true add path kind es
  pure es

end Entries

end MotionBridge.Toml
