/-
MotionBridge/Text/Parser.lean

Readers of character lists: a reader takes what it reads off the front of
its input, or fails and leaves the input to others.

That a reader never adds to its input is part of its type, and so is that
the input gets shorter when it took something.  Repetition ends for that
reason, and asks for no length.
-/

namespace MotionBridge

/-- What a reader made of an input. -/
structure Reading (input : List Char) (α : Type) where
  value : α
  /-- What is left of the input. -/
  rest : List Char
  /-- Whether anything was taken. -/
  took : Bool
  rest_le : rest.length ≤ input.length
  rest_lt : took → rest.length < input.length

/-- A reader of an `α`. -/
def TextParser (α : Type) : Type :=
  (input : List Char) → Option (Reading input α)

namespace TextParser

variable {α β : Type}

/-! ### Readers in sequence and in turn -/

/-- A value for which nothing is taken. -/
def here (input : List Char) (a : α) : Reading input α :=
  ⟨a, input, false, Nat.le_refl _, by simp⟩

/-- What a second reader makes of what the first left. -/
def followedBy {input : List Char} (r : Reading input α) (s : Reading r.rest β) :
    Reading input β where
  value := s.value
  rest := s.rest
  took := r.took || s.took
  rest_le := Nat.le_trans s.rest_le r.rest_le
  rest_lt h := by
    rcases Bool.or_eq_true_iff.1 h with h | h
    · exact Nat.lt_of_le_of_lt s.rest_le (r.rest_lt h)
    · exact Nat.lt_of_lt_of_le (s.rest_lt h) r.rest_le

instance : Monad TextParser where
  pure a := fun input => some (here input a)
  bind p f := fun input =>
    match p input with
    | none => none
    | some r => (f r.value r.rest).map (followedBy r)

instance : Alternative TextParser where
  failure := fun _ => none
  orElse p q := fun input =>
    match p input with
    | some r => some r
    | none => q () input

/-! ### Characters -/

/-- The next character, which stays in the input. -/
def peek? : TextParser (Option Char) := fun input => some (here input input.head?)

/-- One character with a property. -/
def satisfy (p : Char → Bool) : TextParser Char
  | c :: rest => if p c then some ⟨c, rest, true, by simp, by simp⟩ else none
  | [] => none

/-- A given character. -/
def char (c : Char) : TextParser Unit := do
  let _ ← satisfy (· == c)

/-- Given characters, in order. -/
def chars (cs : List Char) : TextParser Unit := cs.forM char

/-- The end of the input. -/
def ended : TextParser Unit
  | [] => some (here [] ())
  | _ :: _ => none

/-- The characters up to the first without a property. -/
def takeWhile (p : Char → Bool) : TextParser (List Char) := fun input =>
  some
    { value := input.takeWhile p
      rest := input.dropWhile p
      took := input.head?.any p
      rest_le := (List.dropWhile_suffix p).length_le
      rest_lt := by
        cases input with
        | nil => simp
        | cons c cs =>
          intro h
          have : p c := by simpa using h
          simpa [this, Nat.lt_succ_iff] using (List.dropWhile_suffix p).length_le }

/-- The same, of which there must be one at least. -/
def takeWhile1 (p : Char → Bool) : TextParser (List Char) := do
  let cs ← takeWhile p
  if cs.isEmpty then failure else pure cs

/-- As many characters as given, each with a property. -/
def exactly (p : Char → Bool) : Nat → TextParser (List Char)
  | 0 => pure []
  | n + 1 => do
    let c ← satisfy p
    let rest ← exactly p n
    pure (c :: rest)

/-! ### Repetition -/

/-- As often as the reader succeeds and takes something. -/
def many (p : TextParser α) : TextParser (List α) := fun input => some (go input)
where
  go (input : List Char) : Reading input (List α) :=
    match p input with
    | none => here input []
    | some r =>
      if _h : r.took then
        let later := go r.rest
        followedBy r ⟨r.value :: later.value, later.rest, later.took, later.rest_le,
          later.rest_lt⟩
      else here input []
  termination_by input.length
  decreasing_by exact r.rest_lt _h

/-- One or more, with a separator between each two. -/
def separated1 (p : TextParser α) (separator : TextParser β) : TextParser (List α) := do
  let first ← p
  let later ← many (do let _ ← separator; p)
  pure (first :: later)

/-- None or more, with a separator between each two. -/
def separated (p : TextParser α) (separator : TextParser β) : TextParser (List α) :=
  separated1 p separator <|> pure []

end TextParser

end MotionBridge
