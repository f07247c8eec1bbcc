/-
MotionBridge/Proofs/Settings/KeyValues.lean

What a text of the older configuration format says.

A line assigns a value to a key, or it is idle: blank, a comment, or without an
equals sign (`Assigns`, `Idle`).  The value of a key is the one that the first
line for it assigns (`value?_eq_some_iff`).  So it stays when idle lines come
or go and when lines for different keys change places, which is how lines may
be `Rearranged` (`value?_rearranged`).
-/
import MotionBridge.Settings.Legacy

namespace MotionBridge

/-! ### Single lines -/

namespace Text

theorem splitFirst_cons (c x : Char) (s : List Char) :
    splitFirst c (x :: s)
      = if x = c then some ([], s)
        else (splitFirst c s).map fun parts => (x :: parts.1, parts.2) := by
  by_cases h : x = c
  · simp [splitFirst, h]
  · rw [if_neg h]
    simp only [splitFirst, List.dropWhile_cons, List.takeWhile_cons, bne_iff_ne, ne_eq, h,
      not_false_eq_true, if_true]
    split <;> rfl

/-- A text is split at the first occurrence of a character. -/
theorem splitFirst_eq_some_iff {c : Char} {s : List Char} :
    ∀ {before behind : List Char},
      splitFirst c s = some (before, behind) ↔ s = before ++ c :: behind ∧ c ∉ before := by
  induction s with
  | nil => simp [splitFirst]
  | cons x s ih =>
    intro before behind
    rw [splitFirst_cons]
    by_cases h : x = c
    · rw [if_pos h]
      cases before with
      | nil => simp [h]
      | cons y before =>
        -- what stands before is empty, for the first character is the one
        refine iff_of_false (by simp) ?_
        rintro ⟨heq, hnone⟩
        cases heq
        exact hnone (h ▸ List.mem_cons_self ..)
    · rw [if_neg h]
      cases before with
      | nil => simp [h]
      | cons y before =>
        constructor
        · intro hmap
          obtain ⟨parts, hsplit, heq⟩ := Option.map_eq_some_iff.mp hmap
          cases heq
          obtain ⟨rfl, hnone⟩ := ih.mp hsplit
          exact ⟨rfl, by simp [hnone, Ne.symm h]⟩
        · rintro ⟨heq, hnone⟩
          cases heq
          rw [ih.mpr ⟨rfl, fun hmem => hnone (List.mem_cons_of_mem _ hmem)⟩]
          rfl

/-- A text without its outer blanks has no other characters. -/
theorem mem_of_mem_trim {c : Char} {s : List Char} (h : c ∈ trim s) : c ∈ s := by
  rw [trim, List.mem_reverse] at h
  have hback := (List.dropWhile_suffix isBlank).mem h
  rw [List.mem_reverse] at hback
  exact (List.dropWhile_suffix isBlank).mem hback

end Text

/-- A line assigns a value to a key when, without the blanks around it, it is no
comment and holds an equals sign: the key stands before the first equals sign,
and the value behind it. -/
def Assigns (line : List Char) (key value : String) : Prop :=
  ∃ before behind, Text.trim line = before ++ '=' :: behind ∧ '=' ∉ before ∧
    (Text.trim line).head? ≠ some '#' ∧
    String.ofList (Text.trim before) = key ∧ String.ofList (Text.trim behind) = value

/-- A line is idle when it is blank, a comment, or without an equals sign. -/
def Idle (line : List Char) : Prop :=
  Text.trim line = [] ∨ (Text.trim line).head? = some '#' ∨ '=' ∉ line

namespace KeyValues

/-- **The reader of lines reads what a line assigns.** -/
theorem ofLine_eq_some_iff {line : List Char} {key value : String} :
    ofLine line = some (key, value) ↔ Assigns line key value := by
  rw [ofLine, Assigns]
  by_cases hskip : (Text.trim line).isEmpty || (Text.trim line).head? == some '#'
  · rw [if_pos hskip]
    refine iff_of_false nofun ?_
    rintro ⟨before, behind, hsplit, -, hcomment, -⟩
    rw [Bool.or_eq_true, beq_iff_eq] at hskip
    obtain hblank | hhash := hskip
    · rw [hsplit] at hblank
      simp at hblank
    · exact hcomment hhash
  · rw [if_neg hskip, Option.map_eq_some_iff]
    have hcomment : (Text.trim line).head? ≠ some '#' := fun hhash => hskip (by simp [hhash])
    constructor
    · rintro ⟨⟨before, behind⟩, hsplit, hparts⟩
      obtain ⟨heq, hnone⟩ := Text.splitFirst_eq_some_iff.mp hsplit
      obtain ⟨rfl, rfl⟩ := Prod.mk.inj hparts
      exact ⟨before, behind, heq, hnone, hcomment, rfl, rfl⟩
    · rintro ⟨before, behind, heq, hnone, -, rfl, rfl⟩
      exact ⟨(before, behind), Text.splitFirst_eq_some_iff.mpr ⟨heq, hnone⟩, rfl⟩

/-- An idle line is passed over. -/
theorem ofLine_of_idle {line : List Char} (h : Idle line) : ofLine line = none := by
  rw [Option.eq_none_iff_forall_ne_some]
  rintro ⟨key, value⟩ hsome
  obtain ⟨before, behind, hsplit, -, hcomment, -⟩ := ofLine_eq_some_iff.mp hsome
  obtain hblank | hhash | hequals := h
  · rw [hsplit] at hblank
    simp at hblank
  · exact hcomment hhash
  · exact hequals (Text.mem_of_mem_trim (hsplit ▸ by simp))

end KeyValues

/-! ### Texts -/

/-- The first line that assigns a value to the key assigns this one. -/
def FirstAssigned (lines : List (List Char)) (key value : String) : Prop :=
  ∃ before line behind, lines = before ++ line :: behind ∧ Assigns line key value ∧
    ∀ earlier ∈ before, ∀ other, ¬ Assigns earlier key other

/-- Two lines do not assign values to the same key. -/
def Apart (line line' : List Char) : Prop :=
  ∀ key value value', Assigns line key value → ¬ Assigns line' key value'

theorem Apart.symm {line line' : List Char} (h : Apart line line') : Apart line' line :=
  fun key value value' hvalue hvalue' => h key value' value hvalue' hvalue

/-- Lines are rearranged when idle lines are added or taken away, and when
neighbours for different keys are put in another order. -/
inductive Rearranged : List (List Char) → List (List Char) → Prop
  | refl (lines) : Rearranged lines lines
  | add {front back line} : Idle line → Rearranged (front ++ back) (front ++ line :: back)
  | reorder {front lines lines' back} : lines.Perm lines' → lines.Pairwise Apart →
      Rearranged (front ++ lines ++ back) (front ++ lines' ++ back)
  | symm {lines lines'} : Rearranged lines lines' → Rearranged lines' lines
  | trans {lines lines' lines''} : Rearranged lines lines' → Rearranged lines' lines'' →
      Rearranged lines lines''

namespace KeyValues

/-- The value of a key in some lines. -/
def lookupIn (lines : List (List Char)) (key : String) : Option String :=
  (lines.filterMap ofLine).lookup key

theorem lookupIn_append (front back : List (List Char)) (key : String) :
    lookupIn (front ++ back) key = (lookupIn front key).or (lookupIn back key) := by
  rw [lookupIn, List.filterMap_append, List.lookup_append]
  rfl

/-- The value of a key in a single line. -/
theorem lookupIn_singleton_eq_some_iff {line : List Char} {key value : String} :
    lookupIn [line] key = some value ↔ Assigns line key value := by
  rw [← ofLine_eq_some_iff, lookupIn]
  rcases hline : ofLine line with - | ⟨k, v⟩
  · simp [hline]
  · simp only [List.filterMap_cons, hline, List.filterMap_nil, List.lookup_singleton,
      Option.some.injEq, Prod.mk.injEq]
    by_cases hkey : k = key
    · simp [hkey]
    · simp [hkey, Ne.symm hkey]

theorem lookupIn_singleton_eq_none_iff {line : List Char} {key : String} :
    lookupIn [line] key = none ↔ ∀ value, ¬ Assigns line key value := by
  simp only [Option.eq_none_iff_forall_ne_some, ne_eq, lookupIn_singleton_eq_some_iff]

/-- **The value of a key is the one that the first line for it assigns.** -/
theorem lookupIn_eq_some_iff {lines : List (List Char)} {key value : String} :
    lookupIn lines key = some value ↔ FirstAssigned lines key value := by
  induction lines with
  | nil => simp [lookupIn, FirstAssigned]
  | cons line lines ih =>
    rw [← List.singleton_append, lookupIn_append, Option.or_eq_some_iff,
      lookupIn_singleton_eq_some_iff, lookupIn_singleton_eq_none_iff, ih]
    constructor
    · rintro (hassigns | ⟨hnone, before, found, behind, rfl, hassigns, hearlier⟩)
      · exact ⟨[], line, lines, rfl, hassigns, nofun⟩
      · refine ⟨line :: before, found, behind, rfl, hassigns, ?_⟩
        rw [List.forall_mem_cons]
        exact ⟨hnone, hearlier⟩
    · rintro ⟨before, found, behind, heq, hassigns, hearlier⟩
      cases before with
      | nil =>
        cases heq
        exact .inl hassigns
      | cons first before =>
        cases heq
        rw [List.forall_mem_cons] at hearlier
        exact .inr ⟨hearlier.1, before, found, behind, rfl, hassigns, hearlier.2⟩

/-- The value of a key in a text. -/
theorem value?_eq_some_iff {text key value : String} :
    (ofText text).value? key = some value ↔ FirstAssigned (Text.lines text.toList) key value :=
  lookupIn_eq_some_iff

/-- Two lines that are not for the same key may be read in any order. -/
theorem lookupIn_swap {line line' : List Char} (h : Apart line line') (key : String) :
    lookupIn [line, line'] key = lookupIn [line', line] key := by
  have hpair : ∀ a b : List Char,
      lookupIn [a, b] key = (lookupIn [a] key).or (lookupIn [b] key) :=
    fun a b => lookupIn_append [a] [b] key
  rw [hpair, hpair]
  rcases hline : lookupIn [line] key with - | value
  · rw [Option.none_or, Option.or_none]
  · -- the other line has nothing for this key
    have hnone : lookupIn [line'] key = none :=
      lookupIn_singleton_eq_none_iff.mpr fun value' =>
        h key value value' (lookupIn_singleton_eq_some_iff.mp hline)
    rw [hnone, Option.or_none, Option.none_or]

/-- Lines for different keys may be read in any order. -/
theorem lookupIn_perm {lines lines' : List (List Char)} (hperm : lines.Perm lines')
    (hapart : lines.Pairwise Apart) (key : String) : lookupIn lines key = lookupIn lines' key := by
  induction hperm with
  | nil => rfl
  | cons line _ ih =>
    rw [← List.singleton_append, lookupIn_append, ih (List.pairwise_cons.mp hapart).2,
      ← lookupIn_append, List.singleton_append]
  | swap a b lines =>
    have hpair : ∀ x y : List Char,
        lookupIn (x :: y :: lines) key = (lookupIn [x, y] key).or (lookupIn lines key) :=
      fun x y => lookupIn_append [x, y] lines key
    have hab := (List.pairwise_cons.mp hapart).1 a (List.mem_cons_self ..)
    rw [hpair, hpair, lookupIn_swap hab]
  | trans hfirst _ ih ih' =>
    exact (ih hapart).trans (ih' (hfirst.pairwise hapart Apart.symm))

/-- **Every key keeps its value when lines are rearranged.** -/
theorem lookupIn_rearranged {lines lines' : List (List Char)} (h : Rearranged lines lines')
    (key : String) : lookupIn lines key = lookupIn lines' key := by
  induction h with
  | refl lines => rfl
  | @add front back line hidle =>
    have hnone : lookupIn [line] key = none := by
      simp [lookupIn, ofLine_of_idle hidle]
    rw [← List.singleton_append, lookupIn_append, lookupIn_append, lookupIn_append, hnone,
      Option.none_or]
  | reorder hperm hapart =>
    rw [lookupIn_append, lookupIn_append, lookupIn_append, lookupIn_append,
      lookupIn_perm hperm hapart]
  | symm _ ih => exact ih.symm
  | trans _ _ ih ih' => exact ih.trans ih'

/-- **A text says the same when its lines are rearranged.** -/
theorem value?_rearranged {text text' : String}
    (h : Rearranged (Text.lines text.toList) (Text.lines text'.toList)) :
    (ofText text).value? = (ofText text').value? :=
  funext fun key => lookupIn_rearranged h key

end KeyValues

end MotionBridge
