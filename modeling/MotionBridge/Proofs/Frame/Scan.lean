/-
MotionBridge/Proofs/Frame/Scan.lean

What the search for a span makes of bytes that come later.

A span, once complete, stays the first one whatever follows it
(`nextSpan_append`).  A buffer is *quiet* when it holds no complete span, which
is when no end mark in it stands behind a start mark (`quiet_iff_unclosed`); the
search through a quiet buffer leaves nothing behind but the last start mark
it saw, so whatever completes a span lies behind the quiet part
(`Quiet.lt_width`, `Quiet.nextSpan_frame`).
-/
import MotionBridge.Frame.Stream

namespace MotionBridge

/-! ### The two marks -/

/-- The end mark of the first span lies in the buffer. -/
theorem findSpan_etx_bounds {i : Nat} {last : Option Nat} {b : Bytes} {s e : Nat}
    (h : findSpan i last b = some (s, e)) : i ≤ e ∧ e < i + b.length := by
  induction b generalizing i last with
  | nil => simp [findSpan] at h
  | cons x rest ih =>
    simp only [findSpan] at h
    simp only [List.length_cons]
    split at h
    · have := ih h
      omega
    · split at h
      · rcases last with - | l
        · have := ih h
          omega
        · simp only [Option.some.injEq, Prod.mk.injEq] at h
          omega
      · have := ih h
        omega

/-- The start mark of the first span comes before its end mark. -/
theorem findSpan_stx_lt {i : Nat} {last : Option Nat} {b : Bytes} {s e : Nat}
    (hlast : ∀ l, last = some l → l < i) (h : findSpan i last b = some (s, e)) : s < e := by
  induction b generalizing i last with
  | nil => simp [findSpan] at h
  | cons x rest ih =>
    simp only [findSpan] at h
    split at h
    · -- a start mark: it is remembered, and lies before all that follows
      exact ih (by rintro l ⟨⟩; omega) h
    · split at h
      · rcases last with - | l
        · exact ih (by rintro l ⟨⟩) h
        · simp only [Option.some.injEq, Prod.mk.injEq] at h
          obtain ⟨rfl, rfl⟩ := h
          exact hlast l rfl
      · exact ih (fun l hl => Nat.lt_succ_of_lt (hlast l hl)) h

/-- Bytes behind a complete span do not change which marks are found. -/
theorem findSpan_append {i : Nat} {last : Option Nat} {a : Bytes} {p : Nat × Nat}
    (h : findSpan i last a = some p) (b : Bytes) : findSpan i last (a ++ b) = some p := by
  induction a generalizing i last with
  | nil => simp [findSpan] at h
  | cons x rest ih =>
    simp only [findSpan] at h
    simp only [List.cons_append, findSpan]
    split at h
    · -- a start mark
      rw [if_pos ‹_›]
      exact ih h
    · rw [if_neg ‹_›]
      split at h
      · -- an end mark, which ends the span if one was begun
        rw [if_pos ‹_›]
        rcases last with - | l
        · exact ih h
        · exact h
      · -- any other byte
        rw [if_neg ‹_›]
        exact ih h

/-- The search goes through bytes without a complete span and carries on with
the last start mark it saw there. -/
theorem findSpan_resume {i : Nat} {last : Option Nat} {a : Bytes}
    (h : findSpan i last a = none) :
    ∃ seen, ∀ b, findSpan i last (a ++ b) = findSpan (i + a.length) seen b := by
  induction a generalizing i last with
  | nil => exact ⟨last, fun b => rfl⟩
  | cons x rest ih =>
    have carry : ∀ {last' : Option Nat}, findSpan (i + 1) last' rest = none →
        ∃ seen, ∀ b, findSpan (i + 1) last' (rest ++ b)
          = findSpan (i + (rest.length + 1)) seen b := by
      intro last' h'
      obtain ⟨seen, hseen⟩ := ih h'
      exact ⟨seen, fun b => by rw [hseen b]; congr 1; omega⟩
    simp only [List.cons_append, findSpan, List.length_cons] at h ⊢
    split at h
    · simpa only [if_pos ‹x = stx›] using carry h
    · split at h
      · rcases last with - | l
        · simpa only [if_neg ‹¬x = stx›, if_pos ‹x = etx›] using carry h
        · cases h
      · simpa only [if_neg ‹¬x = stx›, if_neg ‹¬x = etx›] using carry h

/-- A start mark is remembered. -/
theorem findSpan_stx (i : Nat) (last : Option Nat) (rest : Bytes) :
    findSpan i last (stx :: rest) = findSpan (i + 1) (some i) rest := by
  simp [findSpan]

/-- A byte that is no mark is passed over. -/
theorem findSpan_skip {i : Nat} {last : Option Nat} {x : UInt8} {rest : Bytes}
    (hs : x ≠ stx) (he : x ≠ etx) :
    findSpan i last (x :: rest) = findSpan (i + 1) last rest := by
  simp [findSpan, hs, he]

/-- Bytes are unmarked when neither mark is among them. -/
def Unmarked (body : Bytes) : Prop :=
  ∀ x ∈ body, x ≠ stx ∧ x ≠ etx

instance (body : Bytes) : Decidable (Unmarked body) :=
  List.decidableBAll _ body

theorem unmarked_nil : Unmarked [] :=
  fun _ hx => absurd hx List.not_mem_nil

/-- Unmarked bytes and an end mark hold no start mark. -/
theorem Unmarked.stx_not_mem {body : Bytes} (h : Unmarked body) : stx ∉ body ++ [etx] := by
  intro hmem
  rcases List.mem_append.mp hmem with hmem | hmem
  · exact (h stx hmem).1 rfl
  · exact absurd (List.mem_singleton.mp hmem) (by decide)

/-- Behind a start mark, unmarked bytes run on to the next end mark. -/
theorem findSpan_unmarked {i s : Nat} {body : Bytes} (hbody : Unmarked body) (rest : Bytes) :
    findSpan i (some s) (body ++ etx :: rest) = some (s, i + body.length) := by
  induction body generalizing i with
  | nil => rfl
  | cons x body ih =>
    obtain ⟨hs, he⟩ := hbody x (List.mem_cons_self ..)
    have hrest : Unmarked body := fun y hy => hbody y (List.mem_cons_of_mem x hy)
    rw [List.cons_append, findSpan_skip hs he, ih hrest, List.length_cons]
    congr 2
    omega

/-- Unmarked bytes complete no span. -/
theorem findSpan_eq_none_of_unmarked {i : Nat} {last : Option Nat} {body : Bytes}
    (hbody : Unmarked body) : findSpan i last body = none := by
  induction body generalizing i with
  | nil => rfl
  | cons x body ih =>
    obtain ⟨hs, he⟩ := hbody x (List.mem_cons_self ..)
    have hrest : Unmarked body := fun y hy => hbody y (List.mem_cons_of_mem x hy)
    rw [findSpan_skip hs he, ih hrest]

/-- Behind a start mark the search ends at the first end mark. -/
theorem findSpan_some_eq_none_iff {i s : Nat} {b : Bytes} :
    findSpan i (some s) b = none ↔ etx ∉ b := by
  induction b generalizing i s with
  | nil => simp [findSpan]
  | cons x rest ih =>
    have hne : stx ≠ etx := by decide
    rw [List.mem_cons]
    by_cases hs : x = stx
    · subst hs
      rw [findSpan_stx, ih]
      simp [hne.symm]
    · by_cases he : x = etx
      · subst he
        simp [findSpan, hs]
      · rw [findSpan_skip hs he, ih]
        simp [Ne.symm he]

/-! ### The first span -/

/-- The bytes between two marks are the same when more bytes follow. -/
theorem slice_append {a : Bytes} {s e : Nat} (hs : s ≤ e) (he : e < a.length) (b : Bytes) :
    slice (a ++ b) s e = slice a s e := by
  unfold slice
  rw [List.drop_append_of_le_length (by omega),
    List.take_append_of_le_length (by rw [List.length_drop]; omega)]

/-- The span between two marks of a buffer, judged by its checksum. -/
def spanBetween (buffer : Bytes) (s e : Nat) : Span :=
  if Checksum.closes (slice buffer s e) then
    .frame ⟨((slice buffer s e).getD 1 0).toNat - addressOffset, slice buffer s e, s, e + 1⟩
  else .mismatch e

/-- How many bytes a span takes off the buffer it was found in. -/
def Span.width : Span → Nat
  | .frame f => f.stop
  | .mismatch etxAt => etxAt + 1

@[simp] theorem width_spanBetween (buffer : Bytes) (s e : Nat) :
    (spanBetween buffer s e).width = e + 1 := by
  unfold spanBetween
  split <;> rfl

/-- The first span is the one between the first span's marks, and the rest
begins behind its end mark. -/
theorem nextSpan_eq (buffer : Bytes) :
    nextSpan buffer
      = (findSpan 0 none buffer).map fun p =>
          (spanBetween buffer p.1 p.2, buffer.drop (p.2 + 1)) := by
  unfold nextSpan validate
  rcases findSpan 0 none buffer with - | ⟨s, e⟩
  · rfl
  · by_cases hc : Checksum.closes (slice buffer s e) <;> simp [spanBetween, hc]

/-- A first span comes from a pair of marks in the buffer. -/
theorem nextSpan_some {buffer : Bytes} {found : Span} {rest : Bytes}
    (h : nextSpan buffer = some (found, rest)) :
    ∃ s e, findSpan 0 none buffer = some (s, e) ∧ s < e ∧ e < buffer.length ∧
      found = spanBetween buffer s e ∧ rest = buffer.drop (e + 1) := by
  rw [nextSpan_eq] at h
  obtain ⟨⟨s, e⟩, hf, hp⟩ := Option.map_eq_some_iff.mp h
  have hs : s < e := findSpan_stx_lt (by rintro l ⟨⟩) hf
  have he : e < 0 + buffer.length := (findSpan_etx_bounds hf).2
  simp only [Prod.mk.injEq] at hp
  exact ⟨s, e, hf, hs, by omega, hp.1.symm, hp.2.symm⟩

/-- A span takes exactly its width off the front of the buffer. -/
theorem nextSpan_width {buffer : Bytes} {found : Span} {rest : Bytes}
    (h : nextSpan buffer = some (found, rest)) :
    found.width ≤ buffer.length ∧ rest = buffer.drop found.width := by
  obtain ⟨s, e, -, -, he, rfl, rfl⟩ := nextSpan_some h
  rw [width_spanBetween]
  exact ⟨he, rfl⟩

/-- **A complete span stays the first one**, whatever bytes follow. -/
theorem nextSpan_append {a : Bytes} {found : Span} {rest : Bytes}
    (h : nextSpan a = some (found, rest)) (b : Bytes) :
    nextSpan (a ++ b) = some (found, rest ++ b) := by
  obtain ⟨s, e, hf, hs, he, rfl, rfl⟩ := nextSpan_some h
  rw [nextSpan_eq, findSpan_append hf b, Option.map_some]
  simp only [spanBetween, slice_append (by omega : s ≤ e) he b]
  rw [List.drop_append_of_le_length (by omega)]

/-! ### Quiet buffers -/

/-- A buffer is quiet when it holds no complete span. -/
def Quiet (buffer : Bytes) : Prop :=
  nextSpan buffer = none

instance (buffer : Bytes) : Decidable (Quiet buffer) :=
  inferInstanceAs (Decidable (nextSpan buffer = none))

theorem quiet_iff {buffer : Bytes} : Quiet buffer ↔ findSpan 0 none buffer = none := by
  rw [Quiet, nextSpan_eq, Option.map_eq_none_iff]

theorem quiet_nil : Quiet [] := rfl

/-- Bytes are *unclosed* when no end mark among them stands behind a start
mark. -/
def Unclosed (bytes : Bytes) : Prop :=
  ∀ front back, bytes = front ++ stx :: back → etx ∉ back

theorem unclosed_nil : Unclosed [] := by
  intro front back h
  simp at h

theorem unclosed_cons_iff {x : UInt8} {rest : Bytes} :
    Unclosed (x :: rest) ↔ (x = stx → etx ∉ rest) ∧ Unclosed rest := by
  constructor
  · intro h
    refine ⟨?_, ?_⟩
    · rintro rfl
      exact h [] rest rfl
    · rintro front back rfl
      exact h (x :: front) back rfl
  · rintro ⟨hfirst, hrest⟩ front back heq
    rcases front with - | ⟨y, front⟩
    · cases heq
      exact hfirst rfl
    · cases heq
      exact hrest front back rfl

/-- **Quiet bytes are those that are unclosed.** -/
theorem quiet_iff_unclosed {bytes : Bytes} : Quiet bytes ↔ Unclosed bytes := by
  rw [quiet_iff]
  suffices h : ∀ i, findSpan i none bytes = none ↔ Unclosed bytes from h 0
  induction bytes with
  | nil => simp [findSpan, unclosed_nil]
  | cons x rest ih =>
    intro i
    rw [unclosed_cons_iff]
    by_cases hs : x = stx
    · subst hs
      rw [findSpan_stx, findSpan_some_eq_none_iff]
      constructor
      · intro h
        refine ⟨fun _ => h, ?_⟩
        rintro front back rfl
        exact fun hmem => h (by simp [hmem])
      · exact fun h => h.1 rfl
    · have hskip : findSpan i none (x :: rest) = findSpan (i + 1) none rest := by
        simp [findSpan, hs]
      rw [hskip, ih]
      simp [hs]

/-- Bytes without a start mark hold no span. -/
theorem quiet_of_not_mem {b : Bytes} (h : stx ∉ b) : Quiet b := by
  rw [quiet_iff_unclosed]
  rintro front back rfl
  exact absurd (List.mem_append_right front (List.mem_cons_self ..)) h

instance (bytes : Bytes) : Decidable (Unclosed bytes) :=
  decidable_of_iff (Quiet bytes) quiet_iff_unclosed

/-- One byte is no span: a mark is missing. -/
theorem quiet_singleton (x : UInt8) : Quiet [x] := by
  rw [quiet_iff]
  simp only [findSpan]
  split
  · rfl
  · split <;> rfl

/-- What comes first in a quiet buffer is quiet. -/
theorem Quiet.of_append {a b : Bytes} (h : Quiet (a ++ b)) : Quiet a := by
  rcases ha : nextSpan a with - | ⟨found, rest⟩
  · exact ha
  · have hab := nextSpan_append ha b
    rw [h] at hab
    cases hab

/-- What completes a span lies behind the quiet part. -/
theorem Quiet.lt_width {a b : Bytes} (ha : Quiet a) {found : Span} {rest : Bytes}
    (h : nextSpan (a ++ b) = some (found, rest)) : a.length < found.width := by
  obtain ⟨s, e, hf, -, -, rfl, -⟩ := nextSpan_some h
  obtain ⟨seen, hseen⟩ := findSpan_resume (quiet_iff.mp ha)
  rw [hseen b] at hf
  have he : 0 + a.length ≤ e := (findSpan_etx_bounds hf).1
  rw [width_spanBetween]
  omega

/-- Marks around unmarked bytes, behind a quiet part, are the first span. -/
theorem Quiet.nextSpan_marked {a body : Bytes} (ha : Quiet a) (hbody : Unmarked body)
    (rest : Bytes) :
    nextSpan (a ++ (stx :: body ++ etx :: rest))
      = some (if Checksum.closes (stx :: body ++ [etx]) then
          .frame ⟨((stx :: body ++ [etx]).getD 1 0).toNat - addressOffset, stx :: body ++ [etx],
            a.length, a.length + body.length + 2⟩
        else .mismatch (a.length + body.length + 1), rest) := by
  obtain ⟨seen, hseen⟩ := findSpan_resume (quiet_iff.mp ha)
  have hmarks : findSpan 0 none (a ++ (stx :: body ++ etx :: rest))
      = some (a.length, a.length + body.length + 1) := by
    rw [hseen, List.cons_append, findSpan_stx, findSpan_unmarked hbody rest]
    congr 2 <;> omega
  have hslice : slice (a ++ (stx :: body ++ etx :: rest)) a.length (a.length + body.length + 1)
      = stx :: body ++ [etx] := by
    have hwidth : a.length + body.length + 1 + 1 - a.length = (stx :: body ++ [etx]).length := by
      simp only [List.length_append, List.length_cons, List.length_nil]
      omega
    rw [slice, List.drop_left, hwidth,
      show stx :: body ++ etx :: rest = (stx :: body ++ [etx]) ++ rest by simp, List.take_left]
  have hrest : (a ++ (stx :: body ++ etx :: rest)).drop (a.length + body.length + 2) = rest := by
    rw [show a ++ (stx :: body ++ etx :: rest) = (a ++ (stx :: body ++ [etx])) ++ rest by simp]
    exact List.drop_left' (by simp; omega)
  rw [nextSpan_eq, hmarks, Option.map_some, spanBetween, hslice, hrest]

/-- A start mark and unmarked bytes behind a quiet part leave it quiet. -/
theorem Quiet.append_stx {a body : Bytes} (ha : Quiet a) (hbody : Unmarked body) :
    Quiet (a ++ stx :: body) := by
  rw [quiet_iff] at ha ⊢
  obtain ⟨seen, hseen⟩ := findSpan_resume ha
  rw [hseen, findSpan_stx, findSpan_eq_none_of_unmarked hbody]

/-- An end mark that no start mark precedes is no span. -/
theorem quiet_unmarked_etx {body : Bytes} (hbody : Unmarked body) : Quiet (body ++ [etx]) := by
  rw [quiet_iff]
  suffices h : ∀ i, findSpan i none (body ++ [etx]) = none from h 0
  induction body with
  | nil => intro i; rfl
  | cons x body ih =>
    intro i
    obtain ⟨hs, he⟩ := hbody x (List.mem_cons_self ..)
    have hrest : Unmarked body := fun y hy => hbody y (List.mem_cons_of_mem x hy)
    rw [List.cons_append, findSpan_skip hs he, ih hrest]

/-! ### Frames on the wire -/

/-- A good frame as it stands on the wire: unmarked bytes between the marks,
the last of them the checksum of the others. -/
structure IsFrame (bytes : Bytes) : Prop where
  marked : ∃ body, Unmarked body ∧ bytes = stx :: body ++ [etx]
  closes : Checksum.closes bytes = true

/-- What a good frame is read as, when it begins at `start`. -/
def frameAt (start : Nat) (bytes : Bytes) : Frame where
  node := (bytes.getD 1 0).toNat - addressOffset
  bytes := bytes
  start := start
  stop := start + bytes.length

/-- A frame has two marks and a checksum. -/
theorem IsFrame.three_le_length {bytes : Bytes} (h : IsFrame bytes) : 3 ≤ bytes.length := by
  have hc := h.closes
  rw [Checksum.closes, Bool.and_eq_true, decide_eq_true_iff] at hc
  exact hc.1

/-- **A good frame behind a quiet part is the first span.** -/
theorem Quiet.nextSpan_frame {a bytes : Bytes} (ha : Quiet a) (hf : IsFrame bytes)
    (rest : Bytes) :
    nextSpan (a ++ (bytes ++ rest)) = some (.frame (frameAt a.length bytes), rest) := by
  obtain ⟨body, hbody, rfl⟩ := hf.marked
  have hlen : a.length + (stx :: body ++ [etx]).length = a.length + body.length + 2 := by
    simp only [List.length_append, List.length_cons, List.length_nil]
    omega
  rw [show (stx :: body ++ [etx]) ++ rest = stx :: body ++ etx :: rest by simp,
    ha.nextSpan_marked hbody rest, if_pos hf.closes, frameAt, hlen]

end MotionBridge
