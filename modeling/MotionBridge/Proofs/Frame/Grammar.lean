/-
MotionBridge/Proofs/Frame/Grammar.lean

What a buffer is read as, told by positions alone.

An end mark *closes* when a start mark stands before it.  The search keeps a
running start mark and stops at the first end mark that finds one; told by
positions, that is the least closing position and the greatest start mark below
it (`closing_marked`).  So a buffer is incomplete exactly when nothing closes in
it, and is otherwise judged by the bytes between those two positions
(`validate_grammar`).
-/
import Mathlib.Order.Bounds.Basic
import MotionBridge.Proofs.Frame.Corruption

namespace MotionBridge

/-- The positions of end marks that have a start mark before them. -/
def closings (buffer : Bytes) : Set Nat :=
  {e | buffer[e]? = some etx ∧ ∃ s < e, buffer[s]? = some stx}

/-- The positions of start marks below a position. -/
def openings (buffer : Bytes) (e : Nat) : Set Nat :=
  {s | s < e ∧ buffer[s]? = some stx}

/-! ### Quiet buffers -/

/-- **Nothing closes in a quiet buffer**, and only there. -/
theorem quiet_iff_closings {buffer : Bytes} : Quiet buffer ↔ ∀ e, e ∉ closings buffer := by
  rw [quiet_iff_unclosed]
  constructor
  · rintro h e ⟨hetx, s, hlt, hstx⟩
    obtain ⟨hs, hx⟩ := List.getElem?_eq_some_iff.mp hstx
    have hsplit : buffer = buffer.take s ++ stx :: buffer.drop (s + 1) := by
      rw [← hx, ← List.drop_eq_getElem_cons hs, List.take_append_drop]
    refine h _ _ hsplit (List.mem_of_getElem? (i := e - (s + 1)) ?_)
    rw [List.getElem?_drop, Nat.add_sub_cancel' hlt, hetx]
  · rintro h front back rfl hmem
    obtain ⟨k, hk⟩ := List.mem_iff_getElem?.mp hmem
    refine h (front.length + (k + 1)) ⟨?_, front.length, by omega, ?_⟩
    · rw [List.getElem?_append_right (Nat.le_add_right ..), Nat.add_sub_cancel_left,
        List.getElem?_cons_succ, hk]
    · rw [List.getElem?_append_right (Nat.le_refl _), Nat.sub_self, List.getElem?_cons_zero]

/-! ### The first span -/

section Marked

variable {noise body rest : Bytes}

/-- Behind a quiet part, a start mark and unmarked bytes: where the marks of
the buffer stand up to the end mark. -/
theorem getElem?_marked (noise body rest : Bytes) :
    (noise ++ (stx :: body ++ etx :: rest))[noise.length]? = some stx ∧
      (∀ k, k < body.length →
        (noise ++ (stx :: body ++ etx :: rest))[noise.length + 1 + k]? = body[k]?) ∧
      (noise ++ (stx :: body ++ etx :: rest))[noise.length + body.length + 1]? = some etx := by
  refine ⟨?_, ?_, ?_⟩
  · simp
  · intro k hk
    rw [Nat.add_assoc, List.getElem?_append_right (Nat.le_add_right ..), Nat.add_sub_cancel_left,
      Nat.add_comm 1 k, List.cons_append, List.getElem?_cons_succ, List.getElem?_append_left hk]
  · rw [Nat.add_assoc, List.getElem?_append_right (Nat.le_add_right ..), Nat.add_sub_cancel_left,
      List.cons_append, List.getElem?_cons_succ, List.getElem?_append_right (Nat.le_refl _),
      Nat.sub_self, List.getElem?_cons_zero]

/-- No mark stands strictly between the two. -/
theorem unmarked_between (hbody : Unmarked body) {i : Nat} (hs : noise.length < i)
    (he : i < noise.length + body.length + 1) :
    (noise ++ (stx :: body ++ etx :: rest))[i]? ≠ some stx ∧
      (noise ++ (stx :: body ++ etx :: rest))[i]? ≠ some etx := by
  obtain ⟨k, rfl⟩ := Nat.exists_eq_add_of_le (Nat.succ_le_of_lt hs)
  have hk : k < body.length := by omega
  rw [Nat.succ_eq_add_one, (getElem?_marked noise body rest).2.1 k hk]
  exact ⟨fun h => (hbody stx (List.mem_of_getElem? h)).1 rfl,
    fun h => (hbody etx (List.mem_of_getElem? h)).2 rfl⟩

/-- **The marks of the first span are the least closing position and the
greatest start mark below it.** -/
theorem closing_marked (hnoise : Quiet noise) (hbody : Unmarked body) :
    IsLeast (closings (noise ++ (stx :: body ++ etx :: rest))) (noise.length + body.length + 1) ∧
      IsGreatest (openings (noise ++ (stx :: body ++ etx :: rest)) (noise.length + body.length + 1))
        noise.length := by
  obtain ⟨hstx, -, hetx⟩ := getElem?_marked noise body rest
  refine ⟨⟨⟨hetx, noise.length, by omega, hstx⟩, ?_⟩, ⟨⟨by omega, hstx⟩, ?_⟩⟩
  · -- an earlier one would lie in the noise, where nothing closes
    rintro e ⟨he, s, hlt, hs⟩
    by_contra hless
    rcases Nat.lt_trichotomy e noise.length with hin | rfl | hbetween
    · rw [List.getElem?_append_left hin] at he
      rw [List.getElem?_append_left (Nat.lt_trans hlt hin)] at hs
      exact quiet_iff_closings.mp hnoise e ⟨he, s, hlt, hs⟩
    · rw [hstx] at he
      exact absurd (Option.some_inj.mp he) (by decide)
    · exact (unmarked_between hbody hbetween (Nat.lt_of_not_le hless)).2 he
  · rintro s ⟨hlt, hs⟩
    by_contra hless
    exact (unmarked_between hbody (Nat.lt_of_not_le hless) hlt).1 hs

/-- The bytes of the span, and those between its start mark and its
checksum. -/
theorem extract_marked (noise body rest : Bytes) :
    (noise ++ (stx :: body ++ etx :: rest)).extract noise.length (noise.length + body.length + 2)
        = stx :: body ++ [etx] ∧
      (noise ++ (stx :: body ++ etx :: rest)).extract (noise.length + 1)
          (noise.length + body.length)
        = body.dropLast := by
  constructor
  · have hwidth : noise.length + body.length + 2 - noise.length
        = (stx :: body ++ [etx]).length := by
      simp only [List.length_append, List.length_cons, List.length_nil]
      omega
    rw [List.extract_eq_take_drop, List.drop_left, hwidth,
      show stx :: body ++ etx :: rest = (stx :: body ++ [etx]) ++ rest by simp, List.take_left]
  · have hwidth : noise.length + body.length - (noise.length + 1) = body.length - 1 := by omega
    rw [List.extract_eq_take_drop, ← List.drop_drop, List.drop_left, hwidth, List.cons_append,
      List.drop_one, List.tail_cons, List.take_append_of_le_length (Nat.sub_le ..),
      ← List.dropLast_eq_take]

/-- The span closes exactly when there is room for a checksum between its marks
and the byte before the end mark is that of the bytes before it. -/
theorem closes_iff_extract (noise body rest : Bytes) :
    Checksum.closes (stx :: body ++ [etx]) = true ↔
      2 ≤ noise.length + body.length + 1 - noise.length ∧
        (noise ++ (stx :: body ++ etx :: rest))[noise.length + body.length]?
          = some (Checksum.xorAll
              ((noise ++ (stx :: body ++ etx :: rest)).extract (noise.length + 1)
                (noise.length + body.length)) ||| 0x80) := by
  rw [(extract_marked noise body rest).2]
  rcases List.eq_nil_or_concat body with rfl | ⟨covered, sum, rfl⟩
  · rw [closes_empty]
    simp
  · have hlast := (getElem?_marked noise (covered ++ [sum]) rest).2.1 covered.length (by simp)
    have hat : noise.length + (covered ++ [sum]).length = noise.length + 1 + covered.length := by
      rw [List.length_append, List.length_singleton]
      omega
    rw [List.concat_eq_append, closes_iff, List.dropLast_concat, hat, hlast,
      List.getElem?_append_right (Nat.le_refl _), Nat.sub_self, List.getElem?_cons_zero,
      Option.some_inj]
    exact (and_iff_right (by omega)).symm

end Marked

/-! ### Judgement by positions -/

/-- What a buffer whose first span has its marks at `s` and `e` is read as. -/
def judgement (buffer : Bytes) (s e : Nat) : Except FrameError Frame :=
  if 2 ≤ e - s ∧
      buffer[e - 1]? = some (Checksum.xorAll (buffer.extract (s + 1) (e - 1)) ||| 0x80) then
    .ok { node := (buffer.getD (s + 1) 0).toNat - 10
          bytes := buffer.extract s (e + 1)
          start := s
          stop := e + 1 }
  else .error (.checksumMismatch e)

/-- A buffer with a span is judged by it. -/
theorem validate_judgement {noise body rest : Bytes} (hnoise : Quiet noise)
    (hbody : Unmarked body) :
    validate (noise ++ (stx :: body ++ etx :: rest))
      = judgement (noise ++ (stx :: body ++ etx :: rest)) noise.length
          (noise.length + body.length + 1) := by
  rw [hnoise.validate_marked hbody rest, judgement, Nat.add_sub_cancel]
  by_cases hcloses : Checksum.closes (stx :: body ++ [etx]) = true
  · rw [if_pos hcloses, if_pos ((closes_iff_extract noise body rest).mp hcloses)]
    have hfirst : (noise ++ (stx :: body ++ etx :: rest)).getD (noise.length + 1) 0
        = (stx :: body ++ [etx]).getD 1 0 := by
      rw [List.getD_eq_getElem?_getD, List.getElem?_append_right (Nat.le_add_right ..),
        Nat.add_sub_cancel_left]
      cases body <;> rfl
    rw [(extract_marked noise body rest).1, hfirst]
    simp [frameAt, Nat.add_assoc, addressOffset]
  · rw [if_neg hcloses, if_neg (fun h => hcloses ((closes_iff_extract noise body rest).mpr h))]

/-- What was read does not change when more bytes follow. -/
theorem validate_append {buffer : Bytes} (h : validate buffer ≠ .error .incomplete)
    (more : Bytes) : validate (buffer ++ more) = validate buffer := by
  rcases hnext : nextSpan buffer with - | ⟨found, rest⟩
  · exact absurd (by rw [validate_eq, hnext]) h
  · rw [validate_eq, nextSpan_append hnext more, validate_eq buffer, hnext]
    rcases found with f | etxAt <;> rfl

/-- A buffer is incomplete exactly when it is quiet. -/
theorem validate_eq_incomplete_iff {buffer : Bytes} :
    validate buffer = .error .incomplete ↔ Quiet buffer := by
  rw [validate_eq, Quiet]
  rcases nextSpan buffer with - | ⟨- | -, -⟩ <;> simp

/-- **A buffer is read by its grammar.**  It is incomplete exactly when nothing
closes in it.  Otherwise there is a least closing position and a greatest start
mark below it; no mark stands between the two, the bytes from one through the
other are what is judged, and nothing that follows them matters. -/
theorem validate_grammar (buffer : Bytes) :
    (validate buffer = .error .incomplete ↔ ∀ e, e ∉ closings buffer) ∧
      (validate buffer ≠ .error .incomplete →
        ∃ s e, IsLeast (closings buffer) e ∧ IsGreatest (openings buffer e) s) ∧
      (∀ s e, IsLeast (closings buffer) e → IsGreatest (openings buffer e) s →
        (∀ i, s < i → i < e → buffer[i]? ≠ some stx ∧ buffer[i]? ≠ some etx) ∧
        validate buffer = judgement buffer s e) ∧
      (validate buffer ≠ .error .incomplete →
        ∀ more, validate (buffer ++ more) = validate buffer) := by
  have hincomplete : validate buffer = .error .incomplete ↔ ∀ e, e ∉ closings buffer :=
    validate_eq_incomplete_iff.trans quiet_iff_closings
  have hsplit : validate buffer ≠ .error .incomplete →
      ∃ noise body rest, buffer = noise ++ (stx :: body ++ etx :: rest) ∧ Unmarked body ∧
        Quiet noise := by
    intro h
    rw [Ne, validate_eq_incomplete_iff, quiet_iff] at h
    obtain ⟨⟨s, e⟩, hmarks⟩ := Option.ne_none_iff_exists'.mp h
    obtain ⟨noise, body, rest, heq, hbody, hnoise, -, -⟩ := findSpan_split hmarks
    exact ⟨noise, body, rest, heq, hbody, hnoise⟩
  refine ⟨hincomplete, ?_, ?_, validate_append⟩
  · intro h
    obtain ⟨noise, body, rest, rfl, hbody, hnoise⟩ := hsplit h
    exact ⟨_, _, closing_marked hnoise hbody⟩
  · intro s e he hs
    obtain ⟨noise, body, rest, rfl, hbody, hnoise⟩ :=
      hsplit fun h => hincomplete.mp h e he.1
    obtain ⟨hleast, hgreatest⟩ := @closing_marked noise body rest hnoise hbody
    obtain rfl := he.unique hleast
    obtain rfl := hs.unique hgreatest
    exact ⟨fun i => unmarked_between hbody, validate_judgement hnoise hbody⟩

/-- Stray marks ahead of a frame are skipped, and a span of two marks alone is
refused. -/
example : validate [0x03, 0x02, 0x41, 0x02, 0x0D, 0x8D, 0x03, 0x03]
      = judgement [0x03, 0x02, 0x41, 0x02, 0x0D, 0x8D, 0x03, 0x03] 3 6 ∧
    validate [0x02, 0x03] = .error (.checksumMismatch 1) := by
  decide

end MotionBridge
