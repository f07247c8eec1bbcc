/-
MotionBridge/Proofs/Frame/Found.lean

What a found frame says about the buffer.

The search for a span is turned around: where it finds two marks, the buffer
is a quiet part, the marks with unmarked bytes between them, and a rest
(`findSpan_split`).  So a buffer is read as a frame exactly when a good frame
stands in it behind a quiet part (`validate_ok_iff`).

Bytes that end with their only end mark (`Terminated`), as replies on the bus
do, leave no rest: the frame found in them is their tail.
-/
import MotionBridge.Proofs.Frame.Enclose

namespace MotionBridge

/-! ### The marks that were found -/

/-- Where the search finds two marks, the start mark is either in the buffer,
behind bytes that complete no span, or was seen before it. -/
theorem findSpan_cases {last : Option Nat} {b : Bytes} {s e : Nat} :
    ∀ {i : Nat}, findSpan i last b = some (s, e) →
      (∃ noise body rest, b = noise ++ (stx :: body ++ etx :: rest) ∧ Unmarked body ∧
        findSpan i last noise = none ∧ s = i + noise.length ∧ e = s + body.length + 1) ∨
      (∃ body rest, b = body ++ etx :: rest ∧ Unmarked body ∧ last = some s ∧
        e = i + body.length) := by
  induction b generalizing last with
  | nil =>
    intro i h
    cases h
  | cons x b ih =>
    intro i h
    simp only [findSpan] at h
    by_cases hs : x = stx
    · -- a start mark: what was seen before it no longer counts
      subst hs
      rw [if_pos rfl] at h
      left
      obtain ⟨noise, body, rest, rfl, hbody, hnoise, rfl, rfl⟩ |
        ⟨body, rest, rfl, hbody, hlast, rfl⟩ := ih h
      · refine ⟨stx :: noise, body, rest, rfl, hbody, ?_, ?_, rfl⟩
        · rw [findSpan_stx]
          exact hnoise
        · rw [List.length_cons]
          omega
      · cases hlast
        exact ⟨[], body, rest, rfl, hbody, rfl, rfl, by omega⟩
    · rw [if_neg hs] at h
      by_cases he : x = etx
      · subst he
        rw [if_pos rfl] at h
        cases last with
        | some seen =>
          right
          cases h
          exact ⟨[], b, rfl, unmarked_nil, rfl, rfl⟩
        | none =>
          -- an end mark with nothing before it is passed over
          obtain ⟨noise, body, rest, rfl, hbody, hnoise, rfl, rfl⟩ | ⟨body, rest, -, -, hlast, -⟩ :=
            ih h
          · left
            refine ⟨etx :: noise, body, rest, rfl, hbody, ?_, ?_, rfl⟩
            · simpa [findSpan, hs] using hnoise
            · rw [List.length_cons]
              omega
          · cases hlast
      · rw [if_neg he] at h
        obtain ⟨noise, body, rest, rfl, hbody, hnoise, rfl, rfl⟩ |
          ⟨body, rest, rfl, hbody, hlast, rfl⟩ := ih h
        · left
          refine ⟨x :: noise, body, rest, rfl, hbody, ?_, ?_, rfl⟩
          · rw [findSpan_skip hs he]
            exact hnoise
          · rw [List.length_cons]
            omega
        · right
          refine ⟨x :: body, rest, rfl, Unmarked.cons ⟨hs, he⟩ hbody, hlast, ?_⟩
          rw [List.length_cons]
          omega

/-- **The first span splits the buffer** into a quiet part, the span, and a
rest. -/
theorem findSpan_split {b : Bytes} {s e : Nat} (h : findSpan 0 none b = some (s, e)) :
    ∃ noise body rest, b = noise ++ (stx :: body ++ etx :: rest) ∧ Unmarked body ∧
      Quiet noise ∧ s = noise.length ∧ e = noise.length + body.length + 1 := by
  obtain ⟨noise, body, rest, hb, hbody, hnoise, rfl, rfl⟩ | ⟨body, rest, -, -, hlast, -⟩ :=
    findSpan_cases h
  · rw [Nat.zero_add]
    exact ⟨noise, body, rest, hb, hbody, quiet_iff.mpr hnoise, rfl, rfl⟩
  · cases hlast

/-! ### Good frames -/

/-- **A buffer is read as a frame exactly when a good one stands in it**
behind a quiet part. -/
theorem validate_ok_iff {b : Bytes} {f : Frame} :
    validate b = .ok f ↔
      ∃ noise rest, b = noise ++ (f.bytes ++ rest) ∧ Quiet noise ∧ IsFrame f.bytes ∧
        f = frameAt noise.length f.bytes := by
  constructor
  · intro h
    rw [validate_eq] at h
    rcases hnext : nextSpan b with - | ⟨found, left⟩
    · rw [hnext] at h
      cases h
    · rw [hnext] at h
      obtain ⟨s, e, hmarks, -, -, -, -⟩ := nextSpan_some hnext
      obtain ⟨noise, body, rest, rfl, hbody, hnoise, -, -⟩ := findSpan_split hmarks
      rw [hnoise.nextSpan_marked hbody rest] at hnext
      by_cases hcloses : Checksum.closes (stx :: body ++ [etx]) = true
      · rw [if_pos hcloses] at hnext
        cases hnext
        cases h
        refine ⟨noise, left, ?_, hnoise, ⟨⟨body, hbody, rfl⟩, hcloses⟩, ?_⟩
        · simp
        · simp [frameAt, Nat.add_assoc]
      · rw [if_neg hcloses] at hnext
        cases hnext
        cases h
  · rintro ⟨noise, rest, rfl, hnoise, hframe, hf⟩
    rw [validate_eq, hnoise.nextSpan_frame hframe rest]
    exact congrArg Except.ok hf.symm

/-- A buffer that is read as a frame from end to end is that frame. -/
theorem isFrame_of_validate {b : Bytes} {f : Frame} (h : validate b = .ok f) (hstart : f.start = 0)
    (hstop : f.stop = b.length) : IsFrame b := by
  obtain ⟨noise, rest, rfl, -, hframe, hf⟩ := validate_ok_iff.mp h
  rw [hf] at hstart hstop
  obtain rfl : noise = [] := List.eq_nil_of_length_eq_zero hstart
  have hrest : rest.length = 0 := by
    simp only [frameAt, List.length_append, List.length_nil] at hstop
    omega
  obtain rfl : rest = [] := List.eq_nil_of_length_eq_zero hrest
  rw [List.append_nil, List.nil_append]
  exact hframe

/-! ### Terminated bytes -/

/-- Bytes that end with the only end mark among them. -/
def Terminated (bytes : Bytes) : Prop :=
  ∃ front, etx ∉ front ∧ bytes = front ++ [etx]

theorem terminated_etx : Terminated [etx] :=
  ⟨[], List.not_mem_nil, rfl⟩

theorem Terminated.cons {x : UInt8} {bytes : Bytes} (hx : x ≠ etx) (h : Terminated bytes) :
    Terminated (x :: bytes) := by
  obtain ⟨front, hfront, rfl⟩ := h
  refine ⟨x :: front, ?_, rfl⟩
  intro hmem
  cases hmem with
  | head => exact hx rfl
  | tail _ hmem => exact hfront hmem

/-- An end mark in terminated bytes is their last byte. -/
theorem Terminated.eq_nil_of_etx {a rest : Bytes} (h : Terminated (a ++ etx :: rest)) :
    rest = [] := by
  obtain ⟨front, hfront, heq⟩ := h
  cases rest with
  | nil => rfl
  | cons x rest =>
    have hdrop := congrArg List.dropLast heq
    rw [List.dropLast_concat, List.dropLast_append_of_ne_nil (List.cons_ne_nil _ _),
      List.dropLast_cons_of_ne_nil (List.cons_ne_nil _ _)] at hdrop
    exact absurd (hdrop ▸ List.mem_append_right _ (List.mem_cons_self ..)) hfront

/-- **The frame in terminated bytes is their tail**: what stands before it
is noise, and nothing follows. -/
theorem Terminated.validate {bytes : Bytes} (h : Terminated bytes) {f : Frame}
    (hf : validate bytes = .ok f) :
    ∃ noise, bytes = noise ++ f.bytes ∧ Quiet noise ∧ IsFrame f.bytes ∧
      f.start = noise.length ∧ f.stop = bytes.length := by
  obtain ⟨noise, rest, rfl, hnoise, hframe, hat⟩ := validate_ok_iff.mp hf
  obtain ⟨body, -, hmarked⟩ := hframe.marked
  have hrest : rest = [] := by
    refine Terminated.eq_nil_of_etx (a := noise ++ stx :: body) ?_
    rw [hmarked] at h
    simpa using h
  subst hrest
  rw [List.append_nil]
  refine ⟨noise, rfl, hnoise, hframe, ?_, ?_⟩
  · rw [hat]
    rfl
  · rw [hat, List.length_append]
    rfl

end MotionBridge
