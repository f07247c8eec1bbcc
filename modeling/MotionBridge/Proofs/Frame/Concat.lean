/-
MotionBridge/Proofs/Frame/Concat.lean

The spans of a stream that comes in two parts: those of the first part, and
then those of what it left together with the second (`spans_append`).

The spans of a stream cut it into *gaps*: the bytes from behind one span's
end mark through the next one's, and the tail behind the last.
-/
import MotionBridge.Proofs.Frame.Scan

namespace MotionBridge

/-! ### One span at a time -/

theorem spans_of_quiet {b : Bytes} (h : Quiet b) : spans b = ([], b) := by
  unfold spans
  split
  · rfl
  · rename_i hn
    rw [h] at hn
    cases hn

theorem spans_of_nextSpan {b : Bytes} {found : Span} {rest : Bytes}
    (h : nextSpan b = some (found, rest)) :
    spans b = (found :: (spans rest).1, (spans rest).2) := by
  rw [spans]
  split
  · rename_i hn
    rw [h] at hn
    cases hn
  · rename_i hn
    rw [h] at hn
    obtain ⟨rfl, rfl⟩ := Prod.mk.inj (Option.some.inj hn)
    rfl

/-- Induction along the spans of a buffer. -/
theorem spans_induction {motive : Bytes → Prop}
    (quiet : ∀ b, Quiet b → motive b)
    (span : ∀ b found rest, nextSpan b = some (found, rest) → motive rest → motive b)
    (b : Bytes) : motive b := by
  induction hn : b.length using Nat.strongRecOn generalizing b with
  | ind n ih =>
    rcases h : nextSpan b with - | ⟨found, rest⟩
    · exact quiet b h
    · have hlt : rest.length < n := hn ▸ nextSpan_length_lt h
      exact span b found rest h (ih rest.length hlt rest rfl)

/-- What the spans of a buffer leave holds no further span. -/
theorem quiet_spans_snd (b : Bytes) : Quiet (spans b).2 := by
  induction b using spans_induction with
  | quiet b h => rwa [spans_of_quiet h]
  | span b found rest h ih => rwa [spans_of_nextSpan h]

/-- What the spans of a buffer leave is no longer than the buffer. -/
theorem length_spans_snd_le (b : Bytes) : (spans b).2.length ≤ b.length := by
  induction b using spans_induction with
  | quiet b h => exact Nat.le_of_eq (by rw [spans_of_quiet h])
  | span b found rest h ih =>
    rw [spans_of_nextSpan h]
    have := nextSpan_length_lt h
    show (spans rest).2.length ≤ b.length
    omega

/-! ### Two parts -/

/-- **The spans of a concatenation**: those of the first part, then those of
what it left together with the second. -/
theorem spans_append (a b : Bytes) :
    spans (a ++ b)
      = ((spans a).1 ++ (spans ((spans a).2 ++ b)).1, (spans ((spans a).2 ++ b)).2) := by
  induction a using spans_induction with
  | quiet a h => rw [spans_of_quiet h]; rfl
  | span a found rest h ih =>
    rw [spans_of_nextSpan (nextSpan_append h b), spans_of_nextSpan h, ih]
    rfl

/-- A byte behind a quiet buffer completes at most one span, and that takes
everything. -/
theorem spans_concat_of_quiet {a : Bytes} (ha : Quiet a) (x : UInt8) :
    (∃ found, spans (a ++ [x]) = ([found], []) ∧ found.width = a.length + 1) ∨
      spans (a ++ [x]) = ([], a ++ [x]) := by
  rcases h : nextSpan (a ++ [x]) with - | ⟨found, rest⟩
  · exact Or.inr (spans_of_quiet h)
  · have hlt := ha.lt_width h
    obtain ⟨hle, hrest⟩ := nextSpan_width h
    rw [List.length_append, List.length_singleton] at hle
    -- the span reaches past the quiet part, so to the last byte
    have hwidth : found.width = a.length + 1 := by omega
    have hnil : rest = [] := by
      rw [hrest, hwidth]
      exact List.drop_eq_nil_of_le (by simp)
    refine Or.inl ⟨found, ?_, hwidth⟩
    rw [spans_of_nextSpan h, hnil, spans_of_quiet quiet_nil]

/-! ### Gaps -/

/-- The lengths into which the spans of a stream cut it: for each span the
bytes from behind the one before it through its own end mark, and last the
bytes behind the last span. -/
def gaps (stream : Bytes) : List Nat :=
  (spans stream).1.map Span.width ++ [(spans stream).2.length]

theorem gaps_of_quiet {b : Bytes} (h : Quiet b) : gaps b = [b.length] := by
  rw [gaps, spans_of_quiet h]
  rfl

theorem gaps_of_nextSpan {b : Bytes} {found : Span} {rest : Bytes}
    (h : nextSpan b = some (found, rest)) : gaps b = found.width :: gaps rest := by
  rw [gaps, spans_of_nextSpan h]
  rfl

/-- The gaps of a concatenation: those of the first part's spans, then those
of what it left together with the second part. -/
theorem gaps_append (a b : Bytes) :
    gaps (a ++ b) = (spans a).1.map Span.width ++ gaps ((spans a).2 ++ b) := by
  rw [gaps, spans_append, gaps, List.map_append, List.append_assoc]

/-- A quiet part and the byte behind it lie in one gap. -/
theorem Quiet.exists_lt_gap {a b : Bytes} (ha : Quiet a) (hb : b ≠ []) :
    ∃ g ∈ gaps (a ++ b), a.length < g := by
  rcases h : nextSpan (a ++ b) with - | ⟨found, rest⟩
  · refine ⟨(a ++ b).length, ?_, ?_⟩
    · rw [gaps_of_quiet h]
      exact List.mem_singleton_self _
    · have := List.length_pos_iff.mpr hb
      rw [List.length_append]
      omega
  · refine ⟨found.width, ?_, ha.lt_width h⟩
    rw [gaps_of_nextSpan h]
    exact List.mem_cons_self ..

end MotionBridge
