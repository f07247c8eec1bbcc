/-
MotionBridge/Proofs/Frame/Overflow.lean

When the frame buffer loses bytes, and which.

Against the spans of the whole stream: nothing is lost as long as every gap
fits the buffer (`Settled.feed_of_gaps_le`), and a gap that does not fit is
noticed (`Settled.gaps_le_of_discarded`).

Against a frame: what waits in the buffer when the frame begins decides.  The
frame comes out if it fits behind that, or if the buffer is just full and is
lost before it; otherwise the buffer is lost in the middle of the frame, and
its front with it (`Settled.feed_frame_of_fits`, `Settled.feed_frame_of_full`,
`Settled.feed_frame_of_cut`).  Since bytes that complete no span fill the
buffer over and over (`Settled.feed_noise`), how much waits is known from how
many bytes came since the last span.
-/
import MotionBridge.Proofs.Frame.ByteFeed

namespace MotionBridge.Accumulator

/-! ### Streams whose gaps fit -/

/-- **Gaps that fit lose nothing**: the spans are those of the whole stream,
and what is left waits. -/
theorem Settled.feed_of_gaps_le {a : Accumulator} (h : a.Settled) {bytes : Bytes}
    (hgaps : ∀ g ∈ gaps (a.buffer ++ bytes), g ≤ a.capacity) :
    a.feed bytes
      = ((spans (a.buffer ++ bytes)).1.map .span,
          { a with buffer := (spans (a.buffer ++ bytes)).2 }) := by
  rw [h.feed_eq_acceptAll]
  induction bytes generalizing a with
  | nil => rw [List.append_nil, spans_of_quiet h.quiet]; rfl
  | cons byte rest ih =>
    have hroom : a.buffer.length < a.capacity := by
      obtain ⟨g, hg, hlt⟩ := h.quiet.exists_lt_gap (List.cons_ne_nil byte rest)
      exact Nat.lt_of_lt_of_le hlt (hgaps g hg)
    have hassoc : a.buffer ++ byte :: rest = (a.buffer ++ [byte]) ++ rest := by simp
    have hnext := h.accept byte
    rw [accept_of_room hroom] at hnext
    have hlater : ∀ g ∈ gaps ((spans (a.buffer ++ [byte])).2 ++ rest), g ≤ a.capacity := by
      intro g hg
      refine hgaps g ?_
      rw [hassoc, gaps_append]
      exact List.mem_append_right _ hg
    rw [acceptAll_cons, accept_of_room hroom, ih hnext hlater, hassoc,
      spans_append (a.buffer ++ [byte]) rest, List.map_append]

/-- **A gap that does not fit is noticed**: bytes are lost. -/
theorem Settled.gaps_le_of_discarded {a : Accumulator} (h : a.Settled) {bytes : Bytes}
    (hnone : discarded (a.feed bytes).1 = 0) :
    ∀ g ∈ gaps (a.buffer ++ bytes), g ≤ a.capacity := by
  rw [h.feed_eq_acceptAll] at hnone
  induction bytes generalizing a with
  | nil =>
    intro g hg
    rw [List.append_nil, gaps_of_quiet h.quiet, List.mem_singleton] at hg
    exact hg ▸ h.fits
  | cons byte rest ih =>
    by_cases hroom : a.buffer.length < a.capacity
    · have hnext := h.accept byte
      rw [acceptAll_cons, discarded_append, accept_of_room hroom] at hnone
      rw [accept_of_room hroom] at hnext
      intro g hg
      rw [show a.buffer ++ byte :: rest = (a.buffer ++ [byte]) ++ rest by simp, gaps_append,
        List.mem_append] at hg
      rcases hg with hg | hg
      · obtain ⟨found, hspans, hwidth⟩ | hspans := spans_concat_of_quiet h.quiet byte
        · rw [hspans, List.map_singleton, List.mem_singleton] at hg
          omega
        · rw [hspans] at hg
          cases hg
      · exact ih hnext (by omega) g hg
    · -- a full buffer loses at least one byte
      rw [acceptAll_cons, accept_of_full (Nat.not_lt.mp hroom), discarded_append, discarded_cons]
        at hnone
      have hlost : (Event.overflow a.buffer.length).discarded = a.buffer.length := rfl
      have hpos := h.positive
      omega

/-- Bytes are lost exactly when some gap does not fit. -/
theorem Settled.discarded_pos_iff {a : Accumulator} (h : a.Settled) (bytes : Bytes) :
    0 < discarded (a.feed bytes).1 ↔ ∃ g ∈ gaps (a.buffer ++ bytes), a.capacity < g := by
  constructor
  · intro hpos
    by_cases hgap : ∃ g ∈ gaps (a.buffer ++ bytes), a.capacity < g
    · exact hgap
    · have hgaps : ∀ g ∈ gaps (a.buffer ++ bytes), g ≤ a.capacity :=
        fun g hg => Nat.not_lt.mp fun hlt => hgap ⟨g, hg, hlt⟩
      rw [h.feed_of_gaps_le hgaps, discarded_map_span] at hpos
      exact absurd hpos (Nat.lt_irrefl 0)
  · rintro ⟨g, hg, hlt⟩
    refine Nat.pos_of_ne_zero fun hnone => ?_
    exact Nat.not_lt.mpr (h.gaps_le_of_discarded hnone g hg) hlt

/-! ### Bytes that complete no span -/

/-- Whether no span comes out while bytes are fed in. -/
def Spanless (a : Accumulator) (bytes : Bytes) : Prop :=
  (a.feed bytes).1.countP Event.isSpan = 0

/-- One more byte than a full buffer holds takes one whole buffer more. -/
theorem mul_turns_of_full {capacity : Nat} (hpos : 0 < capacity) (n : Nat) :
    capacity * ((capacity + (n + 1) - 1) / capacity)
      = capacity + capacity * ((1 + n - 1) / capacity) := by
  have hdiv : (capacity + n) / capacity = n / capacity + 1 := by
    rw [Nat.add_comm, Nat.add_div_right _ hpos]
  rw [show capacity + (n + 1) - 1 = capacity + n by omega, show 1 + n - 1 = n by omega, hdiv,
    Nat.mul_add, Nat.mul_one, Nat.add_comm]

/-- **Noise fills the buffer over and over**: whenever one byte more comes
than it holds, a whole buffer is lost, and the last bytes wait. -/
theorem Settled.feed_noise {a : Accumulator} (h : a.Settled) {noise : Bytes}
    (hnone : a.Spanless noise) :
    discarded (a.feed noise).1
        = a.capacity * ((a.buffer.length + noise.length - 1) / a.capacity) ∧
      (a.feed noise).2.buffer
        = (a.buffer ++ noise).drop
            (a.capacity * ((a.buffer.length + noise.length - 1) / a.capacity)) := by
  rw [Spanless] at hnone
  rw [h.feed_eq_acceptAll] at hnone ⊢
  induction noise generalizing a with
  | nil =>
    have hzero : (a.buffer.length + 0 - 1) / a.capacity = 0 := by
      have hfits := h.fits
      have hpos := h.positive
      exact Nat.div_eq_of_lt (by omega)
    rw [List.length_nil, hzero, Nat.mul_zero, List.append_nil, List.drop_zero]
    exact ⟨rfl, rfl⟩
  | cons byte rest ih =>
    rw [acceptAll_cons, List.countP_append] at hnone
    have hnext := h.accept byte
    by_cases hroom : a.buffer.length < a.capacity
    · -- the byte completes no span, so it waits with the others
      rw [accept_of_room hroom] at hnone hnext
      have hspans : spans (a.buffer ++ [byte]) = ([], a.buffer ++ [byte]) := by
        obtain ⟨found, hspans, -⟩ | hspans := spans_concat_of_quiet h.quiet byte
        · rw [hspans, countP_map_span, List.length_singleton] at hnone
          omega
        · exact hspans
      rw [hspans] at hnone hnext
      obtain ⟨hlost, hbuffer⟩ := ih hnext (by omega)
      have hlen : (a.buffer ++ [byte]).length + rest.length
          = a.buffer.length + (byte :: rest).length := by
        simp only [List.length_append, List.length_cons, List.length_nil]
        omega
      rw [acceptAll_cons, accept_of_room hroom, hspans]
      rw [hlen] at hlost hbuffer
      rw [show a.buffer ++ byte :: rest = (a.buffer ++ [byte]) ++ rest by simp]
      exact ⟨hlost, hbuffer⟩
    · -- the whole buffer goes, and the byte begins the next one
      have hfull : a.buffer.length = a.capacity := Nat.le_antisymm h.fits (Nat.not_lt.mp hroom)
      rw [accept_of_full (Nat.not_lt.mp hroom)] at hnone hnext
      obtain ⟨hlost, hbuffer⟩ := ih hnext (by omega)
      have hturn : a.capacity * ((a.buffer.length + (byte :: rest).length - 1) / a.capacity)
          = a.capacity + a.capacity * (([byte].length + rest.length - 1) / a.capacity) := by
        rw [hfull]
        exact mul_turns_of_full h.positive rest.length
      have hdrop : ∀ k, (a.buffer ++ byte :: rest).drop (a.capacity + k)
          = (byte :: rest).drop k := by
        intro k
        rw [← hfull, List.drop_append, List.drop_of_length_le (Nat.le_add_right _ _),
          Nat.add_sub_cancel_left, List.nil_append]
      rw [acceptAll_cons, accept_of_full (Nat.not_lt.mp hroom), hturn, hdrop, hfull]
      exact ⟨congrArg (a.capacity + ·) hlost, hbuffer⟩

/-- Any bytes are noise behind some front of theirs: either they complete no
span at all, or the last one they complete leaves the buffer empty. -/
theorem Settled.exists_noise {a : Accumulator} (h : a.Settled) (bytes : Bytes) :
    ∃ front noise, bytes = front ++ noise ∧ (front = [] ∨ (a.feed front).2.buffer = []) ∧
      (a.feed front).2.Spanless noise := by
  induction bytes generalizing a with
  | nil => exact ⟨[], [], rfl, Or.inl rfl, by rw [Spanless, feed_nil, feed_nil]; rfl⟩
  | cons byte rest ih =>
    have hnext := h.accept byte
    have hcons : ∀ x, a.feed (byte :: x)
        = ((a.accept byte).1 ++ ((a.accept byte).2.feed x).1, ((a.accept byte).2.feed x).2) := by
      intro x
      rw [h.feed_eq_acceptAll, hnext.feed_eq_acceptAll, acceptAll_cons]
    obtain ⟨front, noise, rfl, hfront, hnoise⟩ := ih hnext
    by_cases hnil : (a.feed (byte :: front)).2.buffer = []
    · exact ⟨byte :: front, noise, rfl, Or.inr hnil, by rwa [hcons]⟩
    · -- no span came out, neither of this byte nor of what follows it
      have hempty : front = [] := by
        rcases hfront with hfront | hfront
        · exact hfront
        · rw [hcons] at hnil
          exact absurd hfront hnil
      subst hempty
      rw [hcons, feed_nil] at hnil
      rw [feed_nil] at hnoise
      have hspanless : (a.accept byte).1.countP Event.isSpan = 0 := by
        by_cases hroom : a.buffer.length < a.capacity
        · rw [accept_of_room hroom] at hnil ⊢
          obtain ⟨found, hspans, -⟩ | hspans := spans_concat_of_quiet h.quiet byte
          · rw [hspans] at hnil
            exact absurd rfl hnil
          · rw [hspans]
            rfl
        · rw [accept_of_full (Nat.not_lt.mp hroom)]
          rfl
      refine ⟨[], byte :: noise, rfl, Or.inl rfl, ?_⟩
      rw [feed_nil, Spanless, hcons, List.countP_append, hspanless, Nat.zero_add]
      exact hnoise

/-! ### A frame that arrives -/

section Frame

variable {a : Accumulator} {f : Bytes}

/-- A frame for which there is room comes out as soon as it is complete. -/
theorem Settled.feed_frame_of_fits (h : a.Settled) (hf : IsFrame f)
    (hfits : a.buffer.length + f.length ≤ a.capacity) :
    a.feed f = ([.span (.frame (frameAt a.buffer.length f))], { a with buffer := [] }) := by
  have hnext := h.quiet.nextSpan_frame hf []
  rw [List.append_nil] at hnext
  rw [h.feed_eq_acceptAll, h.acceptAll_of_room hfits, spans_of_nextSpan hnext,
    spans_of_quiet quiet_nil]
  rfl

/-- A frame that meets a full buffer takes its place. -/
theorem Settled.feed_frame_of_full (h : a.Settled) (hf : IsFrame f)
    (hfull : a.buffer.length = a.capacity) (hlen : f.length ≤ a.capacity) :
    a.feed f
      = ([.overflow a.capacity, .span (.frame (frameAt 0 f))], { a with buffer := [] }) := by
  have hne : f ≠ [] := List.length_pos_iff.mp (Nat.lt_of_lt_of_le (by decide) hf.three_le_length)
  have hnext := quiet_nil.nextSpan_frame hf []
  rw [List.append_nil, List.nil_append] at hnext
  rw [h.feed_eq_acceptAll, h.acceptAll_of_full hfull hne hlen, spans_of_nextSpan hnext,
    spans_of_quiet quiet_nil]
  rfl

/-- A frame that begins in the buffer but does not fit there is cut: its front
fills the buffer and is lost with it, and its rest, without a start mark,
waits for nothing. -/
theorem Settled.feed_frame_of_cut (h : a.Settled) (hf : IsFrame f)
    (hroom : a.buffer.length < a.capacity) (hcut : a.capacity < a.buffer.length + f.length)
    (hlen : f.length ≤ a.capacity) :
    a.feed (f.take (a.capacity - a.buffer.length))
        = ([], { a with buffer := a.buffer ++ f.take (a.capacity - a.buffer.length) }) ∧
      a.feed f
        = ([.overflow a.capacity],
            { a with buffer := f.drop (a.capacity - a.buffer.length) }) := by
  obtain ⟨body, hbody, hbytes⟩ := hf.marked
  obtain ⟨k, hk⟩ : ∃ k, a.capacity - a.buffer.length = k + 1 :=
    ⟨a.capacity - a.buffer.length - 1, by omega⟩
  have hflen : f.length = body.length + 2 := by simp [hbytes]
  -- the front has the start mark and no end mark, the back the other way round
  have hfront : f.take (k + 1) = stx :: body.take k := by
    rw [hbytes, List.cons_append, List.take_succ_cons, List.take_append_of_le_length (by omega)]
  have hback : f.drop (k + 1) = body.drop k ++ [etx] := by
    rw [hbytes, List.cons_append, List.drop_succ_cons, List.drop_append_of_le_length (by omega)]
  have hquiet : Quiet (a.buffer ++ f.take (k + 1)) := by
    rw [hfront]
    exact h.quiet.append_stx fun x hx => hbody x (List.mem_of_mem_take hx)
  have hrest : Quiet (f.drop (k + 1)) := by
    rw [hback]
    exact quiet_unmarked_etx fun x hx => hbody x (List.mem_of_mem_drop hx)
  have hfill : a.feed (f.take (k + 1))
      = ([], { a with buffer := a.buffer ++ f.take (k + 1) }) := by
    have hsize : a.buffer.length + (f.take (k + 1)).length ≤ a.capacity := by
      rw [List.length_take]
      omega
    rw [h.feed_eq_acceptAll, h.acceptAll_of_room hsize, spans_of_quiet hquiet]
    rfl
  rw [hk]
  refine ⟨hfill, ?_⟩
  -- the back meets the buffer that the front has just filled
  have hsettled := h.feed (f.take (k + 1))
  rw [hfill] at hsettled
  have hfull : (a.buffer ++ f.take (k + 1)).length = a.capacity := by
    rw [List.length_append, List.length_take]
    omega
  have hne : f.drop (k + 1) ≠ [] := by
    rw [hback]
    exact List.append_ne_nil_of_right_ne_nil _ (List.cons_ne_nil etx [])
  have hdrop : (f.drop (k + 1)).length ≤ a.capacity := by
    rw [List.length_drop]
    omega
  have hsplit := h.feed_append (f.take (k + 1)) (f.drop (k + 1))
  rw [List.take_append_drop, hfill] at hsplit
  rw [hsplit, hsettled.feed_eq_acceptAll, hsettled.acceptAll_of_full hfull hne hdrop,
    spans_of_quiet hrest]
  rfl

end Frame

end MotionBridge.Accumulator
