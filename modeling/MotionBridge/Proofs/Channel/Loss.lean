/-
MotionBridge/Proofs/Channel/Loss.lean

What the command channel loses of a stream, however it is delivered.

Measured against the spans of the stream as a whole, bytes are lost exactly
when some gap between two spans, or the tail, is longer than the frame limit;
else every good span reaches the handler (`discarded_deliver`).

Measured against a good frame somewhere in the stream, the frame reaches the
handler exactly unless it is *cut*: unless the buffer, when the frame begins,
has room for its start mark but not for all of it (`frames_deliver`).  A
frame within the limit can be cut by as little as one byte of noise before
it.
-/
import MotionBridge.Proofs.Channel.Delivery
import MotionBridge.Proofs.Frame.Overflow

namespace MotionBridge

open Accumulator

namespace Delivery

variable {τ : Type}

/-! ### Gaps -/

/-- **The exact loss condition.**  However a stream is delivered, bytes are
lost exactly when one of its gaps is longer than the frame limit.  When none
is, the handler is handed exactly the good spans of the stream, every span is
counted, and the tail waits in the buffer. -/
theorem discarded_deliver (handler : Handler τ) (state : τ) {maxFrame : Nat} (hmax : 1 ≤ maxFrame)
    {bytes : Bytes} {c : CommandChannel} (hc : c.Fresh maxFrame) {steps : List Step}
    (hbytes : stream steps = bytes) (hall : (deliver handler c state steps).refused = 0) :
    (0 < (deliver handler c state steps).discarded ↔ ∃ g ∈ gaps bytes, maxFrame < g) ∧
      ((∀ g ∈ gaps bytes, g ≤ maxFrame) →
        (deliver handler c state steps).frames = (spans bytes).1.filterMap Span.frame? ∧
          (deliver handler c state steps).handled = (spans bytes).1.length ∧
          (deliver handler c state steps).channel.accumulator.buffer = (spans bytes).2) := by
  have hsettled := settled_empty hmax
  have hreport := report_deliver handler hmax hc state hall
  rw [hbytes] at hreport
  have hdiscarded : (deliver handler c state steps).discarded
      = Accumulator.discarded (({ capacity := maxFrame } : Accumulator).feed bytes).1 :=
    (congrArg Report.discarded hreport).trans (Nat.zero_add _)
  refine ⟨?_, fun hgaps => ?_⟩
  · rw [hdiscarded]
    exact hsettled.discarded_pos_iff bytes
  · have hfeed := @Settled.feed_of_gaps_le _ hsettled bytes hgaps
    rw [List.nil_append] at hfeed
    rw [Report.extend, hfeed] at hreport
    refine ⟨?_, ?_, congrArg (fun r => r.accumulator.buffer) hreport⟩
    · exact (congrArg Report.frames hreport).trans (framesOf_map_span (spans bytes).1)
    · exact (congrArg Report.handled hreport).trans
        ((Nat.zero_add _).trans (countP_map_span (spans bytes).1))

/-- A span that ends on the last byte of the buffer is no loss, and neither is
a tail that just fills it. -/
theorem discarded_deliver_of_fits :
    (deliver Handler.counting (.unconnected 8 4) 0
        [.bytes [0x41, 2, 128, 3, 2, 2], .poll, .bytes [2, 2]]).frames
      = (spans [0x41, 2, 128, 3, 2, 2, 2, 2]).1.filterMap Span.frame? := by
  have hall : (deliver Handler.counting (.unconnected 8 4) 0
      [.bytes [0x41, 2, 128, 3, 2, 2], .poll, .bytes [2, 2]]).refused = 0 := by decide
  have hgaps : ∀ g ∈ gaps [0x41, 2, 128, 3, 2, 2, 2, 2], g ≤ 4 := by decide +kernel
  exact ((discarded_deliver Handler.counting 0 (by decide)
    (CommandChannel.fresh_unconnected 8 4) (by rfl) hall).2 hgaps).1

/-! ### Frames -/

/-- The frame buffer with some bytes waiting in it. -/
def buffering (maxFrame : Nat) (bytes : Bytes) : Accumulator :=
  { buffer := bytes, capacity := maxFrame }

/-- What waits in the frame buffer after a stream. -/
def waiting (maxFrame : Nat) (bytes : Bytes) : Bytes :=
  ((buffering maxFrame []).feed bytes).2.buffer

/-- The frames that come out of the buffer while bytes are fed in. -/
def framesIn (a : Accumulator) (bytes : Bytes) : List Frame :=
  framesOf (a.feed bytes).1

/-- How many bytes are lost while bytes are fed in. -/
def lostIn (a : Accumulator) (bytes : Bytes) : Nat :=
  Accumulator.discarded (a.feed bytes).1

/-- Whether a frame is cut when it comes behind other bytes: its start mark
still joins what waits, but not all of it fits there. -/
def Cut (maxFrame : Nat) (before frame : Bytes) : Prop :=
  (waiting maxFrame before).length < maxFrame ∧
    maxFrame < (waiting maxFrame before).length + frame.length

instance (maxFrame : Nat) (before frame : Bytes) : Decidable (Cut maxFrame before frame) :=
  inferInstanceAs (Decidable (_ ∧ _))

/-- What waits after a stream is what came since its last span, less as many
whole buffers as overflowed since. -/
theorem exists_length_waiting {maxFrame : Nat} (hmax : 0 < maxFrame) (bytes : Bytes) :
    ∃ front noise, bytes = front ++ noise ∧ waiting maxFrame front = [] ∧
      (buffering maxFrame []).Spanless noise ∧
      (waiting maxFrame bytes).length
        = noise.length - maxFrame * ((noise.length - 1) / maxFrame) := by
  have hsettled : (buffering maxFrame []).Settled := settled_empty hmax
  obtain ⟨front, noise, hbytes, hfront, hnoise⟩ := hsettled.exists_noise bytes
  have hempty : waiting maxFrame front = [] := by
    rcases hfront with rfl | hfront
    · rw [waiting, feed_nil]
      rfl
    · exact hfront
  -- behind the front the buffer is as new, so only the noise counts
  have hafter : ((buffering maxFrame []).feed front).2 = buffering maxFrame [] := by
    have hcap : ((buffering maxFrame []).feed front).2.capacity = maxFrame :=
      hsettled.capacity_feed front
    rcases h : ((buffering maxFrame []).feed front).2 with ⟨buffer, capacity⟩
    rw [waiting, h] at hempty
    rw [h] at hcap
    rw [show buffer = [] from hempty, show capacity = maxFrame from hcap]
    rfl
  rw [hafter] at hnoise
  have hlost := (hsettled.feed_noise hnoise).2
  refine ⟨front, noise, hbytes, hempty, hnoise, ?_⟩
  have hsplit := hsettled.feed_append front noise
  rw [← hbytes, hafter] at hsplit
  rw [waiting, hsplit, hlost, List.length_drop]
  show noise.length - maxFrame * ((0 + noise.length - 1) / maxFrame) = _
  rw [Nat.zero_add]

/-- The events that a frame in a stream adds, and what the buffer holds behind
it. -/
theorem feed_frame {maxFrame : Nat} {before frame : Bytes} (hframe : IsFrame frame)
    (hlen : frame.length ≤ maxFrame) :
    (¬ Cut maxFrame before frame →
        ((buffering maxFrame []).feed (before ++ frame)).2 = buffering maxFrame [] ∧
          framesIn (buffering maxFrame []) (before ++ frame)
            = framesIn (buffering maxFrame []) before
                ++ [frameAt ((waiting maxFrame before).length % maxFrame) frame] ∧
          lostIn (buffering maxFrame []) (before ++ frame)
            = lostIn (buffering maxFrame []) before
                + (waiting maxFrame before).length / maxFrame * maxFrame) ∧
      (Cut maxFrame before frame →
        ((buffering maxFrame []).feed (before ++ frame)).2
            = buffering maxFrame (frame.drop (maxFrame - (waiting maxFrame before).length)) ∧
          framesIn (buffering maxFrame []) (before ++ frame)
            = framesIn (buffering maxFrame []) before ∧
          lostIn (buffering maxFrame []) (before ++ frame)
            = lostIn (buffering maxFrame []) before + maxFrame) := by
  have hmax : 0 < maxFrame :=
    Nat.lt_of_lt_of_le (Nat.lt_of_lt_of_le (by decide) hframe.three_le_length) hlen
  have hempty : (buffering maxFrame []).Settled := settled_empty hmax
  have hsettled := hempty.feed before
  have hsplit := hempty.feed_append before frame
  have hcap : ((buffering maxFrame []).feed before).2.capacity = maxFrame :=
    hempty.capacity_feed before
  have hfits := hsettled.fits
  rw [hcap] at hfits
  rw [framesIn, framesIn, lostIn, lostIn, hsplit, framesOf_append, discarded_append]
  refine ⟨fun huncut => ?_, fun hcut => ?_⟩
  · by_cases hfull : (waiting maxFrame before).length = maxFrame
    · -- a full buffer makes room for the frame as a whole
      rw [hsettled.feed_frame_of_full hframe (hfull.trans hcap.symm) (hcap.symm ▸ hlen), hfull,
        Nat.mod_self, Nat.div_self hmax, hcap]
      exact ⟨rfl, rfl, by rw [Nat.one_mul]; rfl⟩
    · have hlt : (waiting maxFrame before).length < maxFrame := Nat.lt_of_le_of_ne hfits hfull
      have hroom : (waiting maxFrame before).length + frame.length ≤ maxFrame :=
        Nat.not_lt.mp fun h => huncut ⟨hlt, h⟩
      rw [hsettled.feed_frame_of_fits hframe (hcap.symm ▸ hroom), Nat.mod_eq_of_lt hlt,
        Nat.div_eq_of_lt hlt, Nat.zero_mul, hcap]
      exact ⟨rfl, rfl, rfl⟩
  · obtain ⟨-, hfeed⟩ := hsettled.feed_frame_of_cut hframe (hcap.symm ▸ hcut.1)
      (hcap.symm ▸ hcut.2) (hcap.symm ▸ hlen)
    rw [hfeed, hcap]
    exact ⟨rfl, List.append_nil _, rfl⟩

/-- The front of a cut frame fills the buffer that is then lost. -/
theorem waiting_front_of_cut {maxFrame : Nat} {before frame : Bytes} (hframe : IsFrame frame)
    (hlen : frame.length ≤ maxFrame) (hcut : Cut maxFrame before frame) :
    waiting maxFrame (before ++ frame.take (maxFrame - (waiting maxFrame before).length))
      = waiting maxFrame before ++ frame.take (maxFrame - (waiting maxFrame before).length) := by
  have hmax : 0 < maxFrame := Nat.zero_lt_of_lt hcut.1
  have hempty : (buffering maxFrame []).Settled := settled_empty hmax
  have hcap : ((buffering maxFrame []).feed before).2.capacity = maxFrame :=
    hempty.capacity_feed before
  obtain ⟨hfeed, -⟩ := (hempty.feed before).feed_frame_of_cut hframe (hcap.symm ▸ hcut.1)
    (hcap.symm ▸ hcut.2) (hcap.symm ▸ hlen)
  rw [hcap] at hfeed
  have hsplit := hempty.feed_append before
    (frame.take (maxFrame - (waiting maxFrame before).length))
  exact (congrArg (fun r => r.2.buffer) hsplit).trans (congrArg (fun r => r.2.buffer) hfeed)

/-- **The fate of a frame in a stream.**  However the stream is delivered, a
good frame within the limit is handed over, once and in its place, and none
of its bytes is lost, exactly unless it is cut.  A cut frame is not handed
over: its front is lost with the buffer that it filled, and its rest waits as
noise.  What waits before the frame is known from the bytes that came since
the last span. -/
theorem frames_deliver (handler : Handler τ) (state : τ) {maxFrame : Nat}
    {before frame after : Bytes} (hframe : IsFrame frame) (hlen : frame.length ≤ maxFrame)
    {c : CommandChannel} (hc : c.Fresh maxFrame) {steps : List Step}
    (hbytes : stream steps = before ++ frame ++ after)
    (hall : (deliver handler c state steps).refused = 0) :
    (¬ Cut maxFrame before frame →
        (deliver handler c state steps).frames
            = framesIn (buffering maxFrame []) before
                ++ [frameAt ((waiting maxFrame before).length % maxFrame) frame]
                ++ framesIn (buffering maxFrame []) after ∧
          (deliver handler c state steps).discarded
            = lostIn (buffering maxFrame []) before
                + (waiting maxFrame before).length / maxFrame * maxFrame
                + lostIn (buffering maxFrame []) after) ∧
      (Cut maxFrame before frame →
        let front := maxFrame - (waiting maxFrame before).length
        (deliver handler c state steps).frames
            = framesIn (buffering maxFrame []) before
                ++ framesIn (buffering maxFrame (frame.drop front)) after ∧
          (deliver handler c state steps).discarded
            = lostIn (buffering maxFrame []) before + maxFrame
                + lostIn (buffering maxFrame (frame.drop front)) after ∧
          waiting maxFrame (before ++ frame.take front)
            = waiting maxFrame before ++ frame.take front) ∧
      ∃ front noise, before = front ++ noise ∧ waiting maxFrame front = [] ∧
        (buffering maxFrame []).Spanless noise ∧
        (waiting maxFrame before).length
          = noise.length - maxFrame * ((noise.length - 1) / maxFrame) := by
  have hmax : 0 < maxFrame :=
    Nat.lt_of_lt_of_le (Nat.lt_of_lt_of_le (by decide) hframe.three_le_length) hlen
  have hreport := report_deliver handler hmax hc state hall
  rw [hbytes] at hreport
  have hsplit := (settled_empty hmax).feed_append (before ++ frame) after
  have hframes : (deliver handler c state steps).frames
      = framesIn (buffering maxFrame []) (before ++ frame)
          ++ framesIn ((buffering maxFrame []).feed (before ++ frame)).2 after := by
    have h := congrArg Report.frames hreport
    rw [Report.extend, hsplit] at h
    exact h.trans (framesOf_append _ _)
  have hdiscarded : (deliver handler c state steps).discarded
      = lostIn (buffering maxFrame []) (before ++ frame)
          + lostIn ((buffering maxFrame []).feed (before ++ frame)).2 after := by
    have h := congrArg Report.discarded hreport
    rw [Report.extend, hsplit] at h
    exact h.trans ((Nat.zero_add _).trans (discarded_append _ _))
  obtain ⟨hfed, hcutted⟩ := @feed_frame maxFrame before frame hframe hlen
  -- what the frame leaves in the buffer is where the rest of the stream begins
  refine ⟨fun huncut => ?_, fun hcut => ?_, exists_length_waiting hmax before⟩
  · obtain ⟨hleft, hown, hlost⟩ := hfed huncut
    rw [hframes, hdiscarded, hleft, hown, hlost]
    exact ⟨rfl, rfl⟩
  · obtain ⟨hleft, hown, hlost⟩ := hcutted hcut
    refine ⟨?_, ?_, waiting_front_of_cut hframe hlen hcut⟩
    · rw [hframes, hleft, hown]
    · rw [hdiscarded, hleft, hlost]

/-- Behind one byte of noise, a frame of three bytes still fits a buffer of
four. -/
theorem frames_deliver_of_fits :
    ¬ Cut 4 [0x41] [2, 128, 3] ∧
      (deliver Handler.counting (.unconnected 8 4) 0
          [.bytes [0x41, 2], .poll, .bytes [128, 3, 0x41]]).frames
        = framesIn (buffering 4 []) [0x41]
            ++ [frameAt ((waiting 4 [0x41]).length % 4) [2, 128, 3]]
            ++ framesIn (buffering 4 []) [0x41] := by
  have huncut : ¬ Cut 4 [0x41] [2, 128, 3] := by decide +kernel
  have hframe : IsFrame [2, 128, 3] := ⟨⟨[128], by decide, rfl⟩, by decide⟩
  have hbytes : stream [.bytes [0x41, 2], .poll, .bytes [128, 3, 0x41]]
      = [0x41] ++ [2, 128, 3] ++ [0x41] := by decide
  have hall : (deliver Handler.counting (.unconnected 8 4) 0
      [.bytes [0x41, 2], .poll, .bytes [128, 3, 0x41]]).refused = 0 := by decide
  have hfate := frames_deliver Handler.counting 0 hframe (by decide)
    (CommandChannel.fresh_unconnected 8 4) hbytes hall
  exact ⟨huncut, (hfate.1 huncut).1⟩

/-- Behind ten bytes of noise, a frame of ten bytes is lost to a buffer of
sixteen: its first six bytes fill the buffer and go with the noise. -/
theorem frame_lost_behind_noise :
    IsFrame [2, 0x0D, 0x20, 0x20, 0x20, 0x20, 0x20, 0x21, 0x8C, 3] ∧
      (deliver Handler.counting (.unconnected 64 16) 0
        [.bytes (List.replicate 10 0x41
          ++ [2, 0x0D, 0x20, 0x20, 0x20, 0x20, 0x20, 0x21, 0x8C, 3])]).refused = 0 ∧
      (deliver Handler.counting (.unconnected 64 16) 0
        [.bytes (List.replicate 10 0x41
          ++ [2, 0x0D, 0x20, 0x20, 0x20, 0x20, 0x20, 0x21, 0x8C, 3])]).frames = [] ∧
      (deliver Handler.counting (.unconnected 64 16) 0
        [.bytes (List.replicate 10 0x41
          ++ [2, 0x0D, 0x20, 0x20, 0x20, 0x20, 0x20, 0x21, 0x8C, 3])]).discarded = 16 := by
  refine ⟨⟨⟨[0x0D, 0x20, 0x20, 0x20, 0x20, 0x20, 0x21, 0x8C], ?_, rfl⟩, ?_⟩, ?_, ?_, ?_⟩ <;>
    decide +kernel

end Delivery

end MotionBridge
