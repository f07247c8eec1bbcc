/-
MotionBridge/Proofs/Bus/Receivers.lean

Two receivers that find the same frames.

One is the search through a whole buffer: the first end mark with a start mark
before it ends a span, the last such start mark begins it, and the search goes
on behind the end mark.  Its spans, byte for byte and whatever their checksums,
are listed by `spanBytes`.  The other is the controller, which takes one byte
with each pulse of the clock, begins anew at each start mark and drops what
grows too long.

What the controller has stored is a function of the bytes behind the last span
(`Stores`): from the last start mark on, if there is one and they are not too
many.  One pulse keeps this, and receives exactly the spans that its byte
completes and that are short enough (`Tracks.pulse`).  So over a whole stream
the frames received are the spans found, less the long ones
(`received_eq_spanBytes`).
-/
import MotionBridge.Proofs.Frame.Concat
import MotionBridge.Proofs.Bus.Handshake

namespace MotionBridge

/-! ### The spans of a buffer -/

/-- The bytes behind the last start mark. -/
def sinceStx (bytes : Bytes) : Bytes :=
  (bytes.reverse.takeWhile (· ≠ stx)).reverse

/-- The bytes of a span in the buffer it was found in.  Of one that was refused
only the end is told: it begins at the last start mark before that. -/
def Span.bytesIn (buffer : Bytes) : Span → Bytes
  | .frame f => f.bytes
  | .mismatch etxAt => stx :: sinceStx (buffer.take (etxAt + 1))

/-- The bytes of every complete span of a buffer, in order. -/
def spanBytes (buffer : Bytes) : List Bytes :=
  match _h : nextSpan buffer with
  | none => []
  | some (found, rest) => found.bytesIn buffer :: spanBytes rest
termination_by buffer.length
decreasing_by exact nextSpan_length_lt _h

theorem spanBytes_of_quiet {b : Bytes} (h : Quiet b) : spanBytes b = [] := by
  rw [spanBytes]
  split
  · rfl
  · rename_i hn
    rw [h] at hn
    cases hn

theorem spanBytes_of_nextSpan {b : Bytes} {found : Span} {rest : Bytes}
    (h : nextSpan b = some (found, rest)) : spanBytes b = found.bytesIn b :: spanBytes rest := by
  rw [spanBytes]
  split
  · rename_i hn
    rw [h] at hn
    cases hn
  · rename_i hn
    rw [h] at hn
    obtain ⟨rfl, rfl⟩ := Prod.mk.inj (Option.some.inj hn)
    rfl

/-- The bytes of a span are the same when more bytes follow. -/
theorem bytesIn_append {a : Bytes} {found : Span} {rest : Bytes}
    (h : nextSpan a = some (found, rest)) (b : Bytes) :
    found.bytesIn (a ++ b) = found.bytesIn a := by
  rcases found with f | etxAt
  · rfl
  · obtain ⟨hle, -⟩ := nextSpan_width h
    have hin : etxAt + 1 ≤ a.length := hle
    rw [Span.bytesIn, Span.bytesIn, List.take_append_of_le_length hin]

/-- The span bytes of a concatenation. -/
theorem spanBytes_append (a b : Bytes) :
    spanBytes (a ++ b) = spanBytes a ++ spanBytes ((spans a).2 ++ b) := by
  induction a using spans_induction with
  | quiet a h => rw [spanBytes_of_quiet h, spans_of_quiet h, List.nil_append]
  | span a found rest h ih =>
    rw [spanBytes_of_nextSpan (nextSpan_append h b), spanBytes_of_nextSpan h, bytesIn_append h,
      spans_of_nextSpan h, ih, List.cons_append]

theorem append_begun (front body : Bytes) (byte : UInt8) :
    front ++ stx :: body ++ [byte] = front ++ stx :: (body ++ [byte]) := by
  rw [List.append_assoc, List.cons_append]

theorem sinceStx_append (a : Bytes) {tail : Bytes} (h : stx ∉ tail) :
    sinceStx (a ++ stx :: tail) = tail := by
  have hne : ∀ x ∈ tail.reverse, decide (x ≠ stx) = true := by
    intro x hx
    refine decide_eq_true ?_
    rintro rfl
    exact h (List.mem_reverse.mp hx)
  have hsplit : (a ++ stx :: tail).reverse = tail.reverse ++ stx :: a.reverse := by simp
  rw [sinceStx, hsplit, List.takeWhile_append_of_pos hne, List.takeWhile_cons_of_neg (by simp),
    List.append_nil, List.reverse_reverse]

/-- Marks around unmarked bytes, behind a quiet part, are the bytes of the only
span, good or bad. -/
theorem Quiet.exists_span_marked {a body : Bytes} (ha : Quiet a) (hbody : Unmarked body) :
    ∃ found, nextSpan (a ++ stx :: body ++ [etx]) = some (found, []) ∧
      found.bytesIn (a ++ stx :: body ++ [etx]) = stx :: body ++ [etx] := by
  have hnext := ha.nextSpan_marked hbody []
  rw [show a ++ (stx :: body ++ etx :: []) = a ++ stx :: body ++ [etx] by simp] at hnext
  refine ⟨_, hnext, ?_⟩
  split
  · rfl
  · -- only the end of a refused span is told; its beginning is found by going back
    have hwhole : (a ++ stx :: body ++ [etx]).take (a.length + body.length + 1 + 1)
        = a ++ stx :: (body ++ [etx]) := by
      rw [List.take_of_length_le (by simp; omega), append_begun]
    rw [Span.bytesIn, hwhole, sinceStx_append a hbody.stx_not_mem, List.cons_append]

/-! ### One pulse -/

namespace Controller

/-- Clocks one byte in, without waiting for the controller. -/
def pulse (c : Controller) (byte : UInt8) : Controller :=
  Lines.setClock (Lines.setClock (Lines.writeData c byte) false) true

/-- Looking at the signal in between changes nothing. -/
theorem clockOut_eq_foldl_pulse (stream : Bytes) (c : Controller) :
    (Lines.clockOut stream c).2 = stream.foldl pulse c := by
  induction stream generalizing c with
  | nil => rfl
  | cons byte rest ih => exact ih (c.pulse byte)

/-- A controller at rest accepts the byte of a pulse. -/
theorem AtRest.pulse_eq {c : Controller} (h : c.AtRest) (hsilent : c.behavior = .silent)
    (byte : UInt8) : c.pulse byte = (c.clocked byte).acceptByte byte :=
  (h.onClock_pulse (by rw [hsilent]; exact nofun) byte).2.2

/-- **A silent controller is at rest again** when it has answered a frame, which
it keeps, with none stored. -/
theorem AtRest.answer_silent {c : Controller} (h : c.AtRest) (hsilent : c.behavior = .silent)
    (frame : Bytes) :
    (c.answer frame).AtRest ∧ (c.answer frame).behavior = .silent ∧
      (c.answer frame).received = c.received ∧ (c.answer frame).incoming = c.incoming := by
  obtain ⟨reply, machine, executed, hrespond⟩ := c.respond_frame frame
  have hsame : c.answer frame = { c with machine, executed } := by
    rw [answer, hrespond]
    rcases reply with - | reply
    · rfl
    · simp only [hsilent]
  rw [hsame]
  exact ⟨⟨h.listening, h.signal, h.clockHigh, h.latched⟩, hsilent, rfl, rfl⟩

/-- A byte more than is buffered drops the frame that was begun. -/
theorem acceptByte_of_full {c : Controller} {byte : UInt8} (hs : byte ≠ stx)
    (hfull : maxFrame ≤ c.incoming.length) : c.acceptByte byte = { c with incoming := [] } := by
  have hlong : maxFrame < (c.incoming ++ [byte]).length := by
    rw [List.length_append, List.length_singleton]
    omega
  simp only [acceptByte, if_neg hs, if_pos hlong]

/-! ### What is stored -/

/-- What the controller has stored of the bytes behind the last span. -/
inductive Stores : Bytes → Bytes → Prop
  /-- No frame was begun. -/
  | idle {left incoming} : stx ∉ left → incoming.head? ≠ some stx → Stores left incoming
  /-- A frame was begun and is not too long so far. -/
  | begun {front body} : Unmarked body → body.length + 1 ≤ maxFrame →
      Stores (front ++ stx :: body) (stx :: body)
  /-- A frame was begun and has been dropped. -/
  | dropped {front body incoming} : Unmarked body → maxFrame < body.length + 1 →
      incoming.head? ≠ some stx → Stores (front ++ stx :: body) incoming

theorem stores_nil : Stores [] [] :=
  .idle List.not_mem_nil nofun

/-- The spans of a stream that are not too long to be received. -/
def receivable (stream : Bytes) : List Bytes :=
  (spanBytes stream).filter fun bytes => bytes.length ≤ maxFrame

theorem receivable_append (a b : Bytes) :
    receivable (a ++ b) = receivable a ++ receivable ((spans a).2 ++ b) := by
  rw [receivable, spanBytes_append, List.filter_append]
  rfl

theorem receivable_of_quiet {b : Bytes} (h : Quiet b) : receivable b = [] := by
  rw [receivable, spanBytes_of_quiet h, List.filter_nil]

/-- An end mark behind a frame that was begun: its span is receivable if it is
not too long, and nothing is left behind it. -/
theorem receivable_marked {front body : Bytes} (hfront : Quiet front) (hbody : Unmarked body) :
    receivable (front ++ stx :: body ++ [etx])
        = (if body.length + 2 ≤ maxFrame then [stx :: body ++ [etx]] else []) ∧
      (spans (front ++ stx :: body ++ [etx])).2 = [] := by
  obtain ⟨found, hnext, hbytes⟩ := hfront.exists_span_marked hbody
  have hlen : (stx :: body ++ [etx]).length = body.length + 2 := by simp
  refine ⟨?_, ?_⟩
  · rw [receivable, spanBytes_of_nextSpan hnext, hbytes, spanBytes_of_quiet quiet_nil]
    simp only [List.filter_cons, hlen, List.filter_nil, decide_eq_true_eq]
  · rw [spans_of_nextSpan hnext, spans_of_quiet quiet_nil]

/-- What comes of one byte more, behind the bytes that the last span left. -/
inductive Taken (c : Controller) (left : Bytes) (byte : UInt8) : Prop
  /-- It is stored or dropped, and completes no span that could be received. -/
  | stored {incoming} : c.acceptByte byte = { c with incoming } →
      receivable (left ++ [byte]) = [] → Stores (spans (left ++ [byte])).2 incoming →
      Taken c left byte
  /-- It completes the one that is received. -/
  | received {frame} :
      c.acceptByte byte
        = answer { c with incoming := [], received := c.received.push frame } frame →
      receivable (left ++ [byte]) = [frame] → (spans (left ++ [byte])).2 = [] →
      Taken c left byte

section Taken

variable {c : Controller} {left front body : Bytes} {byte : UInt8}

/-- A byte that completes no span. -/
theorem taken_of_quiet {incoming : Bytes} (hquiet : Quiet (left ++ [byte]))
    (haccept : c.acceptByte byte = { c with incoming })
    (hstores : Stores (left ++ [byte]) incoming) : Taken c left byte := by
  refine .stored haccept (receivable_of_quiet hquiet) ?_
  rw [spans_of_quiet hquiet]
  exact hstores

/-- An end mark behind a frame that grew too long. -/
theorem taken_of_long {incoming : Bytes} (hfront : Quiet front) (hbody : Unmarked body)
    (hlong : maxFrame < body.length + 2) (haccept : c.acceptByte etx = { c with incoming })
    (hbegun : incoming.head? ≠ some stx) : Taken c (front ++ stx :: body) etx := by
  obtain ⟨hreceivable, hleft⟩ := receivable_marked hfront hbody
  refine .stored haccept ?_ ?_
  · rw [hreceivable, if_neg (Nat.not_le_of_lt hlong)]
  · rw [hleft]
    exact .idle List.not_mem_nil hbegun

/-- A byte that is no mark makes a frame that was begun one byte longer. -/
theorem quiet_begun (hquiet : Quiet (front ++ stx :: body)) (hbody : Unmarked body)
    (hs : byte ≠ stx) (he : byte ≠ etx) :
    Unmarked (body ++ [byte]) ∧ (body ++ [byte]).length = body.length + 1 ∧
      Quiet (front ++ stx :: body ++ [byte]) := by
  have hlonger : Unmarked (body ++ [byte]) := hbody.append (.cons ⟨hs, he⟩ unmarked_nil)
  refine ⟨hlonger, by simp, ?_⟩
  rw [append_begun]
  exact hquiet.of_append.append_stx hlonger

/-- One byte more while a frame is stored. -/
theorem taken_begun (hquiet : Quiet (front ++ stx :: body)) (hbody : Unmarked body)
    (hincoming : c.incoming = stx :: body) (hs : byte ≠ stx) :
    Taken c (front ++ stx :: body) byte := by
  have hlen : c.incoming.length = body.length + 1 := by rw [hincoming, List.length_cons]
  by_cases he : byte = etx
  · -- the frame is complete, or one byte too long
    subst he
    by_cases hroom : body.length + 2 ≤ maxFrame
    · obtain ⟨hreceivable, hleft⟩ := receivable_marked hquiet.of_append hbody
      rw [if_pos hroom] at hreceivable
      exact .received (acceptByte_etx hincoming hroom) hreceivable hleft
    · have hfull : maxFrame ≤ c.incoming.length := by omega
      exact taken_of_long hquiet.of_append hbody (Nat.lt_of_not_le hroom)
        (acceptByte_of_full hs hfull) nofun
  · -- the frame goes on, if there is room
    obtain ⟨hlonger, hlength, hstill⟩ := quiet_begun hquiet hbody hs he
    by_cases hroom : c.incoming.length < maxFrame
    · refine taken_of_quiet hstill (acceptByte_of_room hs he hroom) ?_
      rw [hincoming, append_begun]
      exact .begun hlonger (by omega)
    · refine taken_of_quiet hstill (acceptByte_of_full hs (Nat.le_of_not_lt hroom)) ?_
      rw [append_begun]
      exact .dropped hlonger (by omega) nofun

/-- One byte more when a frame that was begun has been dropped. -/
theorem taken_dropped (hquiet : Quiet (front ++ stx :: body)) (hbody : Unmarked body)
    (hlong : maxFrame < body.length + 1) (hbegun : c.incoming.head? ≠ some stx)
    (hs : byte ≠ stx) : Taken c (front ++ stx :: body) byte := by
  obtain ⟨incoming, haccept, hbegun⟩ := acceptByte_of_not_begun hbegun hs
  by_cases he : byte = etx
  · subst he
    exact taken_of_long hquiet.of_append hbody (by omega) haccept hbegun
  · -- nothing is stored of it, however long it goes on
    obtain ⟨hlonger, hlength, hstill⟩ := quiet_begun hquiet hbody hs he
    refine taken_of_quiet hstill haccept ?_
    rw [append_begun]
    exact .dropped hlonger (by omega) hbegun

/-- **Every byte is taken**: a start mark begins a frame whatever was stored,
and any other byte goes by what was stored before it. -/
theorem Stores.taken (hquiet : Quiet left) (h : Stores left c.incoming) (byte : UInt8) :
    Taken c left byte := by
  by_cases hs : byte = stx
  · subst hs
    exact taken_of_quiet (hquiet.append_stx unmarked_nil) c.acceptByte_start
      (.begun unmarked_nil (by decide))
  · generalize hincoming : c.incoming = incoming at h
    cases h with
    | idle hnone hbegun =>
      obtain ⟨incoming, haccept, hbegun⟩ := acceptByte_of_not_begun (hincoming ▸ hbegun) hs
      have hstill : stx ∉ left ++ [byte] := by simp [hnone, Ne.symm hs]
      exact taken_of_quiet (quiet_of_not_mem hstill) haccept (.idle hstill hbegun)
    | begun hbody hfits => exact taken_begun hquiet hbody hincoming hs
    | dropped hbody hlong hbegun => exact taken_dropped hquiet hbody hlong (hincoming ▸ hbegun) hs

end Taken

/-- A silent controller into which a stream was clocked. -/
structure Tracks (c : Controller) (stream : Bytes) : Prop where
  atRest : c.AtRest
  silent : c.behavior = .silent
  received : c.received.toList = receivable stream
  stores : Stores (spans stream).2 c.incoming

/-- A fresh controller, made silent. -/
theorem tracks_silent : Tracks (setBehavior {} .silent) [] where
  atRest := ⟨rfl, rfl, rfl, rfl⟩
  silent := rfl
  received := (receivable_of_quiet quiet_nil).symm
  stores := by
    rw [spans_of_quiet quiet_nil]
    exact stores_nil

/-- **One pulse receives the span that its byte completes**, if that is not too
long. -/
theorem Tracks.pulse {c : Controller} {stream : Bytes} (h : Tracks c stream) (byte : UInt8) :
    Tracks (c.pulse byte) (stream ++ [byte]) := by
  have hrest : (c.clocked byte).AtRest := h.atRest.clocked byte
  have hspans : (spans (stream ++ [byte])).2 = (spans ((spans stream).2 ++ [byte])).2 := by
    rw [spans_append]
  have hstores : Stores (spans stream).2 (c.clocked byte).incoming := h.stores
  rw [h.atRest.pulse_eq h.silent]
  rcases hstores.taken (quiet_spans_snd stream) byte with
    ⟨haccept, hreceivable, hstores⟩ | @⟨frame, haccept, hreceivable, hleft⟩
  · -- nothing is received, and the controller has been at rest all along
    rw [haccept]
    refine ⟨⟨hrest.listening, hrest.signal, hrest.clockHigh, hrest.latched⟩, h.silent, ?_, ?_⟩
    · rw [receivable_append, hreceivable, List.append_nil]
      exact h.received
    · rw [hspans]
      exact hstores
  · -- the frame is received before it is judged, and silence keeps the rest
    obtain ⟨hrest, hsilent, hreceived, hincoming⟩ := AtRest.answer_silent
      (c := { c.clocked byte with incoming := [], received := c.received.push frame })
      ⟨hrest.listening, hrest.signal, hrest.clockHigh, hrest.latched⟩ h.silent frame
    rw [haccept]
    refine ⟨hrest, hsilent, ?_, ?_⟩
    · rw [receivable_append, hreceivable, ← h.received, ← Array.toList_push]
      exact congrArg Array.toList hreceived
    · rw [hspans, hleft]
      exact hincoming.symm ▸ stores_nil

/-- A whole stream is tracked, byte by byte. -/
theorem Tracks.stream (later : Bytes) :
    ∀ {c : Controller} {stream : Bytes}, Tracks c stream →
      Tracks (later.foldl Controller.pulse c) (stream ++ later) := by
  induction later with
  | nil =>
    intro c stream h
    rw [List.append_nil]
    exact h
  | cons byte later ih =>
    intro c stream h
    rw [List.foldl_cons, List.append_cons]
    exact ih (h.pulse byte)

/-- **The two receivers agree**: of any byte stream clocked into a fresh silent
controller, the frames it receives are the spans that the search finds, those
left out that are longer than it buffers. -/
theorem received_eq_spanBytes (stream : Bytes) :
    (stream.foldl pulse (setBehavior {} .silent)).received.toList
      = (spanBytes stream).filter fun bytes => bytes.length ≤ maxFrame :=
  (tracks_silent.stream stream).received

end Controller

end MotionBridge
