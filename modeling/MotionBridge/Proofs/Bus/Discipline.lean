/-
MotionBridge/Proofs/Bus/Discipline.lean

The line discipline of the master.

A trace is *disciplined* when bytes are driven and sampled only while the data
lines face the right way and the clock is high, when the clock falls only right
behind such a byte, and when nothing but looks at the peer's signal happens
until it rises again (`Disciplined`).  All of this is said of one call and the
calls before it: a trace is disciplined when each of its calls is allowed
behind those before it (`Allowed`, `Keeps.disciplined`).

Runs of calls that keep the discipline compose (`keeps_append`), and the calls
of every operation keep it behind a high clock, however the operation ends
(`SendCalls.keeps`, `ReceiveCalls.keeps`, `OperationCalls.keeps`).  Since every
operation leaves the clock high again, the trace of any operations in any
order is disciplined, whatever the peer does (`disciplined_after`).
-/
import MotionBridge.Proofs.Bus.Parking

namespace MotionBridge

open LineCall (lastClock lastDirection clock? direction?)

/-! ### Disciplined traces -/

/-- The discipline of a trace: what each of its calls says about the calls
around it. -/
structure Disciplined (trace : List LineCall) : Prop where
  /-- A byte is driven only onto lines that face out, under a high clock. -/
  write : ∀ {before byte after}, trace = before ++ .writeData byte :: after →
    lastDirection before = some .output ∧ lastClock before = some true
  /-- A byte is sampled only from lines that face in, under a high clock. -/
  read : ∀ {before byte after}, trace = before ++ .readData byte :: after →
    lastDirection before = some .input ∧ lastClock before = some true
  /-- The clock falls right behind a byte that was driven or sampled. -/
  fall : ∀ {before after}, trace = before ++ .setClock false :: after →
    ∃ byte, before.getLast? = some (.writeData byte) ∨ before.getLast? = some (.readData byte)
  /-- Until the clock rises again there are only looks at the signal. -/
  low : ∀ {before during after}, trace = before ++ .setClock false :: (during ++ after) →
    .setClock true ∉ during → ∀ call ∈ during, ∃ level, call = .peerSignal level
  /-- The lines are never turned around under a low clock. -/
  turn : ∀ {before direction after}, trace = before ++ .setDirection direction :: after →
    lastClock before ≠ some false

/-- Whether a call may be made behind the calls before it. -/
def Allowed (before : List LineCall) : LineCall → Prop
  | .setDirection _ => lastClock before ≠ some false
  | .writeData _ => lastDirection before = some .output ∧ lastClock before = some true
  | .readData _ => lastDirection before = some .input ∧ lastClock before = some true
  | .peerSignal _ => True
  | .setClock true => True
  | .setClock false =>
    ∃ byte, before.getLast? = some (.writeData byte) ∨ before.getLast? = some (.readData byte)

/-- Calls keep the discipline behind others when each is allowed behind all
that came before it. -/
def Keeps : List LineCall → List LineCall → Prop
  | _, [] => True
  | before, call :: rest => Allowed before call ∧ Keeps (before ++ [call]) rest

section Runs

variable (before : List LineCall)

@[simp] theorem keeps_nil : Keeps before [] := trivial

@[simp] theorem keeps_cons (call : LineCall) (rest : List LineCall) :
    Keeps before (call :: rest) ↔ Allowed before call ∧ Keeps (before ++ [call]) rest := Iff.rfl

/-- **Runs of calls compose.** -/
@[simp] theorem keeps_append (a b : List LineCall) :
    Keeps before (a ++ b) ↔ Keeps before a ∧ Keeps (before ++ a) b := by
  induction a generalizing before with
  | nil => simp
  | cons call a ih => simp [ih, and_assoc]

@[simp] theorem allowed_look (level : Bool) : Allowed before (.peerSignal level) := trivial

@[simp] theorem allowed_turn (direction : Direction) :
    Allowed before (.setDirection direction) ↔ lastClock before ≠ some false := Iff.rfl

@[simp] theorem allowed_rise : Allowed before (.setClock true) := trivial

@[simp] theorem allowed_fall_write (byte : UInt8) :
    Allowed (before ++ [.writeData byte]) (.setClock false) :=
  ⟨byte, Or.inl List.getLast?_concat⟩

@[simp] theorem allowed_fall_read (byte : UInt8) :
    Allowed (before ++ [.readData byte]) (.setClock false) :=
  ⟨byte, Or.inr List.getLast?_concat⟩

end Runs

/-- Each call of a run is allowed where it stands. -/
theorem Keeps.allowed {trace before after : List LineCall} {call : LineCall} (h : Keeps [] trace)
    (htrace : trace = before ++ call :: after) : Allowed before call := by
  subst htrace
  exact ((keeps_append [] before (call :: after)).mp h).2.1

/-- The last call of a trace under a low clock that has not been left: the fall
itself, or a look. -/
def Waits (before : List LineCall) : Prop :=
  lastClock before = some false ∧ ∃ last, before.getLast? = some last ∧
    (last = .setClock false ∨ ∃ level, last = .peerSignal level)

theorem waits_fall (before : List LineCall) : Waits (before ++ [.setClock false]) := by
  simp [Waits, clock?]

theorem Waits.look {before : List LineCall} (h : Waits before) (level : Bool) :
    Waits (before ++ [.peerSignal level]) := by
  simp [Waits, h.1, clock?]

/-- While the clock is low only a look or a rise is allowed. -/
theorem Waits.allowed {before : List LineCall} {call : LineCall} (h : Waits before)
    (hallowed : Allowed before call) (hrise : call ≠ .setClock true) :
    ∃ level, call = .peerSignal level := by
  obtain ⟨hlow, last, hlast, hquiet⟩ := h
  cases call with
  | peerSignal level => exact ⟨level, rfl⟩
  | setDirection direction => exact absurd hlow hallowed
  | writeData byte | readData byte =>
    obtain ⟨-, hhigh⟩ := hallowed
    rw [hlow] at hhigh
    cases hhigh
  | setClock high =>
    cases high with
    | true => exact absurd rfl hrise
    | false =>
      -- the clock would have to fall behind a byte, and none came since it fell
      obtain ⟨byte, hbyte⟩ := hallowed
      rcases hquiet with rfl | ⟨level, rfl⟩ <;> simp [hlast] at hbyte

/-- So all calls under a low clock are looks, as long as it does not rise. -/
theorem Waits.looks {during : List LineCall} :
    ∀ {before : List LineCall}, Waits before → Keeps before during → .setClock true ∉ during →
      ∀ call ∈ during, ∃ level, call = .peerSignal level := by
  induction during with
  | nil =>
    intro before _ _ _ call hcall
    cases hcall
  | cons first during ih =>
    intro before h hkeeps hrise call hcall
    obtain ⟨hfirst, hrest⟩ := hkeeps
    have hnever : first ≠ .setClock true := fun heq => hrise (heq ▸ List.mem_cons_self ..)
    obtain ⟨level, rfl⟩ := h.allowed hfirst hnever
    cases hcall with
    | head => exact ⟨level, rfl⟩
    | tail _ hcall =>
      exact ih (h.look level) hrest (fun hmem => hrise (List.mem_cons_of_mem _ hmem)) call hcall

/-- **A trace is disciplined when each of its calls is allowed.** -/
theorem Keeps.disciplined {trace : List LineCall} (h : Keeps [] trace) : Disciplined trace where
  write htrace := h.allowed htrace
  read htrace := h.allowed htrace
  fall htrace := h.allowed htrace
  turn htrace := h.allowed htrace
  low := by
    intro before during after htrace hrise
    subst htrace
    rw [keeps_append, keeps_cons, keeps_append] at h
    obtain ⟨-, -, hduring, -⟩ := h
    exact (waits_fall before).looks hduring hrise

/-! ### The calls of an operation -/

section Shapes

variable {patience : Nat} {config : BusConfig} {frame : Bytes} {calls before : List LineCall}

/-- A wait keeps the discipline anywhere. -/
theorem WaitCalls.keeps {level : Bool} {step : HandshakeStep} {more : Nat}
    {result : Except BusError Unit} (h : WaitCalls level step more calls result)
    (before : List LineCall) : Keeps before calls := by
  induction h generalizing before with
  | seen => simp
  | gaveUp _ => simp
  | again _ _ ih => simp [ih]

/-- Clocking bytes out keeps the discipline while the lines face out. -/
theorem SendBytesCalls.keeps {bytes : Bytes} {result : Except BusError Unit}
    (h : SendBytesCalls patience bytes calls result) :
    ∀ {before : List LineCall}, lastDirection before = some .output →
      lastClock before = some true → Keeps before calls := by
  induction h with
  | done =>
    intro before _ _
    trivial
  | @notTaken byte rest ack e hack =>
    intro before hdirection hclock
    have hwrite : Allowed before (.writeData byte) := ⟨hdirection, hclock⟩
    simp [hwrite, hack.keeps]
  | @notReleased byte rest ack release e hack hrelease =>
    intro before hdirection hclock
    have hwrite : Allowed before (.writeData byte) := ⟨hdirection, hclock⟩
    simp [hwrite, hack.keeps, hrelease.keeps]
  | @next byte rest ack release later result hack hrelease _ ih =>
    intro before hdirection hclock
    have hwrite : Allowed before (.writeData byte) := ⟨hdirection, hclock⟩
    -- the byte leaves the direction alone and the clock high for the next
    have hlater : Keeps (before ++ ([.writeData byte, .setClock false] ++ ack
        ++ [.setClock true] ++ release)) later := by
      apply ih
      · simp [hack.silent, hrelease.silent, hdirection, direction?]
      · simp [hack.silent, hrelease.silent, clock?]
    rw [keeps_append]
    refine ⟨?_, hlater⟩
    simp [hwrite, hack.keeps, hrelease.keeps]

/-- A send keeps the discipline behind a high clock. -/
theorem SendCalls.keeps {result : Except BusError Unit} (h : SendCalls patience frame calls result)
    (hclock : lastClock before = some true) : Keeps before calls := by
  have hbytes : ∀ {calls result}, SendBytesCalls patience frame calls result →
      Keeps (before ++ [.peerSignal true, .setDirection .output]) calls := by
    intro calls result hbytes
    apply hbytes.keeps
    · simp [direction?]
    · simp [hclock, clock?]
  cases h with
  | notReady => simp [clock?]
  | failed hfailed => simp [hclock, hbytes hfailed, clock?]
  | @sent calls hsent =>
    -- the lines are let go of under the clock that the last byte left
    have hhigh : lastClock (before ++ ([.peerSignal true, .setDirection .output] ++ calls))
        ≠ some false := by
      rw [← List.append_assoc, LineCall.lastClock_append]
      refine or_ne_some ?_ (hsent.clock_ok rfl)
      simp [hclock, clock?]
    rw [keeps_append]
    refine ⟨?_, hhigh, trivial⟩
    simp [hclock, hbytes hsent, clock?]

/-- Clocking bytes in keeps the discipline while the lines face in. -/
theorem ReceiveBytesCalls.keeps {room : Nat} {result : Except BusError Bytes}
    (h : ReceiveBytesCalls patience room calls result) :
    ∀ {before : List LineCall}, lastDirection before = some .input →
      lastClock before = some true → Keeps before calls := by
  induction h with
  | @overflow byte =>
    intro before hdirection hclock
    exact ⟨⟨hdirection, hclock⟩, trivial⟩
  | @notReleased room byte release e hrelease =>
    intro before hdirection hclock
    have hread : Allowed before (.readData byte) := ⟨hdirection, hclock⟩
    simp [hread, hrelease.keeps]
  | last hrelease =>
    intro before hdirection hclock
    have hread : Allowed before (.readData etx) := ⟨hdirection, hclock⟩
    simp [hread, hrelease.keeps]
  | @notOffered room byte release offer e _ hrelease hoffer =>
    intro before hdirection hclock
    have hread : Allowed before (.readData byte) := ⟨hdirection, hclock⟩
    simp [hread, hrelease.keeps, hoffer.keeps]
  | @next room byte release offer later result _ hrelease hoffer _ ih =>
    intro before hdirection hclock
    have hread : Allowed before (.readData byte) := ⟨hdirection, hclock⟩
    have hlater : Keeps (before ++ ([.readData byte, .setClock false] ++ release
        ++ [.setClock true] ++ offer)) later := by
      apply ih
      · simp [hrelease.silent, hoffer.silent, hdirection, direction?]
      · simp [hrelease.silent, hoffer.silent, clock?]
    rw [keeps_append]
    refine ⟨?_, hlater⟩
    simp [hread, hrelease.keeps, hoffer.keeps]

/-- A receive keeps the discipline behind a high clock. -/
theorem ReceiveCalls.keeps {result : Except BusError Bytes} (h : ReceiveCalls config calls result)
    (hclock : lastClock before = some true) : Keeps before calls := by
  have hbytes : ∀ {start calls result},
      WaitCalls false .replyStart config.patience start (.ok ()) →
      ReceiveBytesCalls config.patience config.maxReply calls result →
      Keeps (before ++ .setDirection .input :: .setClock true :: start) calls := by
    intro start calls result hstart hbytes
    apply hbytes.keeps
    · simp [hstart.silent, direction?]
    · simp [hstart.silent, clock?]
  cases h with
  | noReply hstart => simp [hclock, hstart.keeps, clock?]
  | failed hstart hfailed => simp [hclock, hstart.keeps, hbytes hstart hfailed, clock?]
  | received hstart hreceived => simp [hclock, hstart.keeps, hbytes hstart hreceived]

/-- Behind calls that rest a high clock is high again. -/
theorem Rests.high (h : Rests calls) (hclock : lastClock before = some true) :
    lastClock (before ++ calls) = some true := by
  rw [LineCall.lastClock_append, hclock]
  rcases hlast : lastClock calls with - | (- | -)
  · rfl
  · exact absurd hlast h.clock
  · rfl

/-- An attempt keeps the discipline behind a high clock. -/
theorem AttemptCalls.keeps {a : Attempt} (h : AttemptCalls config frame calls a)
    (hclock : lastClock before = some true) : Keeps before calls := by
  cases h with
  | sendFailed hsend => exact hsend.keeps hclock
  | receiveFailed hsend hreceive | invalid hsend hreceive _ | accepted hsend hreceive _ =>
    rw [keeps_append]
    exact ⟨hsend.keeps hclock, hreceive.keeps (hsend.rests.high hclock)⟩

/-- So do the cycles of an exchange, one after the other. -/
theorem keeps_cycles {cycles : List Cycle} :
    ∀ {before : List LineCall}, (∀ c ∈ cycles, AttemptCalls config frame c.calls c.attempt) →
      lastClock before = some true → Keeps before (cycles.flatMap Cycle.calls) := by
  induction cycles with
  | nil =>
    intro before _ _
    trivial
  | cons c cycles ih =>
    intro before hcycles hclock
    have hfirst := hcycles c (List.mem_cons_self ..)
    rw [List.flatMap_cons, keeps_append]
    exact ⟨hfirst.keeps hclock,
      ih (fun d hd => hcycles d (List.mem_cons_of_mem c hd)) (hfirst.rests.high hclock)⟩

/-- **The calls of every operation keep the discipline** behind a high clock. -/
theorem OperationCalls.keeps (h : OperationCalls config calls)
    (hclock : lastClock before = some true) : Keeps before calls := by
  cases h with
  | sent hsend => exact hsend.keeps hclock
  | received hreceive => exact hreceive.keeps hclock
  | exchanged hcycles => exact keeps_cycles hcycles hclock

end Shapes

/-! ### Any operations -/

namespace Master

variable {σ : Type} [Lines σ]

/-- A disciplined trace under a high clock stays so through any operations. -/
theorem keeps_after (ops : List BusOperation) :
    ∀ {w : Master (Recorded σ)}, Keeps [] w.lines.trace → lastClock w.lines.trace = some true →
      Keeps [] (w.after ops).lines.trace := by
  induction ops with
  | nil =>
    intro w h _
    exact h
  | cons op ops ih =>
    intro w h hclock
    rcases hperform : w.perform op with ⟨outcome, w'⟩
    obtain ⟨-, calls, hmade, hcalls⟩ := perform_calls hperform
    show Keeps [] ((w.perform op).2.after ops).lines.trace
    rw [hperform]
    apply ih
    · rw [hmade.trace, keeps_append]
      exact ⟨h, hcalls.keeps hclock⟩
    · rw [hmade.trace]
      exact hcalls.rests.high hclock

/-- **The master keeps the line discipline.**  The calls that it makes on its
lines, from the first on and through any operations in any order, are a
disciplined trace against any peer, also where an operation fails or is tried
again; the watched master does what the bare one does. -/
theorem disciplined_after (peer : σ) (config : BusConfig) (ops : List BusOperation) :
    Disciplined ((start (Recorded.new peer) config).after ops).lines.trace ∧
      ((start (Recorded.new peer) config).after ops).bare = (start peer config).after ops := by
  have hstart : Keeps [] (start (Recorded.new peer) config).lines.trace := by
    show Keeps [] [.setDirection .input, .setClock true]
    simp
  constructor
  · exact (keeps_after ops hstart rfl).disciplined
  · rw [bare_after]
    rfl

end Master

end MotionBridge
