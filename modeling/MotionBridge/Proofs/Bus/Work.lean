/-
MotionBridge/Proofs/Bus/Work.lean

How much an exchange can cost on the lines, whatever the peer does.

Three kinds of calls are counted: falling edges of the clock, samples of the
data and looks at the peer's signal.  Costs add up along a trace
(`Within.append`), and the shapes of the calls bound them: for a wait by its
patience, for a send by the length of its frame, for a receive by the longest
reply that is taken (`SendCalls.within`, `ReceiveCalls.within`).  Against a peer
that never sends an end mark a receive is over with one sample more than there
is room for.

When every wait is a single look, the looks of a receive tell its outcome
together with the samples (`ReceiveCalls.outcome`).  Both come together in
`transceive_bounded`.
-/
import MotionBridge.Proofs.Bus.Cycles

namespace MotionBridge

open LineCall (sampled sampled?)

/-! ### Counting calls -/

namespace LineCall

/-- The level that a call saw on the peer's signal. -/
def look? : LineCall → Option Bool
  | .peerSignal level => some level
  | _ => none

/-- The levels seen on the peer's signal. -/
def looks (calls : List LineCall) : List Bool :=
  calls.filterMap look?

/-- Falling edges of the clock. -/
def falls (calls : List LineCall) : Nat :=
  calls.count (.setClock false)

section Counts

variable (a b : List LineCall) (call : LineCall)

@[simp] theorem looks_nil : looks [] = [] := rfl

@[simp] theorem looks_append : looks (a ++ b) = looks a ++ looks b :=
  List.filterMap_append

@[simp] theorem looks_cons : looks (call :: b) = call.look?.toList ++ looks b := by
  have h := looks_append [call] b
  cases call <;> exact h

@[simp] theorem falls_nil : falls [] = 0 := rfl

@[simp] theorem falls_append : falls (a ++ b) = falls a + falls b :=
  List.count_append

@[simp] theorem falls_cons :
    falls (call :: b) = (if call = .setClock false then 1 else 0) + falls b := by
  rw [falls, List.count_cons, Nat.add_comm]
  simp only [beq_iff_eq]
  rfl

end Counts

end LineCall

open LineCall (look? looks falls)

/-- Calls are within bounds when they make at most so many falling edges, so
many samples and so many looks. -/
structure Within (calls : List LineCall) (edges samples views : Nat) : Prop where
  falls : falls calls ≤ edges
  sampled : (sampled calls).length ≤ samples
  looks : (looks calls).length ≤ views

namespace Within

variable {a b : List LineCall} {edges edges' samples samples' views views' : Nat}

/-- Calls are within what they make themselves. -/
theorem self (calls : List LineCall) :
    Within calls (LineCall.falls calls) (LineCall.sampled calls).length
      (LineCall.looks calls).length :=
  ⟨Nat.le_refl _, Nat.le_refl _, Nat.le_refl _⟩

/-- **Costs add up.** -/
theorem append (h : Within a edges samples views) (h' : Within b edges' samples' views') :
    Within (a ++ b) (edges + edges') (samples + samples') (views + views') := by
  refine ⟨?_, ?_, ?_⟩
  · rw [LineCall.falls_append]
    exact Nat.add_le_add h.falls h'.falls
  · rw [LineCall.sampled_append, List.length_append]
    exact Nat.add_le_add h.sampled h'.sampled
  · rw [LineCall.looks_append, List.length_append]
    exact Nat.add_le_add h.looks h'.looks

theorem mono (h : Within a edges samples views) (hedges : edges ≤ edges')
    (hsamples : samples ≤ samples') (hviews : views ≤ views') :
    Within a edges' samples' views' :=
  ⟨Nat.le_trans h.falls hedges, Nat.le_trans h.sampled hsamples, Nat.le_trans h.looks hviews⟩

/-- Pieces of the same cost each cost that many times as much. -/
theorem flatMap {α : Type} {f : α → List LineCall} {pieces : List α}
    (h : ∀ piece ∈ pieces, Within (f piece) edges samples views) :
    Within (pieces.flatMap f) (pieces.length * edges) (pieces.length * samples)
      (pieces.length * views) := by
  induction pieces with
  | nil => simpa using self []
  | cons piece rest ih =>
    have hfirst := h piece (List.mem_cons_self ..)
    have hrest := ih fun later hlater => h later (List.mem_cons_of_mem piece hlater)
    have hcost : ∀ cost, (rest.length + 1) * cost = cost + rest.length * cost := fun cost => by
      rw [Nat.add_one_mul, Nat.add_comm]
    rw [List.flatMap_cons, List.length_cons, hcost, hcost, hcost]
    exact hfirst.append hrest

end Within

/-! ### The cost of a cycle -/

section Costs

variable {patience : Nat} {config : BusConfig} {calls : List LineCall}

/-- A wait is one look, and no more further ones than there is patience. -/
theorem WaitCalls.within {level : Bool} {step : HandshakeStep} {result : Except BusError Unit}
    (h : WaitCalls level step patience calls result) : Within calls 0 0 (patience + 1) := by
  induction h with
  | seen => exact ⟨Nat.le_refl 0, Nat.le_refl 0, Nat.succ_le_succ (Nat.zero_le _)⟩
  | gaveUp _ => exact ⟨Nat.le_refl 0, Nat.le_refl 0, Nat.succ_le_succ (Nat.zero_le _)⟩
  | @again look more calls result _ _ ih =>
    have hlook : Within [.peerSignal look] 0 0 1 := .self _
    exact (hlook.append ih).mono (Nat.le_refl 0) (Nat.le_refl 0) (Nat.le_of_eq (Nat.add_comm ..))

/-- Putting the lines to rest costs nothing that is counted. -/
theorem within_abort : Within [.setClock true, .setDirection .input] 0 0 0 := .self _

/-- A byte that goes out costs an edge and two waits. -/
theorem SendBytesCalls.within {bytes : Bytes} {result : Except BusError Unit}
    (h : SendBytesCalls patience bytes calls result) :
    Within calls bytes.length 0 (bytes.length * (2 * (patience + 1))) := by
  have hoffer : ∀ byte, Within [.writeData byte, .setClock false] 1 0 0 := fun _ => .self _
  have hrise : Within [.setClock true] 0 0 0 := .self _
  induction h with
  | done => simpa using Within.self []
  | @notTaken _ rest _ _ hack =>
    exact ((hoffer _).append hack.within).mono
      (by simp) (Nat.le_refl 0) (by rw [List.length_cons, Nat.add_one_mul rest.length]; omega)
  | @notReleased _ rest _ _ _ hack hrelease =>
    exact ((((hoffer _).append hack.within).append hrise).append hrelease.within).mono
      (by simp) (Nat.le_refl 0) (by rw [List.length_cons, Nat.add_one_mul rest.length]; omega)
  | @next _ rest _ _ _ _ hack hrelease _ ih =>
    exact (((((hoffer _).append hack.within).append hrise).append hrelease.within).append ih).mono
      (by rw [List.length_cons]; omega) (Nat.le_refl 0)
      (by rw [List.length_cons, Nat.add_one_mul rest.length]; omega)

/-- A send costs an edge for every byte of its frame, and samples nothing. -/
theorem SendCalls.within {frame : Bytes} {result : Except BusError Unit}
    (h : SendCalls patience frame calls result) :
    Within calls frame.length 0 (1 + frame.length * (2 * (patience + 1))) := by
  have hready : ∀ level, Within [.peerSignal level] 0 0 1 := fun _ => .self _
  have hturn : ∀ direction, Within [.setDirection direction] 0 0 0 := fun _ => .self _
  cases h with
  | notReady =>
    -- no byte goes out, and one look is all
    exact ((hready false).append within_abort).mono (Nat.zero_le _) (Nat.le_refl 0) (by omega)
  | failed hbytes =>
    refine ((((hready true).append (hturn _)).append hbytes.within).append within_abort).mono
      ?_ (Nat.le_refl 0) ?_ <;> omega
  | sent hbytes =>
    refine ((((hready true).append (hturn _)).append hbytes.within).append (hturn _)).mono
      ?_ (Nat.le_refl 0) ?_ <;> omega

/-- A reply costs a sample, an edge and two waits for every byte there is room
for, and one sample more. -/
theorem ReceiveBytesCalls.within {room : Nat} {result : Except BusError Bytes}
    (h : ReceiveBytesCalls patience room calls result) :
    Within calls room (room + 1) (room * (2 * (patience + 1))) := by
  have htake : ∀ byte, Within [.readData byte, .setClock false] 1 1 0 := fun _ => .self _
  have hrise : Within [.setClock true] 0 0 0 := .self _
  induction h with
  | overflow =>
    -- the sample for which there is no room: no edge follows it
    exact ⟨Nat.le_refl 0, Nat.le_refl 1, Nat.zero_le _⟩
  | @notReleased room _ _ _ hrelease =>
    exact ((htake _).append hrelease.within).mono
      (by omega) (by omega) (by rw [Nat.add_one_mul room]; omega)
  | @last room _ hrelease =>
    exact (((htake _).append hrelease.within).append hrise).mono
      (by omega) (by omega) (by rw [Nat.add_one_mul room]; omega)
  | @notOffered room _ _ _ _ _ hrelease hoffer =>
    exact ((((htake _).append hrelease.within).append hrise).append hoffer.within).mono
      (by omega) (by omega) (by rw [Nat.add_one_mul room]; omega)
  | @next room _ _ _ _ _ _ hrelease hoffer _ ih =>
    exact (((((htake _).append hrelease.within).append hrise).append hoffer.within).append ih).mono
      (by omega) (by omega) (by rw [Nat.add_one_mul room]; omega)

/-- A receive waits once more, for the reply to begin. -/
theorem ReceiveCalls.within {result : Except BusError Bytes}
    (h : ReceiveCalls config calls result) :
    Within calls config.maxReply (config.maxReply + 1)
      (config.patience + 1 + config.maxReply * (2 * (config.patience + 1))) := by
  have hidle : Within [.setDirection .input, .setClock true] 0 0 0 := .self _
  cases h with
  | noReply hstart =>
    refine ((hidle.append hstart.within).append within_abort).mono ?_ ?_ ?_ <;> omega
  | failed hstart hbytes =>
    refine (((hidle.append hstart.within).append hbytes.within).append within_abort).mono
      ?_ ?_ ?_ <;> omega
  | received hstart hbytes =>
    refine ((hidle.append hstart.within).append hbytes.within).mono ?_ ?_ ?_ <;> omega

/-- **A cycle costs no more than one send and one receive.** -/
theorem AttemptCalls.within {frame : Bytes} {attempt : Attempt}
    (h : AttemptCalls config frame calls attempt) :
    Within calls (frame.length + config.maxReply) (config.maxReply + 1)
      (1 + frame.length * (2 * (config.patience + 1))
        + (config.patience + 1 + config.maxReply * (2 * (config.patience + 1)))) := by
  cases h with
  | sendFailed hsend =>
    -- nothing is received behind a send that failed
    exact hsend.within.mono (by omega) (by omega) (by omega)
  | receiveFailed hsend hreceive | invalid hsend hreceive _ | accepted hsend hreceive _ =>
    exact (hsend.within.append hreceive.within).mono (by omega) (by omega) (by omega)

end Costs

/-! ### The outcome of a receive -/

/-- Looks are in turn when the first sees this level and each further one the
other level than the one before it. -/
def InTurn : Bool → List Bool → Prop
  | _, [] => True
  | level, look :: rest => look = level ∧ InTurn (!level) rest

instance decidableInTurn : ∀ (level : Bool) (looks : List Bool), Decidable (InTurn level looks)
  | _, [] => isTrue trivial
  | level, look :: rest =>
    have := decidableInTurn (!level) rest
    inferInstanceAs (Decidable (look = level ∧ InTurn (!level) rest))

example : InTurn false [false, true, false] ∧ ¬ InTurn false [false, true, true] := by decide

section Outcome

variable {config : BusConfig} {calls : List LineCall}

/-- Without patience a wait is one look; it went well when that saw the level
waited for. -/
theorem WaitCalls.looks_of_ok {level : Bool} {step : HandshakeStep}
    (h : WaitCalls level step 0 calls (.ok ())) : looks calls = [level] ∧ sampled calls = [] := by
  cases h with
  | seen => exact ⟨rfl, rfl⟩

/-- A wait that failed saw the other level, and says so. -/
theorem WaitCalls.looks_of_error {level : Bool} {step : HandshakeStep} {e : BusError}
    (h : WaitCalls level step 0 calls (.error e)) :
    looks calls = [!level] ∧ sampled calls = [] ∧ e = .timeout step := by
  cases h with
  | gaveUp hne => exact ⟨congrArg ([·]) (Bool.eq_not.mpr hne), rfl, rfl⟩

/-- What the looks and the samples of a run say about its result: it is a reply
when all waits went well and an end mark was among the first bytes, and an
overflow when all waits went well and none was. -/
structure Outcome (level : Bool) (room : Nat) (calls : List LineCall)
    (result : Except BusError Bytes) : Prop where
  ok_iff : (∃ reply, result = .ok reply) ↔
    InTurn level (looks calls) ∧ etx ∈ (sampled calls).take room
  overflow_iff : result = .error .replyOverflow ↔
    InTurn level (looks calls) ∧ etx ∉ (sampled calls).take room
  /-- An overflow is noticed at the byte behind the last one taken. -/
  overflowed : result = .error .replyOverflow → (sampled calls).length = room + 1

/-- A run with a wait that failed has neither outcome. -/
theorem Outcome.of_timeout {level : Bool} {room : Nat} {step : HandshakeStep}
    (h : ¬ InTurn level (looks calls)) : Outcome level room calls (.error (.timeout step)) :=
  ⟨iff_of_false (by rintro ⟨reply, ⟨⟩⟩) (fun hturn => h hturn.1),
    iff_of_false (by rintro ⟨⟩) (fun hturn => h hturn.1), by rintro ⟨⟩⟩

/-- Only the looks and the samples matter; a low look in front is in turn. -/
theorem Outcome.behind_low {calls' : List LineCall} {room : Nat} {result : Except BusError Bytes}
    (h : Outcome true room calls result) (hlooks : looks calls' = false :: looks calls)
    (hsampled : sampled calls' = sampled calls) : Outcome false room calls' result := by
  have hturn : InTurn false (looks calls') ↔ InTurn true (looks calls) := by
    rw [hlooks, InTurn]
    exact and_iff_right rfl
  refine ⟨?_, ?_, ?_⟩
  · rw [hturn, hsampled]
    exact h.ok_iff
  · rw [hturn, hsampled]
    exact h.overflow_iff
  · rw [hsampled]
    exact h.overflowed

theorem ReceiveBytesCalls.outcome {room : Nat} {result : Except BusError Bytes}
    (h : ReceiveBytesCalls 0 room calls result) : Outcome true room calls result := by
  induction h with
  | overflow =>
    refine ⟨iff_of_false (by rintro ⟨reply, ⟨⟩⟩) ?_, iff_of_true rfl ?_, fun _ => rfl⟩
    · rintro ⟨-, hmem⟩
      exact absurd hmem List.not_mem_nil
    · exact ⟨trivial, List.not_mem_nil⟩
  | notReleased hrelease =>
    obtain ⟨hlooks, -, rfl⟩ := hrelease.looks_of_error
    exact .of_timeout (by simp [hlooks, look?, InTurn])
  | last hrelease =>
    obtain ⟨hlooks, hsampled⟩ := hrelease.looks_of_ok
    refine ⟨iff_of_true ⟨_, rfl⟩ ?_, iff_of_false (by rintro ⟨⟩) ?_, by rintro ⟨⟩⟩
    · simp [hlooks, hsampled, look?, sampled?, InTurn]
    · simp [hsampled, sampled?]
  | notOffered _ hrelease hoffer =>
    obtain ⟨hlooks, -⟩ := hrelease.looks_of_ok
    obtain ⟨hlooks', -, rfl⟩ := hoffer.looks_of_error
    exact .of_timeout (by simp [hlooks, hlooks', look?, InTurn])
  | @next room byte release offer later result hne hrelease hoffer _ ih =>
    obtain ⟨hlooks, hsampled⟩ := hrelease.looks_of_ok
    obtain ⟨hlooks', hsampled'⟩ := hoffer.looks_of_ok
    -- a byte that is no end mark, between two waits that went well, decides nothing
    have hturn : InTurn true (looks ([.readData byte, .setClock false] ++ release
        ++ [.setClock true] ++ offer ++ later)) ↔ InTurn true (looks later) := by
      simp [hlooks, hlooks', look?, InTurn]
    have hbytes : sampled ([.readData byte, .setClock false] ++ release ++ [.setClock true]
        ++ offer ++ later) = byte :: sampled later := by
      simp [hsampled, hsampled', sampled?]
    have hmem : etx ∈ (byte :: sampled later).take (room + 1)
        ↔ etx ∈ (sampled later).take room := by
      rw [List.take_succ_cons, List.mem_cons]
      exact or_iff_right hne.symm
    have hok : (∃ reply, result.map (byte :: ·) = .ok reply) ↔ ∃ reply, result = .ok reply := by
      cases result <;> simp [Except.map]
    have hoverflow : result.map (byte :: ·) = .error .replyOverflow
        ↔ result = .error .replyOverflow := by
      cases result <;> simp [Except.map]
    refine ⟨?_, ?_, ?_⟩
    · rw [hok, hturn, hbytes, hmem]
      exact ih.ok_iff
    · rw [hoverflow, hturn, hbytes, hmem]
      exact ih.overflow_iff
    · rw [hoverflow, hbytes, List.length_cons]
      exact fun h => congrArg (· + 1) (ih.overflowed h)

/-- **The looks and samples of a receive tell its outcome.** -/
theorem ReceiveCalls.outcome {result : Except BusError Bytes} (hpatience : config.patience = 0)
    (h : ReceiveCalls config calls result) : Outcome false config.maxReply calls result := by
  cases h with
  | noReply hstart =>
    rw [hpatience] at hstart
    obtain ⟨hlooks, -, rfl⟩ := hstart.looks_of_error
    exact .of_timeout (by simp [hlooks, look?, InTurn])
  | failed hstart hbytes | received hstart hbytes =>
    rw [hpatience] at hstart hbytes
    -- the low look that starts a reply comes before all others
    obtain ⟨hlooks, hsampled⟩ := hstart.looks_of_ok
    refine hbytes.outcome.behind_low ?_ ?_
    · simp [hlooks, look?]
    · simp [hsampled, sampled?]

end Outcome

namespace Master

variable {σ : Type} [Lines σ]

/-- **The work of an exchange is bounded, whatever the peer does.**  With waits
of a single look, an exchange of `n` bytes makes at most `n + M` falling edges,
`M + 1` samples and `2 + 2 * n + 2 * M` looks in each of its attempts, where `M`
is the longest reply that is taken.  A receive brings a reply exactly when all
its waits went well and an end mark was among the first `M` samples, and it
overflows exactly when they went well and none was, at the sample behind
those. -/
theorem transceive_bounded (m : Master σ) (hpatience : m.config.patience = 0) (frame : Bytes) :
    let exchanged := m.watched.transceive frame
    let trace := exchanged.2.lines.trace
    let received := m.watched.receive
    let calls := received.2.lines.trace
    let limit := m.config.maxReply
    (exchanged.1 = (m.transceive frame).1 ∧ exchanged.2.bare = (m.transceive frame).2) ∧
      falls trace ≤ m.config.attempts * (frame.length + limit) ∧
      (sampled trace).length ≤ m.config.attempts * (limit + 1) ∧
      (looks trace).length ≤ m.config.attempts * (2 + 2 * frame.length + 2 * limit) ∧
      (received.1 = m.receive.1 ∧ received.2.bare = m.receive.2) ∧
      ((∃ reply, m.receive.1 = .ok reply) ↔
        InTurn false (looks calls) ∧ etx ∈ (sampled calls).take limit) ∧
      (m.receive.1 = .error .replyOverflow ↔
        InTurn false (looks calls) ∧ etx ∉ (sampled calls).take limit) ∧
      (m.receive.1 = .error .replyOverflow → (sampled calls).length = limit + 1) := by
  intro exchanged trace received calls limit
  obtain ⟨hbare, hmade, hcycles, hfollows⟩ :=
    transceive_calls (rfl : m.watched.transceive frame = (exchanged.1, exchanged.2))
  obtain ⟨hreceiveBare, receiveCalls, hreceiveMade, hshape⟩ :=
    receive_calls (rfl : m.watched.receive = (received.1, received.2))
  have htrace : trace = (m.watched.cycles frame m.config.attempts).flatMap Cycle.calls :=
    hmade.trace
  have hcalls : calls = receiveCalls := hreceiveMade.trace
  have hwithin : Within trace (m.config.attempts * (frame.length + limit))
      (m.config.attempts * (limit + 1))
      (m.config.attempts * (2 + 2 * frame.length + 2 * limit)) := by
    rw [htrace]
    -- each cycle is within its bounds, and there are no more cycles than attempts
    have hcycle := Within.flatMap (f := Cycle.calls) fun c hc => (hcycles c hc).within
    refine hcycle.mono ?_ ?_ ?_
    · exact Nat.mul_le_mul_right _ hfollows.bounded
    · exact Nat.mul_le_mul_right _ hfollows.bounded
    · refine Nat.mul_le_mul hfollows.bounded ?_
      have hsingle : m.watched.config.patience = 0 := hpatience
      rw [hsingle]
      show _ ≤ 2 + 2 * frame.length + 2 * m.watched.config.maxReply
      omega
  rw [bare_watched] at hbare hreceiveBare
  have houtcome : Outcome false limit calls m.receive.1 := by
    rw [hreceiveBare, hcalls]
    exact hshape.outcome hpatience
  exact ⟨⟨hbare ▸ rfl, hbare ▸ rfl⟩, hwithin.falls, hwithin.sampled, hwithin.looks,
    ⟨hreceiveBare ▸ rfl, hreceiveBare ▸ rfl⟩, houtcome.ok_iff, houtcome.overflow_iff,
    houtcome.overflowed⟩

/-- A peer that always answers in turn and never sends an end mark: two attempts
at a frame of one byte, with one byte of reply allowed, take all the work that
they can. -/
theorem transceive_bounded_of_endless :
    let m := start ({ levels := [true, false, true, false, true, false, true, false, true, false,
        true, false], samples := [] } : Script) { attempts := 2, maxReply := 1 }
    let trace := (m.watched.transceive [0x41]).2.lines.trace
    m.config.patience = 0 ∧ falls trace = 2 * (1 + 1) ∧ (sampled trace).length = 2 * (1 + 1) ∧
      (looks trace).length = 2 * (2 + 2 * 1 + 2 * 1) ∧ (m.transceive [0x41]).1.reply = [] := by
  intro m trace
  obtain ⟨-, hfalls, hsamples, hlooks, -⟩ := transceive_bounded m rfl [0x41]
  exact ⟨rfl, Nat.le_antisymm hfalls (by decide), Nat.le_antisymm hsamples (by decide),
    Nat.le_antisymm hlooks (by decide), by decide⟩

/-- An end mark may be the last byte for which there is room. -/
example :
    (start ({ levels := [false, true, false, true], samples := [0x41, etx] } : Script)
      { maxReply := 2 }).receive.1 = .ok [0x41, etx] := rfl

/-- With no room at all the first sample is one too many. -/
example :
    (start ({ levels := [false], samples := [etx] } : Script) { maxReply := 0 }).receive.1
      = .error .replyOverflow := rfl

end Master

end MotionBridge
