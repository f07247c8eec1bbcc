/-
MotionBridge/Proofs/Bus/Noise.lean

What noise ahead of a reply does to the value that is read.

A reply is accepted for the frame found in it, behind any noise, but its value
is read from the reply's own second byte on.  Without noise this is the value
of the frame, whoever sent it (`value_command`).  Noise is read in its place,
so a peer can bring any value together with any good frame
(`exists_peer_value`).

The peer that does so plays a script of one answer (`Script.answering`), which
a master collects at its first attempt (`transceive_answering`).
-/
import MotionBridge.Proofs.Bus.Cycles
import MotionBridge.Bus.Script

namespace MotionBridge

/-! ### A peer that answers -/

namespace Script

/-- The levels of so many handshakes: pulled low, and let go. -/
def handshakes : Nat → List Bool
  | 0 => []
  | n + 1 => false :: true :: handshakes n

theorem handshakes_add (m n : Nat) : handshakes (m + n) = handshakes m ++ handshakes n := by
  induction m with
  | zero => rw [Nat.zero_add, handshakes, List.nil_append]
  | succ m ih => rw [Nat.succ_add, handshakes, ih, handshakes, List.cons_append, List.cons_append]

/-- A peer that is ready, takes so many bytes, and answers with a reply. -/
def answering (taken : Nat) (reply : Bytes) : Script :=
  { levels := true :: handshakes (taken + reply.length), samples := reply }

end Script

namespace Master

open Script (handshakes)

/-- The script that a master has ahead of it, under a configuration. -/
structure Plays (m : Master Script) (config : BusConfig) (levels : List Bool) (samples : Bytes) :
    Prop where
  config : m.config = config
  levels : m.lines.levels = levels
  samples : m.lines.samples = samples

namespace Plays

variable {m : Master Script} {config : BusConfig} {levels : List Bool} {samples : Bytes}

/-- What a master does to its lines leaves the script as it is. -/
theorem enter (h : m.Plays config levels samples) (state : BusState) :
    (m.enter state).Plays config levels samples :=
  ⟨h.config, h.levels, h.samples⟩

theorem setDirection (h : m.Plays config levels samples) (direction : Direction) :
    (m.setDirection direction).Plays config levels samples :=
  ⟨h.config, h.levels, h.samples⟩

theorem writeData (h : m.Plays config levels samples) (byte : UInt8) :
    (m.writeData byte).Plays config levels samples :=
  ⟨h.config, h.levels, h.samples⟩

theorem setClock (h : m.Plays config levels samples) (high : Bool) :
    (m.setClock high).Plays config levels samples :=
  ⟨h.config, h.levels, h.samples⟩

/-- A look takes the next level. -/
theorem peerSignal {next : Bool} (h : m.Plays config (next :: levels) samples) :
    ∃ m', m.peerSignal = (next, m') ∧ m'.Plays config levels samples := by
  rcases m with ⟨⟨_, _, level⟩, _, state⟩
  obtain ⟨rfl, rfl, rfl⟩ := h
  exact ⟨_, rfl, rfl, rfl, rfl⟩

/-- A sample takes the next byte. -/
theorem readData {byte : UInt8} (h : m.Plays config levels (byte :: samples)) :
    ∃ m', m.readData = (byte, m') ∧ m'.Plays config levels samples := by
  rcases m with ⟨⟨_, _, level⟩, _, state⟩
  obtain ⟨rfl, rfl, rfl⟩ := h
  exact ⟨_, rfl, rfl, rfl, rfl⟩

/-- A wait for the level that comes next ends with the first look. -/
theorem await {next : Bool} (h : m.Plays config (next :: levels) samples) (step : HandshakeStep) :
    ∃ m', m.await next step = (.ok (), m') ∧ m'.Plays config levels samples := by
  obtain ⟨m', hlook, hm'⟩ := h.peerSignal
  refine ⟨m', ?_, hm'⟩
  rw [Master.await]
  cases m.config.patience with
  | zero => simp only [awaitLevel, hlook, if_true]
  | succ more => simp only [awaitLevel, hlook, if_true]

/-- Bytes go out with one handshake each. -/
theorem sendBytes (bytes : Bytes) :
    ∀ {m : Master Script}, m.Plays config (handshakes bytes.length ++ levels) samples →
      ∃ m', Master.sendBytes bytes m = (.ok (), m') ∧ m'.Plays config levels samples := by
  induction bytes with
  | nil => exact fun h => ⟨_, rfl, h⟩
  | cons byte rest ih =>
    intro m h
    obtain ⟨taken, hack, htaken⟩ :=
      ((((h.enter .sendByte).writeData byte).setClock false).enter .waitAck).await .peerAck
    obtain ⟨released, hrelease, hreleased⟩ := (htaken.setClock true).await .peerRelease
    obtain ⟨sent, hrest, hsent⟩ := ih (hreleased.enter .nextByte)
    refine ⟨sent, ?_, hsent⟩
    simp only [Master.sendBytes, hack, hrelease, hrest]

theorem send {frame : Bytes}
    (h : m.Plays config (true :: (handshakes frame.length ++ levels)) samples) :
    ∃ m', m.send frame = (.ok (), m') ∧ m'.Plays config levels samples := by
  obtain ⟨ready, hlook, hready⟩ := (h.enter .checkReady).peerSignal
  obtain ⟨sent, hbytes, hsent⟩ := sendBytes frame (hready.setDirection .output)
  refine ⟨_, ?_, (hsent.setDirection .input).enter .done⟩
  simp only [Master.send, sendRaw, hlook, hbytes]

/-- Bytes come in through the end mark, with one handshake each. -/
theorem receiveBytes (front : Bytes) (hfront : etx ∉ front) :
    ∀ {m : Master Script} {room : Nat}, front.length < room →
      m.Plays config (true :: handshakes front.length) (front ++ [etx]) →
      ∃ m', Master.receiveBytes room m = (.ok (front ++ [etx]), m') := by
  induction front with
  | nil =>
    intro m room hroom h
    obtain ⟨room, rfl⟩ := Nat.exists_eq_succ_of_ne_zero (Nat.ne_of_gt hroom)
    obtain ⟨read, hread, hsampled⟩ := h.readData
    obtain ⟨released, hrelease, -⟩ := (hsampled.setClock false).await .replyRelease
    refine ⟨released.setClock true, ?_⟩
    simp only [Master.receiveBytes, hread, hrelease, if_true]
    rfl
  | cons byte rest ih =>
    intro m room hroom h
    obtain ⟨room, rfl⟩ := Nat.exists_eq_succ_of_ne_zero (Nat.ne_of_gt (Nat.zero_lt_of_lt hroom))
    have hbyte : byte ≠ etx := fun heq => hfront (heq ▸ List.mem_cons_self ..)
    have hrest : etx ∉ rest := fun hmem => hfront (List.mem_cons_of_mem byte hmem)
    obtain ⟨read, hread, hsampled⟩ := h.readData
    obtain ⟨released, hrelease, hreleased⟩ := (hsampled.setClock false).await .replyRelease
    obtain ⟨offered, hoffer, hoffered⟩ := (hreleased.setClock true).await .nextReplyByte
    obtain ⟨received, hlater⟩ := ih hrest (Nat.lt_of_succ_lt_succ hroom) hoffered
    refine ⟨received, ?_⟩
    simp only [Master.receiveBytes, hread, hrelease, if_neg hbyte, hoffer, hlater]
    rfl

theorem receive {reply : Bytes} (hreply : Terminated reply) (hfits : reply.length ≤ config.maxReply)
    (h : m.Plays config (handshakes reply.length) reply) :
    ∃ m', m.receive = (.ok reply, m') := by
  obtain ⟨front, hfront, rfl⟩ := hreply
  rw [List.length_append] at hfits h
  obtain ⟨waited, hwait, hwaited⟩ :=
    (((h.enter .receiving).setDirection .input).setClock true).await .replyStart
  have hroom : front.length < waited.config.maxReply := by
    rw [hwaited.config]
    exact hfits
  obtain ⟨received, hbytes⟩ := receiveBytes front hfront hroom hwaited
  refine ⟨received.enter .done, ?_⟩
  simp only [Master.receive, receiveRaw, hwait, hbytes]

end Plays

/-- **A master collects the reply of a peer that answers**, at its first
attempt. -/
theorem transceive_answering {config : BusConfig} (hattempts : config.attempts ≠ 0)
    (frame : Bytes) {reply : Bytes} (hreply : Terminated reply)
    (hfits : reply.length ≤ config.maxReply) {f : Frame} (hvalid : validate reply = .ok f) :
    ((start (Script.answering frame.length reply) config).transceive frame).1.reply = reply := by
  have hplays : (start (Script.answering frame.length reply) config).Plays config
      (true :: (handshakes frame.length ++ handshakes reply.length)) reply := by
    rw [← Script.handshakes_add]
    exact ⟨rfl, rfl, rfl⟩
  -- the first attempt plays the whole script
  obtain ⟨sent, hsend, hsent⟩ := hplays.send
  obtain ⟨received, hreceive⟩ := hsent.receive hreply hfits
  have hattempt : (start (Script.answering frame.length reply) config).attempt frame
      = (.accepted reply, received) := by
    simp only [attempt, hsend, hreceive, hvalid]
  obtain ⟨more, hmore⟩ := Nat.exists_eq_succ_of_ne_zero hattempts
  have hrun : tryUpTo frame config.attempts (start (Script.answering frame.length reply) config)
      = ([.accepted reply], received) := by
    rw [hmore]
    simp only [tryUpTo, hattempt]
  rw [transceive,
    show (start (Script.answering frame.length reply) config).config = config from rfl, hrun]
  rfl

end Master

/-! ### What is read -/

/-- Noise longer than a value is read in place of what follows it. -/
theorem interpretReply_append {noise : Bytes} (hnoise : Base128.width < noise.length)
    (rest : Bytes) : interpretReply (noise ++ rest) = Base128.decodeAt noise 1 := by
  have hlong : Base128.width < (noise ++ rest).length := by
    rw [List.length_append]
    omega
  have htake : ((noise ++ rest).drop 1).take Base128.width = (noise.drop 1).take Base128.width := by
    rw [List.drop_append_of_le_length (by omega), List.take_append_of_le_length]
    rw [List.length_drop]
    omega
  rw [interpretReply, if_pos hlong, Base128.decodeAt, Base128.decodeAt, htake]

/-- Behind one byte of noise, the start mark of a short frame is read as an
acknowledgement. -/
theorem interpretReply_cons {frame : Bytes} (hframe : IsFrame frame)
    (hshort : frame.length < Base128.width) (x : UInt8) : interpretReply (x :: frame) = some 2 := by
  obtain ⟨body, -, rfl⟩ := hframe.marked
  have hlen : ¬ Base128.width < (x :: (stx :: body ++ [etx])).length := by
    rw [List.length_cons]
    omega
  rw [interpretReply, if_neg hlen]
  rfl

/-- What a reply that was accepted is read as: the frame in it, if nothing
stands before the frame. -/
structure ReadAs (reply : Bytes) (f : Frame) (value : Option Int32) : Prop where
  tail : reply = reply.take f.start ++ f.bytes
  clean : f.start = 0 → value = interpretReply f.bytes
  noise : Base128.width < f.start → value = Base128.decodeAt (reply.take f.start) 1
  mark : f.start = 1 → f.bytes.length < Base128.width → value = some 2

theorem readAs_of_terminated {reply : Bytes} (hreply : Terminated reply) {f : Frame}
    (hvalid : validate reply = .ok f) : ReadAs reply f (interpretReply reply) := by
  obtain ⟨noise, rfl, -, hframe, hstart, -⟩ := hreply.validate hvalid
  have htake : (noise ++ f.bytes).take f.start = noise := by rw [hstart, List.take_left]
  constructor
  · rw [htake]
  · intro hclean
    rw [hclean] at hstart
    rw [List.eq_nil_of_length_eq_zero hstart.symm, List.nil_append]
  · intro hlong
    rw [htake]
    exact interpretReply_append (hstart ▸ hlong) f.bytes
  · intro hone hshort
    rw [hone] at hstart
    obtain ⟨x, rfl⟩ := List.length_eq_one_iff.mp hstart.symm
    exact interpretReply_cons hframe hshort x

/-- A good frame behind unmarked bytes ends them with their only end mark. -/
theorem Unmarked.terminated {noise frame : Bytes} (hnoise : Unmarked noise)
    (hframe : IsFrame frame) : Terminated (noise ++ frame) := by
  obtain ⟨body, hbody, rfl⟩ := hframe.marked
  refine ⟨noise ++ stx :: body, ?_, by simp⟩
  intro hmem
  rcases List.mem_append.mp hmem with hmem | hmem
  · exact (hnoise etx hmem).2 rfl
  · cases hmem with
    | tail _ hmem => exact (hbody etx hmem).2 rfl

namespace Master

variable {σ : Type} [Lines σ]

/-- A reply that passes its check ends with its only end mark, whoever sent
it. -/
theorem terminated_transceive {m : Master σ} {frame : Bytes} {f : Frame}
    (hvalid : validate (m.transceive frame).1.reply = .ok f) :
    Terminated (m.transceive frame).1.reply := by
  rcases hrun : m.watched.transceive frame with ⟨x, w⟩
  obtain ⟨hbare, -, -, hfollows⟩ := transceive_calls hrun
  rw [bare_watched] at hbare
  rw [hbare] at hvalid ⊢
  have hne : x.reply ≠ [] := by
    intro hempty
    rw [hempty] at hvalid
    cases hvalid
  obtain ⟨-, last, -, haccepted, -⟩ := hfollows.accepted hne
  exact haccepted.terminated

/-- **The value of a command is that of the frame in its reply, if there is no
noise.**  Two runs that bring the same frame, and nothing before it, report the
same value, whatever their peers.  Noise is read in its place: a start mark
behind a single byte, and the noise alone if it is longer than a value. -/
theorem value_command {τ : Type} [Lines τ] (m : Master σ) (n : Master τ) (c : MotorCommand)
    (axis : UInt8) (parameter : Option Int32) {f g : Frame}
    (hm : validate (m.command c axis parameter).1.reply = .ok f)
    (hn : validate (n.command c axis parameter).1.reply = .ok g) (hframe : f.bytes = g.bytes) :
    ReadAs (m.command c axis parameter).1.reply f (m.command c axis parameter).1.value ∧
      (f.start = 0 → g.start = 0 →
        (m.command c axis parameter).1.value = (n.command c axis parameter).1.value) := by
  have hreading := readAs_of_terminated (terminated_transceive hm) hm
  refine ⟨hreading, ?_⟩
  intro hf hg
  have hvalue : (n.command c axis parameter).1.value = interpretReply g.bytes :=
    (readAs_of_terminated (terminated_transceive hn) hn).clean hg
  rw [hvalue, ← hframe]
  exact hreading.clean hf

/-- A peer that is not ready at first reports what one that is does. -/
theorem value_command_of_retry :
    ((start { Script.answering 5 [0x02, 0x31, 0xB1, 0x03] with
          levels := false :: (Script.answering 5 [0x02, 0x31, 0xB1, 0x03]).levels }
        { attempts := 2 }).command .getVersionInfo 1 none).1.value
      = ((start (Script.answering 5 [0x02, 0x31, 0xB1, 0x03]) { attempts := 1 }).command
          .getVersionInfo 1 none).1.value :=
  (value_command _ _ .getVersionInfo 1 none rfl rfl rfl).2 rfl rfl

/-- Noise makes the difference: a start mark behind a byte of it is taken for
the acknowledgement of the frame. -/
theorem value_beyond_frame :
    ¬ ∀ (m n : Master Script) (c : MotorCommand) (axis : UInt8) (parameter : Option Int32)
      (f g : Frame), validate (m.command c axis parameter).1.reply = .ok f →
        validate (n.command c axis parameter).1.reply = .ok g → f.bytes = g.bytes →
        (m.command c axis parameter).1.value = (n.command c axis parameter).1.value := by
  intro h
  have hvalue := h (start (Script.answering 5 [0x02, 0x31, 0xB1, 0x03]) { attempts := 1 })
    (start (Script.answering 5 [0x41, 0x02, 0x31, 0xB1, 0x03]) { attempts := 1 })
    .getVersionInfo 1 none _ _ rfl rfl rfl
  exact absurd hvalue (by decide)

/-- Any good frame can come with any value: a peer that puts the value into
noise ahead of the frame is believed. -/
theorem exists_peer_value {frame : Bytes} (hframe : IsFrame frame) (v : Int32) {config : BusConfig}
    (hattempts : config.attempts ≠ 0) (hroom : frame.length + 6 ≤ config.maxReply)
    (c : MotorCommand) (axis : UInt8) (parameter : Option Int32) :
    ∃ (peer : Script) (f : Frame),
      validate ((start peer config).command c axis parameter).1.reply = .ok f ∧
        f.bytes = frame ∧ ((start peer config).command c axis parameter).1.value = some v := by
  -- one byte where the start mark should be, and then the value
  have hnoise : Unmarked (0x41 :: Base128.encode v) :=
    Unmarked.cons (by decide) (Base128.unmarked_encode v)
  have hquiet : Quiet (0x41 :: Base128.encode v) :=
    quiet_iff.mpr (findSpan_eq_none_of_unmarked hnoise)
  have hvalid : validate ((0x41 :: Base128.encode v) ++ frame) = .ok (frameAt 6 frame) :=
    validate_ok_iff.mpr ⟨_, [], (congrArg _ (List.append_nil frame)).symm, hquiet, hframe, rfl⟩
  have hfits : ((0x41 :: Base128.encode v) ++ frame).length ≤ config.maxReply := by
    rw [List.length_append, Nat.add_comm]
    exact hroom
  have hreply := transceive_answering hattempts (PendingCommand.frame ⟨c.code, axis, parameter⟩)
    (hnoise.terminated hframe) hfits hvalid
  have hvalue : interpretReply ((0x41 :: Base128.encode v) ++ frame) = some v := by
    have hlong : Base128.width < (0x41 :: Base128.encode v).length := Nat.lt_succ_self 5
    rw [interpretReply_append hlong]
    exact Base128.decodeAt_encode v [0x41] []
  refine ⟨Script.answering (PendingCommand.frame ⟨c.code, axis, parameter⟩).length
    ((0x41 :: Base128.encode v) ++ frame), frameAt 6 frame, ?_, rfl, ?_⟩
  · rw [command, hreply]
    exact hvalid
  · rw [command, Exchange.value, hreply]
    exact hvalue

end Master

end MotionBridge
