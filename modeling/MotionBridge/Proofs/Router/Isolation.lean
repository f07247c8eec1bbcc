/-
MotionBridge/Proofs/Router/Isolation.lean

The two sides of the router do not touch each other.

The board's frames make no call on the bus, the controller's frames leave the
board as it is, and any other frame changes neither (`handle_isolated`).  On
its own side a frame sees nothing of the other: what becomes of it depends on
its side alone (`Owned`).  So two sessions that agree on the frames of a side
cannot be told apart there, whatever else they hold (`sessions_isolated`).
-/
import MotionBridge.Proofs.Board.Commands
import MotionBridge.Proofs.Bus.LineCalls
import MotionBridge.Router

namespace MotionBridge

namespace Router

variable {σ ξ : Type} [Lines σ] [Expander ξ]

/-! ### One frame -/

section Handle

variable {f : Frame} (now : Time) (r : Router σ ξ)

theorem handle_of_controllerNode (h : f.node = controllerNode) : handle now f r = r.forward f :=
  if_pos h

theorem handle_of_boardNode (h : f.node = boardNode) : handle now f r = r.runLocal f now := by
  have hother : f.node ≠ controllerNode := by
    rw [h]
    decide
  rw [handle, if_neg hother, if_pos h]

theorem handle_of_other (hcontroller : f.node ≠ controllerNode) (hboard : f.node ≠ boardNode) :
    (handle now f r).state = r ∧ (handle now f r).dispatch = .noReply := by
  rw [handle, if_neg hcontroller, if_neg hboard]
  exact ⟨rfl, rfl⟩

/-- The bus is left alone by all frames but the controller's. -/
theorem handle_bus (h : f.node ≠ controllerNode) : (handle now f r).state.bus = r.bus := by
  by_cases hboard : f.node = boardNode
  · rw [handle_of_boardNode now r hboard, runLocal]
    split <;> rfl
  · rw [(handle_of_other now r h hboard).1]

/-- The board is left alone by all frames but its own. -/
theorem handle_board (h : f.node ≠ boardNode) : (handle now f r).state.board = r.board := by
  by_cases hcontroller : f.node = controllerNode
  · rw [handle_of_controllerNode now r hcontroller]
    rfl
  · rw [(handle_of_other now r hcontroller h).1]

omit [Lines σ] in
/-- What becomes of a frame for the board.  One that is too short for a command
is answered with the error value, and any other with the board's reply, if the
command has one. -/
theorem runLocal_dispatch (f : Frame) :
    (f.bytes.length < 5 ∧ (r.runLocal f now).dispatch = .reply (valueReply (-1))) ∨
      (5 ≤ f.bytes.length ∧ f.bytes[2]? = some 1 ∧ (r.runLocal f now).dispatch = .noReply) ∨
      (5 ≤ f.bytes.length ∧ f.bytes[2]? ≠ some 1 ∧
        ∃ value, (r.runLocal f now).dispatch = .reply (valueReply value)) := by
  by_cases hshort : f.bytes.length < 5
  · have hcommand : f.command = none := if_pos hshort
    refine .inl ⟨hshort, ?_⟩
    simp only [runLocal, hcommand]
    rfl
  · have hlong : 5 ≤ f.bytes.length := Nat.le_of_not_lt hshort
    have htwo : f.bytes[2]? = some f.bytes[2] := List.getElem?_eq_getElem (by omega)
    have hcommand : f.command = some f.bytes[2] := (if_neg hshort).trans htwo
    have hsilent := (r.board.handle_effect f.bytes[2] f.parameter now).reply_eq_none_iff
    simp only [runLocal, hcommand]
    rw [htwo]
    rcases hreply : (r.board.handle f.bytes[2] f.parameter now).reply with - | value
    · exact .inr (.inl ⟨hlong, congrArg some (hsilent.mp hreply), rfl⟩)
    · refine .inr (.inr ⟨hlong, fun hone => ?_, value, rfl⟩)
      rw [hsilent.mpr (Option.some.inj hone)] at hreply
      cases hreply

end Handle

/-- **The two sides of the router do not touch each other.**  With every access
to the lines and to the expander recorded: a frame for the board makes no call
on the bus, is left without a reply exactly when it is long enough for a command
and the command is the one for the address, and is answered with a value
otherwise, the error value if it is too short.  A frame for the controller
leaves the whole board as it is, and any other frame changes nothing. -/
theorem handle_isolated (now : Time) (f : Frame) (r : Router (Recorded σ) (Traced ξ)) :
    let h := handle now f r
    (f.node = boardNode →
        h.state.bus = r.bus ∧
        (h.dispatch = .noReply ↔ 5 ≤ f.bytes.length ∧ f.bytes[2]? = some 1) ∧
        (h.dispatch ≠ .noReply → ∃ value, h.dispatch = .reply (valueReply value) ∧
          (f.bytes.length < 5 → value = -1)) ∧
        h.dispatch ≠ .unreachable) ∧
      (f.node = controllerNode → h.state.board = r.board) ∧
      (f.node ≠ boardNode → f.node ≠ controllerNode → h.state = r ∧ h.dispatch = .noReply) := by
  intro h
  refine ⟨fun hboard => ?_, fun hcontroller => ?_, fun hboard hcontroller => ?_⟩
  · have hother : f.node ≠ controllerNode := by
      rw [hboard]
      decide
    refine ⟨handle_bus now r hother, ?_⟩
    have hdispatch : h.dispatch = (r.runLocal f now).dispatch :=
      congrArg Handled.dispatch (handle_of_boardNode now r hboard)
    rw [hdispatch]
    obtain ⟨hshort, heq⟩ | ⟨hlong, hone, heq⟩ | ⟨hlong, hone, value, heq⟩ :=
      runLocal_dispatch now r f <;> rw [heq]
    · exact ⟨iff_of_false nofun fun hlong => by omega, fun _ => ⟨-1, rfl, fun _ => rfl⟩, nofun⟩
    · exact ⟨iff_of_true rfl ⟨hlong, hone⟩, fun hno => absurd rfl hno, nofun⟩
    · exact ⟨iff_of_false nofun fun hboth => hone hboth.2,
        fun _ => ⟨value, rfl, fun hshort => by omega⟩, nofun⟩
  · have hother : f.node ≠ boardNode := by
      rw [hcontroller]
      decide
    exact handle_board now r hother
  · exact handle_of_other now r hcontroller hboard

/-! ### Sessions -/

/-- A session, in which each frame is handled at a time of its own: what becomes
of the frames for a node, and the router behind them all. -/
def session (node : Int) : Router σ ξ → List (Nat × Frame) → List Dispatch × Router σ ξ
  | r, [] => ([], r)
  | r, x :: frames =>
    let h := handle x.1 x.2 r
    let (later, behind) := session node h.state frames
    (if x.2.node = node then h.dispatch :: later else later, behind)

theorem session_cons (node : Int) (r : Router σ ξ) (x : Nat × Frame) (frames : List (Nat × Frame)) :
    session node r (x :: frames)
      = (if x.2.node = node then
            (handle x.1 x.2 r).dispatch :: (session node (handle x.1 x.2 r).state frames).1
          else (session node (handle x.1 x.2 r).state frames).1,
          (session node (handle x.1 x.2 r).state frames).2) := rfl

/-- A side of the router belongs to the frames for a node: all other frames
leave it alone, and these see nothing else. -/
structure Owned {P : Type} (node : Int) (side : Router σ ξ → P) : Prop where
  other : ∀ now {f} r, f.node ≠ node → side (handle now f r).state = side r
  own : ∀ now {f} {r r'}, f.node = node → side r = side r' →
    (handle now f r).dispatch = (handle now f r').dispatch ∧
      side (handle now f r).state = side (handle now f r').state

/-- The controller's frames own the bus. -/
theorem owned_bus : Owned controllerNode (bus : Router σ ξ → Master σ) where
  other now _ r h := handle_bus now r h
  own now f r r' h hbus := by
    rw [handle_of_controllerNode now r h, handle_of_controllerNode now r' h, forward, forward, hbus]
    exact ⟨rfl, rfl⟩

/-- The board's frames own the board. -/
theorem owned_board : Owned boardNode (board : Router σ ξ → Board ξ) where
  other now _ r h := handle_board now r h
  own now f r r' h hboard := by
    rw [handle_of_boardNode now r h, handle_of_boardNode now r' h, runLocal, runLocal, hboard]
    split
    · exact ⟨rfl, hboard⟩
    · exact ⟨rfl, rfl⟩

section Owned

variable {P : Type} {node : Int} {side : Router σ ξ → P}

/-- The frames for other nodes may be left out. -/
theorem Owned.filter (h : Owned node side) (frames : List (Nat × Frame)) :
    ∀ {r r' : Router σ ξ}, side r = side r' →
      (session node r frames).1 = (session node r' (frames.filter (·.2.node = node))).1 ∧
        side (session node r frames).2
          = side (session node r' (frames.filter (·.2.node = node))).2 := by
  induction frames with
  | nil => exact fun hside => ⟨rfl, hside⟩
  | cons x frames ih =>
    intro r r' hside
    by_cases hnode : x.2.node = node
    · obtain ⟨hdispatch, hstep⟩ := h.own x.1 hnode hside
      obtain ⟨hlater, hend⟩ := ih hstep
      have hkept : (x :: frames).filter (·.2.node = node)
          = x :: frames.filter (·.2.node = node) := by simp [hnode]
      rw [hkept, session_cons, session_cons, if_pos hnode, if_pos hnode, hdispatch, hlater]
      exact ⟨rfl, hend⟩
    · -- on this side the frame might as well not have come
      obtain ⟨hlater, hend⟩ := ih ((h.other x.1 r hnode).trans hside)
      have hdropped : (x :: frames).filter (·.2.node = node) = frames.filter (·.2.node = node) := by
        simp [hnode]
      rw [hdropped, session_cons, if_neg hnode]
      exact ⟨hlater, hend⟩

/-- **Sessions that agree on the frames for a node cannot be told apart on its
side**: those frames come to the same, and leave the side the same. -/
theorem Owned.session (h : Owned node side) {frames frames' : List (Nat × Frame)}
    (hframes : frames.filter (·.2.node = node) = frames'.filter (·.2.node = node))
    {r r' : Router σ ξ} (hside : side r = side r') :
    (Router.session node r frames).1 = (Router.session node r' frames').1 ∧
      side (Router.session node r frames).2 = side (Router.session node r' frames').2 := by
  obtain ⟨hdispatches, hend⟩ := h.filter frames hside
  obtain ⟨hdispatches', hend'⟩ := h.filter frames' (rfl : side r' = side r')
  rw [hdispatches, hend, hdispatches', hend', hframes]
  exact ⟨rfl, rfl⟩

end Owned

/-- **What the board is sent cannot be seen on the bus, nor the other way round.**
In any two sessions with the same frames for the controller these come to the
same and the bus ends the same, and so with the board's frames and the board. -/
theorem sessions_isolated (r : Router σ ξ) {frames frames' : List (Nat × Frame)} :
    (frames.filter (·.2.node = controllerNode) = frames'.filter (·.2.node = controllerNode) →
        (session controllerNode r frames).1 = (session controllerNode r frames').1 ∧
          (session controllerNode r frames).2.bus = (session controllerNode r frames').2.bus) ∧
      (frames.filter (·.2.node = boardNode) = frames'.filter (·.2.node = boardNode) →
        (session boardNode r frames).1 = (session boardNode r frames').1 ∧
          (session boardNode r frames).2.board = (session boardNode r frames').2.board) :=
  ⟨fun h => owned_bus.session h rfl, fun h => owned_board.session h rfl⟩

end Router

end MotionBridge
