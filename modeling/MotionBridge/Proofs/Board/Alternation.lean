/-
MotionBridge/Proofs/Board/Alternation.lean

The moves of one vibration, on a bus with any peer.

A vibration is started, stopped and polled in any order, and its bus may be
used for other things in between.  It is enabled exactly when the last switch
was a start (`enabled_after`).  A poll issues a move exactly when the vibration
is enabled and the axis says that it is at rest; a poll of a vibration that is
not enabled leaves the bus alone (`poll_moved_iff`, `poll_of_disabled`).  Each
move turns the next one around, and nothing else but a start touches it
(`act_nextMove`), so the moves since the last start go there and back, however
many polls issue none (`moves_since_start`).
-/
import Mathlib.Data.List.Induction
import MotionBridge.Proofs.Board.Vibration
import MotionBridge.Proofs.Bus.Parking

namespace MotionBridge

/-- The moves of a vibration, one by one: there, back, and there again. -/
theorem alternation_eq_map (move : Int32) (n : Nat) :
    alternation move n = (List.range n).map fun i => if i % 2 = 0 then move else -move := by
  induction n generalizing move with
  | zero => rfl
  | succ n ih =>
    rw [alternation, ih, List.range_succ_eq_map, List.map_cons, List.map_map]
    refine congrArg (move :: ·) (List.map_congr_left fun i _ => ?_)
    rw [Int32.neg_neg]
    by_cases heven : i % 2 = 0
    · rw [if_pos heven]
      exact (if_neg (by omega)).symm
    · rw [if_neg heven]
      exact (if_pos (by omega)).symm

/-- The least distance is its own opposite. -/
example : alternation (-2147483648) 3 = [-2147483648, -2147483648, -2147483648] := by decide

namespace Vibrate

/-! ### Sessions -/

/-- What happens to a vibration and its bus. -/
inductive Action
  | start (distance : Int32)
  | stop
  | poll (axis : UInt8)
  /-- The bus is used for something else. -/
  | bus (op : BusOperation)
deriving Repr, DecidableEq

/-- Starts and stops switch a vibration. -/
def Action.isSwitch : Action → Bool
  | .start _ | .stop => true
  | _ => false

/-- The last switch among some actions. -/
def lastSwitch (actions : List Action) : Option Action :=
  (actions.filter Action.isSwitch).getLast?

/-- The last switch was a start. -/
def Started (actions : List Action) : Prop :=
  ∃ distance, lastSwitch actions = some (.start distance)

/-- A vibration, which nothing has happened to yet, and its bus. -/
structure Drive (σ : Type) where
  vibrate : Vibrate := {}
  bus : Master σ

namespace Drive

variable {σ : Type} [Lines σ]

/-- The vibration and the bus behind an action. -/
def act (s : Drive σ) : Action → Drive σ
  | .start distance => { s with vibrate := .start distance }
  | .stop => { s with vibrate := s.vibrate.stop }
  | .poll axis => ⟨(s.vibrate.poll axis s.bus).vibrate, (s.vibrate.poll axis s.bus).bus⟩
  | .bus op => { s with bus := (s.bus.perform op).2 }

/-- The move that an action issues, if any. -/
def issues (s : Drive σ) : Action → List Int32
  | .poll axis => (s.vibrate.poll axis s.bus).moved.toList
  | _ => []

/-- The vibration and the bus behind some actions. -/
def after (s : Drive σ) (actions : List Action) : Drive σ :=
  actions.foldl act s

/-- The moves issued along some actions, in order. -/
def issued : Drive σ → List Action → List Int32
  | _, [] => []
  | s, a :: actions => s.issues a ++ issued (s.act a) actions

end Drive

/-! ### One poll -/

section Poll

variable {σ : Type} [Lines σ]

/-- **A poll issues a move exactly when the vibration is enabled and the axis
says that it is at rest.** -/
theorem poll_moved_iff (v : Vibrate) (axis : UInt8) (m : Master σ) :
    (v.poll axis m).moved ≠ none ↔
      v.enabled = true ∧ (m.command .isAxisBusy axis none).1.value = some 0 := by
  rw [poll]
  by_cases henabled : v.enabled = true
  · rw [if_pos henabled]
    by_cases hrest : (m.command .isAxisBusy axis none).1.value = some 0
    · simp [hrest, henabled]
    · simp [hrest]
  · simp [henabled]

/-- A poll of a vibration that is not enabled does nothing. -/
theorem poll_of_disabled {v : Vibrate} (h : ¬ v.enabled = true) (axis : UInt8) (m : Master σ) :
    v.poll axis m = { vibrate := v, bus := m } :=
  if_neg h

end Poll

namespace Drive

variable {σ : Type} [Lines σ]

/-! ### Switches -/

/-- The last switch of actions is the last one if that is a switch, and else
the one before. -/
theorem lastSwitch_concat (actions : List Action) (a : Action) :
    lastSwitch (actions ++ [a]) = if a.isSwitch then some a else lastSwitch actions := by
  rw [lastSwitch, List.filter_append, List.getLast?_append]
  cases h : a.isSwitch <;> simp [h, lastSwitch]

theorem after_concat (s : Drive σ) (actions : List Action) (a : Action) :
    s.after (actions ++ [a]) = (s.after actions).act a := by
  rw [after, List.foldl_append]
  rfl

/-- **A vibration is enabled exactly when its last switch was a start.** -/
theorem enabled_after (m : Master σ) (actions : List Action) :
    (after { bus := m } actions).vibrate.enabled = true ↔ Started actions := by
  induction actions using List.reverseRecOn with
  | nil => simp [after, Started, lastSwitch]
  | append_singleton actions a ih =>
    rw [after_concat, Started, lastSwitch_concat]
    cases a with
    | start distance => exact iff_of_true rfl ⟨distance, rfl⟩
    | stop => exact iff_of_false Bool.false_ne_true (by rintro ⟨distance, h⟩; cases h)
    | poll axis =>
      -- a poll at most turns the next move around
      have hkept : ((after { bus := m } actions).act (.poll axis)).vibrate.enabled
          = (after { bus := m } actions).vibrate.enabled := by
        show (Vibrate.poll _ axis _).vibrate.enabled = _
        rcases poll_vibrate (after { bus := m } actions).vibrate axis
          (after { bus := m } actions).bus with ⟨-, hsame⟩ | ⟨-, hturned⟩
        · rw [hsame]
        · rw [hturned]
      rw [hkept]
      exact ih
    | bus op => exact ih

/-! ### Moves -/

/-- **Each move turns the next one around**, and only a start touches it
otherwise. -/
theorem act_nextMove (s : Drive σ) {a : Action} (h : ∀ distance, a ≠ .start distance) :
    (s.issues a = [] ∧ (s.act a).vibrate.nextMove = s.vibrate.nextMove) ∨
      (s.issues a = [s.vibrate.nextMove] ∧ (s.act a).vibrate.nextMove = -s.vibrate.nextMove) := by
  cases a with
  | start distance => exact absurd rfl (h distance)
  | stop => exact .inl ⟨rfl, rfl⟩
  | bus op => exact .inl ⟨rfl, rfl⟩
  | poll axis =>
    rw [issues, act]
    rcases s.vibrate.poll_vibrate axis s.bus with ⟨hmoved, hsame⟩ | ⟨hmoved, hturned⟩
    · refine .inl ⟨?_, ?_⟩
      · rw [hmoved]
        rfl
      · rw [hsame]
    · refine .inr ⟨?_, ?_⟩
      · rw [hmoved]
        rfl
      · rw [hturned]
        exact s.vibrate.nextMove_reverse

/-- **Moves go there and back.**  In every session on a bus with any peer: a poll
issues a move exactly when the last switch was a start and the axis says that it
is at rest; a poll with the vibration switched off makes no call on the lines;
and the moves since the last start are the distance and its opposite in turn. -/
theorem moves_since_start (m : Master (Recorded σ)) (actions : List Action) :
    let s := after { bus := m } actions
    (∀ axis,
        ((s.vibrate.poll axis s.bus).moved ≠ none ↔
          Started actions ∧ (s.bus.command .isAxisBusy axis none).1.value = some 0) ∧
        (¬ Started actions → (s.vibrate.poll axis s.bus).bus = s.bus)) ∧
      ∀ earlier distance later, actions = earlier ++ .start distance :: later →
        (∀ other, .start other ∉ later) →
        ∃ n, issued (after { bus := m } (earlier ++ [.start distance])) later
          = (List.range n).map fun i => if i % 2 = 0 then distance else -distance := by
  intro s
  refine ⟨fun axis => ⟨?_, fun hoff => ?_⟩, fun earlier distance later _ hlater => ?_⟩
  · rw [← enabled_after m actions]
    exact s.vibrate.poll_moved_iff axis s.bus
  · rw [← enabled_after m actions] at hoff
    rw [poll_of_disabled hoff]
  · have halternate := eq_alternation issued (fun s => s.vibrate.nextMove) (fun _ => rfl)
      (fun _ _ _ => rfl) (fun s _ ha => s.act_nextMove ha)
      (fun a ha other heq => hlater other (heq ▸ ha))
      (after { bus := m } (earlier ++ [.start distance]))
    have hstart : (after { bus := m } (earlier ++ [.start distance])).vibrate.nextMove
        = distance := by
      rw [after_concat]
      rfl
    rw [hstart, alternation_eq_map] at halternate
    exact ⟨_, halternate⟩

end Drive

end Vibrate

end MotionBridge
