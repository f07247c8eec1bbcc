/-
MotionBridge/Proofs/Board/InputHistory.lean

The watch over an input bit, told by its whole history of samples.

The monitor keeps three pieces of what it was shown: the last level, the time of
the last sample, and the time of the last change.  A `Summary` says of each what
it is in the history, and every sample keeps it one (`Summary.sample`), at any
time, also one before the times of earlier samples.  The answers of the monitor
are then read off the history: a sample has changed when its watched bit differs
from that of the sample just before it (`Changed`), and what is asked at a time
depends on the latest change, or on the last sample, alone (`monitor_history`).
An age is rounded down to milliseconds once, from the times as they are.
-/
import MotionBridge.Board.Monitor

namespace MotionBridge.Monitor

/-! ### Histories -/

/-- What a monitor is shown: a bank of inputs, at a time. -/
structure Sample where
  bank : UInt8
  time : Time
deriving Repr, DecidableEq

/-- The level of an input.  A bank has eight; a larger bit number stands for the
last. -/
def watched (bit : Nat) (x : Sample) : Bool :=
  x.bank.toNat.testBit (min bit 7)

/-- What counts of a sample. -/
def seen (bit : Nat) (x : Sample) : Bool × Time :=
  (watched bit x, x.time)

/-- The `i`th sample differs in the watched bit from the one just before it. -/
def Changed (bit : Nat) (history : List Sample) (i : Nat) : Prop :=
  ∃ j x y, i = j + 1 ∧ history[j]? = some x ∧ history[i]? = some y ∧ watched bit x ≠ watched bit y

/-- The time of the latest sample that has changed, or that of the start. -/
inductive LastChange (bit : Nat) (start : Time) (history : List Sample) : Time → Prop
  | never (h : ∀ i, ¬ Changed bit history i) : LastChange bit start history start
  | latest {i : Nat} {x : Sample} (hx : history[i]? = some x) (h : Changed bit history i)
      (hlatest : ∀ j, Changed bit history j → j ≤ i) : LastChange bit start history x.time

/-- The monitor behind some samples. -/
def after (m : Monitor) (history : List Sample) : Monitor :=
  history.foldl (fun m x => (m.sample x.bank x.time).2) m

/-- What the monitor answers to the samples, one by one. -/
def answers : Monitor → List Sample → List Bool
  | _, [] => []
  | m, x :: rest => (m.sample x.bank x.time).1 :: answers (m.sample x.bank x.time).2 rest

variable {bit : Nat} {interval start : Time} {history : List Sample} {m : Monitor}

/-! ### Changes -/

theorem Changed.lt_length {i : Nat} (h : Changed bit history i) : i < history.length := by
  obtain ⟨j, x, y, -, -, hy, -⟩ := h
  exact (List.getElem?_eq_some_iff.mp hy).1

/-- There is none before the first. -/
theorem not_changed_zero (bit : Nat) (history : List Sample) : ¬ Changed bit history 0 := by
  rintro ⟨j, x, y, hzero, -⟩
  exact Nat.succ_ne_zero j hzero.symm

/-- Later samples are no matter. -/
theorem changed_append_iff {i : Nat} (hi : i < history.length) (rest : List Sample) :
    Changed bit (history ++ rest) i ↔ Changed bit history i := by
  refine exists_congr fun j => exists_congr fun x => exists_congr fun y =>
    and_congr_right fun hij => ?_
  rw [List.getElem?_append_left hi, List.getElem?_append_left (by omega)]

/-- A sample has changed when its level is not that of the sample before. -/
theorem changed_concat_iff (x : Sample) :
    Changed bit (history ++ [x]) history.length ↔
      ∃ y, history.getLast? = some y ∧ watched bit y ≠ watched bit x := by
  rw [List.getLast?_eq_getElem?]
  constructor
  · rintro ⟨j, y, z, hlength, hy, hz, hne⟩
    rw [List.getElem?_concat_length, Option.some.injEq] at hz
    rw [List.getElem?_append_left (by omega)] at hy
    refine ⟨y, ?_, hz ▸ hne⟩
    rw [hlength, Nat.add_sub_cancel]
    exact hy
  · rintro ⟨y, hy, hne⟩
    have hlt := (List.getElem?_eq_some_iff.mp hy).1
    refine ⟨history.length - 1, y, x, by omega, ?_, List.getElem?_concat_length, hne⟩
    rw [List.getElem?_append_left hlt]
    exact hy

/-- A sample that has changed is the latest of its history. -/
theorem lastChange_of_changed {x : Sample} (h : Changed bit (history ++ [x]) history.length) :
    LastChange bit start (history ++ [x]) x.time := by
  refine .latest List.getElem?_concat_length h fun j hj => ?_
  have hlt := hj.lt_length
  rw [List.length_append, List.length_singleton] at hlt
  omega

/-- Any other leaves the latest change what it was. -/
theorem LastChange.concat {x : Sample} {c : Time} (hlast : LastChange bit start history c)
    (h : ¬ Changed bit (history ++ [x]) history.length) :
    LastChange bit start (history ++ [x]) c := by
  -- a change seen now is not at the new sample, so that it was seen before
  have hearlier : ∀ i, Changed bit (history ++ [x]) i → Changed bit history i := by
    intro i hi
    have hlt := hi.lt_length
    rw [List.length_append, List.length_singleton] at hlt
    have hne : i ≠ history.length := fun heq => h (heq ▸ hi)
    exact (changed_append_iff (by omega) [x]).mp hi
  cases hlast with
  | never hnone => exact .never fun i hi => hnone i (hearlier i hi)
  | latest hy hchanged hlatest =>
    have hlt := hchanged.lt_length
    exact .latest ((List.getElem?_append_left hlt).trans hy)
      ((changed_append_iff hlt [x]).mpr hchanged) fun j hj => hlatest j (hearlier j hj)

/-! ### One sample -/

/-- What a monitor keeps of its history. -/
structure Summary (bit : Nat) (interval start : Time) (history : List Sample) (m : Monitor) :
    Prop where
  bit_eq : m.bit = min bit 7
  interval_eq : m.interval = interval
  level : m.lastLevel = history.getLast?.map (watched bit)
  sampled : m.lastSample = history.getLast?.map Sample.time
  changed : LastChange bit start history m.lastChange

theorem summary_startingAt (bit : Nat) (interval start : Time) :
    Summary bit interval start [] (startingAt bit interval start) :=
  ⟨rfl, rfl, rfl, rfl, .never fun _ h => absurd h.lt_length (Nat.not_lt_zero _)⟩

/-- The answer to a sample tells whether it has changed. -/
theorem Summary.answer (h : Summary bit interval start history m) (x : Sample) :
    (m.sample x.bank x.time).1 = true ↔ Changed bit (history ++ [x]) history.length := by
  have hlevel : m.level x.bank = watched bit x := by
    rw [Monitor.level, h.bit_eq, watched]
  rw [changed_concat_iff, Monitor.sample, hlevel, h.level]
  rcases history.getLast? with - | y
  · exact iff_of_false nofun fun ⟨_, hnone, _⟩ => nomatch hnone
  · simp

/-- **Every sample is summed up with those before it.** -/
theorem Summary.sample (h : Summary bit interval start history m) (x : Sample) :
    Summary bit interval start (history ++ [x]) (m.sample x.bank x.time).2 where
  bit_eq := h.bit_eq
  interval_eq := h.interval_eq
  level := by
    rw [List.getLast?_concat, Option.map_some, watched, ← h.bit_eq]
    rfl
  sampled := by
    rw [List.getLast?_concat]
    rfl
  changed := by
    have hanswer := h.answer x
    show LastChange bit start _ (if (m.sample x.bank x.time).1 then x.time else m.lastChange)
    split
    · exact lastChange_of_changed (hanswer.mp ‹_›)
    · exact h.changed.concat (mt hanswer.mpr ‹_›)

/-! ### Whole histories -/

theorem Summary.after (h : Summary bit interval start history m) (rest : List Sample) :
    Summary bit interval start (history ++ rest) (m.after rest) := by
  induction rest generalizing history m with
  | nil => exact (List.append_nil history).symm ▸ h
  | cons x rest ih => exact List.append_cons history x rest ▸ ih (h.sample x)

theorem Summary.answers (h : Summary bit interval start history m) (rest : List Sample) (i : Nat) :
    (m.answers rest)[i]? = some true ↔ Changed bit (history ++ rest) (history.length + i) := by
  induction rest generalizing history m i with
  | nil =>
    -- past the last sample there is neither an answer nor a change
    refine iff_of_false nofun fun hchanged => ?_
    have hlt := hchanged.lt_length
    rw [List.append_nil] at hlt
    omega
  | cons x rest ih =>
    rw [List.append_cons]
    cases i with
    | zero =>
      -- the samples that follow do not bear on this one
      have hlt : history.length < (history ++ [x]).length := by simp
      rw [Nat.add_zero, changed_append_iff hlt, ← h.answer x]
      simp [Monitor.answers]
    | succ i =>
      have hlater := ih (h.sample x) i
      rw [List.length_append, List.length_singleton, Nat.add_assoc, Nat.add_comm 1 i] at hlater
      exact hlater

theorem length_answers (m : Monitor) (history : List Sample) :
    (m.answers history).length = history.length := by
  induction history generalizing m with
  | nil => rfl
  | cons x rest ih => exact congrArg (· + 1) (ih _)

/-- The other bits of a bank are no matter. -/
theorem sample_congr {x y : Sample} (hbit : m.bit = min bit 7)
    (hlevel : watched bit x = watched bit y) (htime : x.time = y.time) :
    m.sample x.bank x.time = m.sample y.bank y.time := by
  have hsame : m.level x.bank = m.level y.bank := by
    rw [level, level, hbit]
    exact hlevel
  rw [sample, sample, hsame, htime]

theorem run_congr {history' : List Sample} (hbit : m.bit = min bit 7)
    (h : history.map (seen bit) = history'.map (seen bit)) :
    m.after history = m.after history' ∧ m.answers history = m.answers history' := by
  induction history generalizing history' m with
  | nil =>
    obtain rfl := List.map_eq_nil_iff.mp h.symm
    exact ⟨rfl, rfl⟩
  | cons x rest ih =>
    rcases history' with - | ⟨y, rest'⟩
    · exact absurd h (List.cons_ne_nil _ _)
    · obtain ⟨hfirst, hrest⟩ := List.cons.inj h
      obtain ⟨hlevel, htime⟩ := Prod.mk.inj hfirst
      have hsame := sample_congr hbit hlevel htime
      obtain ⟨hafter, hanswers⟩ := ih (m := (m.sample x.bank x.time).2) hbit hrest
      refine ⟨?_, ?_⟩
      · show (m.sample x.bank x.time).2.after rest = (m.sample y.bank y.time).2.after rest'
        rw [hafter, hsame]
      · rw [answers, answers, hanswers, hsame]

/-! ### Questions -/

/-- The age that is told: whole milliseconds, cut at both ends. -/
theorem toInt_elapsed (m : Monitor) (now : Time) :
    (m.elapsed now).toInt
      = min (max ((now.nanos : Int) - m.lastChange.nanos) 0 / 1000000) maxElapsed := by
  have hle : min (now.since m.lastChange).millis maxElapsed ≤ maxElapsed := Nat.min_le_right _ _
  have hmillis : ((now.since m.lastChange).millis : Int)
      = max ((now.nanos : Int) - m.lastChange.nanos) 0 / 1000000 := by
    rw [← Time.nanos_since]
    exact Int.natCast_ediv _ _
  rw [elapsed, Int32.toInt_ofNat_of_lt (Nat.lt_succ_of_le hle), ← hmillis]
  omega

theorem Summary.due (h : Summary bit interval start history m) (now : Time) :
    m.due now = true ↔
      history = [] ∨
        ∃ x, history.getLast? = some x ∧
          (interval.nanos : Int) ≤ max ((now.nanos : Int) - x.time.nanos) 0 := by
  rw [Monitor.due, h.sampled, h.interval_eq]
  rcases hlast : history.getLast? with - | x
  · exact iff_of_true rfl (.inl (List.getLast?_eq_none_iff.mp hlast))
  · have hnonempty : history ≠ [] := by
      rintro rfl
      cases hlast
    have hsince : interval ≤ now.since x.time ↔
        (interval.nanos : Int) ≤ max ((now.nanos : Int) - x.time.nanos) 0 := by
      rw [← Time.nanos_since]
      exact Int.ofNat_le.symm
    simp [hnonempty, hsince]

/-- **What a monitor tells of its history**, whatever the order of the times.  Its
answers are for the samples whose watched bit differs from that of the sample
just before, and never for the first; the time since the latest of them, or since
the start, is told in whole milliseconds and is cut at zero and at the longest
that is told apart; a sample is due when there was none, or when the interval has
passed since the last, to the nanosecond.  Histories that agree on the watched bit
and on the times leave no difference. -/
theorem monitor_history (bit : Nat) (interval start : Time) (history : List Sample) :
    let m := startingAt bit interval start
    (m.answers history).length = history.length ∧
      (∀ i, (m.answers history)[i]? = some true ↔ Changed bit history i) ∧
      (m.answers history)[0]? ≠ some true ∧
      (∃ c, LastChange bit start history c ∧
        ∀ now : Time, ((m.after history).elapsed now).toInt
          = min (max ((now.nanos : Int) - c.nanos) 0 / 1000000) 2147483647) ∧
      (∀ now, (m.after history).due now = true ↔
        history = [] ∨
          ∃ x, history.getLast? = some x ∧
            (interval.nanos : Int) ≤ max ((now.nanos : Int) - x.time.nanos) 0) ∧
      ∀ history', history.map (seen bit) = history'.map (seen bit) →
        m.after history = m.after history' ∧ m.answers history = m.answers history' := by
  intro m
  have hstart := summary_startingAt bit interval start
  have hsummary := hstart.after history
  rw [List.nil_append] at hsummary
  have hanswers : ∀ i, (m.answers history)[i]? = some true ↔ Changed bit history i := by
    intro i
    have hi := hstart.answers history i
    rw [List.nil_append, List.length_nil, Nat.zero_add] at hi
    exact hi
  exact ⟨m.length_answers history, hanswers, mt (hanswers 0).mp (not_changed_zero bit history),
    ⟨(m.after history).lastChange, hsummary.changed, (m.after history).toInt_elapsed⟩,
    hsummary.due, fun _ hagree => run_congr rfl hagree⟩

/-- Bit 9 stands for bit 7.  The third sample changes it, 0.9 ms from the origin
and so before the times of the others; 0.2 ms later no whole millisecond has
passed, and the next sample is not due either. -/
theorem monitor_history_of_backward :
    let history : List Sample := [⟨0x80, 50⟩, ⟨0xff, 70⟩, ⟨0x7f, ⟨900000⟩⟩]
    let history' : List Sample := [⟨0x81, 50⟩, ⟨0x80, 70⟩, ⟨0x00, ⟨900000⟩⟩]
    let m := startingAt 9 1 0
    history.map (seen 9) = history'.map (seen 9) ∧
      m.answers history = [false, false, true] ∧ m.answers history' = [false, false, true] ∧
      ((m.after history').elapsed ⟨1100000⟩).toInt = 0 ∧
      ((m.after history').elapsed ⟨1900000⟩).toInt = 1 ∧
      (m.after history').due ⟨1100000⟩ = false := by
  intro history history' m
  have hagree : history.map (seen 9) = history'.map (seen 9) := by decide
  obtain ⟨hafter, hanswers⟩ := (monitor_history 9 1 0 history).2.2.2.2.2 history' hagree
  refine ⟨hagree, by decide, hanswers ▸ by decide, ?_⟩
  rw [← hafter]
  decide

end MotionBridge.Monitor
