/-
MotionBridge/Proofs/Channel/LastWriter.lean

What reaches which connection of a TCP channel.

The connection that the writer holds and those that it has yet to hear of
stand in line, the newest last.  The line grows at its end, with each
acceptance, and shrinks at its front, when the writer turns to the next
connection or gives one up (`Lined`); so a connection once left is never
written to again.

For each connection there is an account of what was sent to it
(`Account`).  Before the writer turns to it nothing goes out.  While the writer
holds it, what went out and what is still to go out are together all that was
bound to it, but for chunks dropped before.  Later on, what went out is a
beginning of that.

No phase of any party breaks this (`Coherent.step`).
-/
import MotionBridge.Proofs.Channel.Interleaving

namespace MotionBridge

/-! ### Chunks and connections -/

/-- The connection that a change is about to bring. -/
def Control.attached? : Control → Option Nat
  | .attach id => some id
  | .detach _ => none

/-- The connection that is being accepted. -/
def Accepting.id? : Accepting → Option Nat
  | .idle => none
  | .numbered id | .marked id => some id

/-- The chunks that are bound to a connection. -/
def boundTo (k : Nat) (chunks : List Chunk) : List Chunk :=
  chunks.filter fun chunk => chunk.connection = k

theorem boundTo_append (k : Nat) (a b : List Chunk) :
    boundTo k (a ++ b) = boundTo k a ++ boundTo k b :=
  List.filter_append ..

theorem boundTo_cons_of_eq {k : Nat} {chunk : Chunk} (h : chunk.connection = k)
    (chunks : List Chunk) : boundTo k (chunk :: chunks) = chunk :: boundTo k chunks :=
  List.filter_cons_of_pos (decide_eq_true h)

theorem boundTo_cons_of_ne {k : Nat} {chunk : Chunk} (h : chunk.connection ≠ k)
    (chunks : List Chunk) : boundTo k (chunk :: chunks) = boundTo k chunks :=
  List.filter_cons_of_neg (by simpa using h)

/-- The bytes of all chunks but the first of them, which were dropped. -/
def Remains (chunks : List Chunk) (bytes : Bytes) : Prop :=
  ∃ dropped kept, chunks = dropped ++ kept ∧ bytes = kept.flatMap Chunk.bytes

theorem Remains.append {chunks : List Chunk} {bytes : Bytes} (h : Remains chunks bytes)
    (more : List Chunk) : Remains (chunks ++ more) (bytes ++ more.flatMap Chunk.bytes) := by
  obtain ⟨dropped, kept, rfl, rfl⟩ := h
  exact ⟨dropped, kept ++ more, List.append_assoc .., (List.flatMap_append ..).symm⟩

/-- Of chunks sent one after the other some were dropped at first, and then no
more: what went out is a beginning of the rest. -/
def InOrder (chunks : List Chunk) (out : Bytes) : Prop :=
  ∃ rest, Remains chunks (out ++ rest)

theorem InOrder.append {chunks : List Chunk} {out : Bytes} (h : InOrder chunks out)
    (more : List Chunk) : InOrder (chunks ++ more) out := by
  obtain ⟨rest, hrest⟩ := h
  refine ⟨rest ++ more.flatMap Chunk.bytes, ?_⟩
  rw [← List.append_assoc]
  exact hrest.append more

/-- A beginning of chunks is whole chunks, and then at most a part of one. -/
theorem exists_whole_of_prefix (chunks : List Chunk) :
    ∀ {out : Bytes}, out <+: chunks.flatMap Chunk.bytes →
      ∃ whole left part, chunks = whole ++ left ∧ out = whole.flatMap Chunk.bytes ++ part ∧
        part <+: (left.head?.map Chunk.bytes).getD [] := by
  induction chunks with
  | nil => exact fun hout => ⟨[], [], _, rfl, rfl, hout⟩
  | cons chunk chunks ih =>
    intro out hout
    rw [List.flatMap_cons] at hout
    obtain hpart | ⟨later, rfl⟩ :=
      List.prefix_or_prefix_of_prefix hout (List.prefix_append chunk.bytes _)
    · -- it ends within the first chunk
      exact ⟨[], chunk :: chunks, out, rfl, rfl, hpart⟩
    · obtain ⟨whole, left, part, rfl, rfl, hpart⟩ := ih ((List.prefix_append_right_inj _).mp hout)
      exact ⟨chunk :: whole, left, part, rfl, (List.append_assoc ..).symm, hpart⟩

/-- **Whole chunks went out in order**, and then at most a part of one. -/
theorem InOrder.exists_whole {chunks : List Chunk} {out : Bytes} (h : InOrder chunks out) :
    ∃ dropped whole left part, chunks = dropped ++ whole ++ left ∧
      out = whole.flatMap Chunk.bytes ++ part ∧
      part <+: (left.head?.map Chunk.bytes).getD [] := by
  obtain ⟨rest, dropped, kept, rfl, hkept⟩ := h
  obtain ⟨whole, left, part, rfl, hout, hpart⟩ :=
    exists_whole_of_prefix kept (hkept ▸ List.prefix_append out rest)
  exact ⟨dropped, whole, left, part, (List.append_assoc ..).symm, hout, hpart⟩

/-- What is left of a chunk that is being written. -/
def unwritten : Option (Chunk × Nat) → Bytes
  | some (chunk, out) => chunk.bytes.drop out
  | none => []

/-- A write takes a piece off what is left. -/
theorem unwritten_wrote {chunk : Chunk} {out : Nat} {piece : Bytes}
    (hpiece : piece <+: chunk.bytes.drop out) (c : WriterChannel) (held : Nat) :
    piece ++ unwritten (c.wrote held chunk out piece).pending = chunk.bytes.drop out := by
  have hsplit := List.prefix_iff_eq_append.mp hpiece
  rw [List.drop_drop] at hsplit
  rw [WriterChannel.wrote]
  split
  · exact hsplit
  · rename_i hwhole
    rw [List.drop_eq_nil_of_le (Nat.le_of_not_lt hwhole)] at hsplit
    exact hsplit

namespace WriterChannel

/-- The connections that the writer has yet to hear of, the newest last. -/
def coming (c : WriterChannel) : List Nat :=
  c.link.control.filterMap Control.attached? ++ c.accepting.id?.toList

/-- The connection that the writer holds, and those it has yet to hear of. -/
def line (c : WriterChannel) : List Nat :=
  c.target.toList ++ c.coming

/-- What went out to a connection. -/
def writtenTo (c : WriterChannel) (k : Nat) : Bytes :=
  (c.written.filter fun piece => piece.1 = k).flatMap Prod.snd

/-- What is still to go out to the connection that the writer holds, if it is
this one. -/
def outstanding (c : WriterChannel) (k : Nat) : Bytes :=
  unwritten c.pending ++ (boundTo k c.link.queue).flatMap Chunk.bytes

/-! ### The line -/

/-- The line is in the order of the acceptances, and ends with the newest. -/
structure Lined (c : WriterChannel) : Prop where
  ordered : c.line.Pairwise (· < ·)
  newest : ∀ k ∈ c.line.getLast?, k = c.accepted

section Lined

variable {c d : WriterChannel} {k : Nat}

/-- A line that has grown shorter at its front. -/
theorem Lined.of_suffix (h : c.Lined) (hline : d.line <:+ c.line)
    (haccepted : d.accepted = c.accepted) : d.Lined := by
  refine ⟨h.ordered.sublist hline.sublist, fun k hk => ?_⟩
  obtain ⟨front, hfront⟩ := hline
  rw [haccepted]
  refine h.newest k ?_
  rw [← hfront, List.getLast?_append, Option.mem_def.mp hk]
  rfl

/-- No connection in line was accepted after the newest. -/
theorem Lined.le_accepted (h : c.Lined) (hk : k ∈ c.line) : k ≤ c.accepted := by
  obtain ⟨front, last, hline⟩ := (List.eq_nil_or_concat c.line).resolve_left
    (List.ne_nil_of_mem hk)
  have hlast : last = c.accepted := h.newest last (by rw [hline, List.concat_eq_append]; simp)
  have hordered := h.ordered
  rw [hline, List.concat_eq_append] at hk hordered
  obtain hfront | hlater := List.mem_append.mp hk
  · rw [← hlast]
    exact Nat.le_of_lt
      ((List.pairwise_append.mp hordered).2.2 k hfront last (List.mem_singleton_self _))
  · exact Nat.le_of_eq ((List.mem_singleton.mp hlater).trans hlast)

/-- A connection that the writer holds is not ahead of it. -/
theorem Lined.not_ahead (h : c.Lined) (ht : c.target = some k) :
    ¬(k ∈ c.coming ∨ c.accepted < k) := by
  have hline : c.line = k :: c.coming := by
    rw [line, ht]
    rfl
  rintro (hcoming | hlater)
  · have hordered := h.ordered
    rw [hline] at hordered
    exact Nat.lt_irrefl k (List.rel_of_pairwise_cons hordered hcoming)
  · exact Nat.not_le_of_lt hlater (h.le_accepted (hline ▸ List.mem_cons_self ..))

/-- With no connection to come, the writer holds the newest or none. -/
theorem Lined.target_newest (h : c.Lined) (hcoming : c.coming = []) (ht : c.target = some k) :
    k = c.accepted := by
  refine h.newest k ?_
  rw [line, hcoming, ht]
  rfl

/-- An acceptance puts its connection at the end of the line when it begins,
and then keeps it there. -/
theorem coming_accept (c : WriterChannel) :
    c.accept.coming ≠ [] ∧
      ((c.accept.coming = c.coming ++ [c.accepted + 1] ∧ c.accept.accepted = c.accepted + 1) ∨
        (c.accept.coming = c.coming ∧ c.accept.accepted = c.accepted)) := by
  rcases haccepting : c.accepting with - | id | id
  · -- a new connection
    have hcoming : c.accept.coming = c.coming ++ [c.accepted + 1] := by
      simp [accept, coming, haccepting, Accepting.id?]
    exact ⟨by simp [hcoming], .inl ⟨hcoming, by simp [accept, haccepting]⟩⟩
  · have hcoming : c.accept.coming = c.coming := by
      simp [accept, coming, haccepting, Accepting.id?]
    exact ⟨by simp [accept, coming, haccepting, Accepting.id?],
      .inr ⟨hcoming, by simp [accept, haccepting]⟩⟩
  · -- from the acceptance it moves on to the end of the changes that wait
    have hcoming : c.accept.coming = c.coming := by
      simp [accept, coming, haccepting, Accepting.id?, Control.attached?]
    exact ⟨by simp [accept, coming, haccepting, Control.attached?],
      .inr ⟨hcoming, by simp [accept, haccepting]⟩⟩

/-- The end of a connection is no connection to come. -/
theorem coming_close (c : WriterChannel) (id : Nat) : (c.close id).coming = c.coming := by
  simp [close, coming, Control.attached?]

/-- The line behind an acceptance. -/
theorem Lined.accept (h : c.Lined) : c.accept.Lined := by
  have htarget : c.accept.target = c.target := by
    rw [WriterChannel.accept]
    split <;> rfl
  obtain ⟨hcoming, haccepted⟩ | ⟨hcoming, haccepted⟩ := c.coming_accept.2
  · have hline : c.accept.line = c.line ++ [c.accepted + 1] := by
      rw [line, htarget, hcoming, ← List.append_assoc]
      rfl
    refine ⟨?_, fun k hk => ?_⟩
    · rw [hline, List.pairwise_append]
      refine ⟨h.ordered, List.pairwise_singleton .., fun x hx y hy => ?_⟩
      rw [List.mem_singleton.mp hy]
      exact Nat.lt_succ_of_le (h.le_accepted hx)
    · rw [hline, List.getLast?_concat] at hk
      rw [haccepted]
      exact (Option.mem_some_iff.mp hk).symm
  · refine h.of_suffix ?_ haccepted
    rw [line, htarget, hcoming]
    exact List.suffix_rfl

/-- The line behind a connection change. -/
theorem Lined.change (h : c.Lined) {event : Control} {rest : List Control}
    (hcontrol : c.link.control = event :: rest) :
    Lined { c.retarget (event.turns c.target) with link.control := rest } := by
  have hcoming : c.coming
      = [event].filterMap Control.attached? ++ rest.filterMap Control.attached?
          ++ c.accepting.id?.toList := by
    rw [coming, hcontrol, ← List.filterMap_append]
    rfl
  refine h.of_suffix ?_ rfl
  cases event with
  | attach id =>
    -- the connection held so far leaves the line
    refine ⟨c.target.toList, ?_⟩
    rw [line, line, hcoming]
    rfl
  | detach id =>
    rw [line, line, hcoming]
    show (if c.target = some id then none else c.target).toList ++ _ <:+ _
    split
    · exact List.suffix_append ..
    · exact List.suffix_rfl

/-- Taking a chunk up concerns no connection. -/
theorem exists_takeUp (c : WriterChannel) :
    ∃ pending queue, c.takeUp.1 = { c with pending, link.queue := queue } := by
  rw [takeUp, Link.takeChunk]
  rcases hqueue : c.link.queue with - | ⟨chunk, rest⟩
  · exact ⟨c.pending, c.link.queue, rfl⟩
  · by_cases htarget : c.target = some chunk.connection
    · exact ⟨some (chunk, 0), rest, by simp only [if_pos htarget]⟩
    · exact ⟨c.pending, rest, by simp only [if_neg htarget]⟩

end Lined

/-! ### Accounts -/

/-- What was sent to a connection, and what became of it. -/
structure Account (sent : List Chunk) (c : WriterChannel) (k : Nat) : Prop where
  ahead : k ∈ c.coming ∨ c.accepted < k → c.writtenTo k = []
  held : c.target = some k → Remains (boundTo k sent) (c.writtenTo k ++ c.outstanding k)
  inOrder : InOrder (boundTo k sent) (c.writtenTo k)

/-- The writer's own books: a pending chunk is bound to the connection it
holds, and what is queued was sent last. -/
structure Books (sent : List Chunk) (c : WriterChannel) : Prop where
  bound : ∀ chunk out, c.pending = some (chunk, out) → c.target = some chunk.connection
  queued : c.link.queue <:+ sent
  account : ∀ k, Account sent c k

section Accounts

variable {c d : WriterChannel} {k : Nat} {sent : List Chunk}

/-- An account is the same while nothing goes out, and the writer neither turns
nor drops what is bound to the connection it holds. -/
theorem Account.of_eq (h : Account sent c k) (hwritten : d.written = c.written)
    (htarget : d.target = c.target)
    (houtstanding : c.target = some k → d.outstanding k = c.outstanding k)
    (hahead : k ∈ d.coming ∨ d.accepted < k → k ∈ c.coming ∨ c.accepted < k) :
    Account sent d k := by
  have hsame : d.writtenTo k = c.writtenTo k := by rw [writtenTo, writtenTo, hwritten]
  refine ⟨fun hk => hsame.trans (h.ahead (hahead hk)), fun ht => ?_, hsame ▸ h.inOrder⟩
  rw [htarget] at ht
  rw [hsame, houtstanding ht]
  exact h.held ht

/-- A chunk that is queued is still to go out. -/
theorem Account.queue (h : Account sent c k) (chunk : Chunk) :
    Account (sent ++ [chunk])
      { c with link.queue := c.link.queue ++ [chunk] } k := by
  refine ⟨h.ahead, fun ht => ?_, ?_⟩
  · have hheld := (h.held ht).append (boundTo k [chunk])
    rw [outstanding, List.append_assoc, List.append_assoc, ← List.flatMap_append,
      ← boundTo_append, ← boundTo_append] at hheld
    exact hheld
  · rw [boundTo_append]
    exact h.inOrder.append _

/-- Nothing is pending for another connection than the one held. -/
theorem Books.filter_pending (h : Books sent c) :
    c.pending.filter (fun x => decide (c.target = some x.1.connection)) = c.pending := by
  rcases hpending : c.pending with - | ⟨chunk, out⟩
  · rfl
  · rw [Option.filter_some, decide_eq_true (h.bound chunk out hpending)]
    rfl

/-- **The writer turns to another connection, or to none.**  It comes to one to
which nothing has gone out. -/
theorem Account.retarget (h : Account sent c k) (hbooks : Books sent c)
    {target : Option Nat} (hturn : target = some k → c.target = some k ∨ k ∈ c.coming)
    {control : List Control} {connected : Bool}
    (hcoming : ∀ x ∈ control.filterMap Control.attached?,
      x ∈ c.link.control.filterMap Control.attached?) :
    Account sent
      { c.retarget target with link.control := control, link.connected := connected } k := by
  refine ⟨fun hk => h.ahead ?_, fun ht => ?_, h.inOrder⟩
  · refine hk.imp_left fun hin => ?_
    obtain hin | hin := List.mem_append.mp hin
    · exact List.mem_append_left _ (hcoming k hin)
    · exact List.mem_append_right _ hin
  · obtain rfl : target = some k := ht
    by_cases hheld : c.target = some k
    · -- it held that connection before
      have hpending := hbooks.filter_pending
      rw [hheld] at hpending
      show Remains _ (writtenTo c k ++ (unwritten (c.pending.filter _) ++ _))
      rw [hpending]
      exact h.held hheld
    · -- nothing went out yet, and what waits is all that is kept
      have hnothing : c.writtenTo k = [] := h.ahead (.inl ((hturn rfl).resolve_left hheld))
      have hpending : c.pending.filter (fun x => decide (some k = some x.1.connection)) = none := by
        rcases hp : c.pending with - | ⟨chunk, out⟩
        · rfl
        · have hother : some k ≠ some chunk.connection := fun heq =>
            hheld ((hbooks.bound chunk out hp).trans heq.symm)
          rw [Option.filter_some, decide_eq_false hother]
          rfl
      obtain ⟨taken, htaken⟩ := hbooks.queued
      refine ⟨boundTo k taken, boundTo k c.link.queue, ?_, ?_⟩
      · rw [← boundTo_append, htaken]
      · show writtenTo c k ++ (unwritten (c.pending.filter _) ++ _) = _
        rw [hnothing, hpending]
        rfl

/-- What goes out is added to what went out to the connection held. -/
theorem writtenTo_wrote (c : WriterChannel) (held : Nat) (chunk : Chunk) (out : Nat)
    (piece : Bytes) (k : Nat) :
    (c.wrote held chunk out piece).writtenTo k
      = c.writtenTo k ++ if held = k then piece else [] := by
  rw [writtenTo, writtenTo, wrote, List.filter_append, List.flatMap_append]
  congr 1
  by_cases hk : held = k <;> simp [hk]

/-- **A piece goes out** to the connection that the writer holds.  It is the one
that the pending chunk is bound to. -/
theorem Account.wrote (h : Account sent c k) (hlined : c.Lined) {chunk : Chunk} {out held : Nat}
    (hpending : c.pending = some (chunk, out)) (htarget : c.target = some held)
    (hbound : c.target = some chunk.connection) {piece : Bytes}
    (hpiece : piece <+: chunk.bytes.drop out) :
    Account sent (c.wrote held chunk out piece) k := by
  obtain rfl : held = chunk.connection := Option.some.inj (htarget.symm.trans hbound)
  have hwritten := c.writtenTo_wrote chunk.connection chunk out piece k
  by_cases hk : chunk.connection = k
  · subst hk
    rw [if_pos rfl] at hwritten
    have hheld : Remains (boundTo chunk.connection sent)
        ((c.wrote chunk.connection chunk out piece).writtenTo chunk.connection
          ++ (c.wrote chunk.connection chunk out piece).outstanding chunk.connection) := by
      have hbefore := h.held htarget
      rw [outstanding, hpending] at hbefore
      rw [hwritten, outstanding, List.append_assoc, ← List.append_assoc piece,
        unwritten_wrote hpiece c]
      exact hbefore
    exact ⟨fun hahead => absurd hahead (hlined.not_ahead htarget), fun _ => hheld, _, hheld⟩
  · have hother : c.target ≠ some k := fun ht => hk (Option.some.inj (htarget.symm.trans ht))
    rw [if_neg hk, List.append_nil] at hwritten
    exact ⟨fun hahead => hwritten.trans (h.ahead hahead), fun ht => absurd ht hother,
      hwritten ▸ h.inOrder⟩

/-! ### Books -/

/-- Nothing that concerns the chunks happens. -/
theorem Books.of_eq (h : Books sent c) (hwritten : d.written = c.written)
    (htarget : d.target = c.target) (hpending : d.pending = c.pending)
    (hqueue : d.link.queue = c.link.queue)
    (hahead : ∀ k, k ∈ d.coming ∨ d.accepted < k → k ∈ c.coming ∨ c.accepted < k) :
    Books sent d where
  bound := by
    rw [hpending, htarget]
    exact h.bound
  queued := hqueue ▸ h.queued
  account k := (h.account k).of_eq hwritten htarget
    (fun _ => by rw [outstanding, outstanding, hpending, hqueue]) (hahead k)

/-- A chunk is queued. -/
theorem Books.queue (h : Books sent c) (chunk : Chunk) :
    Books (sent ++ [chunk]) { c with link.queue := c.link.queue ++ [chunk] } where
  bound := h.bound
  queued := by
    obtain ⟨taken, htaken⟩ := h.queued
    exact ⟨taken, by rw [← htaken, List.append_assoc]⟩
  account k := (h.account k).queue chunk

/-- The writer turns. -/
theorem Books.retarget (h : Books sent c) {target : Option Nat}
    (hturn : ∀ k, target = some k → c.target = some k ∨ k ∈ c.coming) {control : List Control}
    {connected : Bool} (hcoming : ∀ x ∈ control.filterMap Control.attached?,
      x ∈ c.link.control.filterMap Control.attached?) :
    Books sent { c.retarget target with link.control := control, link.connected := connected } where
  bound chunk out hpending := by
    obtain ⟨-, hbound⟩ := Option.filter_eq_some_iff.mp hpending
    exact of_decide_eq_true hbound
  queued := h.queued
  account k := (h.account k).retarget h (hturn k) hcoming

/-- A piece goes out. -/
theorem Books.wrote (h : Books sent c) (hlined : c.Lined) {chunk : Chunk} {out held : Nat}
    (hpending : c.pending = some (chunk, out)) (htarget : c.target = some held) {piece : Bytes}
    (hpiece : piece <+: chunk.bytes.drop out) : Books sent (c.wrote held chunk out piece) where
  bound chunk' out' hpending' := by
    obtain rfl : chunk' = chunk := by
      rw [WriterChannel.wrote] at hpending'
      split at hpending'
      · cases hpending'
        rfl
      · cases hpending'
    exact h.bound chunk' out hpending
  queued := h.queued
  account k := (h.account k).wrote hlined hpending htarget (h.bound chunk out hpending) hpiece

/-- A chunk is taken up, or dropped if it is bound to a connection that the
writer does not hold. -/
theorem Books.takeUp (h : Books sent c) (hpending : c.pending = none) :
    Books sent c.takeUp.1 := by
  rw [WriterChannel.takeUp, Link.takeChunk]
  rcases hqueue : c.link.queue with - | ⟨chunk, rest⟩
  · exact h
  · have hrest : rest <:+ sent := (List.suffix_cons chunk rest).trans (hqueue ▸ h.queued)
    by_cases htarget : c.target = some chunk.connection
    · -- from the front of the queue it becomes pending
      simp only [if_pos htarget]
      refine ⟨fun chunk' out hchunk => ?_, hrest, fun k => ?_⟩
      · cases hchunk
        exact htarget
      · refine (h.account k).of_eq rfl rfl (fun ht => ?_) id
        obtain rfl : chunk.connection = k := Option.some.inj (htarget.symm.trans ht)
        rw [outstanding, outstanding, hpending, hqueue, boundTo_cons_of_eq rfl, List.flatMap_cons]
        rfl
    · -- what is dropped was not for the connection held
      simp only [if_neg htarget]
      refine ⟨h.bound, hrest, fun k => (h.account k).of_eq rfl rfl (fun ht => ?_) id⟩
      have hother : chunk.connection ≠ k := fun hk => htarget (hk ▸ ht)
      rw [outstanding, outstanding, hqueue, boundTo_cons_of_ne hother]

end Accounts

end WriterChannel

/-! ### The parties -/

namespace Parties

open WriterChannel

variable {p : Parties}

/-- The flag, as the writer has set it or is about to. -/
def flag (p : Parties) : Bool :=
  match p.writing with
  | .storing connected => connected
  | _ => p.channel.link.connected

/-- Unless the writer is about to set it, the flag is what it says. -/
theorem flag_eq (hquiet : ∀ b, p.writing ≠ .storing b) : p.flag = p.channel.link.connected := by
  rcases hwriting : p.writing with - | - | b
  · rw [flag, hwriting]
  · rw [flag, hwriting]
  · exact absurd hwriting (hquiet b)

/-- What holds at every moment: the line is in order, the books are right, and
with no connection to come the flag tells whether the writer holds one. -/
structure Coherent (p : Parties) : Prop where
  lined : p.channel.Lined
  books : Books p.sent p.channel
  flag : p.channel.coming = [] → p.flag = p.channel.target.isSome

theorem Coherent.connected (h : Coherent p) (hquiet : ∀ b, p.writing ≠ .storing b)
    (hnone : p.channel.coming = []) :
    p.channel.link.connected = p.channel.target.isSome := by
  rw [← flag_eq hquiet]
  exact h.flag hnone

/-- A new channel. -/
theorem coherent_start (name : String) : Coherent (start name) where
  lined := ⟨List.Pairwise.nil, nofun⟩
  books := ⟨nofun, List.suffix_rfl, fun _ => ⟨fun _ => rfl, nofun, [], [], [], rfl, rfl⟩⟩
  flag _ := rfl

/-- An acceptance goes on. -/
theorem Coherent.accept (h : Coherent p) : Coherent { p with channel := p.channel.accept } where
  lined := h.lined.accept
  books := by
    have hframe : p.channel.accept.written = p.channel.written ∧
        p.channel.accept.target = p.channel.target ∧
        p.channel.accept.pending = p.channel.pending ∧
        p.channel.accept.link.queue = p.channel.link.queue := by
      rw [WriterChannel.accept]
      split <;> exact ⟨rfl, rfl, rfl, rfl⟩
    obtain ⟨hwritten, htarget, hpending, hqueue⟩ := hframe
    refine h.books.of_eq hwritten htarget hpending hqueue fun k hk => ?_
    obtain ⟨hcoming, haccepted⟩ | ⟨hcoming, haccepted⟩ := p.channel.coming_accept.2
    · rw [hcoming, haccepted, List.mem_append, List.mem_singleton] at hk
      -- the new connection was later than all before
      obtain (hin | rfl) | hlater := hk
      · exact .inl hin
      · exact .inr (Nat.lt_succ_self _)
      · exact .inr (Nat.lt_of_succ_lt hlater)
    · rw [hcoming, haccepted] at hk
      exact hk
  flag hnone := absurd hnone p.channel.coming_accept.1

/-- A peer closes. -/
theorem Coherent.close (h : Coherent p) (id : Nat) :
    Coherent { p with channel := p.channel.close id } := by
  have hcoming := p.channel.coming_close id
  refine ⟨h.lined.of_suffix ?_ rfl, h.books.of_eq rfl rfl rfl rfl fun k hk => hcoming ▸ hk,
    fun hnone => h.flag (hcoming ▸ hnone)⟩
  rw [line, line, hcoming]
  exact List.suffix_rfl

/-- A send goes on. -/
theorem Coherent.send (h : Coherent p) (data : Bytes) : Coherent (p.send data) := by
  rw [Parties.send]
  split
  · split
    · exact h
    · exact ⟨h.lined, h.books, h.flag⟩
  · exact ⟨h.lined, h.books, h.flag⟩
  · split
    · exact ⟨⟨h.lined.ordered, h.lined.newest⟩, h.books.queue _, h.flag⟩
    · exact ⟨h.lined, h.books, h.flag⟩

/-- The writer waits. -/
theorem Coherent.wait (h : Coherent p) : Coherent p.wait := by
  rw [Parties.wait]
  split
  · rename_i hwriting
    exact ⟨h.lined, h.books, h.connected (by simp [hwriting])⟩
  · exact h

/-- The writer takes note of a connection change. -/
theorem Coherent.change (h : Coherent p) {event : Control} {rest : List Control}
    (hwriting : p.writing = .idle) (hcontrol : p.channel.link.control = event :: rest)
    (result : WriteResult) : Coherent (p.work result) := by
  rw [work_change result hwriting hcontrol]
  refine ⟨h.lined.change hcontrol, h.books.retarget (fun k hk => ?_) ?_, fun hnone => ?_⟩
  · cases event with
    | attach id =>
      obtain rfl : id = k := Option.some.inj hk
      refine .inr (List.mem_append_left _ ?_)
      rw [hcontrol]
      exact List.mem_cons_self ..
    | detach id =>
      rw [Control.turns] at hk
      split at hk
      · cases hk
      · exact .inl hk
  · intro x hx
    rw [hcontrol, ← List.singleton_append, List.filterMap_append]
    exact List.mem_append_right _ hx
  · cases hstores : event.stores p.channel.target with
    | true => rfl
    | false =>
      -- the end of another connection than the one held
      cases event with
      | attach id => cases hstores
      | detach id =>
        have hother : p.channel.target ≠ some id := of_decide_eq_false hstores
        have hcoming : p.channel.coming = [] := by
          rw [coming, hcontrol]
          exact hnone
        show _ = (if p.channel.target = some id then none else p.channel.target).isSome
        rw [if_neg hother]
        exact h.connected (by simp [hwriting]) hcoming

/-- The writer goes on with a pending chunk. -/
theorem Coherent.write (h : Coherent p) {chunk : Chunk} {out : Nat}
    (hwriting : p.writing = .free) (hpending : p.channel.pending = some (chunk, out))
    (result : WriteResult) : Coherent (p.work result) := by
  have htarget := h.books.bound chunk out hpending
  cases hfails : result.fails with
  | true =>
    rw [work_failure hwriting hpending htarget hfails]
    exact ⟨h.lined.of_suffix (List.suffix_append ..) rfl,
      h.books.retarget (fun _ hk => by cases hk) fun _ hx => hx, fun _ => rfl⟩
  | false =>
    obtain ⟨piece, hpiece, hwork⟩ := work_piece hwriting hpending htarget hfails
    rw [hwork]
    exact ⟨⟨h.lined.ordered, h.lined.newest⟩, h.books.wrote h.lined hpending htarget hpiece,
      h.connected (by simp [hwriting])⟩

/-- The writer goes on with the queue. -/
theorem Coherent.takeUp (h : Coherent p) (hwriting : p.writing = .free)
    (hpending : p.channel.pending = none) (result : WriteResult) : Coherent (p.work result) := by
  have hbooks := h.books.takeUp hpending
  obtain ⟨pending, queue, htaken⟩ := p.channel.exists_takeUp
  rw [work_of_quiet result hwriting hpending]
  rw [htaken] at hbooks ⊢
  exact ⟨⟨h.lined.ordered, h.lined.newest⟩, hbooks, h.connected (by simp [hwriting])⟩

/-- The writer goes on. -/
theorem Coherent.work (h : Coherent p) (result : WriteResult) : Coherent (p.work result) := by
  rcases hwriting : p.writing with - | - | connected
  · rcases hcontrol : p.channel.link.control with - | ⟨event, rest⟩
    · rw [work_of_no_change result hwriting hcontrol]
      exact ⟨h.lined, h.books, h.connected (by simp [hwriting])⟩
    · exact h.change hwriting hcontrol result
  · rcases hpending : p.channel.pending with - | ⟨chunk, out⟩
    · exact h.takeUp hwriting hpending result
    · exact h.write hwriting hpending result
  · -- what was about to be stored is stored
    rw [Parties.work, hwriting]
    refine ⟨⟨h.lined.ordered, h.lined.newest⟩, h.books.of_eq rfl rfl rfl rfl fun _ hk => hk,
      fun hnone => ?_⟩
    have hflag := h.flag hnone
    rw [Parties.flag, hwriting] at hflag
    exact hflag

/-- **No phase of any party breaks coherence.** -/
theorem Coherent.step (h : Coherent p) (s : Step) : Coherent (p.step s) := by
  cases s with
  | accept => exact h.accept
  | close id => exact h.close id
  | send data => exact h.send data
  | work result => exact h.work result
  | wait => exact h.wait

/-- The parties are coherent behind any phases. -/
theorem Coherent.after (steps : List Step) :
    ∀ {p : Parties}, Coherent p → Coherent (p.after steps) := by
  induction steps with
  | nil => exact fun h => h
  | cons s steps ih => exact fun h => ih (h.step s)

/-- The end of a connection that the writer does not hold changes nothing. -/
theorem Coherent.work_stale (h : Coherent p) {id : Nat} {rest : List Control}
    (hwriting : p.writing = .idle) (hcontrol : p.channel.link.control = .detach id :: rest)
    (hother : p.channel.target ≠ some id) (result : WriteResult) :
    p.work result = { p with channel := { p.channel with link.control := rest } } := by
  have hturns : (Control.detach id).turns p.channel.target = p.channel.target := if_neg hother
  have hstores : (Control.detach id).stores p.channel.target = false := decide_eq_false hother
  rw [work_change result hwriting hcontrol, hturns, hstores, retarget, h.books.filter_pending,
    ← hwriting]
  rfl

/-- **The last writer wins**, in whatever order the parties come to act.  What
goes out to a connection was bound to it: whole chunks in the order they were
sent, and then at most a part of one.  The writer writes to the connection that
it holds, and that is the one that a pending chunk is bound to.  The end of a
connection that was replaced changes nothing.  And with no connection change
waiting or in progress, the flag tells whether the writer holds a connection,
which is then the newest. -/
theorem last_writer_wins (name : String) (steps : List Step) :
    let p := (start name).after steps
    let c := p.channel
    (∀ k, ∃ dropped whole left part, boundTo k p.sent = dropped ++ whole ++ left ∧
        c.writtenTo k = whole.flatMap Chunk.bytes ++ part ∧
        part <+: (left.head?.map Chunk.bytes).getD []) ∧
      (∀ chunk out, c.pending = some (chunk, out) → c.target = some chunk.connection) ∧
      (∀ id rest result, p.writing = .idle → c.link.control = .detach id :: rest →
        c.target ≠ some id →
          p.work result = { p with channel := { c with link.control := rest } }) ∧
      (c.link.control = [] → c.accepting = .idle → (∀ b, p.writing ≠ .storing b) →
        (c.link.connected = true ↔ ∃ k, c.target = some k) ∧
          ∀ k, c.target = some k → k = c.accepted) := by
  intro p c
  have h : Coherent p := (coherent_start name).after steps
  refine ⟨fun k => (h.books.account k).inOrder.exists_whole, h.books.bound,
    fun id rest result hwriting hcontrol hother => h.work_stale hwriting hcontrol hother result,
    fun hcontrol haccepting hquiet => ?_⟩
  · have hcoming : c.coming = [] := by
      rw [coming, hcontrol, haccepting]
      rfl
    refine ⟨?_, fun k hk => h.lined.target_newest hcoming hk⟩
    rw [h.connected hquiet hcoming, Option.isSome_iff_exists]

/-- A connection is replaced while a chunk is on its way to it: one byte is out,
and the rest reaches no one. -/
example :
    let connect := [Step.accept, .accept, .accept, .work (.wrote 0), .work (.wrote 0)]
    let write := [Step.work (.wrote 0), .work (.wrote 1)]
    let p := (start "tcp").after (connect ++ List.replicate 3 (.send [7, 8]) ++ write ++ write ++
      connect ++ write)
    p.channel.writtenTo 1 = [7] ∧ p.channel.writtenTo 2 = [] ∧ p.channel.target = some 2 := by
  decide

end Parties

end MotionBridge
