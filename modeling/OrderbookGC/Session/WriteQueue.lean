/-
The write queue of a `Session`: `sendMessage`, `doWriteNext`, the completion handler of `async_write` and `close`, as
atomic steps in any order. What is assumed of Asio is in the steps: bytes leave only through a write that was started
on an open socket, and while the socket is open; a write succeeds only when all of its buffer has left; a write may
fail at any time; and no handler runs inside the call that starts its write.

The invariant is `Ordered`: what has left is the frames popped so far and a part of the frame at the front of the
queue, and the one write that can still move bytes, if any, writes that frame.
-/
import OrderbookGC.Session.Framing

namespace OrderbookGC.Framing

/-- An `async_write` whose handler has not run: its copy of the buffer, how many bytes of it have been handed to the
peer, and whether the socket was open when it was started. -/
structure Write where
  buf : List UInt8
  handed : Nat
  onOpen : Bool

/-- The writing side of a `Session`. `handed` is all the bytes handed to the peer, `poppedEmpty` says that `pop_front`
was applied to an empty queue, and `disconnects` counts the calls of the disconnect callback. -/
structure Writer where
  writeMessages : List (List UInt8)
  writing : Bool
  isOpen : Bool
  disconnectCallback : Bool
  inFlight : List Write
  handed : List UInt8
  poppedEmpty : Bool
  disconnects : Nat

/-- A session on a socket that has just been accepted. -/
def Writer.accepted : Writer := ⟨[], false, true, true, [], [], false, 0⟩

/-- `Session::doWriteNext`. -/
def Writer.doWriteNext (s : Writer) : Writer :=
  match s.writeMessages with
  | [] => { s with writing := false }
  | front :: _ => { s with inFlight := s.inFlight ++ [⟨front, 0, s.isOpen⟩] }

/-- `Session::sendMessage`; a message is given by its serialized text, and none is the null pointer. -/
def Writer.sendMessage (s : Writer) : Option (List UInt8) → Writer
  | none => s
  | some serialized =>
    let s := { s with writeMessages := s.writeMessages ++ [frameMessage serialized] }
    if !s.writing then Writer.doWriteNext { s with writing := true } else s

/-- `Session::close`. -/
def Writer.close (s : Writer) : Writer :=
  let s := if s.isOpen then { s with writing := false, isOpen := false } else s
  if s.disconnectCallback then { s with disconnectCallback := false, disconnects := s.disconnects + 1 } else s

/-- The completion handler of `async_write` without an error. -/
def Writer.succeeded (s : Writer) : Writer :=
  let s := { s with
    poppedEmpty := s.poppedEmpty || s.writeMessages.isEmpty
    writeMessages := s.writeMessages.tail }
  if s.writeMessages.isEmpty then { s with writing := false } else s.doWriteNext

/-- What can happen to a session; a write is named by its place among those in flight. -/
inductive WriteEvent where
  | send (message : Option (List UInt8))
  | transmit (i : Nat) (count : Nat)
  | succeed (i : Nat)
  | fail (i : Nat)
  | close

/-- One atomic step. What the transport cannot do changes nothing. -/
def Writer.step (s : Writer) : WriteEvent → Writer
  | .send message => s.sendMessage message
  | .transmit i count =>
    match s.inFlight[i]? with
    | some w =>
      if s.isOpen && w.onOpen then
        { s with
          handed := s.handed ++ (w.buf.drop w.handed).take count
          inFlight := s.inFlight.set i { w with handed := min (w.handed + count) w.buf.length } }
      else s
    | none => s
  | .succeed i =>
    match s.inFlight[i]? with
    | some w =>
      if w.onOpen && w.handed == w.buf.length then Writer.succeeded { s with inFlight := s.inFlight.eraseIdx i } else s
    | none => s
  | .fail i =>
    match s.inFlight[i]? with
    | some _ => Writer.close { s with inFlight := s.inFlight.eraseIdx i }
    | none => s
  | .close => s.close

/-- A run of a session from its acceptance on. -/
def Writer.run (events : List WriteEvent) : Writer := events.foldl Writer.step .accepted

/-- The frame that an event hands to the queue. -/
def WriteEvent.frame : WriteEvent → Option (List UInt8)
  | .send message => message.map frameMessage
  | _ => none

/-- The frames of the messages sent, in order. -/
def framesSent (events : List WriteEvent) : List (List UInt8) := events.filterMap WriteEvent.frame

/-! ## The invariant -/

/-- The writes that can still hand over bytes or succeed. -/
def Writer.able (s : Writer) : List Write := s.inFlight.filter Write.onOpen

/-- The phases of a session whose callers have sent the frames `sent`; `popped` are those that have left whole and been
removed from the queue. -/
inductive Ordered (sent : List (List UInt8)) (s : Writer) : Prop where
  | idle (isOpen : s.isOpen = true) (writing : s.writing = false) (inFlight : s.inFlight = [])
      (queue : s.writeMessages = []) (handed : s.handed = sent.flatten)
  | busy (w : Write) (popped rest : List (List UInt8)) (isOpen : s.isOpen = true) (writing : s.writing = true)
      (inFlight : s.inFlight = [w]) (onOpen : w.onOpen = true) (queue : s.writeMessages = w.buf :: rest)
      (hsent : sent = popped ++ w.buf :: rest) (handed : s.handed = popped.flatten ++ w.buf.take w.handed)
  -- closed while a write was in flight: it may still succeed, beside writes that cannot
  | draining (w : Write) (popped rest : List (List UInt8)) (isOpen : s.isOpen = false) (able : s.able = [w])
      (queue : s.writeMessages = w.buf :: rest) (hsent : sent = popped ++ w.buf :: rest)
      (handed : s.handed = popped.flatten ++ w.buf.take w.handed)
  | dead (popped : List (List UInt8)) (part : List UInt8) (isOpen : s.isOpen = false) (able : s.able = [])
      (hsent : sent = popped ++ s.writeMessages) (hpart : part <+: s.writeMessages.flatten)
      (handed : s.handed = popped.flatten ++ part)

section Steps

variable {sent : List (List UInt8)} {s : Writer}

theorem able_eraseIdx {l : List Write} {i : Nat} {w : Write} (h : l[i]? = some w) :
    ∃ a b, l = a ++ w :: b ∧ l.eraseIdx i = a ++ b := by
  obtain ⟨hi, rfl⟩ := List.getElem?_eq_some_iff.1 h
  refine ⟨l.take i, l.drop (i + 1), ?_, List.eraseIdx_eq_take_drop_succ ..⟩
  rw [List.getElem_cons_drop, List.take_append_drop]

/-- A write that is not able leaves the able ones alone. -/
theorem able_eraseIdx_of_not {l : List Write} {i : Nat} {w : Write} (h : l[i]? = some w) (hw : w.onOpen = false) :
    (l.eraseIdx i).filter Write.onOpen = l.filter Write.onOpen := by
  obtain ⟨a, b, rfl, he⟩ := able_eraseIdx h
  rw [he]
  simp [hw]

/-- The only able write is gone once it has completed. -/
theorem able_eraseIdx_self {l : List Write} {i : Nat} {w w' : Write} (h : l[i]? = some w) (hw : w.onOpen = true)
    (hl : l.filter Write.onOpen = [w']) : w = w' ∧ (l.eraseIdx i).filter Write.onOpen = [] := by
  obtain ⟨a, b, rfl, he⟩ := able_eraseIdx h
  rw [List.filter_append, List.filter_cons_of_pos hw] at hl
  rw [he, List.filter_append]
  rcases ha : a.filter Write.onOpen with _ | ⟨x, xs⟩
  · rw [ha, List.nil_append, List.cons.injEq] at hl
    exact ⟨hl.1, by rw [hl.2, List.nil_append]⟩
  · rw [ha] at hl
    simp at hl

theorem only_inFlight {l : List Write} {i : Nat} {w w' : Write} (hl : l = [w]) (h : l[i]? = some w') :
    i = 0 ∧ w = w' := by
  rw [hl, List.getElem?_singleton] at h
  by_cases h0 : i = 0
  · rw [if_pos h0, Option.some.injEq] at h
    exact ⟨h0, h⟩
  · rw [if_neg h0] at h
    cases h

theorem close_fields (s : Writer) : s.close.isOpen = false ∧ s.close.inFlight = s.inFlight ∧
    s.close.writeMessages = s.writeMessages ∧ s.close.handed = s.handed ∧ s.close.poppedEmpty = s.poppedEmpty := by
  unfold Writer.close
  cases ho : s.isOpen <;> cases hc : s.disconnectCallback <;> simp [ho, hc]

/-- Closing keeps the frames in order, whatever is in flight. -/
theorem Ordered.close (h : Ordered sent s) : Ordered sent s.close := by
  obtain ⟨ho, hf, hq, hh, -⟩ := close_fields s
  have ha : s.close.able = s.able := by rw [Writer.able, hf, Writer.able]
  cases h with
  | idle _ _ inFlight queue handed =>
    refine .dead sent [] ho (by rw [ha, Writer.able, inFlight]; rfl) (by rw [hq, queue, List.append_nil])
      List.nil_prefix (by rw [hh, handed, List.append_nil])
  | busy w popped rest _ _ inFlight onOpen queue hsent handed =>
    have hw : s.able = [w] := by rw [Writer.able, inFlight, List.filter_cons_of_pos onOpen]; rfl
    exact .draining w popped rest ho (ha.trans hw) (hq.trans queue) hsent (hh.trans handed)
  | draining w popped rest _ able queue hsent handed =>
    exact .draining w popped rest ho (ha.trans able) (hq.trans queue) hsent (hh.trans handed)
  | dead popped part _ able hsent hpart handed =>
    exact .dead popped part ho (ha.trans able) (by rw [hq, hsent]) (by rwa [hq]) (hh.trans handed)

/-- On a closed socket `doWriteNext` starts nothing that can hand over bytes. -/
theorem doWriteNext_closed (h : s.isOpen = false) : s.doWriteNext.isOpen = false ∧ s.doWriteNext.able = s.able ∧
    s.doWriteNext.writeMessages = s.writeMessages ∧ s.doWriteNext.handed = s.handed ∧
    s.doWriteNext.poppedEmpty = s.poppedEmpty := by
  unfold Writer.doWriteNext
  cases hq : s.writeMessages <;> simp [Writer.able, h]

theorem sendMessage_closed (h : s.isOpen = false) (serialized : List UInt8) :
    (s.sendMessage (some serialized)).isOpen = false ∧ (s.sendMessage (some serialized)).able = s.able ∧
      (s.sendMessage (some serialized)).writeMessages = s.writeMessages ++ [frameMessage serialized] ∧
      (s.sendMessage (some serialized)).handed = s.handed ∧
      (s.sendMessage (some serialized)).poppedEmpty = s.poppedEmpty := by
  unfold Writer.sendMessage
  cases hw : s.writing
  · exact doWriteNext_closed h
  · exact ⟨h, rfl, rfl, rfl, rfl⟩

theorem succeeded_closed (h : s.isOpen = false) : s.succeeded.isOpen = false ∧ s.succeeded.able = s.able ∧
    s.succeeded.writeMessages = s.writeMessages.tail ∧ s.succeeded.handed = s.handed := by
  unfold Writer.succeeded
  dsimp only
  split
  · exact ⟨h, rfl, rfl, rfl⟩
  · obtain ⟨ho, ha, hq, hh, -⟩ := @doWriteNext_closed
      { s with poppedEmpty := s.poppedEmpty || s.writeMessages.isEmpty, writeMessages := s.writeMessages.tail } h
    exact ⟨ho, ha, hq, hh⟩

theorem Ordered.sendMessage (h : Ordered sent s) (message : Option (List UInt8)) :
    Ordered (sent ++ (message.map frameMessage).toList) (s.sendMessage message) := by
  rcases message with _ | serialized
  · simpa [Writer.sendMessage] using h
  show Ordered (sent ++ [frameMessage serialized]) (s.sendMessage (some serialized))
  cases h with
  | idle isOpen writing inFlight queue handed =>
    refine .busy ⟨frameMessage serialized, 0, true⟩ sent [] ?_ ?_ ?_ rfl ?_ rfl ?_ <;>
      simp [Writer.sendMessage, Writer.doWriteNext, isOpen, writing, inFlight, queue, handed]
  | busy w popped rest isOpen writing inFlight onOpen queue hsent handed =>
    refine .busy w popped (rest ++ [frameMessage serialized]) ?_ ?_ ?_ onOpen ?_ ?_ ?_ <;>
      simp [Writer.sendMessage, isOpen, writing, inFlight, queue, hsent, handed]
  | draining w popped rest isOpen able queue hsent handed =>
    obtain ⟨ho, ha, hq, hh, -⟩ := sendMessage_closed isOpen serialized
    exact .draining w popped (rest ++ [frameMessage serialized]) ho (ha.trans able) (by rw [hq, queue, List.cons_append])
      (by rw [hsent, List.append_assoc, List.cons_append]) (hh.trans handed)
  | dead popped part isOpen able hsent hpart handed =>
    obtain ⟨ho, ha, hq, hh, -⟩ := sendMessage_closed isOpen serialized
    refine .dead popped part ho (ha.trans able) (by rw [hq, hsent, List.append_assoc]) ?_ (hh.trans handed)
    rw [hq, List.flatten_append]
    exact hpart.trans (List.prefix_append _ _)

/-- A write that has handed over all of its buffer succeeds: its frame is the one that leaves the queue. -/
theorem Ordered.succeed (h : Ordered sent s) (i : Nat) : Ordered sent (s.step (.succeed i)) := by
  rcases hi : s.inFlight[i]? with _ | w'
  · simpa only [Writer.step, hi] using h
  by_cases hw : (w'.onOpen && w'.handed == w'.buf.length) = true
  swap
  · simpa only [Writer.step, hi, if_neg hw] using h
  simp only [Writer.step, hi, if_pos hw]
  rw [Bool.and_eq_true, beq_iff_eq] at hw
  cases h with
  | idle isOpen writing inFlight queue handed =>
    rw [inFlight] at hi
    cases hi
  | busy w popped rest isOpen writing inFlight onOpen queue hsent handed =>
    obtain ⟨rfl, rfl⟩ := only_inFlight inFlight hi
    have hall : s.handed = (popped ++ [w.buf]).flatten := by
      rw [handed, hw.2, List.take_length, List.flatten_append, List.flatten_singleton]
    rcases rest with _ | ⟨next, rest⟩
    · refine .idle ?_ ?_ ?_ ?_ ?_ <;>
        simp [Writer.succeeded, isOpen, inFlight, queue, hall, hsent]
    · refine .busy ⟨next, 0, true⟩ (popped ++ [w.buf]) rest ?_ ?_ ?_ rfl ?_ ?_ ?_ <;>
        simp [Writer.succeeded, Writer.doWriteNext, isOpen, writing, inFlight, queue, hall, hsent]
  | draining w popped rest isOpen able queue hsent handed =>
    obtain ⟨rfl, he⟩ := able_eraseIdx_self hi hw.1 able
    have hall : s.handed = (popped ++ [w'.buf]).flatten := by
      rw [handed, hw.2, List.take_length, List.flatten_append, List.flatten_singleton]
    obtain ⟨ho, ha, hq, hh⟩ := @succeeded_closed { s with inFlight := s.inFlight.eraseIdx i } isOpen
    refine .dead (popped ++ [w'.buf]) [] ho (ha.trans he) ?_ List.nil_prefix (by rw [hh, hall, List.append_nil])
    rw [hq, hsent, queue, List.tail_cons, List.append_assoc, List.singleton_append]
  | dead popped part isOpen able hsent hpart handed =>
    have hmem : w' ∈ s.able := List.mem_filter.2 ⟨List.mem_of_getElem? hi, hw.1⟩
    rw [able] at hmem
    cases hmem

theorem Ordered.transmit (h : Ordered sent s) (i count : Nat) : Ordered sent (s.step (.transmit i count)) := by
  rcases hi : s.inFlight[i]? with _ | w'
  · simpa only [Writer.step, hi] using h
  by_cases hw : (s.isOpen && w'.onOpen) = true
  swap
  · simpa only [Writer.step, hi, if_neg hw] using h
  simp only [Writer.step, hi, if_pos hw]
  rw [Bool.and_eq_true] at hw
  cases h with
  | idle isOpen writing inFlight queue handed =>
    rw [inFlight] at hi
    cases hi
  | busy w popped rest isOpen writing inFlight onOpen queue hsent handed =>
    obtain ⟨rfl, rfl⟩ := only_inFlight inFlight hi
    refine .busy { w with handed := min (w.handed + count) w.buf.length } popped rest isOpen writing ?_ onOpen queue
      hsent ?_
    · rw [inFlight]; rfl
    · rw [handed, List.append_assoc, ← List.take_add, ← List.take_eq_take_min]
  | draining w popped rest isOpen able queue hsent handed =>
    rw [isOpen] at hw
    cases hw.1
  | dead popped part isOpen able hsent hpart handed =>
    rw [isOpen] at hw
    cases hw.1

/-- A write that fails closes the session; what it has handed over stays the last that left. -/
theorem Ordered.fail (h : Ordered sent s) (i : Nat) : Ordered sent (s.step (.fail i)) := by
  rcases hi : s.inFlight[i]? with _ | w'
  · simpa only [Writer.step, hi] using h
  simp only [Writer.step, hi]
  obtain ⟨ho, hf, hq, hh, -⟩ := close_fields { s with inFlight := s.inFlight.eraseIdx i }
  have ha : (Writer.close { s with inFlight := s.inFlight.eraseIdx i }).able =
      (s.inFlight.eraseIdx i).filter Write.onOpen := by rw [Writer.able, hf]
  cases h with
  | idle isOpen writing inFlight queue handed =>
    rw [inFlight] at hi
    cases hi
  | busy w popped rest isOpen writing inFlight onOpen queue hsent handed =>
    obtain ⟨rfl, rfl⟩ := only_inFlight inFlight hi
    refine .dead popped (w.buf.take w.handed) ho (by rw [ha, inFlight]; rfl) (by rw [hq, queue, hsent]) ?_
      (hh.trans handed)
    rw [hq, queue, List.flatten_cons]
    exact (List.take_prefix _ _).trans (List.prefix_append _ _)
  | draining w popped rest isOpen able queue hsent handed =>
    cases hw : w'.onOpen with
    | false =>
      rw [able_eraseIdx_of_not hi hw] at ha
      exact .draining w popped rest ho (ha.trans able) (hq.trans queue) hsent (hh.trans handed)
    | true =>
      obtain ⟨rfl, he⟩ := able_eraseIdx_self hi hw able
      refine .dead popped (w'.buf.take w'.handed) ho (ha.trans he) (by rw [hq, queue, hsent]) ?_ (hh.trans handed)
      rw [hq, queue, List.flatten_cons]
      exact (List.take_prefix _ _).trans (List.prefix_append _ _)
  | dead popped part isOpen able hsent hpart handed =>
    have hw : w'.onOpen = false := by
      by_contra hw
      have hmem : w' ∈ s.able := List.mem_filter.2 ⟨List.mem_of_getElem? hi, by simpa using hw⟩
      rw [able] at hmem
      cases hmem
    rw [able_eraseIdx_of_not hi hw] at ha
    exact .dead popped part ho (ha.trans able) (by rw [hq, hsent]) (by rwa [hq]) (hh.trans handed)

theorem Ordered.step (h : Ordered sent s) (e : WriteEvent) : Ordered (sent ++ e.frame.toList) (s.step e) := by
  cases e with
  | send message => exact h.sendMessage message
  | transmit i count => simpa [WriteEvent.frame] using h.transmit i count
  | succeed i => simpa [WriteEvent.frame] using h.succeed i
  | fail i => simpa [WriteEvent.frame] using h.fail i
  | close => simpa [WriteEvent.frame, Writer.step] using h.close

theorem Ordered.prefix_flatten (h : Ordered sent s) : s.handed <+: sent.flatten := by
  cases h with
  | idle isOpen writing inFlight queue handed => exact handed ▸ List.prefix_rfl
  | busy w popped rest isOpen writing inFlight onOpen queue hsent handed =>
    rw [handed, hsent, List.flatten_append, List.flatten_cons, List.prefix_append_right_inj]
    exact (List.take_prefix _ _).trans (List.prefix_append _ _)
  | draining w popped rest isOpen able queue hsent handed =>
    rw [handed, hsent, List.flatten_append, List.flatten_cons, List.prefix_append_right_inj]
    exact (List.take_prefix _ _).trans (List.prefix_append _ _)
  | dead popped part isOpen able hsent hpart handed =>
    rw [handed, hsent, List.flatten_append, List.prefix_append_right_inj]
    exact hpart

/-- While a write is able the queue holds its frame. -/
theorem Ordered.queue_ne_nil (h : Ordered sent s) {w : Write} (hw : w ∈ s.able) : s.writeMessages ≠ [] := by
  cases h with
  | idle isOpen writing inFlight queue handed =>
    rw [Writer.able, inFlight] at hw
    cases hw
  | busy w popped rest isOpen writing inFlight onOpen queue hsent handed => simp [queue]
  | draining w popped rest isOpen able queue hsent handed => simp [queue]
  | dead popped part isOpen able hsent hpart handed =>
    rw [able] at hw
    cases hw

theorem doWriteNext_poppedEmpty (s : Writer) : s.doWriteNext.poppedEmpty = s.poppedEmpty := by
  unfold Writer.doWriteNext
  cases s.writeMessages <;> rfl

theorem succeeded_poppedEmpty (s : Writer) :
    s.succeeded.poppedEmpty = (s.poppedEmpty || s.writeMessages.isEmpty) := by
  unfold Writer.succeeded
  dsimp only
  split
  · rfl
  · rw [doWriteNext_poppedEmpty]

theorem sendMessage_poppedEmpty (s : Writer) (message : Option (List UInt8)) :
    (s.sendMessage message).poppedEmpty = s.poppedEmpty := by
  rcases message with _ | serialized
  · rfl
  · unfold Writer.sendMessage
    dsimp only
    split
    · rw [doWriteNext_poppedEmpty]
    · rfl

/-- Only a success pops, and it pops the frame of the write that succeeded. -/
theorem Ordered.poppedEmpty (h : Ordered sent s) (e : WriteEvent) : (s.step e).poppedEmpty = s.poppedEmpty := by
  cases e with
  | send message => exact sendMessage_poppedEmpty s message
  | transmit i count =>
    simp only [Writer.step]
    split
    · split <;> rfl
    · rfl
  | succeed i =>
    simp only [Writer.step]
    split
    · rename_i w hi
      split
      · rename_i hw
        rw [Bool.and_eq_true] at hw
        have hq := h.queue_ne_nil (List.mem_filter.2 ⟨List.mem_of_getElem? hi, hw.1⟩)
        rw [succeeded_poppedEmpty, List.isEmpty_eq_false_iff.2 hq, Bool.or_false]
      · rfl
    · rfl
  | fail i =>
    simp only [Writer.step]
    split
    · exact (close_fields _).2.2.2.2
    · rfl
  | close => exact (close_fields s).2.2.2.2

end Steps

theorem run_ordered (events : List WriteEvent) :
    Ordered (framesSent events) (Writer.run events) ∧ (Writer.run events).poppedEmpty = false := by
  induction events using List.reverseRecOn with
  | nil => exact ⟨.idle rfl rfl rfl rfl rfl, rfl⟩
  | append_singleton events e ih =>
    obtain ⟨h, hp⟩ := ih
    have hrun : Writer.run (events ++ [e]) = (Writer.run events).step e := List.foldl_concat ..
    have hsent : framesSent (events ++ [e]) = framesSent events ++ e.frame.toList := by
      rw [framesSent, List.filterMap_append]
      cases he : e.frame <;> simp [framesSent, he]
    rw [hrun, hsent]
    exact ⟨h.step e, (h.poppedEmpty e).trans hp⟩

/-- In every interleaving of sends, completions and closes: on an open socket at most one write is in flight and, with
none in flight, the queue is empty; the bytes handed to the peer are a prefix of the frames in the order they were
sent; and `pop_front` never meets an empty queue. -/
theorem run_writeQueue (events : List WriteEvent) :
    ((Writer.run events).isOpen → (Writer.run events).inFlight.length ≤ 1) ∧
      (Writer.run events).handed <+: (framesSent events).flatten ∧
      ((Writer.run events).isOpen → (Writer.run events).inFlight = [] → (Writer.run events).writeMessages = []) ∧
      (Writer.run events).poppedEmpty = false := by
  obtain ⟨h, hp⟩ := run_ordered events
  refine ⟨fun ho => ?_, h.prefix_flatten, fun ho hf => ?_, hp⟩
  · cases h with
    | idle _ _ inFlight => simp [inFlight]
    | busy _ _ _ _ _ inFlight => simp [inFlight]
    | draining _ _ _ isOpen => simp [isOpen] at ho
    | dead _ _ isOpen => simp [isOpen] at ho
  · cases h with
    | idle _ _ _ queue => exact queue
    | busy _ _ _ _ _ inFlight => simp [inFlight] at hf
    | draining _ _ _ isOpen => simp [isOpen] at ho
    | dead _ _ isOpen => simp [isOpen] at ho

-- a write that had left whole succeeds after the session was closed; the frames behind it are not sent again
example : (Writer.run [.send (some [7]), .send (some [8]), .transmit 0 5, .close, .send (some [9]), .succeed 0,
    .fail 0, .fail 0]).handed = [1, 0, 0, 0, 7] := by decide

end OrderbookGC.Framing
