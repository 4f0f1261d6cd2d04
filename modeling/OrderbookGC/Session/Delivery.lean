/-
What arrives of what was sent. A sender frames its messages one after the other, and of the frames some part has come
through; `decodes_of_prefix` cuts such a part. So whatever a `Session` is told to send, and however its sends, writes
and closes interleave, the peer reads an initial part of the messages: none is lost between two others, doubled,
reordered or changed, and the first that no reader accepts is the end of the connection.
-/
import OrderbookGC.Session.WriteQueue

namespace OrderbookGC.Framing

instance (payload : List UInt8) : Decidable (Sendable payload) := inferInstanceAs (Decidable (_ ∧ _))

/-- The messages that readers accept, up to the first that they do not. -/
def accepted (messages : List (List UInt8)) : List (List UInt8) := messages.takeWhile fun m => decide (Sendable m)

theorem accepted_cons_of_sendable {m : List UInt8} (h : Sendable m) (messages : List (List UInt8)) :
    accepted (m :: messages) = m :: accepted messages := List.takeWhile_cons_of_pos (by simpa using h)

theorem accepted_cons_of_not {m : List UInt8} (h : ¬ Sendable m) (messages : List (List UInt8)) :
    accepted (m :: messages) = [] := List.takeWhile_cons_of_neg (by simpa using h)

theorem accepted_prefix (messages : List (List UInt8)) : accepted messages <+: messages := List.takeWhile_prefix _

/-- A part of a frame and what follows it holds the header of the frame, when it holds a header. -/
theorem take_header {m bytes rest : List UInt8} (hm : m.length < 2 ^ 32) (hb : bytes <+: frameMessage m ++ rest)
    (hlong : headerSize ≤ bytes.length) :
    (bytes.take headerSize).length = headerSize ∧ parseLength (bytes.take headerSize) = m.length := by
  obtain ⟨header, hh, hl, hf⟩ := frameMessage_eq m hm
  obtain ⟨more, hmore⟩ := hb
  have htake : bytes.take headerSize = header := by
    have h := congrArg (List.take headerSize) hmore
    rwa [List.take_append_of_le_length hlong, hf, List.append_assoc, List.take_left' hh] at h
  rw [htake]
  exact ⟨hh, hl⟩

/-- A part of a frame that is sendable stops inside it. -/
theorem cutOff_of_short {m bytes rest : List UInt8} (hm : Sendable m) (hb : bytes <+: frameMessage m ++ rest)
    (hshort : bytes.length < headerSize + m.length) : CutOff bytes := by
  have hlimit : maxMessageSize = 1048576 := rfl
  rcases Nat.lt_or_ge bytes.length headerSize with hlt | hlong
  · exact .inl hlt
  obtain ⟨hh, hl⟩ := take_header (by have := hm.2; omega) hb hlong
  refine .inr ⟨fun hbad => ?_, by rw [extractLength_eq_parseLength hh, hl]; exact hshort⟩
  obtain ⟨hpos, hmax⟩ := hm
  have := (badLength_iff hh).1 hbad.2
  omega

/-- A reader refuses the header of a message that is not sendable. -/
theorem badHeader_of_not_sendable {m bytes rest : List UInt8} (hm : m.length < 2 ^ 32) (hn : ¬ Sendable m)
    (hb : bytes <+: frameMessage m ++ rest) (hlong : headerSize ≤ bytes.length) : BadHeader bytes := by
  obtain ⟨hh, hl⟩ := take_header hm hb hlong
  refine ⟨hlong, (badLength_iff hh).2 ?_⟩
  unfold Sendable at hn
  omega

/-- The part of a stream of frames that has come through is cut into an initial part of the messages readers accept;
into all of them, when everything has come through. -/
theorem decodes_of_prefix {messages : List (List UInt8)} (hsize : ∀ m ∈ messages, m.length < 2 ^ 32)
    {bytes : List UInt8} (hb : bytes <+: messages.flatMap frameMessage) (ended : Bool) :
    ∃ read isOpen, Decodes ⟨bytes, ended⟩ read isOpen ∧ read <+: accepted messages ∧
      (bytes = messages.flatMap frameMessage → read = accepted messages) := by
  induction messages generalizing bytes with
  | nil =>
    rw [List.flatMap_nil, List.prefix_nil] at hb
    subst hb
    exact ⟨[], _, .cut (.inl (by decide)), List.nil_prefix, fun _ => rfl⟩
  | cons m messages ih =>
    rw [List.flatMap_cons] at hb
    have hm := hsize m List.mem_cons_self
    have hlen : (frameMessage m).length = headerSize + m.length := by
      obtain ⟨header, hh, -, hf⟩ := frameMessage_eq m hm
      rw [hf, List.length_append, hh]
    by_cases hs : Sendable m
    · rw [accepted_cons_of_sendable hs, List.flatMap_cons]
      rcases Nat.lt_or_ge bytes.length (headerSize + m.length) with hshort | hlong
      · refine ⟨[], _, .cut (cutOff_of_short hs hb hshort), List.nil_prefix, fun heq => ?_⟩
        rw [heq, List.length_append, hlen] at hshort
        omega
      · obtain ⟨rest, rfl⟩ : frameMessage m <+: bytes :=
          List.prefix_of_prefix_length_le (List.prefix_append _ _) hb (hlen.trans_le hlong)
        rw [List.prefix_append_right_inj] at hb
        obtain ⟨read, isOpen, hd, hp, hall⟩ := ih (fun n hn => hsize n (List.mem_cons_of_mem m hn)) hb
        refine ⟨m :: read, isOpen, .frame hs hd, List.cons_prefix_cons.2 ⟨rfl, hp⟩, fun heq => ?_⟩
        rw [hall (List.append_cancel_left heq)]
    · rw [accepted_cons_of_not hs, List.flatMap_cons]
      rcases Nat.lt_or_ge bytes.length headerSize with hshort | hlong
      · exact ⟨[], _, .cut (.inl hshort), List.nil_prefix, fun _ => rfl⟩
      · exact ⟨[], false, .bad (badHeader_of_not_sendable hm hs hb hlong), List.nil_prefix, fun _ => rfl⟩

/-! ## From a session to its peer -/

/-- The text that an event hands to the queue. -/
def WriteEvent.message : WriteEvent → Option (List UInt8)
  | .send message => message
  | _ => none

/-- The texts of the messages that a session is told to send, in order. -/
def messagesSent (events : List WriteEvent) : List (List UInt8) := events.filterMap WriteEvent.message

theorem framesSent_flatten (events : List WriteEvent) :
    (framesSent events).flatten = (messagesSent events).flatMap frameMessage := by
  have h : framesSent events = (messagesSent events).map frameMessage := by
    induction events with
    | nil => rfl
    | cons e events ih =>
      unfold framesSent messagesSent at *
      cases e with
      | send message => cases message <;> simpa [List.filterMap_cons, WriteEvent.frame, WriteEvent.message] using ih
      | _ => simpa [List.filterMap_cons, WriteEvent.frame, WriteEvent.message] using ih
  rw [h, List.flatMap_def]

/-- Whatever part of the bytes a session has handed over has arrived, the client and the bridge read the same initial
part of the messages the session was told to send, up to the first they do not accept; and they read all of these once
everything sent has been handed over and has arrived. -/
theorem run_delivers (events : List WriteEvent) (hsize : ∀ m ∈ messagesSent events, m.length < 2 ^ 32)
    {bytes : List UInt8} (harrived : bytes <+: (Writer.run events).handed) (ended : Bool) :
    ∃ read isOpen, read <+: accepted (messagesSent events) ∧ Client.reading ⟨bytes, ended⟩ = ⟨read, isOpen⟩ ∧
      TcpClient.reading ⟨bytes, ended⟩ = ⟨read, isOpen⟩ ∧
      ((Writer.run events).isOpen → (Writer.run events).inFlight = [] → bytes = (Writer.run events).handed →
        read = accepted (messagesSent events)) := by
  obtain ⟨hordered, -⟩ := run_ordered events
  have hpart := hordered.prefix_flatten
  rw [framesSent_flatten] at hpart
  obtain ⟨read, isOpen, hd, hp, hall⟩ := decodes_of_prefix hsize (harrived.trans hpart) ended
  obtain ⟨hclient, hconnected⟩ := Client.startRead_of_decodes hd ⟨true, true, true, .header, []⟩ rfl rfl rfl
  obtain ⟨hbridge, hup⟩ := TcpClient.readLoop_of_decodes hd ⟨true, true, []⟩ rfl rfl
  refine ⟨read, isOpen, hp, ?_, ?_, fun ho hf heq => hall ?_⟩
  · simp only [Client.reading, hclient, hconnected, List.nil_append]
  · simp only [TcpClient.reading, hbridge, hup, List.nil_append]
  · -- on an open socket with no write in flight everything has been handed over
    rw [heq, ← framesSent_flatten]
    cases hordered with
    | idle _ _ _ _ handed => exact handed
    | busy _ _ _ _ _ inFlight => rw [inFlight] at hf; cases hf
    | draining _ _ _ isOpen => rw [isOpen] at ho; cases ho
    | dead _ _ isOpen => rw [isOpen] at ho; cases ho

/-- Two messages, of which the first and a part of the header of the second have arrived. -/
theorem run_delivers_twoMessages : (Client.reading ⟨[1, 0, 0, 0, 7, 2, 0, 0], false⟩).delivered <+: [[7], [8, 9]] := by
  have harrived : [1, 0, 0, 0, 7, 2, 0, 0] <+: (Writer.run [.send (some [7]), .send (some [8, 9]), .transmit 0 5,
      .succeed 0, .transmit 0 4]).handed := ⟨[0], by decide⟩
  obtain ⟨read, isOpen, hp, hclient, -⟩ := run_delivers _ (by decide) harrived false
  rw [hclient]
  exact hp

end OrderbookGC.Framing
