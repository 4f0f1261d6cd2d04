/-
Length-prefixed framing: `MessageFrame` of message.h, and the three readers of a framed byte stream,
`Session::doRead`, `Client::startRead` and `TcpClient._read_loop`. The callbacks of the C++ readers are written in
direct style: the handler of a read is what follows the read.

A stream is cut into payloads in one way (`Decodes`), every stream is (`exists_decodes`), and each reader delivers
exactly the payloads of the cut and closes exactly where the cut says so.
-/
import Mathlib.Tactic

namespace OrderbookGC.Framing

/-! ## Frames -/

/-- `MessageFrame::HEADER_SIZE` and `HEADER_SIZE`. -/
def headerSize : Nat := 4

/-- `MAX_MESSAGE_SIZE`, and the limit written out in the C++ readers. -/
def maxMessageSize : Nat := 1024 * 1024

/-- `MessageFrame::frameMessage`. -/
def frameMessage (message : List UInt8) : List UInt8 :=
  let length : UInt32 := UInt32.ofNat message.length
  [(length &&& 0xFF).toUInt8, ((length >>> 8) &&& 0xFF).toUInt8, ((length >>> 16) &&& 0xFF).toUInt8,
    ((length >>> 24) &&& 0xFF).toUInt8] ++ message

/-- `MessageFrame::extractLength`; `header` is the four bytes of `length_buffer_`. -/
def extractLength (header : List UInt8) : UInt32 :=
  (header.getD 0 0).toUInt32 ||| ((header.getD 1 0).toUInt32 <<< 8) ||| ((header.getD 2 0).toUInt32 <<< 16) |||
    ((header.getD 3 0).toUInt32 <<< 24)

/-- `parse_length`: `struct.unpack("<I", header)`. -/
def parseLength (header : List UInt8) : Nat := header.foldr (fun b n => b.toNat + 256 * n) 0

/-- The four bytes of a header do not overlap: the shifted bytes are added up by the disjunction. -/
theorem extractLength_toNat (a b c d : UInt8) :
    (extractLength [a, b, c, d]).toNat = a.toNat + 256 * b.toNat + 65536 * c.toNat + 16777216 * d.toNat := by
  have ha := a.toNat_lt
  have hb := b.toNat_lt
  have hc := c.toNat_lt
  have hd := d.toNat_lt
  have hab : a.toNat ||| b.toNat <<< 8 = a.toNat + b.toNat * 2 ^ 8 := by
    rw [Nat.or_comm, ← Nat.shiftLeft_add_eq_or_of_lt ha, Nat.shiftLeft_eq, Nat.add_comm]
  have habc : a.toNat + b.toNat * 2 ^ 8 ||| c.toNat <<< 16 = a.toNat + b.toNat * 2 ^ 8 + c.toNat * 2 ^ 16 := by
    rw [Nat.or_comm, ← Nat.shiftLeft_add_eq_or_of_lt (by omega), Nat.shiftLeft_eq, Nat.add_comm]
  have habcd : a.toNat + b.toNat * 2 ^ 8 + c.toNat * 2 ^ 16 ||| d.toNat <<< 24 =
      a.toNat + b.toNat * 2 ^ 8 + c.toNat * 2 ^ 16 + d.toNat * 2 ^ 24 := by
    rw [Nat.or_comm, ← Nat.shiftLeft_add_eq_or_of_lt (by omega), Nat.shiftLeft_eq, Nat.add_comm]
  have shift (x : UInt8) (n : Nat) (hn : n ≤ 24) : x.toNat <<< n % 2 ^ 32 = x.toNat <<< n := by
    refine Nat.mod_eq_of_lt ?_
    rw [Nat.shiftLeft_eq]
    calc x.toNat * 2 ^ n < 2 ^ 8 * 2 ^ n := Nat.mul_lt_mul_of_pos_right x.toNat_lt (by positivity)
      _ ≤ 2 ^ 8 * 2 ^ 24 := Nat.mul_le_mul_left _ (Nat.pow_le_pow_right (by decide) hn)
      _ = 2 ^ 32 := by decide
  have e : (extractLength [a, b, c, d]).toNat =
      a.toNat ||| b.toNat <<< 8 % 2 ^ 32 ||| c.toNat <<< 16 % 2 ^ 32 ||| d.toNat <<< 24 % 2 ^ 32 := by
    simp [extractLength]
  rw [e, shift b 8 (by decide), shift c 16 (by decide), shift d 24 (by decide), hab, habc, habcd]
  omega

theorem extractLength_eq_parseLength {header : List UInt8} (h : header.length = headerSize) :
    (extractLength header).toNat = parseLength header := by
  obtain ⟨a, b, c, d, rfl⟩ : ∃ a b c d, header = [a, b, c, d] := by
    match header, h with
    | [a, b, c, d], _ => exact ⟨a, b, c, d, rfl⟩
  rw [extractLength_toNat]
  simp only [parseLength, List.foldr_cons, List.foldr_nil]
  omega

/-- The frame of a message is a header that announces its length, and the message. -/
theorem frameMessage_eq (message : List UInt8) (h : message.length < 2 ^ 32) :
    ∃ header, header.length = headerSize ∧ parseLength header = message.length ∧
      frameMessage message = header ++ message := by
  refine ⟨_, rfl, ?_, rfl⟩
  have hlength : (UInt32.ofNat message.length).toNat = message.length := UInt32.toNat_ofNat_of_lt' h
  have mask (n : Nat) : n &&& 255 = n % 256 := Nat.and_two_pow_sub_one_eq_mod n 8
  simp only [parseLength, List.foldr_cons, List.foldr_nil, UInt32.toNat_toUInt8, UInt32.toNat_and,
    UInt32.toNat_shiftRight, UInt32.reduceToNat, hlength, mask, Nat.reduceMod, Nat.shiftRight_eq_div_pow]
  omega

theorem parseLength_inj {header header' : List UInt8} (h : header.length = headerSize)
    (h' : header'.length = headerSize) (e : parseLength header = parseLength header') : header = header' := by
  match header, header', h, h' with
  | [a, b, c, d], [a', b', c', d'], _, _ =>
    simp only [parseLength, List.foldr_cons, List.foldr_nil] at e
    have := a.toNat_lt
    have := b.toNat_lt
    have := c.toNat_lt
    have := a'.toNat_lt
    have := b'.toNat_lt
    have := c'.toNat_lt
    have ha : a = a' := UInt8.toNat_inj.1 (by omega)
    have hb : b = b' := UInt8.toNat_inj.1 (by omega)
    have hc : c = c' := UInt8.toNat_inj.1 (by omega)
    have hd : d = d' := UInt8.toNat_inj.1 (by omega)
    rw [ha, hb, hc, hd]

/-- A header that announces the length of a message is the header of its frame. -/
theorem frameMessage_of_header {header message : List UInt8} (h : header.length = headerSize)
    (e : parseLength header = message.length) (hlt : message.length < 2 ^ 32) :
    frameMessage message = header ++ message := by
  obtain ⟨header', h', e', hf⟩ := frameMessage_eq message hlt
  rw [hf, parseLength_inj h h' (by rw [e, e'])]

/-! ## Reading a stream -/

/-- What the peer of a connection has sent, and whether the stream ends there; else more bytes may come. -/
structure Stream where
  bytes : List UInt8
  ended : Bool

/-- The outcome of a read of `n` bytes from `s`. -/
inductive ReadResult (n : Nat) (s : Stream) where
  | done (bytes : List UInt8) (rest : Stream) (h : s.bytes.length = n + rest.bytes.length)
  | failed
  | waiting

/-- `asio::async_read` into a buffer of `n` bytes, and `readexactly(n)`: the next `n` bytes, an error if the stream
ends before them, and no completion while they have not come. -/
def Stream.read (n : Nat) (s : Stream) : ReadResult n s :=
  if h : n ≤ s.bytes.length then
    .done (s.bytes.take n) { s with bytes := s.bytes.drop n } (by simp only [List.length_drop]; omega)
  else if s.ended then .failed
  else .waiting

/-- `ReadState` of the session and of the client. -/
inductive ReadState where
  | header
  | content

/-- The reading side of a `Session`; `delivered` is the strings handed to `parseMessage`, in order. -/
structure Session where
  isOpen : Bool
  readState : ReadState
  delivered : List (List UInt8)

/-- `Session::close`, what it does to the reading side. -/
def Session.close (s : Session) : Session := { s with isOpen := false }

/-- `Session::doRead`. A read that waits leaves the session as its handler will find it. -/
def Session.doRead (s : Session) (stream : Stream) : Session :=
  -- the branch for CONTENT warns, goes back to HEADER and starts over
  let s := { s with readState := .header }
  match stream.read headerSize with
  | .waiting => s
  | .failed => s.close
  | .done header afterHeader _hh =>
    let messageLength := extractLength header
    if messageLength = 0 ∨ messageLength > 1024 * 1024 then s.close
    else
      let s := { s with readState := .content }
      match afterHeader.read messageLength.toNat with
      | .waiting => s
      | .failed => s.close
      | .done content rest _hc =>
        Session.doRead { s with delivered := s.delivered ++ [content], readState := .header } rest
termination_by stream.bytes.length
decreasing_by
  simp only [_hh, _hc, headerSize]
  omega

/-- The reading side of a `Client`; `delivered` is the strings handed to `handleData`. -/
structure Client where
  running : Bool
  isOpen : Bool
  connected : Bool
  readState : ReadState
  delivered : List (List UInt8)

/-- What every error branch of `Client::startRead` does. -/
def Client.drop (c : Client) : Client := { c with isOpen := false, connected := false }

/-- `Client::startRead`. -/
def Client.startRead (c : Client) (stream : Stream) : Client :=
  if !c.running || !c.isOpen then c
  else
    let c := { c with readState := .header }
    match stream.read headerSize with
    | .waiting => c
    | .failed => c.drop
    | .done header afterHeader _hh =>
      let messageLength := extractLength header
      if messageLength = 0 ∨ messageLength > 1024 * 1024 then c.drop
      else
        let c := { c with readState := .content }
        match afterHeader.read messageLength.toNat with
        | .waiting => c
        | .failed => c.drop
        | .done content rest _hc =>
          Client.startRead { c with delivered := c.delivered ++ [content], readState := .header } rest
termination_by stream.bytes.length
decreasing_by
  simp only [_hh, _hc, headerSize]
  omega

/-- The reading side of a `TcpClient`; `reader` says that `_reader` is set, `delivered` is the bodies that are parsed
and dispatched. -/
structure TcpClient where
  connected : Bool
  reader : Bool
  delivered : List (List UInt8)

/-- `TcpClient._handle_disconnect`: the client is no longer connected. The writer it leaves behind is replaced by
`_reconnect` or closed by `_close`. -/
def TcpClient.handleDisconnect (c : TcpClient) : TcpClient :=
  if !c.connected then c else { c with connected := false }

/-- `TcpClient._read_loop`. A bad length leaves the loop by `break`, a stream that ends by `IncompleteReadError`; the
`finally` clause handles both. -/
def TcpClient.readLoop (c : TcpClient) (stream : Stream) : TcpClient :=
  if c.connected && c.reader then
    match stream.read headerSize with
    | .waiting => c
    | .failed => c.handleDisconnect
    | .done header afterHeader _hh =>
      let length := parseLength header
      if length = 0 ∨ length > maxMessageSize then c.handleDisconnect
      else
        match afterHeader.read length with
        | .waiting => c
        | .failed => c.handleDisconnect
        | .done body rest _hc => TcpClient.readLoop { c with delivered := c.delivered ++ [body] } rest
  else c.handleDisconnect
termination_by stream.bytes.length
decreasing_by
  simp only [_hh, _hc, headerSize]
  omega

/-! ## The cut of a stream -/

theorem Stream.read_append {n : Nat} (bytes rest : List UInt8) (ended : Bool) (h : bytes.length = n) :
    ∃ hr, Stream.read n ⟨bytes ++ rest, ended⟩ = .done bytes ⟨rest, ended⟩ hr := by
  have hn : n ≤ (bytes ++ rest).length := by simp [h]
  subst h
  refine ⟨by simp, ?_⟩
  simp only [Stream.read, dif_pos hn, List.take_left, List.drop_left]

theorem Stream.read_short {n : Nat} {bytes : List UInt8} (ended : Bool) (h : bytes.length < n) :
    Stream.read n ⟨bytes, ended⟩ = if ended then .failed else .waiting := by
  simp only [Stream.read, dif_neg (Nat.not_le.2 h)]

/-- The bytes start with a header that announces length 0 or more than the maximum. -/
def BadHeader (bytes : List UInt8) : Prop :=
  headerSize ≤ bytes.length ∧
    (extractLength (bytes.take headerSize) = 0 ∨ extractLength (bytes.take headerSize) > 1024 * 1024)

/-- The bytes stop inside a frame: inside its header, or after a good header inside its payload. -/
def CutOff (bytes : List UInt8) : Prop :=
  bytes.length < headerSize ∨
    ¬ BadHeader bytes ∧ bytes.length < headerSize + (extractLength (bytes.take headerSize)).toNat

/-- A payload of a length that readers accept. -/
def Sendable (payload : List UInt8) : Prop := 1 ≤ payload.length ∧ payload.length ≤ maxMessageSize

/-- `Decodes stream payloads isOpen`: the stream is cut into these payloads, after which it is open still (more bytes
may complete a frame) or has to be closed. -/
inductive Decodes : Stream → List (List UInt8) → Bool → Prop where
  | frame {p rest ended payloads isOpen} (hp : Sendable p) (h : Decodes ⟨rest, ended⟩ payloads isOpen) :
      Decodes ⟨frameMessage p ++ rest, ended⟩ (p :: payloads) isOpen
  | bad {bytes ended} (h : BadHeader bytes) : Decodes ⟨bytes, ended⟩ [] false
  | cut {bytes ended} (h : CutOff bytes) : Decodes ⟨bytes, ended⟩ [] (!ended)

/-- The two readings of a header refuse the same lengths. -/
theorem badLength_iff {header : List UInt8} (h : header.length = headerSize) :
    (extractLength header = 0 ∨ extractLength header > 1024 * 1024) ↔
      (parseLength header = 0 ∨ parseLength header > maxMessageSize) := by
  have hmax : (1024 * 1024 : UInt32).toNat = maxMessageSize := by decide
  rw [← UInt32.toNat_inj, gt_iff_lt, UInt32.lt_iff_toNat_lt, hmax, extractLength_eq_parseLength h]
  rfl

/-- What a reader meets at a frame. -/
theorem read_frame {p : List UInt8} (hp : Sendable p) (rest : List UInt8) (ended : Bool) :
    ∃ header hr, header.length = headerSize ∧
      Stream.read headerSize ⟨frameMessage p ++ rest, ended⟩ = .done header ⟨p ++ rest, ended⟩ hr ∧
      ¬ (extractLength header = 0 ∨ extractLength header > 1024 * 1024) ∧
      ∀ n, (extractLength header).toNat = n →
        ∃ hc, Stream.read n ⟨p ++ rest, ended⟩ = .done p ⟨rest, ended⟩ hc := by
  obtain ⟨hpos, hmax⟩ := hp
  have hlimit : maxMessageSize = 1048576 := rfl
  obtain ⟨header, hh, hl, hf⟩ := frameMessage_eq p (by omega)
  have hlen : p.length = (extractLength header).toNat := by rw [extractLength_eq_parseLength hh, hl]
  obtain ⟨hr, hread⟩ := Stream.read_append header (p ++ rest) ended hh
  have hgood : ¬ (parseLength header = 0 ∨ parseLength header > maxMessageSize) := by omega
  rw [hf, List.append_assoc]
  refine ⟨header, hr, hh, hread, mt (badLength_iff hh).1 hgood, fun n hn => ?_⟩
  exact Stream.read_append p rest ended (hlen.trans hn)

/-- What a reader meets at bytes that hold a header. -/
theorem read_header {bytes : List UInt8} (h : headerSize ≤ bytes.length) (ended : Bool) :
    ∃ hr, Stream.read headerSize ⟨bytes, ended⟩ = .done (bytes.take headerSize) ⟨bytes.drop headerSize, ended⟩ hr := by
  refine ⟨by simp only [List.length_drop]; omega, ?_⟩
  simp only [Stream.read, dif_pos h]

/-- What a reader meets where the bytes stop inside a frame. -/
theorem read_cut {bytes : List UInt8} (h : CutOff bytes) (ended : Bool) :
    Stream.read headerSize ⟨bytes, ended⟩ = (if ended then .failed else .waiting) ∨
      ∃ header rest hr, header.length = headerSize ∧ Stream.read headerSize ⟨bytes, ended⟩ = .done header rest hr ∧
        ¬ (extractLength header = 0 ∨ extractLength header > 1024 * 1024) ∧
        ∀ n, (extractLength header).toNat = n → Stream.read n rest = if ended then .failed else .waiting := by
  rcases Nat.lt_or_ge bytes.length headerSize with hshort | hlong
  · exact .inl (Stream.read_short ended hshort)
  · obtain ⟨hgood, hlen⟩ := h.resolve_left (Nat.not_lt.2 hlong)
    obtain ⟨hr, hread⟩ := read_header hlong ended
    refine .inr ⟨_, _, hr, List.length_take_of_le hlong, hread, fun hbad => hgood ⟨hlong, hbad⟩, fun n hn => ?_⟩
    exact Stream.read_short ended (by simp only [List.length_drop]; omega)

/-- Every stream is cut into payloads. -/
theorem exists_decodes (bytes : List UInt8) (ended : Bool) :
    ∃ payloads isOpen, Decodes ⟨bytes, ended⟩ payloads isOpen := by
  -- on the number of bytes: a frame takes its header and at least one byte more
  induction hn : bytes.length using Nat.strong_induction_on generalizing bytes with
  | _ n ih =>
    by_cases hbad : BadHeader bytes
    · exact ⟨[], false, .bad hbad⟩
    by_cases hcut : CutOff bytes
    · exact ⟨[], !ended, .cut hcut⟩
    obtain ⟨hlong, hlen⟩ : headerSize ≤ bytes.length ∧
        headerSize + (extractLength (bytes.take headerSize)).toNat ≤ bytes.length := by
      constructor
      · by_contra h
        exact hcut (.inl (Nat.not_le.1 h))
      · by_contra h
        exact hcut (.inr ⟨hbad, Nat.not_le.1 h⟩)
    have hh : (bytes.take headerSize).length = headerSize := List.length_take_of_le hlong
    rw [extractLength_eq_parseLength hh] at hlen
    have hgood := mt (fun h => (⟨hlong, (badLength_iff hh).2 h⟩ : BadHeader bytes)) hbad
    obtain ⟨p, rest, hsplit, hp⟩ : ∃ p rest, bytes = bytes.take headerSize ++ (p ++ rest) ∧
        p.length = parseLength (bytes.take headerSize) := by
      refine ⟨(bytes.drop headerSize).take (parseLength (bytes.take headerSize)),
        (bytes.drop headerSize).drop (parseLength (bytes.take headerSize)), ?_, ?_⟩
      · rw [List.take_append_drop, List.take_append_drop]
      · rw [List.length_take_of_le (by rw [List.length_drop]; omega)]
    have hlimit : maxMessageSize = 1048576 := rfl
    have hframe := frameMessage_of_header hh hp.symm (by omega)
    have hrest : rest.length < n := by
      have : 0 < headerSize := by decide
      have := congrArg List.length hsplit
      simp only [List.length_append] at this
      omega
    obtain ⟨payloads, isOpen, h⟩ := ih rest.length hrest rest rfl
    refine ⟨p :: payloads, isOpen, ?_⟩
    rw [hsplit, ← List.append_assoc, ← hframe]
    exact .frame (by unfold Sendable; omega) h

/-! ## The readers follow the cut -/

/-- What has come of reading a stream: the payloads delivered, and whether the connection is still open. -/
structure Reading where
  delivered : List (List UInt8)
  isOpen : Bool

/-- The reading of a stream by a session that has just started. -/
def Session.reading (stream : Stream) : Reading :=
  let s := Session.doRead ⟨true, .header, []⟩ stream
  ⟨s.delivered, s.isOpen⟩

/-- The reading of a stream by a client that has just connected; its connection is open while its socket is and
`connected_` says so. -/
def Client.reading (stream : Stream) : Reading :=
  let c := Client.startRead ⟨true, true, true, .header, []⟩ stream
  ⟨c.delivered, c.isOpen && c.connected⟩

/-- The reading of a stream by the bridge once `_connect` has succeeded. -/
def TcpClient.reading (stream : Stream) : Reading :=
  let c := TcpClient.readLoop ⟨true, true, []⟩ stream
  ⟨c.delivered, c.connected⟩

section Follow

variable {stream : Stream} {payloads : List (List UInt8)} {isOpen : Bool}

theorem Session.doRead_of_decodes (h : Decodes stream payloads isOpen) (s : Session) (hs : s.isOpen) :
    (s.doRead stream).delivered = s.delivered ++ payloads ∧ (s.doRead stream).isOpen = isOpen := by
  induction h generalizing s with
  | @frame p rest ended payloads isOpen hp h ih =>
    obtain ⟨header, _, _, hread, hgood, hcontent⟩ := read_frame hp rest ended
    obtain ⟨_, hcontent⟩ := hcontent _ rfl
    rw [Session.doRead]
    simp only [hread, if_neg hgood, hcontent]
    obtain ⟨hd, ho⟩ := ih { s with delivered := s.delivered ++ [p], readState := .header } hs
    exact ⟨by rw [hd, List.append_assoc, List.singleton_append], ho⟩
  | @bad bytes ended h =>
    obtain ⟨hlong, hbad⟩ := h
    obtain ⟨_, hread⟩ := read_header hlong ended
    rw [Session.doRead]
    simp only [hread, if_pos hbad, Session.close, List.append_nil, and_self]
  | @cut bytes ended h =>
    rw [Session.doRead]
    rcases read_cut h ended with hread | ⟨header, rest, _, _, hread, hgood, hcontent⟩
    · simp only [hread]
      cases ended <;> simp [Session.close, hs]
    · simp only [hread, if_neg hgood, hcontent _ rfl]
      cases ended <;> simp [Session.close, hs]

theorem Client.startRead_of_decodes (h : Decodes stream payloads isOpen) (c : Client) (hr : c.running)
    (ho : c.isOpen) (hc : c.connected) :
    (c.startRead stream).delivered = c.delivered ++ payloads ∧
      ((c.startRead stream).isOpen && (c.startRead stream).connected) = isOpen := by
  induction h generalizing c with
  | @frame p rest ended payloads isOpen hp h ih =>
    obtain ⟨header, _, _, hread, hgood, hcontent⟩ := read_frame hp rest ended
    obtain ⟨_, hcontent⟩ := hcontent _ rfl
    rw [Client.startRead]
    simp only [hr, ho, Bool.not_true, Bool.or_self, Bool.false_eq_true, if_false, hread, if_neg hgood, hcontent]
    obtain ⟨hd, hclosed⟩ := ih { c with delivered := c.delivered ++ [p], readState := .header } hr ho hc
    simp only [hr, ho] at hd hclosed
    exact ⟨by rw [hd, List.append_assoc, List.singleton_append], hclosed⟩
  | @bad bytes ended h =>
    obtain ⟨hlong, hbad⟩ := h
    obtain ⟨_, hread⟩ := read_header hlong ended
    rw [Client.startRead]
    simp only [hr, ho, Bool.not_true, Bool.or_self, Bool.false_eq_true, if_false, hread, if_pos hbad, Client.drop,
      Bool.and_self, List.append_nil, and_self]
  | @cut bytes ended h =>
    rw [Client.startRead]
    rcases read_cut h ended with hread | ⟨header, rest, _, _, hread, hgood, hcontent⟩
    · simp only [hread]
      cases ended <;> simp [Client.drop, hr, ho, hc]
    · simp only [hread, if_neg hgood, hcontent _ rfl]
      cases ended <;> simp [Client.drop, hr, ho, hc]

theorem TcpClient.readLoop_of_decodes (h : Decodes stream payloads isOpen) (c : TcpClient) (hc : c.connected)
    (hr : c.reader) :
    (c.readLoop stream).delivered = c.delivered ++ payloads ∧ (c.readLoop stream).connected = isOpen := by
  induction h generalizing c with
  | @frame p rest ended payloads isOpen hp h ih =>
    obtain ⟨header, _, hh, hread, hgood, hcontent⟩ := read_frame hp rest ended
    obtain ⟨_, hcontent⟩ := hcontent _ (extractLength_eq_parseLength hh)
    rw [TcpClient.readLoop]
    simp only [hc, hr, Bool.and_self, if_true, hread, if_neg (mt (badLength_iff hh).2 hgood), hcontent]
    obtain ⟨hd, hclosed⟩ := ih { c with delivered := c.delivered ++ [p] } hc hr
    simp only [hr, hc] at hd hclosed
    exact ⟨by rw [hd, List.append_assoc, List.singleton_append], hclosed⟩
  | @bad bytes ended h =>
    obtain ⟨hlong, hbad⟩ := h
    obtain ⟨_, hread⟩ := read_header hlong ended
    rw [badLength_iff (List.length_take_of_le hlong)] at hbad
    rw [TcpClient.readLoop]
    simp [hc, hr, hread, if_pos hbad, TcpClient.handleDisconnect]
  | @cut bytes ended h =>
    rw [TcpClient.readLoop]
    rcases read_cut h ended with hread | ⟨header, rest, _, hh, hread, hgood, hcontent⟩
    · simp only [hread]
      cases ended <;> simp [TcpClient.handleDisconnect, hr, hc]
    · simp only [hread, if_neg (mt (badLength_iff hh).2 hgood), hcontent _ (extractLength_eq_parseLength hh)]
      cases ended <;> simp [TcpClient.handleDisconnect, hr, hc]

end Follow

/-- A reader follows the frames: sendable payloads that were framed are delivered in order before whatever their
continuation brings; a bad header and an end inside a frame close the connection with exactly the payloads before
them delivered. -/
structure Follows (reading : Stream → Reading) : Prop where
  frames (payloads : List (List UInt8)) (h : ∀ p ∈ payloads, Sendable p) (continuation : List UInt8) (ended : Bool) :
    reading ⟨payloads.flatMap frameMessage ++ continuation, ended⟩ =
      { delivered := payloads ++ (reading ⟨continuation, ended⟩).delivered
        isOpen := (reading ⟨continuation, ended⟩).isOpen }
  badHeader (payloads : List (List UInt8)) (h : ∀ p ∈ payloads, Sendable p) (bytes : List UInt8) (hb : BadHeader bytes)
    (ended : Bool) : reading ⟨payloads.flatMap frameMessage ++ bytes, ended⟩ = ⟨payloads, false⟩
  cutOff (payloads : List (List UInt8)) (h : ∀ p ∈ payloads, Sendable p) (bytes : List UInt8) (hb : CutOff bytes)
    (ended : Bool) : reading ⟨payloads.flatMap frameMessage ++ bytes, ended⟩ = ⟨payloads, !ended⟩

theorem Decodes.frames {payloads : List (List UInt8)} (h : ∀ p ∈ payloads, Sendable p) {bytes : List UInt8}
    {ended isOpen : Bool} {more : List (List UInt8)} (hm : Decodes ⟨bytes, ended⟩ more isOpen) :
    Decodes ⟨payloads.flatMap frameMessage ++ bytes, ended⟩ (payloads ++ more) isOpen := by
  induction payloads with
  | nil => exact hm
  | cons p payloads ih =>
    rw [List.flatMap_cons, List.append_assoc]
    exact .frame (h p List.mem_cons_self) (ih fun q hq => h q (List.mem_cons_of_mem p hq))

/-- A reader that follows the cut follows the frames. -/
theorem Follows.of_decodes {reading : Stream → Reading}
    (hr : ∀ stream payloads isOpen, Decodes stream payloads isOpen → reading stream = ⟨payloads, isOpen⟩) :
    Follows reading where
  frames payloads h continuation ended := by
    obtain ⟨more, isOpen, hm⟩ := exists_decodes continuation ended
    rw [hr _ _ _ (.frames h hm), hr _ _ _ hm]
  badHeader payloads h bytes hb ended := by
    have := hr _ _ _ (.frames h (@Decodes.bad bytes ended hb))
    rwa [List.append_nil] at this
  cutOff payloads h bytes hb ended := by
    have := hr _ _ _ (.frames h (@Decodes.cut bytes ended hb))
    rwa [List.append_nil] at this

/-- The session, the client and the bridge follow the frames of a stream, and read every stream alike. -/
theorem readers_follow :
    Follows Session.reading ∧ Follows Client.reading ∧ Follows TcpClient.reading ∧
      ∀ stream, Client.reading stream = Session.reading stream ∧ TcpClient.reading stream = Session.reading stream := by
  have session : ∀ stream payloads isOpen, Decodes stream payloads isOpen →
      Session.reading stream = ⟨payloads, isOpen⟩ := by
    intro stream payloads isOpen h
    obtain ⟨hd, ho⟩ := Session.doRead_of_decodes h ⟨true, .header, []⟩ rfl
    simp only [Session.reading, hd, ho, List.nil_append]
  have client : ∀ stream payloads isOpen, Decodes stream payloads isOpen →
      Client.reading stream = ⟨payloads, isOpen⟩ := by
    intro stream payloads isOpen h
    obtain ⟨hd, ho⟩ := Client.startRead_of_decodes h ⟨true, true, true, .header, []⟩ rfl rfl rfl
    simp only [Client.reading, hd, ho, List.nil_append]
  have bridge : ∀ stream payloads isOpen, Decodes stream payloads isOpen →
      TcpClient.reading stream = ⟨payloads, isOpen⟩ := by
    intro stream payloads isOpen h
    obtain ⟨hd, ho⟩ := TcpClient.readLoop_of_decodes h ⟨true, true, []⟩ rfl rfl
    simp only [TcpClient.reading, hd, ho, List.nil_append]
  refine ⟨.of_decodes session, .of_decodes client, .of_decodes bridge, fun stream => ?_⟩
  obtain ⟨payloads, isOpen, h⟩ := exists_decodes stream.bytes stream.ended
  rw [session _ _ _ h, client _ _ _ h, bridge _ _ _ h]
  exact ⟨rfl, rfl⟩

end OrderbookGC.Framing
