/-
What `serialize` writes, `parseMessage` reads back: every message whose strings fit on a line comes
back as the same message, timestamps aside. Each class has its lemma; the snapshot's is an
induction over its two lists of levels.
-/
import OrderbookGC.Wire.Message

namespace OrderbookGC.Wire

open Text

variable {α : Type} [Alphabet α]

/-! ## Values of the format -/

@[simp] theorem newline_not_mem_side (s : OrderSide) : newline ∉ (lit (sideToWireString s) : List α) := by
  cases s <;> exact newline_not_mem_lit (by decide)

@[simp] theorem newline_not_mem_type (t : OrderType) : newline ∉ (lit (orderTypeToWireString t) : List α) := by
  cases t <;> exact newline_not_mem_lit (by decide)

@[simp] theorem newline_not_mem_status (s : OrderStatus) : newline ∉ (lit (statusToWireString s) : List α) := by
  cases s <;> exact newline_not_mem_lit (by decide)

@[simp] theorem newline_not_mem_bool (b : Bool) : newline ∉ (lit (boolToWireString b) : List α) := by
  cases b <;> exact newline_not_mem_lit (by decide)

theorem newline_not_mem_zeroFill (n : Nat) {l : List α} (h : newline ∉ l) : newline ∉ zeroFill n l := by
  unfold zeroFill
  intro hm
  rcases List.mem_append.1 hm with hm | hm
  · exact absurd ((ofChar_inj (by decide) (by decide)).1 (List.eq_of_mem_replicate hm)) (by decide)
  · exact h hm

@[simp] theorem newline_not_mem_time (localtime : Int → Tm) (tp : Int) : newline ∉ (timePointToString localtime tp : List α) := by
  have hint := newline_not_mem_showInt (α := α)
  have hfill := fun n i => newline_not_mem_zeroFill n (hint i)
  have hlit := fun (k : String) (hk : IsPlain k) => newline_not_mem_lit (α := α) hk
  unfold timePointToString
  simp only [List.mem_append, not_or]
  exact ⟨⟨⟨⟨⟨⟨⟨⟨⟨⟨⟨⟨hint _, hlit _ (by decide)⟩, hfill _ _⟩, hlit _ (by decide)⟩, hfill _ _⟩,
    hlit _ (by decide)⟩, hfill _ _⟩, hlit _ (by decide)⟩, hfill _ _⟩, hlit _ (by decide)⟩,
    hfill _ _⟩, hlit _ (by decide)⟩, hfill _ _⟩

variable [DecidableEq α]

/-- A key `name=`: nothing before its `=` is one. -/
def IsKey (k : String) : Prop := IsAscii k ∧ k.toList.dropWhile (· ≠ '=') = ['=']

instance (k : String) : Decidable (IsKey k) := inferInstanceAs (Decidable (_ ∧ _))

theorem extractString_key {k : String} (hk : IsKey k) (v : List α) : extractString (lit k ++ v) = v :=
  afterEquals_lit hk.1 hk.2 v

theorem extractDouble_key {k : String} (hk : IsKey k) {x : ℚ} (hx : Cents x) :
    extractDouble (lit k ++ showFixed2 x : List α) = x := by
  unfold extractDouble
  rw [extractString_key hk, readDecimal_showFixed2 hx]

theorem extractUInt32_key {k : String} (hk : IsKey k) (q : UInt32) :
    extractUInt32 (lit k ++ showNat q.toNat : List α) = q := by
  unfold extractUInt32
  rw [extractString_key hk, readUInt32_showNat]

theorem extractInt_key {k : String} (hk : IsKey k) {i : Int} (hl : -2 ^ 31 ≤ i) (hu : i < 2 ^ 31) :
    extractInt (lit k ++ showInt i : List α) = i := by
  unfold extractInt
  rw [extractString_key hk, readInt32_showInt hl hu]

theorem extractSide_key {k : String} (hk : IsKey k) (s : OrderSide) :
    extractSide (lit k ++ lit (sideToWireString s) : List α) = s := by
  unfold extractSide
  rw [extractString_key hk]
  cases s <;> simp (disch := (simp only [IsAscii, String.reduceToList]; decide)) [sideToWireString, lit_inj]

theorem extractType_key {k : String} (hk : IsKey k) (t : OrderType) :
    extractType (lit k ++ lit (orderTypeToWireString t) : List α) = t := by
  unfold extractType
  rw [extractString_key hk]
  cases t <;> simp (disch := (simp only [IsAscii, String.reduceToList]; decide)) [orderTypeToWireString, lit_inj]

theorem extractStatus_key {k : String} (hk : IsKey k) (s : OrderStatus) :
    extractStatus (lit k ++ lit (statusToWireString s) : List α) = s := by
  unfold extractStatus
  rw [extractString_key hk]
  cases s <;> simp (disch := (simp only [IsAscii, String.reduceToList]; decide)) [statusToWireString, lit_inj]

theorem bool_key (b : Bool) : decide ((lit (boolToWireString b) : List α) = lit "true") = b := by
  cases b <;> simp (disch := (simp only [IsAscii, String.reduceToList]; decide)) [boolToWireString, lit_inj]

/-! ## Classes -/

/-- The first line says the class. -/
theorem parseMessage_type (read : List α → Int) {name : String} (hn : IsPlain name) (rest : List α) :
    parseMessage read (line "type=" (lit name) ++ rest) = parseBody read (lit name) (lines rest) := by
  unfold parseMessage
  rw [lines_line (by decide) (newline_not_mem_lit hn)]
  dsimp only
  rw [extractString_key (by decide)]

/-- A stop price that is written, or 0. -/
def IsStopPrice (x : ℚ) : Prop := x = 0 ∨ 0 < x ∧ Cents x

theorem OrderSubmitMessage.foldl_stopPrice (m : OrderSubmitMessage α) {x : ℚ} (hx : IsStopPrice x) (h0 : m.stopPrice = 0)
    (rest : List α) : (lines (stopPriceLine x ++ rest)).foldl readLine m =
      (lines rest).foldl readLine { m with stopPrice := x } := by
  unfold stopPriceLine
  rcases hx with rfl | ⟨hpos, hx⟩
  · rw [if_neg (lt_irrefl 0), List.nil_append]
    congr 1
    cases m; simp_all
  · rw [if_pos hpos, lines_line (by decide) (newline_not_mem_showFixed2 _), List.foldl_cons]
    simp (disch := (simp only [IsAscii, IsKey, String.reduceToList]; decide)) only
        [readLine, startsWith_self, startsWith_other, if_true, Bool.false_eq_true, if_false]
    rw [extractDouble_key (by decide) hx]

theorem OrderSubmitMessage.parse_serialize (read : List α → Int) (m : OrderSubmitMessage α) (hc : newline ∉ m.clientId)
    (hs : newline ∉ m.symbol) (hp : Cents m.price) (hstop : IsStopPrice m.stopPrice) :
    parseMessage read m.serialize = .orderSubmit m := by
  unfold serialize
  rw [parseMessage_type read (by decide)]
  unfold parseBody
  rw [if_pos rfl]
  congr 1
  rw [lines_line (by decide) hc, lines_line (by decide) hs,
    lines_line (by decide) (newline_not_mem_side _), lines_line (by decide) (newline_not_mem_type _),
    lines_line (by decide) (newline_not_mem_showFixed2 _)]
  simp (disch := (simp only [IsAscii, IsKey, String.reduceToList]; decide)) only
      [List.foldl_cons, readLine, startsWith_self, startsWith_other, if_true, Bool.false_eq_true, if_false,
        extractString_key, extractSide_key, extractType_key]
  rw [extractDouble_key (by decide) hp]
  -- the stop price is the only line that may be missing
  rw [foldl_stopPrice _ hstop rfl, lines_lit (by decide) (by decide) (newline_not_mem_showNat _)]
  simp (disch := (simp only [IsAscii, IsKey, String.reduceToList]; decide)) only
      [List.foldl_cons, List.foldl_nil, readLine, startsWith_self, startsWith_other, if_true, Bool.false_eq_true, if_false,
        extractUInt32_key]

theorem OrderCancelMessage.parse_serialize (read : List α → Int) (m : OrderCancelMessage α) (hid : newline ∉ m.orderId)
    (hc : newline ∉ m.clientId) : parseMessage read m.serialize = .orderCancel m := by
  unfold serialize
  rw [parseMessage_type read (by decide), lines_line (by decide) hid,
    lines_lit (by decide) (by decide) hc]
  simp (disch := (simp only [IsAscii, IsKey, String.reduceToList]; decide)) only
    [parseBody, lit_inj, String.reduceEq, if_true, if_false, List.foldl_cons, List.foldl_nil, readLine, startsWith_self,
      startsWith_other, Bool.false_eq_true, extractString_key]

theorem OrderStatusMessage.foldl_stopPrice (read : List α → Int) (m : OrderStatusMessage α) {x : ℚ} (hx : IsStopPrice x)
    (h0 : m.stopPrice = 0) (rest : List α) : (lines (stopPriceLine x ++ rest)).foldl (readLine read) m =
      (lines rest).foldl (readLine read) { m with stopPrice := x } := by
  unfold stopPriceLine
  rcases hx with rfl | ⟨hpos, hx⟩
  · rw [if_neg (lt_irrefl 0), List.nil_append]
    congr 1
    cases m; simp_all
  · rw [if_pos hpos, lines_line (by decide) (newline_not_mem_showFixed2 _), List.foldl_cons]
    simp (disch := (simp only [IsAscii, IsKey, String.reduceToList]; decide)) only
        [readLine, startsWith_self, startsWith_other, if_true, Bool.false_eq_true, if_false]
    rw [extractDouble_key (by decide) hx]

theorem OrderStatusMessage.parse_serialize (localtime : Int → Tm) (read : List α → Int) (m : OrderStatusMessage α) (hid : newline ∉ m.orderId)
    (hc : newline ∉ m.clientId) (hs : newline ∉ m.symbol) (hp : Cents m.price) (hstop : IsStopPrice m.stopPrice) :
    parseMessage read (m.serialize localtime) = .orderStatus
      { m with orderTimestamp := read (timePointToString localtime m.orderTimestamp) } := by
  unfold serialize
  rw [parseMessage_type read (by decide), lines_line (by decide) hid,
    lines_line (by decide) hc, lines_line (by decide) hs,
    lines_line (by decide) (newline_not_mem_side _), lines_line (by decide) (newline_not_mem_type _),
    lines_line (by decide) (newline_not_mem_showFixed2 _)]
  simp (disch := (simp only [IsAscii, IsKey, String.reduceToList]; decide)) only
    [parseBody, lit_inj, String.reduceEq, if_true, if_false, List.foldl_cons, readLine, startsWith_self, startsWith_other,
        Bool.false_eq_true, extractString_key, extractSide_key, extractType_key]
  rw [extractDouble_key (by decide) hp, foldl_stopPrice read _ hstop rfl,
    lines_line (by decide) (newline_not_mem_showNat _), lines_line (by decide) (newline_not_mem_showNat _),
    lines_line (by decide) (newline_not_mem_status _),
    lines_lit (by decide) (by decide) (newline_not_mem_time _ _)]
  simp (disch := (simp only [IsAscii, IsKey, String.reduceToList]; decide)) only
      [List.foldl_cons, List.foldl_nil, readLine, startsWith_self, startsWith_other, if_true, Bool.false_eq_true, if_false,
        extractString_key, extractUInt32_key, extractStatus_key]

theorem TradeNotificationMessage.parse_serialize (localtime : Int → Tm) (read : List α → Int) (m : TradeNotificationMessage α)
    (hb : newline ∉ m.buyOrderId) (ha : newline ∉ m.sellOrderId) (hs : newline ∉ m.symbol) (hp : Cents m.price) :
    parseMessage read (m.serialize localtime) = .tradeNotification
      { m with tradeTimestamp := read (timePointToString localtime m.tradeTimestamp) } := by
  unfold serialize
  rw [parseMessage_type read (by decide), lines_line (by decide) hb,
    lines_line (by decide) ha, lines_line (by decide) hs,
    lines_line (by decide) (newline_not_mem_showFixed2 _),
    lines_line (by decide) (newline_not_mem_showNat _), lines_lit (by decide) (by decide) (newline_not_mem_time _ _)]
  simp (disch := (simp only [IsAscii, IsKey, String.reduceToList]; decide)) only
    [parseBody, lit_inj, String.reduceEq, if_true, if_false, List.foldl_cons, List.foldl_nil, readLine, startsWith_self,
      startsWith_other, Bool.false_eq_true, extractString_key, extractUInt32_key]
  rw [extractDouble_key (by decide) hp]

theorem ErrorMessage.parse_serialize (read : List α → Int) (m : ErrorMessage α) (hc : newline ∉ m.errorCode)
    (hd : newline ∉ m.description) : parseMessage read m.serialize = .error m := by
  unfold serialize
  rw [parseMessage_type read (by decide), lines_line (by decide) hc,
    lines_lit (by decide) (by decide) hd]
  simp (disch := (simp only [IsAscii, IsKey, String.reduceToList]; decide)) only
    [parseBody, lit_inj, String.reduceEq, if_true, if_false, List.foldl_cons, List.foldl_nil, readLine, startsWith_self,
      startsWith_other, Bool.false_eq_true, extractString_key]

theorem SnapshotRequestMessage.parse_serialize (read : List α → Int) (m : SnapshotRequestMessage α) (hs : newline ∉ m.symbol) :
    parseMessage read m.serialize = .snapshotRequest m := by
  unfold serialize
  have hl := lines_line (α := α) (k := "symbol=") (by decide) hs []
  rw [List.append_nil, lines_nil] at hl
  rw [parseMessage_type read (by decide), hl]
  simp (disch := (simp only [IsAscii, IsKey, String.reduceToList]; decide)) only
    [parseBody, lit_inj, String.reduceEq, if_true, if_false, List.foldl_cons, List.foldl_nil, readLine, startsWith_self,
        extractString_key]

theorem LoginMessage.parse_serialize (read : List α → Int) (m : LoginMessage α) (hu : newline ∉ m.username)
    (hp : newline ∉ m.password) : parseMessage read m.serialize = .login m := by
  unfold serialize
  rw [parseMessage_type read (by decide), lines_line (by decide) hu,
    lines_lit (by decide) (by decide) hp]
  simp (disch := (simp only [IsAscii, IsKey, String.reduceToList]; decide)) only
    [parseBody, lit_inj, String.reduceEq, if_true, if_false, List.foldl_cons, List.foldl_nil, readLine, startsWith_self,
      startsWith_other, Bool.false_eq_true, extractString_key]

theorem LoginResponseMessage.parse_serialize (read : List α → Int) (m : LoginResponseMessage α) (ht : newline ∉ m.sessionToken)
    (hu : newline ∉ m.username) (he : newline ∉ m.errorMessage) : parseMessage read m.serialize = .loginResponse m := by
  unfold serialize
  rw [parseMessage_type read (by decide), lines_line (by decide) (newline_not_mem_bool _),
    lines_line (by decide) ht, lines_line (by decide) hu,
    lines_lit (by decide) (by decide) he]
  simp (disch := (simp only [IsAscii, IsKey, String.reduceToList]; decide)) only
    [parseBody, lit_inj, String.reduceEq, if_true, if_false, List.foldl_cons, List.foldl_nil, readLine, startsWith_self,
      startsWith_other, Bool.false_eq_true, extractString_key, bool_key]

theorem RegisterMessage.parse_serialize (read : List α → Int) (m : RegisterMessage α) (hu : newline ∉ m.username)
    (hp : newline ∉ m.password) : parseMessage read m.serialize = .register m := by
  unfold serialize
  rw [parseMessage_type read (by decide), lines_line (by decide) hu,
    lines_lit (by decide) (by decide) hp]
  simp (disch := (simp only [IsAscii, IsKey, String.reduceToList]; decide)) only
    [parseBody, lit_inj, String.reduceEq, if_true, if_false, List.foldl_cons, List.foldl_nil, readLine, startsWith_self,
      startsWith_other, Bool.false_eq_true, extractString_key]

theorem RegisterResponseMessage.parse_serialize (read : List α → Int) (m : RegisterResponseMessage α) (hu : newline ∉ m.username)
    (he : newline ∉ m.errorMessage) : parseMessage read m.serialize = .registerResponse m := by
  unfold serialize
  rw [parseMessage_type read (by decide), lines_line (by decide) (newline_not_mem_bool _),
    lines_line (by decide) hu, lines_lit (by decide) (by decide) he]
  simp (disch := (simp only [IsAscii, IsKey, String.reduceToList]; decide)) only
    [parseBody, lit_inj, String.reduceEq, if_true, if_false, List.foldl_cons, List.foldl_nil, readLine, startsWith_self,
      startsWith_other, Bool.false_eq_true, extractString_key, bool_key]

/-! ## Snapshots -/

/-- A level whose price is in cents and whose count is an `int`. -/
structure PriceLevel.Fits (l : PriceLevel) : Prop where
  price : Cents l.price
  countLower : -2 ^ 31 ≤ l.orderCount
  countUpper : l.orderCount < 2 ^ 31

/-- The list that the loop is filling gets the levels. -/
def SnapshotState.push (s : SnapshotState α) (levels : List PriceLevel) : SnapshotState α :=
  if s.inBids then { s with message.bids := s.message.bids ++ levels } else { s with message.asks := s.message.asks ++ levels }

omit [Alphabet α] [DecidableEq α] in
theorem SnapshotState.push_push (s : SnapshotState α) (l l' : List PriceLevel) : (s.push l).push l' = s.push (l ++ l') := by
  unfold push
  split_ifs <;> simp_all

/-- The three lines of one level. -/
theorem SnapshotState.foldl_level (s : SnapshotState α) (hin : (s.inBids || s.inAsks) = true)
    (hcur : s.currentLevel = ⟨0, 0, 0⟩) {l : PriceLevel} (hl : l.Fits) (rest : List α) :
    (lines (l.serialize ++ rest)).foldl readLine s = (lines rest).foldl readLine (s.push [l]) := by
  unfold PriceLevel.serialize
  rw [List.append_assoc, List.append_assoc, lines_line (by decide) (newline_not_mem_showFixed2 _),
    lines_line (by decide) (newline_not_mem_showNat _), lines_line (by decide) (newline_not_mem_showInt _)]
  simp (disch := (simp only [IsAscii, IsKey, String.reduceToList]; decide)) only
      [List.foldl_cons, readLine, readLevel, startsWith_self, startsWith_other, lit_ne, hin, if_true, Bool.false_eq_true,
        if_false, extractUInt32_key]
  rw [extractDouble_key (by decide) hl.price, extractInt_key (by decide) hl.countLower hl.countUpper]
  unfold push
  rw [← hcur]

/-- The lines of a list of levels. -/
theorem SnapshotState.foldl_levels (levels : List PriceLevel) (hl : ∀ l ∈ levels, l.Fits) (s : SnapshotState α)
    (hin : (s.inBids || s.inAsks) = true) (hcur : s.currentLevel = ⟨0, 0, 0⟩) (rest : List α) :
    (lines (levels.flatMap PriceLevel.serialize ++ rest)).foldl readLine s = (lines rest).foldl readLine (s.push levels) := by
  induction levels generalizing s with
  | nil =>
    rw [List.flatMap_nil, List.nil_append]
    unfold push
    simp
  | cons l levels ih =>
    rw [List.flatMap_cons, List.append_assoc, foldl_level s hin hcur (hl l (List.mem_cons_self ..)),
      ih (fun l' hl' => hl l' (List.mem_cons_of_mem _ hl')), push_push]
    · rfl
    · unfold push; split_ifs <;> exact hin
    · unfold push; split_ifs <;> exact hcur

theorem OrderbookSnapshotMessage.parse_serialize (read : List α → Int) (m : OrderbookSnapshotMessage α)
    (hs : newline ∉ m.symbol) (hb : ∀ l ∈ m.bids, l.Fits) (ha : ∀ l ∈ m.asks, l.Fits) :
    parseMessage read m.serialize = .orderbookSnapshot m := by
  have hasks := SnapshotState.foldl_levels (α := α) m.asks ha
    ⟨⟨m.symbol, m.bids, []⟩, false, true, ⟨0, 0, 0⟩⟩ rfl rfl []
  rw [List.append_nil] at hasks
  unfold serialize
  rw [parseMessage_type read (by decide), lines_line (by decide) hs,
    lines_line (by decide) List.not_mem_nil]
  simp (disch := (simp only [IsAscii, IsKey, String.reduceToList]; decide)) only
    [parseBody, lit_inj, String.reduceEq, if_true, if_false, List.foldl_cons, SnapshotState.readLine, startsWith_self,
        startsWith_lit, extractString_key, Bool.false_eq_true, List.append_nil]
  rw [SnapshotState.foldl_levels m.bids hb _ rfl rfl, lines_line (by decide) List.not_mem_nil]
  simp (disch := (simp only [IsAscii, IsKey, String.reduceToList]; decide)) only
      [List.foldl_cons, SnapshotState.readLine, startsWith_lit, lit_inj, String.reduceEq, if_true, if_false,
        Bool.false_eq_true, List.append_nil, SnapshotState.push, List.nil_append]
  rw [hasks]
  simp [SnapshotState.push]

/-! ## All classes -/

/-- The values the format carries: strings on one line, prices in cents, counts that are an `int`. -/
def Message.Fits : Message α → Prop
  | .orderSubmit m => newline ∉ m.clientId ∧ newline ∉ m.symbol ∧ Cents m.price ∧ IsStopPrice m.stopPrice
  | .orderCancel m => newline ∉ m.orderId ∧ newline ∉ m.clientId
  | .orderStatus m =>
    newline ∉ m.orderId ∧ newline ∉ m.clientId ∧ newline ∉ m.symbol ∧ Cents m.price ∧ IsStopPrice m.stopPrice
  | .orderbookSnapshot m => newline ∉ m.symbol ∧ (∀ l ∈ m.bids, l.Fits) ∧ ∀ l ∈ m.asks, l.Fits
  | .tradeNotification m => newline ∉ m.buyOrderId ∧ newline ∉ m.sellOrderId ∧ newline ∉ m.symbol ∧ Cents m.price
  | .error m => newline ∉ m.errorCode ∧ newline ∉ m.description
  | .snapshotRequest m => newline ∉ m.symbol
  | .login m => newline ∉ m.username ∧ newline ∉ m.password
  | .loginResponse m => newline ∉ m.sessionToken ∧ newline ∉ m.username ∧ newline ∉ m.errorMessage
  | .register m => newline ∉ m.username ∧ newline ∉ m.password
  | .registerResponse m => newline ∉ m.username ∧ newline ∉ m.errorMessage

/-- The message without its timestamp. -/
def Message.untimed : Message α → Message α
  | .orderStatus m => .orderStatus { m with orderTimestamp := 0 }
  | .tradeNotification m => .tradeNotification { m with tradeTimestamp := 0 }
  | m => m

/-- `parseMessage(m.serialize())` is `m`: the same class with the same fields, timestamps aside. -/
theorem parseMessage_serialize (localtime : Int → Tm) (read : List UInt8 → Int) (m : Message UInt8) (h : m.Fits) :
    (parseMessage read (m.serialize localtime)).untimed = m.untimed := by
  cases m with
  | orderSubmit m =>
    obtain ⟨hc, hs, hp, hstop⟩ := h
    exact congrArg Message.untimed (m.parse_serialize read hc hs hp hstop)
  | orderCancel m => exact congrArg Message.untimed (m.parse_serialize read h.1 h.2)
  | orderStatus m =>
    obtain ⟨hid, hc, hs, hp, hstop⟩ := h
    show (parseMessage read (m.serialize localtime)).untimed = _
    rw [m.parse_serialize localtime read hid hc hs hp hstop]
    rfl
  | orderbookSnapshot m =>
    obtain ⟨hs, hb, ha⟩ := h
    exact congrArg Message.untimed (m.parse_serialize read hs hb ha)
  | tradeNotification m =>
    obtain ⟨hb, ha, hs, hp⟩ := h
    show (parseMessage read (m.serialize localtime)).untimed = _
    rw [m.parse_serialize localtime read hb ha hs hp]
    rfl
  | error m => exact congrArg Message.untimed (m.parse_serialize read h.1 h.2)
  | snapshotRequest m => exact congrArg Message.untimed (m.parse_serialize read h)
  | login m => exact congrArg Message.untimed (m.parse_serialize read h.1 h.2)
  | loginResponse m =>
    obtain ⟨ht, hu, he⟩ := h
    exact congrArg Message.untimed (m.parse_serialize read ht hu he)
  | register m => exact congrArg Message.untimed (m.parse_serialize read h.1 h.2)
  | registerResponse m => exact congrArg Message.untimed (m.parse_serialize read h.1 h.2)

/-- A clock that stands still. -/
def sampleClock : Int → Tm := fun _ => ⟨1970, 1, 1, 0, 0, 0⟩

/-- A snapshot with a symbol that holds `=` and a NUL, a negative price and an empty side. -/
def sampleSnapshot : Message UInt8 :=
  .orderbookSnapshot ⟨lit "A=\x00", [⟨-1 / 100, 4294967295, 2⟩, ⟨-250 / 100, 1, 0⟩], []⟩

theorem parseMessage_serialize_sampleSnapshot : sampleSnapshot.Fits ∧
    parseMessage (fun _ => 0) (sampleSnapshot.serialize sampleClock) = sampleSnapshot := by
  have hfits : sampleSnapshot.Fits := by
    refine ⟨by decide, ?_, nofun⟩
    rintro l hl
    rcases List.mem_cons.1 hl with rfl | hl
    · exact ⟨⟨-1, by norm_num⟩, by decide, by decide⟩
    · rw [List.mem_singleton.1 hl]
      exact ⟨⟨-250, by norm_num⟩, by decide, by decide⟩
  have h := parseMessage_serialize sampleClock (fun _ => 0) sampleSnapshot hfits
  refine ⟨hfits, ?_⟩
  cases hp : parseMessage (fun _ => 0) (sampleSnapshot.serialize sampleClock) with
  | orderbookSnapshot m => rw [hp] at h; exact h
  | _ => rw [hp] at h; cases h

end OrderbookGC.Wire
