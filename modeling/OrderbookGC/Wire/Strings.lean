/-
The strings of a message. What `parseMessage` returns holds no newline in any string, whatever it is given
(`newline_not_mem_strings`); and a message whose strings hold none comes back as one of its class with the same strings,
whatever its numbers (`parse_serialize_strings`).
-/
import OrderbookGC.Wire.ServerReads

namespace OrderbookGC.Wire

open Text Bridge

variable {α : Type} [Alphabet α]

/-- The name of the message's class on the wire. -/
def Message.typeName : Message α → String
  | .orderSubmit _ => "ORDER_SUBMIT"
  | .orderCancel _ => "ORDER_CANCEL"
  | .orderStatus _ => "ORDER_STATUS"
  | .orderbookSnapshot _ => "ORDERBOOK_SNAPSHOT"
  | .tradeNotification _ => "TRADE_NOTIFICATION"
  | .error _ => "ERROR"
  | .snapshotRequest _ => "SNAPSHOT_REQUEST"
  | .login _ => "LOGIN"
  | .loginResponse _ => "LOGIN_RESPONSE"
  | .register _ => "REGISTER"
  | .registerResponse _ => "REGISTER_RESPONSE"

/-- The string fields, in the order of the class. -/
def Message.strings : Message α → List (List α)
  | .orderSubmit m => [m.clientId, m.symbol]
  | .orderCancel m => [m.orderId, m.clientId]
  | .orderStatus m => [m.orderId, m.clientId, m.symbol]
  | .orderbookSnapshot m => [m.symbol]
  | .tradeNotification m => [m.buyOrderId, m.sellOrderId, m.symbol]
  | .error m => [m.errorCode, m.description]
  | .snapshotRequest m => [m.symbol]
  | .login m => [m.username, m.password]
  | .loginResponse m => [m.sessionToken, m.username, m.errorMessage]
  | .register m => [m.username, m.password]
  | .registerResponse m => [m.username, m.errorMessage]

/-- Every string is on one line. -/
def Message.OneLine (m : Message α) : Prop := ∀ s ∈ m.strings, newline ∉ s

variable [DecidableEq α]

/-! ## What is read -/

/-- The strings of a message, one of them replaced at most. -/
def Message.Sets (m m' : Message α) (value : List α) : Prop := ∀ s ∈ m'.strings, s ∈ m.strings ∨ s = value

omit [Alphabet α] [DecidableEq α] in
theorem Message.Sets.ite {σ : Type} {c : Prop} [Decidable c] (message : σ → Message α) {m : Message α} {t e : σ} {value : List α}
    (ht : m.Sets (message t) value) (he : m.Sets (message e) value) : m.Sets (message (if c then t else e)) value := by
  split_ifs
  · exact ht
  · exact he

/-- A line sets one string at most, to what stands after its key. -/
def SetsString {σ : Type} (message : σ → Message α) (readLine : σ → List α → σ) : Prop :=
  ∀ m l, (message m).Sets (message (readLine m l)) (extractString l)

theorem SetsString.oneLine {σ : Type} {message : σ → Message α} {readLine : σ → List α → σ} (h : SetsString message readLine)
    {rest : List (List α)} (hrest : ∀ l ∈ rest, newline ∉ l) {m : σ} (hm : (message m).OneLine) :
    (message (rest.foldl readLine m)).OneLine := by
  refine List.foldlRecOn (motive := fun m => (message m).OneLine) rest readLine hm fun m hm l hl s hs => ?_
  rcases h m l s hs with hs | rfl
  · exact hm s hs
  · exact newline_not_mem_extractString (hrest l hl)

theorem OrderSubmitMessage.readLine_strings : SetsString (α := α) .orderSubmit readLine := fun m l => by
  unfold readLine
  repeat' refine .ite _ ?_ ?_
  all_goals simp [Message.Sets, Message.strings]

theorem OrderCancelMessage.readLine_strings : SetsString (α := α) .orderCancel readLine := fun m l => by
  unfold readLine
  repeat' refine .ite _ ?_ ?_
  all_goals simp [Message.Sets, Message.strings]

theorem OrderStatusMessage.readLine_strings (read : List α → Int) : SetsString .orderStatus (readLine read) := fun m l => by
  unfold readLine
  repeat' refine .ite _ ?_ ?_
  all_goals simp [Message.Sets, Message.strings]

theorem SnapshotState.readLine_strings :
    SetsString (α := α) (fun s : SnapshotState α => .orderbookSnapshot s.message) readLine := fun m l => by
  unfold readLine readLevel
  dsimp only
  split_ifs <;> simp [Message.Sets, Message.strings]

theorem TradeNotificationMessage.readLine_strings (read : List α → Int) : SetsString .tradeNotification (readLine read) := fun m l => by
  unfold readLine
  repeat' refine .ite _ ?_ ?_
  all_goals simp [Message.Sets, Message.strings]

theorem ErrorMessage.readLine_strings : SetsString (α := α) .error readLine := fun m l => by
  unfold readLine
  repeat' refine .ite _ ?_ ?_
  all_goals simp [Message.Sets, Message.strings]

theorem SnapshotRequestMessage.readLine_strings : SetsString (α := α) .snapshotRequest readLine := fun m l => by
  unfold readLine
  repeat' refine .ite _ ?_ ?_
  all_goals simp [Message.Sets, Message.strings]

theorem LoginMessage.readLine_strings : SetsString (α := α) .login readLine := fun m l => by
  unfold readLine
  repeat' refine .ite _ ?_ ?_
  all_goals simp [Message.Sets, Message.strings]

theorem LoginResponseMessage.readLine_strings : SetsString (α := α) .loginResponse readLine := fun m l => by
  unfold readLine
  repeat' refine .ite _ ?_ ?_
  all_goals simp [Message.Sets, Message.strings]

theorem RegisterMessage.readLine_strings : SetsString (α := α) .register readLine := fun m l => by
  unfold readLine
  repeat' refine .ite _ ?_ ?_
  all_goals simp [Message.Sets, Message.strings]

theorem RegisterResponseMessage.readLine_strings : SetsString (α := α) .registerResponse readLine := fun m l => by
  unfold readLine
  repeat' refine .ite _ ?_ ?_
  all_goals simp [Message.Sets, Message.strings]

omit [DecidableEq α] in
/-- A message without text. -/
theorem Message.OneLine.of_nil {m : Message α} (h : ∀ s ∈ m.strings, s = []) : m.OneLine := fun s hs => by
  rw [h s hs]
  exact List.not_mem_nil

omit [DecidableEq α] in
theorem Message.OneLine.ite {c : Prop} [Decidable c] {m m' : Message α} (h : m.OneLine) (h' : m'.OneLine) :
    (if c then m else m').OneLine := by
  split_ifs
  · exact h
  · exact h'

/-- Whatever is read, no string of the message holds a newline. -/
theorem parseMessage_oneLine (read : List α → Int) (data : List α) : (parseMessage read data).OneLine := by
  have hdata : ∀ l ∈ lines data, newline ∉ l := fun l hl => newline_not_mem_of_mem_lines hl
  unfold parseMessage
  cases hl : lines data with
  | nil =>
    intro s hs
    simp only [Message.strings, List.mem_cons, List.not_mem_nil, or_false] at hs
    rcases hs with rfl | rfl <;> exact newline_not_mem_lit (by decide)
  | cons first rest =>
    rw [hl] at hdata
    have hrest : ∀ l ∈ rest, newline ∉ l := fun l hl => hdata l (List.mem_cons_of_mem _ hl)
    dsimp only
    unfold parseBody
    repeat' refine .ite ?_ ?_
    · exact OrderSubmitMessage.readLine_strings.oneLine hrest (.of_nil (by simp [Message.strings]))
    · exact OrderCancelMessage.readLine_strings.oneLine hrest (.of_nil (by simp [Message.strings]))
    · exact (OrderStatusMessage.readLine_strings read).oneLine hrest (.of_nil (by simp [Message.strings]))
    · exact SnapshotState.readLine_strings.oneLine hrest (.of_nil (by simp [Message.strings]))
    · exact (TradeNotificationMessage.readLine_strings read).oneLine hrest (.of_nil (by simp [Message.strings]))
    · exact ErrorMessage.readLine_strings.oneLine hrest (.of_nil (by simp [Message.strings]))
    · exact SnapshotRequestMessage.readLine_strings.oneLine hrest (.of_nil (by simp [Message.strings]))
    · exact LoginMessage.readLine_strings.oneLine hrest (.of_nil (by simp [Message.strings]))
    · exact LoginResponseMessage.readLine_strings.oneLine hrest (.of_nil (by simp [Message.strings]))
    · exact RegisterMessage.readLine_strings.oneLine hrest (.of_nil (by simp [Message.strings]))
    · exact RegisterResponseMessage.readLine_strings.oneLine hrest (.of_nil (by simp [Message.strings]))
    · -- an unknown type is quoted in the error
      intro s hs
      simp only [Message.strings, List.mem_cons, List.not_mem_nil, or_false] at hs
      rcases hs with rfl | rfl
      · exact newline_not_mem_lit (by decide)
      · intro hm
        rcases List.mem_append.1 hm with hm | hm
        · exact newline_not_mem_lit (by decide) hm
        · exact newline_not_mem_extractString (hdata first List.mem_cons_self) hm

/-! ## What is written and read -/

/-- The same class with the same strings. -/
def Message.SameStrings (m m' : Message α) : Prop := m.typeName = m'.typeName ∧ m.strings = m'.strings

omit [Alphabet α] [DecidableEq α] in
theorem Message.SameStrings.of_eq {m m' : Message α} (h : m = m') : m.SameStrings m' := by
  rw [h]
  exact ⟨rfl, rfl⟩

theorem OrderSubmitMessage.foldl_stopPriceLine (m : OrderSubmitMessage α) (x : ℚ) (rest : List α) :
    ∃ stopPrice, (lines (stopPriceLine x ++ rest)).foldl readLine m = (lines rest).foldl readLine { m with stopPrice } := by
  unfold stopPriceLine
  by_cases hpos : 0 < x
  · refine ⟨extractDouble (lit "stop_price=" ++ showFixed2 x : List α), ?_⟩
    rw [if_pos hpos, lines_line (by decide) (newline_not_mem_showFixed2 _), List.foldl_cons]
    simp (disch := (simp only [IsAscii, IsKey, String.reduceToList]; decide)) only
        [readLine, startsWith_self, startsWith_other, if_true, Bool.false_eq_true, if_false]
  · exact ⟨m.stopPrice, by rw [if_neg hpos, List.nil_append]⟩

theorem OrderSubmitMessage.parse_strings (read : List α → Int) (m : OrderSubmitMessage α) (h : (Message.orderSubmit m).OneLine) :
    (parseMessage read m.serialize).SameStrings (.orderSubmit m) := by
  have hc : newline ∉ m.clientId := h _ (by simp [Message.strings])
  have hs : newline ∉ m.symbol := h _ (by simp [Message.strings])
  unfold serialize
  rw [parseMessage_type read (by decide)]
  unfold parseBody
  rw [if_pos rfl, lines_line (by decide) hc, lines_line (by decide) hs, lines_line (by decide) (newline_not_mem_side _),
    lines_line (by decide) (newline_not_mem_type _), lines_line (by decide) (newline_not_mem_showFixed2 _)]
  simp (disch := (simp only [IsAscii, IsKey, String.reduceToList]; decide)) only
      [List.foldl_cons, readLine, startsWith_self, startsWith_other, if_true, Bool.false_eq_true, if_false, extractString_key]
  obtain ⟨stopPrice, hstop⟩ := foldl_stopPriceLine (α := α) _ m.stopPrice _
  rw [hstop, lines_lit (by decide) (by decide) (newline_not_mem_showNat _)]
  simp (disch := (simp only [IsAscii, IsKey, String.reduceToList]; decide)) only
      [List.foldl_cons, List.foldl_nil, readLine, startsWith_self, startsWith_other, if_true, Bool.false_eq_true, if_false]
  exact ⟨rfl, rfl⟩

theorem OrderStatusMessage.foldl_stopPriceLine (read : List α → Int) (m : OrderStatusMessage α) (x : ℚ) (rest : List α) :
    ∃ stopPrice, (lines (stopPriceLine x ++ rest)).foldl (readLine read) m =
      (lines rest).foldl (readLine read) { m with stopPrice } := by
  unfold stopPriceLine
  by_cases hpos : 0 < x
  · refine ⟨extractDouble (lit "stop_price=" ++ showFixed2 x : List α), ?_⟩
    rw [if_pos hpos, lines_line (by decide) (newline_not_mem_showFixed2 _), List.foldl_cons]
    simp (disch := (simp only [IsAscii, IsKey, String.reduceToList]; decide)) only
        [readLine, startsWith_self, startsWith_other, if_true, Bool.false_eq_true, if_false]
  · exact ⟨m.stopPrice, by rw [if_neg hpos, List.nil_append]⟩

theorem OrderStatusMessage.parse_strings (localtime : Int → Tm) (read : List α → Int) (m : OrderStatusMessage α)
    (h : (Message.orderStatus m).OneLine) : (parseMessage read (m.serialize localtime)).SameStrings (.orderStatus m) := by
  have hid : newline ∉ m.orderId := h _ (by simp [Message.strings])
  have hc : newline ∉ m.clientId := h _ (by simp [Message.strings])
  have hs : newline ∉ m.symbol := h _ (by simp [Message.strings])
  unfold serialize
  rw [parseMessage_type read (by decide), lines_line (by decide) hid, lines_line (by decide) hc, lines_line (by decide) hs,
    lines_line (by decide) (newline_not_mem_side _), lines_line (by decide) (newline_not_mem_type _),
    lines_line (by decide) (newline_not_mem_showFixed2 _)]
  simp (disch := (simp only [IsAscii, IsKey, String.reduceToList]; decide)) only
    [parseBody, lit_inj, String.reduceEq, if_true, if_false, List.foldl_cons, readLine, startsWith_self, startsWith_other,
        Bool.false_eq_true, extractString_key]
  obtain ⟨stopPrice, hstop⟩ := foldl_stopPriceLine (α := α) read _ m.stopPrice _
  rw [hstop, lines_line (by decide) (newline_not_mem_showNat _), lines_line (by decide) (newline_not_mem_showNat _),
    lines_line (by decide) (newline_not_mem_status _), lines_lit (by decide) (by decide) (newline_not_mem_time _ _)]
  simp (disch := (simp only [IsAscii, IsKey, String.reduceToList]; decide)) only
      [List.foldl_cons, List.foldl_nil, readLine, startsWith_self, startsWith_other, if_true, Bool.false_eq_true, if_false]
  exact ⟨rfl, rfl⟩

theorem TradeNotificationMessage.parse_strings (localtime : Int → Tm) (read : List α → Int) (m : TradeNotificationMessage α)
    (h : (Message.tradeNotification m).OneLine) :
    (parseMessage read (m.serialize localtime)).SameStrings (.tradeNotification m) := by
  have hb : newline ∉ m.buyOrderId := h _ (by simp [Message.strings])
  have ha : newline ∉ m.sellOrderId := h _ (by simp [Message.strings])
  have hs : newline ∉ m.symbol := h _ (by simp [Message.strings])
  unfold serialize
  rw [parseMessage_type read (by decide), lines_line (by decide) hb, lines_line (by decide) ha, lines_line (by decide) hs,
    lines_line (by decide) (newline_not_mem_showFixed2 _), lines_line (by decide) (newline_not_mem_showNat _),
    lines_lit (by decide) (by decide) (newline_not_mem_time _ _)]
  simp (disch := (simp only [IsAscii, IsKey, String.reduceToList]; decide)) only
    [parseBody, lit_inj, String.reduceEq, if_true, if_false, List.foldl_cons, List.foldl_nil, readLine, startsWith_self,
      startsWith_other, Bool.false_eq_true, extractString_key]
  exact ⟨rfl, rfl⟩

/-- Only its own line sets the symbol. -/
theorem SnapshotState.readLine_symbol {l : List α} (h : startsWith "symbol=" l = false) (s : SnapshotState α) :
    (s.readLine l).message.symbol = s.message.symbol := by
  unfold readLine readLevel
  dsimp only
  rw [h]
  split_ifs <;> first | rfl | contradiction

theorem SnapshotState.foldl_levels_symbol (levels : List PriceLevel) (s : SnapshotState α) (rest : List α) :
    ∃ s', (lines (levels.flatMap PriceLevel.serialize ++ rest)).foldl readLine s = (lines rest).foldl readLine s' ∧
      s'.message.symbol = s.message.symbol := by
  induction levels generalizing s with
  | nil => exact ⟨s, rfl, rfl⟩
  | cons l levels ih =>
    have hother : ∀ {k : String}, IsAscii k → ¬ "symbol=".toList <+: k.toList → ¬ k.toList <+: "symbol=".toList →
        ∀ (s : SnapshotState α) v, (s.readLine (lit k ++ v)).message.symbol = s.message.symbol :=
      fun hk h h' s v => s.readLine_symbol (startsWith_other (by decide) hk h h' v)
    rw [List.flatMap_cons, List.append_assoc]
    unfold PriceLevel.serialize
    rw [List.append_assoc, List.append_assoc, lines_line (by decide) (newline_not_mem_showFixed2 _),
      lines_line (by decide) (newline_not_mem_showNat _), lines_line (by decide) (newline_not_mem_showInt _)]
    simp only [List.foldl_cons]
    obtain ⟨s', hs', hsymbol⟩ := ih (readLine (readLine (readLine s (lit "price=" ++ showFixed2 l.price))
      (lit "quantity=" ++ showNat l.quantity.toNat)) (lit "order_count=" ++ showInt l.orderCount))
    refine ⟨s', hs', hsymbol.trans ?_⟩
    rw [hother (by decide) (by decide) (by decide), hother (by decide) (by decide) (by decide),
      hother (by decide) (by decide) (by decide)]

theorem OrderbookSnapshotMessage.parse_strings (read : List α → Int) (m : OrderbookSnapshotMessage α)
    (h : (Message.orderbookSnapshot m).OneLine) : (parseMessage read m.serialize).SameStrings (.orderbookSnapshot m) := by
  have hs : newline ∉ m.symbol := h _ (by simp [Message.strings])
  have hlit : ∀ {k : String}, IsAscii k → ¬ "symbol=".toList <+: k.toList → ∀ s : SnapshotState α,
      (s.readLine (lit k)).message.symbol = s.message.symbol :=
    fun hk h s => s.readLine_symbol (startsWith_lit (by decide) hk h)
  unfold serialize
  rw [parseMessage_type read (by decide), lines_line (by decide) hs, lines_line (by decide) List.not_mem_nil]
  simp (disch := (simp only [IsAscii, IsKey, String.reduceToList]; decide)) only
    [parseBody, lit_inj, String.reduceEq, if_true, if_false, List.foldl_cons, List.append_nil]
  obtain ⟨s₁, h₁, hs₁⟩ := SnapshotState.foldl_levels_symbol m.bids (((⟨⟨[], [], []⟩, false, false, ⟨0, 0, 0⟩⟩ :
    SnapshotState α).readLine (lit "symbol=" ++ m.symbol)).readLine (lit "BIDS:")) _
  rw [h₁, lines_line (by decide) List.not_mem_nil, List.append_nil, List.foldl_cons]
  obtain ⟨s₂, h₂, hs₂⟩ := SnapshotState.foldl_levels_symbol m.asks (s₁.readLine (lit "ASKS:")) []
  rw [List.append_nil] at h₂
  rw [h₂]
  refine ⟨rfl, ?_⟩
  show [s₂.message.symbol] = [m.symbol]
  rw [hs₂, hlit (by decide) (by decide), hs₁, hlit (by decide) (by decide)]
  unfold SnapshotState.readLine
  rw [if_pos (startsWith_self ..), extractString_key (by decide)]

/-- What is written of a message without a newline in its strings is read as one of its class with these strings, whatever
its numbers are. -/
theorem parseMessage_strings (localtime : Int → Tm) (read : List α → Int) (m : Message α) (h : m.OneLine) :
    (parseMessage read (m.serialize localtime)).SameStrings m := by
  cases m with
  | orderSubmit m => exact m.parse_strings read h
  | orderCancel m =>
    exact .of_eq (m.parse_serialize read (h _ (by simp [Message.strings])) (h _ (by simp [Message.strings])))
  | orderStatus m => exact m.parse_strings localtime read h
  | orderbookSnapshot m => exact m.parse_strings read h
  | tradeNotification m => exact m.parse_strings localtime read h
  | error m =>
    exact .of_eq (m.parse_serialize read (h _ (by simp [Message.strings])) (h _ (by simp [Message.strings])))
  | snapshotRequest m => exact .of_eq (m.parse_serialize read (h _ (by simp [Message.strings])))
  | login m =>
    exact .of_eq (m.parse_serialize read (h _ (by simp [Message.strings])) (h _ (by simp [Message.strings])))
  | loginResponse m =>
    exact .of_eq (m.parse_serialize read (h _ (by simp [Message.strings])) (h _ (by simp [Message.strings]))
      (h _ (by simp [Message.strings])))
  | register m =>
    exact .of_eq (m.parse_serialize read (h _ (by simp [Message.strings])) (h _ (by simp [Message.strings])))
  | registerResponse m =>
    exact .of_eq (m.parse_serialize read (h _ (by simp [Message.strings])) (h _ (by simp [Message.strings])))

end OrderbookGC.Wire
