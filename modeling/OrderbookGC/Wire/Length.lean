/-
How long the messages are that the server sends. Around the strings and the numbers of a message stand keys of fixed
length, so a message is as long as its strings and its numbers make it.
-/
import OrderbookGC.Wire.Message
import OrderbookGC.Text.Utf8

namespace Text

variable {α : Type} [Alphabet α]

theorem length_lit (s : String) : (lit s : List α).length = s.toList.length := List.length_map ..

theorem length_line (key : String) (value : List α) : (line key value).length = key.toList.length + value.length + 1 := by
  unfold line
  rw [List.length_append, List.length_append, length_lit]
  rfl

/-- A string has as many bytes as it counts. -/
theorem length_encodeUtf8 (s : String) : (encodeUtf8 s.toList).length = s.utf8ByteSize := by
  rw [String.utf8ByteSize, ← String.utf8Encode_toList]
  unfold List.utf8Encode encodeUtf8
  rw [List.size_toByteArray]

theorem length_encodeUtf8_ascii {l : List Char} (hl : ∀ c ∈ l, c.toNat < 128) : (encodeUtf8 l).length = l.length := by
  unfold encodeUtf8
  rw [List.length_flatMap, List.map_congr_left fun c hc => by rw [utf8EncodeChar_ascii (hl c hc)]]
  simp

/-! ## Numerals -/

/-- The digits of a number. -/
def digitCount (n : Nat) : Nat := (Nat.toDigits 10 n).length

theorem length_showNat (n : Nat) : (showNat n : List α).length = digitCount n := List.length_map ..

theorem digitCount_pos (n : Nat) : 0 < digitCount n := Nat.length_toDigits_pos

theorem digitCount_le_iff {n k : Nat} (hk : 0 < k) : digitCount n ≤ k ↔ n < 10 ^ k :=
  Nat.length_toDigits_le_iff (by decide) hk

theorem digitCount_mono {m n : Nat} (h : m ≤ n) : digitCount m ≤ digitCount n :=
  (digitCount_le_iff (digitCount_pos n)).2 (Nat.lt_of_le_of_lt h ((digitCount_le_iff (digitCount_pos n)).1 (Nat.le_refl _)))

/-- The next number has at most one digit more. -/
theorem digitCount_succ_le (n : Nat) : digitCount (n + 1) ≤ digitCount n + 1 := by
  have h := (digitCount_le_iff (digitCount_pos n)).1 (Nat.le_refl (digitCount n))
  rw [digitCount_le_iff (Nat.succ_pos _), Nat.pow_succ]
  omega

theorem digitCount_toNat_le (q : UInt32) : digitCount q.toNat ≤ 10 :=
  (digitCount_le_iff (by decide)).2 (Nat.lt_trans q.toNat_lt (by decide))

end Text

namespace OrderbookGC.Wire

open Text

/-! ## Messages -/

/-- The length of a printed price. -/
def priceLength (price : ℚ) : Nat := (showFixed2 price : List UInt8).length

/-- The length of the line of a stop price, if there is one. -/
def stopPriceLength (stopPrice : ℚ) : Nat := if 0 < stopPrice then 12 + priceLength stopPrice else 0

/-- The length of a printed time. -/
def timeLength (localtime : Int → Tm) (tp : Int) : Nat := (timePointToString localtime tp : List UInt8).length

theorem length_stopPriceLine (stopPrice : ℚ) : (stopPriceLine stopPrice : List UInt8).length = stopPriceLength stopPrice := by
  unfold stopPriceLine stopPriceLength priceLength
  split_ifs
  · simp [length_line]
    omega
  · rfl

theorem OrderStatusMessage.length_serialize (localtime : Int → Tm) (m : OrderStatusMessage UInt8) :
    (m.serialize localtime).length = 117 + m.orderId.length + m.clientId.length + m.symbol.length +
      (sideToWireString m.side).toList.length + (orderTypeToWireString m.orderType).toList.length +
      priceLength m.price + stopPriceLength m.stopPrice + digitCount m.quantity.toNat +
      digitCount m.filledQuantity.toNat + (statusToWireString m.status).toList.length +
      timeLength localtime m.orderTimestamp := by
  unfold serialize priceLength timeLength
  simp [length_line, length_lit, length_showNat, length_stopPriceLine]
  omega

/-- The length of the three lines of a level. -/
def PriceLevel.textLength (l : PriceLevel) : Nat :=
  30 + priceLength l.price + digitCount l.quantity.toNat + (showInt l.orderCount : List UInt8).length

theorem PriceLevel.length_serialize (l : PriceLevel) : (l.serialize : List UInt8).length = l.textLength := by
  unfold serialize textLength priceLength
  simp [length_line, length_showNat]
  omega

theorem OrderbookSnapshotMessage.length_serialize (m : OrderbookSnapshotMessage UInt8) :
    m.serialize.length = 44 + m.symbol.length + ((m.bids ++ m.asks).map PriceLevel.textLength).sum := by
  have hlevels : ∀ ls : List PriceLevel, (ls.flatMap PriceLevel.serialize : List UInt8).length =
      (ls.map PriceLevel.textLength).sum := fun ls => by
    rw [List.length_flatMap]
    exact congrArg List.sum (List.map_congr_left fun l _ => l.length_serialize)
  unfold serialize
  simp [length_line, length_lit, hlevels]
  omega

theorem TradeNotificationMessage.length_serialize (localtime : Int → Tm) (m : TradeNotificationMessage UInt8) :
    (m.serialize localtime).length = 88 + m.buyOrderId.length + m.sellOrderId.length + m.symbol.length +
      priceLength m.price + digitCount m.quantity.toNat + timeLength localtime m.tradeTimestamp := by
  unfold serialize priceLength timeLength
  simp [length_line, length_lit, length_showNat]
  omega

theorem ErrorMessage.length_serialize (m : ErrorMessage UInt8) :
    m.serialize.length = 35 + m.errorCode.length + m.description.length := by
  unfold serialize
  simp [length_line, length_lit]
  omega

theorem LoginMessage.length_serialize (m : LoginMessage UInt8) :
    m.serialize.length = 30 + m.username.length + m.password.length := by
  unfold serialize
  simp [length_line, length_lit]
  omega

theorem LoginResponseMessage.length_serialize (m : LoginResponseMessage UInt8) :
    m.serialize.length = 68 + (boolToWireString m.success).toList.length + m.sessionToken.length + m.username.length +
      m.errorMessage.length := by
  unfold serialize
  simp [length_line, length_lit]
  omega

theorem RegisterResponseMessage.length_serialize (m : RegisterResponseMessage UInt8) :
    m.serialize.length = 56 + (boolToWireString m.success).toList.length + m.username.length + m.errorMessage.length := by
  unfold serialize
  simp [length_line, length_lit]
  omega

end OrderbookGC.Wire
