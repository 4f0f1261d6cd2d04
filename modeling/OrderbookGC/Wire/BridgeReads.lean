/-
The bridge reads what the server writes. The server's strings are the UTF-8 bytes of texts; the bytes
of a serialized message decode to the message serialized over the texts (`serialize_map`), and
`parse_message` turns that text into the dictionary of the message (`Message.dict`).
-/
import OrderbookGC.Wire.Bridge
import OrderbookGC.Wire.RoundTrip
import OrderbookGC.Text.Utf8

namespace OrderbookGC.Bridge

open Text Wire

variable {α : Type} [Alphabet α]

/-! ## Numbers -/

theorem isPySpace_of_isDigit {a : α} (h : isDigit a = true) : isPySpace a = false := by
  have hs := isSpace_of_isDigit h
  unfold isDigit at h
  simp only [Bool.and_eq_true, decide_eq_true_eq] at h
  unfold isPySpace
  simp only [hs, Bool.false_or, Bool.or_eq_false_iff, Bool.and_eq_false_iff, decide_eq_false_iff_not]
  omega

theorem strip_eq {l : List α} (h : ∀ a ∈ l, isPySpace a = false) : strip l = l := by
  have hd : ∀ l : List α, (∀ a ∈ l, isPySpace a = false) → l.dropWhile isPySpace = l := by
    intro l hl
    cases l with
    | nil => rfl
    | cons a l => rw [List.dropWhile_cons_of_neg (by rw [hl a (List.mem_cons_self ..)]; exact Bool.false_ne_true)]
  unfold strip
  rw [hd l h, hd l.reverse fun a ha => h a (List.mem_reverse.1 ha), List.reverse_reverse]

theorem isPySpace_ofChar {c : Char} (hc : c.toNat < 128) (h : isPySpace c = false) : isPySpace (Alphabet.ofChar c : α) = false := by
  unfold isPySpace isSpace at h ⊢
  rw [Alphabet.code_ofChar hc]
  exact h

/-- Nothing of a printed number is white space. -/
theorem isPySpace_showNat (n : Nat) : ∀ a ∈ (showNat n : List α), isPySpace a = false :=
  fun _ ha => isPySpace_of_isDigit (isDigit_showNat ha)

/-- A sign that stands first, without white space before it. -/
theorem readSign_strip {l : List α} (hl : ∀ a ∈ l, isPySpace a = false) : readSign (strip l) = readSign (l.dropWhile isSpace) := by
  rw [strip_eq hl]
  cases l with
  | nil => rfl
  | cons a l =>
    have ha : isSpace a = false := by
      have := hl a (List.mem_cons_self ..)
      unfold isPySpace at this
      simp only [Bool.or_eq_false_iff] at this
      tauto
    rw [List.dropWhile_cons_of_neg (by rw [ha]; exact Bool.false_ne_true)]

/-- A text that begins with a digit is not a name. -/
theorem isText_digit {l : List α} {a : α} (ha : isDigit a = true) {name : String}
    (hn : ∀ c ∈ name.toList.head?, 57 < c.toNat) : isText (a :: l) name = false := by
  unfold isText lower
  unfold isDigit at ha
  simp only [Bool.and_eq_true, decide_eq_true_eq] at ha
  rw [decide_eq_false_iff_not, List.map_cons]
  intro h
  cases hname : name.toList with
  | nil => rw [hname] at h; cases h
  | cons c t =>
    rw [hname, List.map_cons, List.cons.injEq] at h
    have hc := hn c (by rw [hname]; rfl)
    have h1 := h.1
    split_ifs at h1 with hup
    · simp only [Bool.and_eq_true, decide_eq_true_eq] at hup
      omega
    · omega

variable [DecidableEq α]

theorem digitPart_digits {l : List α} (hne : l ≠ []) (hl : ∀ a ∈ l, isDigit a = true) : digitPart l = some l := by
  have hu : Alphabet.ofChar '_' ∉ l := by
    intro hm
    have := hl _ hm
    unfold isDigit at this
    rw [Alphabet.code_ofChar (by decide)] at this
    exact absurd this (by decide)
  unfold digitPart
  rw [List.splitOn_eq_singleton hu]
  have hall : l.all isDigit = true := List.all_eq_true.2 hl
  simp [hne, hall]

theorem pyInt_showInt (i : Int) : pyInt (showInt i : List α) = some i := by
  have hpart := digitPart_digits (showNat_ne_nil (α := α) i.natAbs) fun a ha => isDigit_showNat ha
  unfold pyInt showInt
  split_ifs with hi
  · have hsp : ∀ a ∈ (Alphabet.ofChar '-' :: showNat i.natAbs : List α), isPySpace a = false := by
      intro a ha
      rcases List.mem_cons.1 ha with rfl | ha
      · exact isPySpace_ofChar (by decide) (by decide)
      · exact isPySpace_showNat _ a ha
    rw [readSign_strip hsp, readSign_minus]
    simp only [hpart, Option.map_some, digitsValue_showNat, if_true, Option.some.injEq]
    omega
  · have h := readSign_showNat (α := α) i.natAbs []
    rw [List.append_nil] at h
    rw [readSign_strip (isPySpace_showNat _), h]
    simp only [hpart, Option.map_some, digitsValue_showNat, Bool.false_eq_true, if_false, Option.some.injEq]
    omega

theorem optionalPart_digits {l : List α} (hl : ∀ a ∈ l, isDigit a = true) : optionalPart l = some l := by
  unfold optionalPart
  split_ifs with he
  · rw [List.isEmpty_iff.1 he]
  · exact digitPart_digits (fun h => he (by rw [h]; rfl)) hl

/-- A `float` whose sign has been read. -/
theorem pyFloat_parts (neg : Bool) (l : List α) (n : Nat)
    (hl : readSign (strip l) = (neg, showNat (n / 100) ++
      [Alphabet.ofChar '.', Alphabet.ofChar (n / 10 % 10).digitChar, Alphabet.ofChar (n % 10).digitChar])) :
    pyFloat l = some (.finite (if neg then -(n / 100 : ℚ) else (n / 100 : ℚ))) := by
  obtain ⟨hval, hdig⟩ := twoDigits (α := α) n (n / 100)
  obtain ⟨a, ds, hd⟩ := List.exists_cons_of_ne_nil (showNat_ne_nil (α := α) (n / 100))
  have ha : isDigit a = true := isDigit_showNat (n := n / 100) (by rw [hd]; exact List.mem_cons_self ..)
  generalize hfrac : [(Alphabet.ofChar (n / 10 % 10).digitChar : α), Alphabet.ofChar (n % 10).digitChar] = frac at *
  -- no symbol of the number is an `e`, and only the point has the code 46
  have hcode : ∀ a : α, isDigit a = true → Alphabet.code a ≠ 101 ∧ Alphabet.code a ≠ 69 ∧ Alphabet.code a ≠ 46 := fun a ha => by
    unfold isDigit at ha
    simp only [Bool.and_eq_true, decide_eq_true_eq] at ha
    omega
  have hnoE : ∀ x ∈ showNat (n / 100) ++ (Alphabet.ofChar '.' :: frac : List α),
      (!(decide (Alphabet.code x = 101) || decide (Alphabet.code x = 69))) = true := by
    intro x hx
    have hx' : Alphabet.code x ≠ 101 ∧ Alphabet.code x ≠ 69 := by
      rcases List.mem_append.1 hx with hx | hx
      · exact ⟨(hcode x (isDigit_showNat hx)).1, (hcode x (isDigit_showNat hx)).2.1⟩
      · rcases List.mem_cons.1 hx with rfl | hx
        · rw [code_point]; decide
        · exact ⟨(hcode x (hdig x hx)).1, (hcode x (hdig x hx)).2.1⟩
    simp [hx'.1, hx'.2]
  have hint : ∀ x ∈ (showNat (n / 100) : List α), decide (Alphabet.code x ≠ 46) = true :=
    fun x hx => decide_eq_true (hcode x (isDigit_showNat hx)).2.2
  have hmant : pyMantissa (showNat (n / 100) ++ (Alphabet.ofChar '.' :: frac : List α)) = some (n / 100 : ℚ) := by
    unfold pyMantissa
    rw [List.takeWhile_append_of_pos hint, List.dropWhile_append_of_pos hint,
      List.takeWhile_cons_of_neg (by rw [code_point]; decide), List.dropWhile_cons_of_neg (by rw [code_point]; decide),
      List.append_nil, List.drop_one, List.tail_cons]
    have hne : (showNat (n / 100) : List α).isEmpty = false := by
      rw [List.isEmpty_eq_false_iff]; exact showNat_ne_nil _
    dsimp only
    rw [hne, Bool.false_and, if_neg Bool.false_ne_true, optionalPart_digits fun x hx => isDigit_showNat hx,
      optionalPart_digits hdig, Option.bind_some, Option.map_some, digitsValue_append, digitsValue_showNat, hval, ← hfrac]
    have : ((100 * (n / 100) + n % 100 : Nat) : ℚ) = n := by exact_mod_cast (by omega : 100 * (n / 100) + n % 100 = n)
    rw [this]
    norm_num
  unfold pyFloat
  rw [hl]
  dsimp only
  rw [List.takeWhile_eq_self_iff.2 hnoE, List.dropWhile_eq_nil_iff.2 hnoE, hmant]
  rw [hd, List.cons_append, isText_digit ha (by simp), isText_digit ha (by simp), isText_digit ha (by simp)]
  simp [pyExponent]

/-- The number a reader makes of two decimals. -/
def shownPrice (x : ℚ) : ℚ := if x < 0 then -(roundHalfEven (|x| * 100) / 100 : ℚ) else roundHalfEven (|x| * 100) / 100

theorem shownPrice_cents {x : ℚ} (hx : Cents x) : shownPrice x = x := by
  obtain ⟨c, rfl⟩ := hx
  have habs : |(c / 100 : ℚ)| * 100 = (c.natAbs : ℚ) := by
    rw [abs_div, abs_of_pos (show (0 : ℚ) < 100 by norm_num), div_mul_cancel₀ _ (by norm_num), Nat.cast_natAbs, Int.cast_abs]
  have hneg : (c / 100 : ℚ) < 0 ↔ c < 0 := by
    rw [div_lt_iff₀ (by norm_num), zero_mul]; exact_mod_cast Iff.rfl
  unfold shownPrice
  simp only [habs, roundHalfEven_natCast, hneg]
  split_ifs with hc
  · rw [Nat.cast_natAbs, abs_of_neg hc, Int.cast_neg]
    ring
  · rw [Nat.cast_natAbs, abs_of_nonneg (by omega)]

theorem pyFloat_shown (x : ℚ) : pyFloat (showFixed2 x : List α) = some (.finite (shownPrice x)) := by
  unfold showFixed2 shownPrice
  dsimp only
  generalize roundHalfEven (|x| * 100) = n
  obtain ⟨-, hdig⟩ := twoDigits (α := α) n 0
  have hsp : ∀ a ∈ (showNat (n / 100) ++ [Alphabet.ofChar '.', Alphabet.ofChar (n / 10 % 10).digitChar,
      Alphabet.ofChar (n % 10).digitChar] : List α), isPySpace a = false := by
    intro a ha
    rcases List.mem_append.1 ha with ha | ha
    · exact isPySpace_showNat _ a ha
    · rcases List.mem_cons.1 ha with rfl | ha
      · exact isPySpace_ofChar (by decide) (by decide)
      · exact isPySpace_of_isDigit (hdig a ha)
  rw [List.append_assoc]
  by_cases hx : x < 0
  · rw [if_pos hx, if_pos hx, List.singleton_append, pyFloat_parts true _ n, if_pos rfl]
    rw [readSign_strip, readSign_minus]
    intro a ha
    rcases List.mem_cons.1 ha with rfl | ha
    · exact isPySpace_ofChar (by decide) (by decide)
    · exact hsp a ha
  · rw [if_neg hx, if_neg hx, List.nil_append, pyFloat_parts false _ n, if_neg Bool.false_ne_true]
    rw [readSign_strip hsp, readSign_showNat]

theorem pyFloat_showFixed2 {x : ℚ} (hx : Cents x) : pyFloat (showFixed2 x : List α) = some (.finite x) := by
  rw [pyFloat_shown, shownPrice_cents hx]

/-! ## Lines -/

theorem splitOn_line {k : String} (hk : IsPlain k) {v : List α} (hv : newline ∉ v) (rest : List α) :
    (line k v ++ rest).splitOn newline = (lit k ++ v) :: rest.splitOn newline := by
  have hkv : newline ∉ lit k ++ v := fun hm => (List.mem_append.1 hm).elim (newline_not_mem_lit hk) hv
  unfold line
  rw [List.append_assoc, List.singleton_append]
  exact List.splitOn_append_cons_self_of_not_mem hkv rest

theorem splitOn_lit {k : String} (hk : IsPlain k) {v : List α} (hv : newline ∉ v) :
    (lit k ++ v).splitOn newline = [lit k ++ v] :=
  List.splitOn_eq_singleton fun hm => (List.mem_append.1 hm).elim (newline_not_mem_lit hk) hv

omit [DecidableEq α] in
theorem isEmpty_lit {k : String} (hk : k.toList ≠ []) (v : List α) : (lit k ++ v).isEmpty = false := by
  rw [List.isEmpty_eq_false_iff]
  unfold lit
  intro h
  exact hk (List.map_eq_nil_iff.1 (List.append_eq_nil_iff.1 h).1)

omit [DecidableEq α] in
theorem isEmpty_lit_self {k : String} (hk : k.toList ≠ []) : (lit k : List α).isEmpty = false := by
  have h := isEmpty_lit (α := α) hk []
  rwa [List.append_nil] at h

theorem extractString_key {k : String} (hk : IsKey k) (v : List α) : extractString (lit k ++ v) = v :=
  afterEquals_lit hk.1 hk.2 v

theorem extractFloat_key {k : String} (hk : IsKey k) {x : ℚ} (hx : Cents x) :
    extractFloat (lit k ++ showFixed2 x : List α) = .finite x := by
  unfold extractFloat
  rw [extractString_key hk, pyFloat_showFixed2 hx]
  rfl

theorem extractInt_key {k : String} (hk : IsKey k) (i : Int) : extractInt (lit k ++ showInt i : List α) = i := by
  unfold extractInt
  rw [extractString_key hk, pyInt_showInt]
  rfl

theorem extractInt_nat {k : String} (hk : IsKey k) (n : Nat) : extractInt (lit k ++ showNat n : List α) = n :=
  extractInt_key hk (n : Int)

omit [DecidableEq α] in
theorem lower_lit {s : String} (hs : ∀ c ∈ s.toList, c.toNat < 128 ∧ ¬ (65 ≤ c.toNat ∧ c.toNat ≤ 90)) :
    lower (lit s : List α) = s.toList.map Char.toNat := by
  unfold lower lit
  rw [List.map_map]
  refine List.map_congr_left fun c hc => ?_
  obtain ⟨h1, h2⟩ := hs c hc
  rw [Function.comp_apply, Alphabet.code_ofChar h1, if_neg (by simpa using h2)]

omit [DecidableEq α] in
theorem isText_bool (b : Bool) : isText (lit (boolToWireString b) : List α) "true" = b := by
  unfold isText
  cases b
  · rw [show boolToWireString false = "false" from rfl, lower_lit (by decide)]; decide
  · rw [show boolToWireString true = "true" from rfl, lower_lit (by decide)]; decide

/-! ## Classes -/

/-- The line of a stop price, in the dictionary of a status message. -/
def stopPriceEntry (stopPrice : ℚ) : PyDict α := if 0 < stopPrice then [("stop_price", .float (.finite stopPrice))] else []

/-- A level as a dictionary. -/
def levelDict (l : Wire.PriceLevel) : PyDict α :=
  [("price", .float (.finite l.price)), ("quantity", .int l.quantity.toNat), ("order_count", .int l.orderCount)]

/-- What a client is to be told by a message of the server: the class, every string, name, number and
flag as it is, a stop price only if there is one, and the time as it was written. -/
def dictOf (localtime : Int → Tm) : Message α → Option (PyDict α)
  | .orderStatus m => some <|
    [("type", .str (lit "ORDER_STATUS")), ("order_id", .str m.orderId), ("client_id", .str m.clientId),
      ("symbol", .str m.symbol), ("side", .str (lit (sideToWireString m.side))),
      ("order_type", .str (lit (orderTypeToWireString m.orderType))), ("price", .float (.finite m.price))] ++
    stopPriceEntry m.stopPrice ++
    [("quantity", .int m.quantity.toNat), ("filled_quantity", .int m.filledQuantity.toNat),
      ("status", .str (lit (statusToWireString m.status))),
      ("timestamp", .str (timePointToString localtime m.orderTimestamp))]
  | .orderbookSnapshot m =>
    some [("type", .str (lit "ORDERBOOK_SNAPSHOT")), ("symbol", .str m.symbol),
      ("bids", .list (m.bids.map fun l => .dict (levelDict l))), ("asks", .list (m.asks.map fun l => .dict (levelDict l)))]
  | .tradeNotification m =>
    some [("type", .str (lit "TRADE_NOTIFICATION")), ("buy_order_id", .str m.buyOrderId),
      ("sell_order_id", .str m.sellOrderId), ("symbol", .str m.symbol), ("price", .float (.finite m.price)),
      ("quantity", .int m.quantity.toNat), ("timestamp", .str (timePointToString localtime m.tradeTimestamp))]
  | .error m => some [("type", .str (lit "ERROR")), ("error_code", .str m.errorCode), ("description", .str m.description)]
  | .loginResponse m =>
    some [("type", .str (lit "LOGIN_RESPONSE")), ("success", .bool m.success), ("session_token", .str m.sessionToken),
      ("username", .str m.username), ("error_message", .str m.errorMessage)]
  | .registerResponse m =>
    some [("type", .str (lit "REGISTER_RESPONSE")), ("success", .bool m.success), ("username", .str m.username),
      ("error_message", .str m.errorMessage)]
  | _ => none

theorem parse_error (localtime : Int → Tm) (m : ErrorMessage α) (hc : newline ∉ m.errorCode)
    (hd : newline ∉ m.description) : parseMessage m.serialize = dictOf localtime (.error m) := by
  unfold ErrorMessage.serialize parseMessage
  rw [splitOn_line (by decide) (newline_not_mem_lit (by decide)), splitOn_line (by decide) hc, splitOn_lit (by decide) hd]
  simp (disch := (simp only [IsAscii, IsKey, String.reduceToList]; decide)) only
    [lit_inj, String.reduceEq, if_true, if_false, List.foldl_cons, List.foldl_nil, readError, isEmpty_lit, startsWith_self,
      startsWith_other, Bool.false_eq_true, extractString_key, PyDict.set, dictOf]

theorem parse_loginResponse (localtime : Int → Tm) (m : LoginResponseMessage α) (ht : newline ∉ m.sessionToken)
    (hu : newline ∉ m.username) (he : newline ∉ m.errorMessage) :
    parseMessage m.serialize = dictOf localtime (.loginResponse m) := by
  unfold LoginResponseMessage.serialize parseMessage
  rw [splitOn_line (by decide) (newline_not_mem_lit (by decide)), splitOn_line (by decide) (newline_not_mem_bool _),
    splitOn_line (by decide) ht, splitOn_line (by decide) hu, splitOn_lit (by decide) he]
  simp (disch := (simp only [IsAscii, IsKey, String.reduceToList]; decide)) only
    [lit_inj, String.reduceEq, if_true, if_false, List.foldl_cons, List.foldl_nil, readLoginResponse, isEmpty_lit,
      startsWith_self, startsWith_other, Bool.false_eq_true, extractString_key, isText_bool, PyDict.set, dictOf]

theorem parse_registerResponse (localtime : Int → Tm) (m : RegisterResponseMessage α) (hu : newline ∉ m.username)
    (he : newline ∉ m.errorMessage) : parseMessage m.serialize = dictOf localtime (.registerResponse m) := by
  unfold RegisterResponseMessage.serialize parseMessage
  rw [splitOn_line (by decide) (newline_not_mem_lit (by decide)), splitOn_line (by decide) (newline_not_mem_bool _),
    splitOn_line (by decide) hu, splitOn_lit (by decide) he]
  simp (disch := (simp only [IsAscii, IsKey, String.reduceToList]; decide)) only
    [lit_inj, String.reduceEq, if_true, if_false, List.foldl_cons, List.foldl_nil, readRegisterResponse, isEmpty_lit,
      startsWith_self, startsWith_other, Bool.false_eq_true, extractString_key, isText_bool, PyDict.set, dictOf]

theorem parse_tradeNotification (localtime : Int → Tm) (m : TradeNotificationMessage α) (hb : newline ∉ m.buyOrderId)
    (ha : newline ∉ m.sellOrderId) (hs : newline ∉ m.symbol) (hp : Cents m.price) :
    parseMessage (m.serialize localtime) = dictOf localtime (.tradeNotification m) := by
  unfold TradeNotificationMessage.serialize parseMessage
  rw [splitOn_line (by decide) (newline_not_mem_lit (by decide)), splitOn_line (by decide) hb, splitOn_line (by decide) ha,
    splitOn_line (by decide) hs, splitOn_line (by decide) (newline_not_mem_showFixed2 _),
    splitOn_line (by decide) (newline_not_mem_showNat _), splitOn_lit (by decide) (newline_not_mem_time _ _)]
  simp (disch := (simp only [IsAscii, IsKey, String.reduceToList]; decide)) only
    [lit_inj, String.reduceEq, if_true, if_false, List.foldl_cons, List.foldl_nil, readTrade, isEmpty_lit, startsWith_self,
      startsWith_other, Bool.false_eq_true, extractString_key, extractInt_nat, PyDict.set, dictOf]
  rw [extractFloat_key (by decide) hp]

/-- The lines of a status message that come before the stop price. -/
def statusHead (m : Wire.OrderStatusMessage α) : PyDict α :=
  [("type", .str (lit "ORDER_STATUS")), ("order_id", .str m.orderId), ("client_id", .str m.clientId),
    ("symbol", .str m.symbol), ("side", .str (lit (sideToWireString m.side))),
    ("order_type", .str (lit (orderTypeToWireString m.orderType))), ("price", .float (.finite m.price))]

theorem foldl_stopPrice (m : Wire.OrderStatusMessage α) (hstop : Cents m.stopPrice) (rest : List α) :
    ((stopPriceLine m.stopPrice ++ rest).splitOn newline).foldl readOrderStatus (statusHead m) =
      (rest.splitOn newline).foldl readOrderStatus (statusHead m ++ stopPriceEntry m.stopPrice) := by
  unfold stopPriceLine stopPriceEntry
  by_cases hpos : 0 < m.stopPrice
  · rw [if_pos hpos, if_pos hpos, splitOn_line (by decide) (newline_not_mem_showFixed2 _)]
    simp (disch := (simp only [IsAscii, IsKey, String.reduceToList]; decide)) only
      [List.foldl_cons, readOrderStatus, isEmpty_lit, startsWith_self, startsWith_other, Bool.false_eq_true, if_true, if_false,
        statusHead, PyDict.set, String.reduceEq, List.cons_append, List.nil_append]
    rw [extractFloat_key (by decide) hstop]
  · rw [if_neg hpos, if_neg hpos, List.nil_append, List.append_nil]

/-- The lines after the stop price. -/
theorem foldl_statusTail (localtime : Int → Tm) (m : Wire.OrderStatusMessage α) (d : PyDict α) :
    ((line "quantity=" (showNat m.quantity.toNat) ++ (line "filled_quantity=" (showNat m.filledQuantity.toNat) ++
      (line "status=" (lit (statusToWireString m.status)) ++
      (lit "timestamp=" ++ timePointToString localtime m.orderTimestamp)))).splitOn newline).foldl readOrderStatus d =
    (((PyDict.set d "quantity" (.int m.quantity.toNat)).set "filled_quantity" (.int m.filledQuantity.toNat)).set "status"
      (.str (lit (statusToWireString m.status)))).set "timestamp" (.str (timePointToString localtime m.orderTimestamp)) := by
  rw [splitOn_line (by decide) (newline_not_mem_showNat _), splitOn_line (by decide) (newline_not_mem_showNat _),
    splitOn_line (by decide) (newline_not_mem_status _), splitOn_lit (by decide) (newline_not_mem_time _ _)]
  simp (disch := (simp only [IsAscii, IsKey, String.reduceToList]; decide)) only
    [List.foldl_cons, List.foldl_nil, readOrderStatus, isEmpty_lit, startsWith_self, startsWith_other, Bool.false_eq_true,
      if_true, if_false, extractString_key, extractInt_nat]

theorem parse_orderStatus (localtime : Int → Tm) (m : Wire.OrderStatusMessage α) (hid : newline ∉ m.orderId)
    (hc : newline ∉ m.clientId) (hs : newline ∉ m.symbol) (hp : Cents m.price) (hstop : Cents m.stopPrice) :
    parseMessage (m.serialize localtime) = dictOf localtime (.orderStatus m) := by
  unfold Wire.OrderStatusMessage.serialize parseMessage
  rw [splitOn_line (by decide) (newline_not_mem_lit (by decide)), splitOn_line (by decide) hid, splitOn_line (by decide) hc,
    splitOn_line (by decide) hs, splitOn_line (by decide) (newline_not_mem_side _),
    splitOn_line (by decide) (newline_not_mem_type _), splitOn_line (by decide) (newline_not_mem_showFixed2 _)]
  simp (disch := (simp only [IsAscii, IsKey, String.reduceToList]; decide)) only
    [lit_inj, String.reduceEq, if_true, if_false, List.foldl_cons, readOrderStatus, isEmpty_lit, startsWith_self,
      startsWith_other, Bool.false_eq_true, extractString_key, PyDict.set]
  rw [extractFloat_key (by decide) hp]
  have h := foldl_stopPrice m hstop
  unfold statusHead at h
  rw [h, foldl_statusTail]
  unfold dictOf stopPriceEntry
  by_cases hpos : 0 < m.stopPrice
  · simp only [if_pos hpos, PyDict.set, String.reduceEq, if_false, List.cons_append, List.nil_append]
  · simp only [if_neg hpos, PyDict.set, String.reduceEq, if_false, List.cons_append, List.nil_append]

/-! ## Snapshots -/

/-- The list that the loop is filling gets the levels. -/
def SnapshotState.push (s : SnapshotState α) (levels : List Wire.PriceLevel) : SnapshotState α :=
  if s.inBids then { s with bids := s.bids ++ levels.map levelDict } else { s with asks := s.asks ++ levels.map levelDict }

omit [Alphabet α] [DecidableEq α] in
theorem SnapshotState.push_push (s : SnapshotState α) (l l' : List Wire.PriceLevel) : (s.push l).push l' = s.push (l ++ l') := by
  unfold push
  split_ifs <;> simp_all

theorem SnapshotState.foldl_level (s : SnapshotState α) (hin : (s.inBids || s.inAsks) = true) (hcur : s.current = [])
    {l : Wire.PriceLevel} (hl : Cents l.price) (rest : List α) :
    ((l.serialize ++ rest).splitOn newline).foldl readLine s = (rest.splitOn newline).foldl readLine (s.push [l]) := by
  unfold Wire.PriceLevel.serialize
  rw [List.append_assoc, List.append_assoc, splitOn_line (by decide) (newline_not_mem_showFixed2 _),
    splitOn_line (by decide) (newline_not_mem_showNat _), splitOn_line (by decide) (newline_not_mem_showInt _)]
  simp (disch := (simp only [IsAscii, IsKey, String.reduceToList]; decide)) only
    [List.foldl_cons, readLine, readLevel, isEmpty_lit, startsWith_self, startsWith_other, lit_ne, hin, hcur, if_true,
      Bool.false_eq_true, if_false, extractInt_nat, extractInt_key, PyDict.set, String.reduceEq]
  rw [extractFloat_key (by decide) hl]
  unfold push levelDict
  rw [← hcur]
  rfl

theorem SnapshotState.foldl_levels (levels : List Wire.PriceLevel) (hl : ∀ l ∈ levels, Cents l.price) (s : SnapshotState α)
    (hin : (s.inBids || s.inAsks) = true) (hcur : s.current = []) (rest : List α) :
    ((levels.flatMap Wire.PriceLevel.serialize ++ rest).splitOn newline).foldl readLine s =
      (rest.splitOn newline).foldl readLine (s.push levels) := by
  induction levels generalizing s with
  | nil =>
    rw [List.flatMap_nil, List.nil_append]
    unfold push
    simp
  | cons l levels ih =>
    rw [List.flatMap_cons, List.append_assoc, foldl_level s hin hcur (hl l (List.mem_cons_self ..)),
      ih (fun l' hl' => hl l' (List.mem_cons_of_mem _ hl')), push_push]
    · rfl
    · unfold push; split_ifs <;> exact hin
    · unfold push; split_ifs <;> exact hcur

theorem parse_snapshot (localtime : Int → Tm) (m : OrderbookSnapshotMessage α) (hs : newline ∉ m.symbol)
    (hb : ∀ l ∈ m.bids, Cents l.price) (ha : ∀ l ∈ m.asks, Cents l.price) :
    parseMessage m.serialize = dictOf localtime (.orderbookSnapshot m) := by
  have hasks := SnapshotState.foldl_levels (α := α) m.asks ha
    ⟨m.symbol, m.bids.map levelDict, [], false, true, []⟩ rfl rfl []
  rw [List.append_nil] at hasks
  unfold OrderbookSnapshotMessage.serialize parseMessage
  rw [splitOn_line (by decide) (newline_not_mem_lit (by decide)), splitOn_line (by decide) hs,
    splitOn_line (by decide) List.not_mem_nil]
  simp (disch := (simp only [IsAscii, IsKey, String.reduceToList]; decide)) only
    [lit_inj, String.reduceEq, if_true, if_false, List.foldl_cons, SnapshotState.readLine, isEmpty_lit,
      isEmpty_lit_self, startsWith_self, startsWith_lit, extractString_key, Bool.false_eq_true, List.append_nil]
  rw [SnapshotState.foldl_levels m.bids hb _ rfl rfl, splitOn_line (by decide) List.not_mem_nil]
  simp (disch := (simp only [IsAscii, IsKey, String.reduceToList]; decide)) only
    [List.foldl_cons, SnapshotState.readLine, isEmpty_lit_self, startsWith_lit, lit_inj, String.reduceEq, if_true, if_false,
      Bool.false_eq_true, List.append_nil, SnapshotState.push, List.nil_append]
  rw [hasks]
  simp [SnapshotState.push, SnapshotState.result, SnapshotState.readLine, dictOf]

/-! ## Bytes -/

/-- A message with its strings mapped. -/
def mapText {β : Type} (f : List α → List β) : Message α → Message β
  | .orderSubmit m => .orderSubmit ⟨f m.clientId, f m.symbol, m.side, m.orderType, m.price, m.stopPrice, m.quantity⟩
  | .orderCancel m => .orderCancel ⟨f m.orderId, f m.clientId⟩
  | .orderStatus m =>
    .orderStatus ⟨f m.orderId, f m.clientId, f m.symbol, m.side, m.orderType, m.price, m.stopPrice, m.quantity,
      m.filledQuantity, m.status, m.orderTimestamp⟩
  | .orderbookSnapshot m => .orderbookSnapshot ⟨f m.symbol, m.bids, m.asks⟩
  | .tradeNotification m =>
    .tradeNotification ⟨f m.buyOrderId, f m.sellOrderId, f m.symbol, m.price, m.quantity, m.tradeTimestamp⟩
  | .error m => .error ⟨f m.errorCode, f m.description⟩
  | .snapshotRequest m => .snapshotRequest ⟨f m.symbol⟩
  | .login m => .login ⟨f m.username, f m.password⟩
  | .loginResponse m => .loginResponse ⟨m.success, f m.sessionToken, f m.username, f m.errorMessage⟩
  | .register m => .register ⟨f m.username, f m.password⟩
  | .registerResponse m => .registerResponse ⟨m.success, f m.username, f m.errorMessage⟩

section Map

variable {α β : Type} [Alphabet α] [Alphabet β] (f : TextHom α β)

theorem TextHom.zeroFill (n : Nat) (i : Int) : f.apply (Wire.zeroFill n (showInt i)) = Wire.zeroFill n (showInt i) := by
  have hlen : (showInt i : List α).length = (showInt i : List β).length := by
    unfold showInt showNat
    split_ifs <;> simp
  have hrep : ∀ k, f.apply (List.replicate k (Alphabet.ofChar '0')) = List.replicate k (Alphabet.ofChar '0') := fun k => by
    have h := f.chars (l := List.replicate k '0') fun c hc => by rw [List.eq_of_mem_replicate hc]; decide
    rwa [List.map_replicate, List.map_replicate] at h
  unfold Wire.zeroFill
  rw [f.append, hrep, f.showInt, hlen]

theorem TextHom.time (localtime : Int → Tm) (tp : Int) :
    f.apply (timePointToString localtime tp) = timePointToString localtime tp := by
  unfold timePointToString
  dsimp only
  simp only [f.append, f.showInt, TextHom.zeroFill, f.lit (show IsAscii "-" by decide), f.lit (show IsAscii " " by decide),
    f.lit (show IsAscii ":" by decide), f.lit (show IsAscii "." by decide)]

theorem TextHom.level (l : Wire.PriceLevel) : f.apply l.serialize = l.serialize := by
  unfold Wire.PriceLevel.serialize
  rw [f.append, f.append, f.line (by decide), f.line (by decide), f.line (by decide), f.showFixed2, f.showNat, f.showInt]

theorem TextHom.levels (l : List Wire.PriceLevel) : f.apply (l.flatMap Wire.PriceLevel.serialize) = l.flatMap Wire.PriceLevel.serialize := by
  induction l with
  | nil => exact f.nil
  | cons x l ih => rw [List.flatMap_cons, List.flatMap_cons, f.append, TextHom.level, ih]

theorem isAscii_side (s : OrderSide) : IsAscii (sideToWireString s) := by cases s <;> decide

theorem isAscii_type (t : OrderType) : IsAscii (orderTypeToWireString t) := by cases t <;> decide

theorem isAscii_status (s : OrderbookGC.OrderStatus) : IsAscii (statusToWireString s) := by cases s <;> decide

theorem isAscii_bool (b : Bool) : IsAscii (boolToWireString b) := by cases b <;> decide

theorem TextHom.stopPrice (x : ℚ) : f.apply (stopPriceLine x) = stopPriceLine x := by
  unfold stopPriceLine
  split_ifs
  · rw [f.line (by decide), f.showFixed2]
  · exact f.nil

/-- A message serialized over mapped strings is the mapped text. -/
theorem serialize_map (localtime : Int → Tm) (m : Message α) :
    (mapText f.apply m).serialize localtime = f.apply (m.serialize localtime) := by
  have hline : ∀ {k : String} (v : List α), IsAscii k → f.apply (line k v) = line k (f.apply v) := fun v hk => f.line hk v
  have hlit : ∀ {k : String}, IsAscii k → f.apply (lit k) = lit k := fun hk => f.lit hk
  cases m with
  | orderSubmit m =>
    simp (disch := (simp only [IsAscii, String.reduceToList]; decide)) only [mapText, Message.serialize,
      Wire.OrderSubmitMessage.serialize, f.append, hline, hlit, hlit (isAscii_side _), hlit (isAscii_type _), f.showFixed2, f.showNat,
      TextHom.stopPrice]
  | orderStatus m =>
    simp (disch := (simp only [IsAscii, String.reduceToList]; decide)) only [mapText, Message.serialize,
      Wire.OrderStatusMessage.serialize, f.append, hline, hlit, hlit (isAscii_side _), hlit (isAscii_type _), hlit (isAscii_status _),
      f.showFixed2, f.showNat, TextHom.stopPrice, TextHom.time]
  | orderbookSnapshot m =>
    simp (disch := (simp only [IsAscii, String.reduceToList]; decide)) only [mapText, Message.serialize,
      OrderbookSnapshotMessage.serialize, f.append, hline, hlit, f.nil, TextHom.levels]
  | tradeNotification m =>
    simp (disch := (simp only [IsAscii, String.reduceToList]; decide)) only [mapText, Message.serialize,
      TradeNotificationMessage.serialize, f.append, hline, hlit, f.showFixed2, f.showNat, TextHom.time]
  | loginResponse m =>
    simp (disch := (simp only [IsAscii, String.reduceToList]; decide)) only [mapText, Message.serialize,
      LoginResponseMessage.serialize, f.append, hline, hlit, hlit (isAscii_bool _)]
  | registerResponse m =>
    simp (disch := (simp only [IsAscii, String.reduceToList]; decide)) only [mapText, Message.serialize,
      RegisterResponseMessage.serialize, f.append, hline, hlit, hlit (isAscii_bool _)]
  | _ =>
    simp (disch := (simp only [IsAscii, String.reduceToList]; decide)) only [mapText, Message.serialize,
      OrderCancelMessage.serialize, ErrorMessage.serialize, SnapshotRequestMessage.serialize, LoginMessage.serialize,
      RegisterMessage.serialize, f.append, hline, hlit]

end Map

/-! ## The bridge and the server -/

/-- The strings of a message are texts on one line, its prices are in cents; it is one the server sends to clients. -/
def Readable : Message α → Prop
  | .orderStatus m =>
    newline ∉ m.orderId ∧ newline ∉ m.clientId ∧ newline ∉ m.symbol ∧ Cents m.price ∧ Cents m.stopPrice
  | .orderbookSnapshot m => newline ∉ m.symbol ∧ (∀ l ∈ m.bids, Cents l.price) ∧ ∀ l ∈ m.asks, Cents l.price
  | .tradeNotification m => newline ∉ m.buyOrderId ∧ newline ∉ m.sellOrderId ∧ newline ∉ m.symbol ∧ Cents m.price
  | .error m => newline ∉ m.errorCode ∧ newline ∉ m.description
  | .loginResponse m => newline ∉ m.sessionToken ∧ newline ∉ m.username ∧ newline ∉ m.errorMessage
  | .registerResponse m => newline ∉ m.username ∧ newline ∉ m.errorMessage
  | _ => False

/-- The server writes the UTF-8 bytes of its strings; what `parse_message` makes of the decoded bytes
is the dictionary of the message. -/
theorem parseMessage_decode_serialize (localtime : Int → Tm) (m : Message Char) (h : Readable m) :
    parseMessage (decodeUtf8 ((mapText encodeUtf8 m).serialize localtime)) = dictOf localtime m := by
  have hbytes : (mapText encodeUtf8 m).serialize localtime = encodeUtf8 (m.serialize localtime) :=
    serialize_map utf8Hom localtime m
  rw [hbytes, decodeUtf8_encodeUtf8]
  cases m with
  | orderStatus m =>
    obtain ⟨hid, hc, hs, hp, hstop⟩ := h
    exact parse_orderStatus localtime m hid hc hs hp hstop
  | orderbookSnapshot m =>
    obtain ⟨hs, hb, ha⟩ := h
    exact parse_snapshot localtime m hs hb ha
  | tradeNotification m =>
    obtain ⟨hb, ha, hs, hp⟩ := h
    exact parse_tradeNotification localtime m hb ha hs hp
  | error m => exact parse_error localtime m h.1 h.2
  | loginResponse m =>
    obtain ⟨ht, hu, he⟩ := h
    exact parse_loginResponse localtime m ht hu he
  | registerResponse m => exact parse_registerResponse localtime m h.1 h.2
  | orderSubmit _ | orderCancel _ | snapshotRequest _ | login _ | register _ => exact h.elim

/-- A rejected login of a user with a name beyond ASCII. -/
def sampleResponse : Message Char := .loginResponse ⟨false, [], ['ü', '=', '€'], lit "Invalid credentials"⟩

theorem parseMessage_decode_serialize_sampleResponse :
    (mapText encodeUtf8 sampleResponse).serialize sampleClock =
      lit "type=LOGIN_RESPONSE\nsuccess=false\nsession_token=\nusername=" ++ [0xC3, 0xBC, 0x3D, 0xE2, 0x82, 0xAC] ++
        lit "\nerror_message=Invalid credentials" ∧
    parseMessage (decodeUtf8 ((mapText encodeUtf8 sampleResponse).serialize sampleClock)) =
      some [("type", .str (lit "LOGIN_RESPONSE")), ("success", .bool false), ("session_token", .str []),
        ("username", .str ['ü', '=', '€']), ("error_message", .str (lit "Invalid credentials"))] :=
  ⟨by decide, parseMessage_decode_serialize sampleClock sampleResponse ⟨by decide, by decide, by decide⟩⟩

end OrderbookGC.Bridge
