/-
Time stamps on the wire. `timePointToString` writes a second of the wall clock, a point and three digits of milliseconds;
`stringToTimePoint` reads the fields of the wall clock with `get_time` and then extracts an integer from what is left.
That begins with the point, so the extraction fails and leaves 0: a time stamp comes back without its milliseconds.
`localtime` and `mktime` are the host's; of them it is used that `mktime` inverts `localtime` on the second in question
and that the fields of a wall clock are in their ranges.
-/
import OrderbookGC.Wire.RoundTrip

namespace OrderbookGC.Wire

open Text
open Alphabet (code ofChar)

variable {α : Type} [Alphabet α]

/-! ## Reading a wall clock -/

/-- The text being read, gone once an extraction has failed. -/
abbrev Stream (α : Type) := Option (List α)

/-- At most `len` digits with a value between `lo` and `hi`. -/
def getNum (lo hi len : Nat) (l : List α) : Option (Nat × List α) :=
  let ds := (l.take len).takeWhile isDigit
  let n := digitsValue 0 ds
  if ds.isEmpty || n < lo || hi < n then none else some (n, l.drop ds.length)

/-- One numeric field of the format. -/
def getField (lo hi len : Nat) (set : Tm → Nat → Tm) (s : Tm × Stream α) : Tm × Stream α :=
  match s.2.bind (getNum lo hi len) with
  | some (n, rest) => (set s.1 n, some rest)
  | none => (s.1, none)

/-- A literal character of the format. -/
def getChar (c : Char) (s : Tm × Stream α) : Tm × Stream α :=
  (s.1, s.2.bind fun l =>
    match l with
    | [] => none
    | a :: rest => if code a = c.toNat then some rest else none)

/-- White space in the format stands for any amount of it. -/
def getSpace (s : Tm × Stream α) : Tm × Stream α := (s.1, s.2.map (·.dropWhile isSpace))

/-- `std::tm tm = {}`: midnight before the first day of 1900. -/
def Tm.zero : Tm := ⟨1900, 1, 0, 0, 0, 0⟩

/-- `std::get_time(&tm, "%Y-%m-%d %H:%M:%S")`. -/
def getTime (str : List α) : Tm × Stream α :=
  let s := (Tm.zero, some (str.dropWhile isSpace))
  let s := getChar '-' (getField 0 9999 4 (fun tm n => { tm with year := n }) s)
  let s := getChar '-' (getField 1 12 2 (fun tm n => { tm with month := n }) s)
  let s := getSpace (getField 1 31 2 (fun tm n => { tm with day := n }) s)
  let s := getChar ':' (getField 0 23 2 (fun tm n => { tm with hour := n }) s)
  let s := getChar ':' (getField 0 59 2 (fun tm n => { tm with minute := n }) s)
  getField 0 60 2 (fun tm n => { tm with second := n }) s

/-- The `int ms = 0` after `ss >> get_time(..) >> ms`: an extraction from a failed stream leaves it, a failed one sets it
to 0. -/
def readMs : Stream α → Int
  | none => 0
  | some l => readInt32 l

/-- A time point in nanoseconds, from the seconds of `mktime` and the milliseconds. -/
def stringToTimePoint (mktime : Tm → Int) (str : List α) : Int :=
  let (tm, rest) := getTime str
  mktime tm * 10 ^ 9 + readMs rest * 10 ^ 6

/-! ## What is printed is read -/

/-- The fields of a wall clock in a year of four digits. A time point counts nanoseconds in 64 bits, so the years end
with 2262. -/
structure Tm.Valid (tm : Tm) : Prop where
  year : 1000 ≤ tm.year ∧ tm.year ≤ 9999
  month : 1 ≤ tm.month ∧ tm.month ≤ 12
  day : 1 ≤ tm.day ∧ tm.day ≤ 31
  hour : 0 ≤ tm.hour ∧ tm.hour ≤ 23
  minute : 0 ≤ tm.minute ∧ tm.minute ≤ 59
  second : 0 ≤ tm.second ∧ tm.second ≤ 60

/-- A field as it is printed: the digits of `n`, filled up to `len`. -/
structure Printed (len n : Nat) (ds : List α) : Prop where
  length : ds.length = len
  digits : ∀ a ∈ ds, isDigit a = true
  value : digitsValue 0 ds = n

theorem showNat_length_le {n len : Nat} (hlen : 0 < len) (h : n < 10 ^ len) : (showNat n : List α).length ≤ len := by
  unfold showNat
  rw [List.length_map]
  exact (Nat.length_toDigits_le_iff (by decide) hlen).2 h

theorem printed_zeroFill {len n : Nat} (hlen : 0 < len) (h : n < 10 ^ len) :
    Printed len n (zeroFill len (showNat n) : List α) := by
  have hle := showNat_length_le (α := α) hlen h
  have hzero : code (ofChar '0' : α) = 48 := Alphabet.code_ofChar (by decide)
  refine ⟨?_, fun a ha => ?_, ?_⟩
  · unfold zeroFill
    rw [List.length_append, List.length_replicate]
    omega
  · rcases List.mem_append.1 ha with ha | ha
    · rw [List.eq_of_mem_replicate ha]
      unfold isDigit
      rw [hzero]
      rfl
    · exact isDigit_showNat ha
  · have hfill : ∀ k, digitsValue 0 (List.replicate k (ofChar '0' : α)) = 0 := by
      intro k
      induction k with
      | zero => rfl
      | succ k ih =>
        rw [List.replicate_succ']
        rw [digitsValue_append, ih]
        simp [digitsValue, hzero]
    unfold zeroFill
    rw [digitsValue_append, hfill, digitsValue_showNat]

theorem printed_showNat {len n : Nat} (hlo : 10 ^ len ≤ n) (h : n < 10 ^ (len + 1)) :
    Printed (len + 1) n (showNat n : List α) := by
  have hle := showNat_length_le (α := α) (Nat.succ_pos len) h
  refine ⟨le_antisymm hle ?_, fun a ha => isDigit_showNat ha, digitsValue_showNat n⟩
  unfold showNat at hle ⊢
  rw [List.length_map] at hle ⊢
  by_contra hlt
  rcases Nat.eq_zero_or_pos len with rfl | hpos
  · exact hlt (Nat.length_toDigits_pos)
  · exact absurd ((Nat.length_toDigits_le_iff (b := 10) (by decide) hpos).1 (by omega)) (not_lt.2 hlo)

theorem Printed.getNum {lo hi len n : Nat} {ds : List α} (h : Printed len n ds) (hlen : 0 < len) (hlo : lo ≤ n)
    (hhi : n ≤ hi) (rest : List α) : getNum lo hi len (ds ++ rest) = some (n, rest) := by
  have htake : ((ds ++ rest).take len).takeWhile isDigit = ds := by
    rw [List.take_append_of_le_length h.length.ge, ← h.length, List.take_length]
    exact List.takeWhile_eq_self_iff.2 h.digits
  have hne : ds.isEmpty = false := by
    cases ds with
    | nil => exact absurd h.length hlen.ne
    | cons a ds => rfl
  unfold Wire.getNum
  simp only [htake, h.value, hne, Bool.false_or, Bool.or_eq_true, decide_eq_true_eq]
  rw [if_neg (by omega), List.drop_left]

theorem Printed.getField {lo hi len n : Nat} {ds : List α} (h : Printed len n ds) (hlen : 0 < len) (hlo : lo ≤ n)
    (hhi : n ≤ hi) (set : Tm → Nat → Tm) (tm : Tm) (rest : List α) :
    getField lo hi len set (tm, some (ds ++ rest)) = (set tm n, some rest) := by
  unfold Wire.getField
  rw [Option.bind_some, h.getNum hlen hlo hhi]

/-- White space before a printed field is skipped. -/
theorem Printed.dropWhile {len n : Nat} {ds : List α} (h : Printed len n ds) (hlen : 0 < len) (rest : List α) :
    (ds ++ rest).dropWhile isSpace = ds ++ rest := by
  cases ds with
  | nil => exact absurd h.length hlen.ne
  | cons a ds =>
    have ha := isSpace_of_isDigit (h.digits a (List.mem_cons_self ..))
    exact List.dropWhile_cons_of_neg (by rw [ha]; exact Bool.false_ne_true)

theorem getChar_lit {c : Char} (hc : c.toNat < 128) (tm : Tm) (rest : List α) :
    getChar c (tm, some (ofChar c :: rest)) = (tm, some rest) := by
  unfold getChar
  simp only [Option.bind_some, Alphabet.code_ofChar hc, if_true]

theorem showInt_natCast (n : Nat) : (showInt n : List α) = showNat n := by
  unfold showInt
  rw [if_neg (by omega), Int.natAbs_natCast]

/-- `get_time` consumes what `put_time` wrote. -/
theorem getTime_putTime {tm : Tm} (h : tm.Valid) (rest : List α) :
    getTime (showInt tm.year ++ lit "-" ++ zeroFill 2 (showInt tm.month) ++ lit "-" ++ zeroFill 2 (showInt tm.day) ++
      lit " " ++ zeroFill 2 (showInt tm.hour) ++ lit ":" ++ zeroFill 2 (showInt tm.minute) ++ lit ":" ++
      zeroFill 2 (showInt tm.second) ++ rest) = (tm, some rest) := by
  obtain ⟨year, month, day, hour, minute, second⟩ := tm
  obtain ⟨hy, hmo, hd, hh, hmi, hs⟩ := h
  simp only at hy hmo hd hh hmi hs
  obtain ⟨year, rfl⟩ := Int.eq_ofNat_of_zero_le (show 0 ≤ year by omega)
  obtain ⟨month, rfl⟩ := Int.eq_ofNat_of_zero_le (show 0 ≤ month by omega)
  obtain ⟨day, rfl⟩ := Int.eq_ofNat_of_zero_le (show 0 ≤ day by omega)
  obtain ⟨hour, rfl⟩ := Int.eq_ofNat_of_zero_le hh.1
  obtain ⟨minute, rfl⟩ := Int.eq_ofNat_of_zero_le hmi.1
  obtain ⟨second, rfl⟩ := Int.eq_ofNat_of_zero_le hs.1
  have pyear : Printed 4 year (showNat year : List α) := printed_showNat (by omega) (by omega)
  have pmonth : Printed 2 month (zeroFill 2 (showNat month) : List α) := printed_zeroFill (by decide) (by omega)
  have pday : Printed 2 day (zeroFill 2 (showNat day) : List α) := printed_zeroFill (by decide) (by omega)
  have phour : Printed 2 hour (zeroFill 2 (showNat hour) : List α) := printed_zeroFill (by decide) (by omega)
  have pminute : Printed 2 minute (zeroFill 2 (showNat minute) : List α) := printed_zeroFill (by decide) (by omega)
  have psecond : Printed 2 second (zeroFill 2 (showNat second) : List α) := printed_zeroFill (by decide) (by omega)
  have hspace : ∀ l : List α, (lit " " ++ l).dropWhile isSpace = l.dropWhile isSpace := fun l => by
    refine List.dropWhile_cons_of_pos ?_
    unfold isSpace
    rw [Alphabet.code_ofChar (by decide)]
    rfl
  have hdash : ∀ l : List α, lit "-" ++ l = ofChar '-' :: l := fun l => rfl
  have hcolon : ∀ l : List α, lit ":" ++ l = ofChar ':' :: l := fun l => rfl
  simp only [showInt_natCast, List.append_assoc]
  unfold getTime
  simp only
  rw [pyear.dropWhile (by decide), pyear.getField (by decide) (by omega) (by omega), hdash, getChar_lit (by decide),
    pmonth.getField (by decide) (by omega) (by omega), hdash, getChar_lit (by decide),
    pday.getField (by decide) (by omega) (by omega), getSpace, Option.map_some, hspace, phour.dropWhile (by decide),
    phour.getField (by decide) (by omega) (by omega), hcolon, getChar_lit (by decide),
    pminute.getField (by decide) (by omega) (by omega), hcolon, getChar_lit (by decide),
    psecond.getField (by decide) (by omega) (by omega)]

/-- An integer does not begin with a point. -/
theorem readMs_point (l : List α) : readMs (some (lit "." ++ l)) = 0 := by
  have hs : isSpace (ofChar '.' : α) = false := by
    unfold isSpace
    rw [code_point]; rfl
  have hd : isDigit (ofChar '.' : α) = false := by
    unfold isDigit
    rw [code_point]; rfl
  show readInt32 (ofChar '.' :: l) = 0
  have hread : readDigits (ofChar '.' :: l) = (false, []) := by
    unfold readDigits
    rw [List.dropWhile_cons_of_neg (by rw [hs]; exact Bool.false_ne_true)]
    simp only [readSign, code_point]
    rw [if_neg (by decide), if_neg (by decide)]
    simp only
    rw [List.takeWhile_cons_of_neg (by rw [hd]; exact Bool.false_ne_true)]
  unfold readInt32
  rw [hread]
  rfl

/-- A time point comes back as its second. -/
theorem stringToTimePoint_timePointToString {localtime : Int → Tm} {mktime : Tm → Int} {t : Int}
    (hzone : mktime (localtime (t.tdiv (10 ^ 9))) = t.tdiv (10 ^ 9)) (hclock : (localtime (t.tdiv (10 ^ 9))).Valid) :
    stringToTimePoint mktime (timePointToString localtime t : List α) = t.tdiv (10 ^ 9) * 10 ^ 9 := by
  unfold stringToTimePoint timePointToString
  simp only
  rw [List.append_assoc _ (lit ".")]
  rw [getTime_putTime hclock]
  simp only
  rw [readMs_point, hzone, zero_mul, add_zero]

/-! ## Messages -/

variable [DecidableEq α]

/-- The time stamp is on the last line, so no other field is taken for it. -/
theorem OrderStatusMessage.parse_timestamp (localtime : Int → Tm) (read : List α → Int) (m : OrderStatusMessage α) :
    ∃ m', parseMessage read (m.serialize localtime) = .orderStatus m' ∧
      m'.orderTimestamp = read (timePointToString localtime m.orderTimestamp) := by
  have hlast : newline ∉ lit "timestamp=" ++ (timePointToString localtime m.orderTimestamp : List α) := fun h =>
    (List.mem_append.1 h).elim (newline_not_mem_lit (by decide)) (newline_not_mem_time _ _)
  unfold serialize
  rw [parseMessage_type read (by decide)]
  obtain ⟨pre, hpre⟩ : ∃ pre : List α, line "order_id=" m.orderId ++ (line "client_id=" m.clientId ++
      (line "symbol=" m.symbol ++ (line "side=" (lit (sideToWireString m.side)) ++
      (line "order_type=" (lit (orderTypeToWireString m.orderType)) ++ (line "price=" (showFixed2 m.price) ++
      (stopPriceLine m.stopPrice ++ (line "quantity=" (showNat m.quantity.toNat) ++
      (line "filled_quantity=" (showNat m.filledQuantity.toNat) ++ (line "status=" (lit (statusToWireString m.status)) ++
      (lit "timestamp=" ++ timePointToString localtime m.orderTimestamp)))))))))) =
      pre ++ newline :: (lit "timestamp=" ++ timePointToString localtime m.orderTimestamp) := by
    refine ⟨line "order_id=" m.orderId ++ line "client_id=" m.clientId ++ line "symbol=" m.symbol ++
      line "side=" (lit (sideToWireString m.side)) ++ line "order_type=" (lit (orderTypeToWireString m.orderType)) ++
      line "price=" (showFixed2 m.price) ++ stopPriceLine m.stopPrice ++ line "quantity=" (showNat m.quantity.toNat) ++
      line "filled_quantity=" (showNat m.filledQuantity.toNat) ++ (lit "status=" ++ lit (statusToWireString m.status)), ?_⟩
    simp [line]
  rw [hpre, lines_concat pre hlast (by simp [lit])]
  simp (disch := (simp only [IsAscii, IsKey, String.reduceToList]; decide)) only
    [parseBody, lit_inj, String.reduceEq, if_true, if_false, List.foldl_append, List.foldl_cons, List.foldl_nil]
  refine ⟨_, rfl, ?_⟩
  simp (disch := (simp only [IsAscii, IsKey, String.reduceToList]; decide)) only
    [readLine, startsWith_self, startsWith_other, if_true, Bool.false_eq_true, if_false, extractString_key]

theorem TradeNotificationMessage.parse_timestamp (localtime : Int → Tm) (read : List α → Int)
    (m : TradeNotificationMessage α) :
    ∃ m', parseMessage read (m.serialize localtime) = .tradeNotification m' ∧
      m'.tradeTimestamp = read (timePointToString localtime m.tradeTimestamp) := by
  have hlast : newline ∉ lit "timestamp=" ++ (timePointToString localtime m.tradeTimestamp : List α) := fun h =>
    (List.mem_append.1 h).elim (newline_not_mem_lit (by decide)) (newline_not_mem_time _ _)
  unfold serialize
  rw [parseMessage_type read (by decide)]
  obtain ⟨pre, hpre⟩ : ∃ pre : List α, line "buy_order_id=" m.buyOrderId ++ (line "sell_order_id=" m.sellOrderId ++
      (line "symbol=" m.symbol ++ (line "price=" (showFixed2 m.price) ++ (line "quantity=" (showNat m.quantity.toNat) ++
      (lit "timestamp=" ++ timePointToString localtime m.tradeTimestamp))))) =
      pre ++ newline :: (lit "timestamp=" ++ timePointToString localtime m.tradeTimestamp) := by
    refine ⟨line "buy_order_id=" m.buyOrderId ++ line "sell_order_id=" m.sellOrderId ++ line "symbol=" m.symbol ++
      line "price=" (showFixed2 m.price) ++ (lit "quantity=" ++ showNat m.quantity.toNat), ?_⟩
    simp [line]
  rw [hpre, lines_concat pre hlast (by simp [lit])]
  simp (disch := (simp only [IsAscii, IsKey, String.reduceToList]; decide)) only
    [parseBody, lit_inj, String.reduceEq, if_true, if_false, List.foldl_append, List.foldl_cons, List.foldl_nil]
  refine ⟨_, rfl, ?_⟩
  simp (disch := (simp only [IsAscii, IsKey, String.reduceToList]; decide)) only
    [readLine, startsWith_self, startsWith_other, if_true, Bool.false_eq_true, if_false, extractString_key]

/-- A time point truncated to whole milliseconds. -/
def truncMs (t : Int) : Int := t.tdiv (10 ^ 6) * 10 ^ 6

theorem second_eq_truncMs_iff {t : Int} (ht : 0 ≤ t) :
    t.tdiv (10 ^ 9) * 10 ^ 9 = truncMs t ↔ t.tdiv (10 ^ 6) % 1000 = 0 := by
  unfold truncMs
  rw [Int.tdiv_eq_ediv_of_nonneg ht, Int.tdiv_eq_ediv_of_nonneg ht]
  omega

/-- The time stamp of a parsed message is the one that was serialized, to the millisecond, exactly when that has no
milliseconds. -/
theorem parseMessage_timestamp {localtime : Int → Tm} {mktime : Tm → Int} {t : Int} (ht : 0 ≤ t)
    (hzone : mktime (localtime (t.tdiv (10 ^ 9))) = t.tdiv (10 ^ 9)) (hclock : (localtime (t.tdiv (10 ^ 9))).Valid) :
    (∀ m : OrderStatusMessage α, m.orderTimestamp = t → ∃ m',
      parseMessage (stringToTimePoint mktime) (m.serialize localtime) = .orderStatus m' ∧
        (m'.orderTimestamp = truncMs t ↔ t.tdiv (10 ^ 6) % 1000 = 0)) ∧
    ∀ m : TradeNotificationMessage α, m.tradeTimestamp = t → ∃ m',
      parseMessage (stringToTimePoint mktime) (m.serialize localtime) = .tradeNotification m' ∧
        (m'.tradeTimestamp = truncMs t ↔ t.tdiv (10 ^ 6) % 1000 = 0) := by
  constructor
  · rintro m rfl
    obtain ⟨m', hm', hstamp⟩ := m.parse_timestamp localtime (stringToTimePoint mktime)
    refine ⟨m', hm', ?_⟩
    rw [hstamp, stringToTimePoint_timePointToString hzone hclock, second_eq_truncMs_iff ht]
  · rintro m rfl
    obtain ⟨m', hm', hstamp⟩ := m.parse_timestamp localtime (stringToTimePoint mktime)
    refine ⟨m', hm', ?_⟩
    rw [hstamp, stringToTimePoint_timePointToString hzone hclock, second_eq_truncMs_iff ht]

/-- UTC on the first day of the epoch. -/
def firstDay (s : Int) : Tm := ⟨1970, 1, 1, s / 3600, s / 60 % 60, s % 60⟩

def firstDaySeconds (tm : Tm) : Int := tm.hour * 3600 + tm.minute * 60 + tm.second

/-- The status of an order of 00:02:03 and a half. -/
def sampleStatus : OrderStatusMessage UInt8 :=
  ⟨lit "o1", lit "alice", lit "TEST", .buy, .limit, 100, 0, 5, 0, .pending, 123500000000⟩

theorem parseMessage_timestamp_sampleStatus : ∃ m',
    parseMessage (stringToTimePoint firstDaySeconds) (sampleStatus.serialize firstDay) = .orderStatus m' ∧
      (m'.orderTimestamp = truncMs 123500000000 ↔ (123500000000 : Int).tdiv (10 ^ 6) % 1000 = 0) :=
  (parseMessage_timestamp (t := 123500000000) (by decide) (by decide)
    ⟨by decide, by decide, by decide, by decide, by decide, by decide⟩).1 sampleStatus rfl

/-- Its time stamp loses the half second. -/
theorem parseMessage_timestamp_loses :
    parseMessage (stringToTimePoint firstDaySeconds) (sampleStatus.serialize firstDay) =
        .orderStatus { sampleStatus with orderTimestamp := 123000000000 } ∧
      (123000000000 : Int) ≠ truncMs sampleStatus.orderTimestamp := by
  decide +kernel

end OrderbookGC.Wire
