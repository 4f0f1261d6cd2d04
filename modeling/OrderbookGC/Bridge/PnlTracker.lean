/-
The PnL tracker of the bridge, `pnl_tracker.py`, over exact prices. Positions are kept at average
cost: what a position is worth at any price of the market, realized and unrealized, is what its fills
are worth at that price (`applyFills_accounts`). Fills are found as differences of cumulative filled
quantities against the highest seen for the order, so they do not depend on the order or the number of
the messages (`processOrderStatuses_positions`).
-/
import OrderbookGC.Container.SortedMap
import OrderbookGC.Container.Grouped
import Mathlib.Data.String.Basic
import Mathlib.Tactic.Ring
import Mathlib.Tactic.FieldSimp
import Mathlib.Tactic.Linarith
import Mathlib.Tactic.LinearCombination
import Mathlib.Algebra.Order.Field.Rat

namespace OrderbookGC.Bridge

open Container

/-! ## The tracker -/

structure Position where
  symbol : String
  /-- Long when positive, short when negative. -/
  quantity : Int
  avgEntryPrice : ℚ
  realizedPnl : ℚ
  lastTradePrice : ℚ
deriving DecidableEq

def Position.new (symbol : String) : Position := ⟨symbol, 0, 0, 0, 0⟩

structure Fill where
  orderId : String
  symbol : String
  side : String
  price : ℚ
  quantity : Int
deriving DecidableEq

/-- An entry of `_order_meta`. -/
structure OrderMeta where
  side : String
  symbol : String
  lastFilled : Int
  price : ℚ
  orderType : String

structure PnLTracker where
  initialCapital : ℚ
  positions : SortedMap String Position
  fills : List Fill
  orderMeta : SortedMap String OrderMeta

/-- The keys of an ORDER_STATUS message that the tracker reads. -/
structure OrderStatus where
  orderId : Option String
  symbol : Option String
  side : Option String
  price : Option ℚ
  filledQuantity : Option Int
  orderType : Option String

namespace OrderStatus

variable (msg : OrderStatus)

def getOrderId : String := msg.orderId.getD ""

def getSymbol : String := msg.symbol.getD ""

def getSide : String := msg.side.getD "BUY"

def getPrice : ℚ := msg.price.getD 0

def getFilledQuantity : Int := msg.filledQuantity.getD 0

def getOrderType : String := msg.orderType.getD "LIMIT"

end OrderStatus

/-- `signed_qty` of `_apply_fill`. -/
def Fill.signedQty (fill : Fill) : Int := if fill.side = "BUY" then fill.quantity else -fill.quantity

/-- `_apply_fill` on the position of the fill's symbol. -/
def Position.applyFill (pos : Position) (fill : Fill) : Position :=
  let signedQty := fill.signedQty
  let pos :=
    if pos.quantity = 0 then { pos with avgEntryPrice := fill.price, quantity := signedQty }
    else if 0 < pos.quantity ∧ 0 < signedQty ∨ pos.quantity < 0 ∧ signedQty < 0 then
      let totalCost := pos.avgEntryPrice * |pos.quantity| + fill.price * |signedQty|
      let quantity := pos.quantity + signedQty
      { pos with quantity, avgEntryPrice := if quantity ≠ 0 then totalCost / |quantity| else 0 }
    else
      let closeQty := min |signedQty| |pos.quantity|
      let realizedPnl :=
        if 0 < pos.quantity then pos.realizedPnl + (fill.price - pos.avgEntryPrice) * closeQty
        else pos.realizedPnl + (pos.avgEntryPrice - fill.price) * closeQty
      if 0 < |signedQty| - closeQty then
        -- reversed
        { pos with realizedPnl, avgEntryPrice := fill.price
                   quantity := signedQty + if signedQty < 0 then closeQty else -closeQty }
      else
        let quantity := pos.quantity + signedQty
        { pos with realizedPnl, quantity, avgEntryPrice := if quantity = 0 then 0 else pos.avgEntryPrice }
  { pos with lastTradePrice := fill.price }

namespace PnLTracker

def new : PnLTracker := ⟨100000, .empty, [], .empty⟩

/-- The position of a symbol; `_apply_fill` starts one when there is none. -/
def position (t : PnLTracker) (symbol : String) : Position := (t.positions.find? symbol).getD (.new symbol)

/-- `_apply_fill`. -/
def applyFill (t : PnLTracker) (fill : Fill) : PnLTracker :=
  { t with positions := t.positions.insert fill.symbol ((t.position fill.symbol).applyFill fill) }

/-- `process_order_status`. -/
def processOrderStatus (t : PnLTracker) (msg : OrderStatus) : PnLTracker :=
  if msg.getOrderId = "" then t
  else
    let entry := (t.orderMeta.find? msg.getOrderId).getD
      ⟨msg.getSide, msg.getSymbol, 0, msg.getPrice, msg.getOrderType⟩
    let t := { t with orderMeta := t.orderMeta.insert msg.getOrderId entry }
    if entry.lastFilled < msg.getFilledQuantity then
      let fill : Fill :=
        { orderId := msg.getOrderId, symbol := msg.getSymbol, side := msg.getSide, price := msg.getPrice
          quantity := msg.getFilledQuantity - entry.lastFilled }
      let t := { t with orderMeta := t.orderMeta.insert msg.getOrderId { entry with lastFilled := msg.getFilledQuantity }
                        fills := t.fills ++ [fill] }
      t.applyFill fill
    else t

/-- `process_trade`, for a message with this symbol and price. -/
def processTrade (t : PnLTracker) (symbol : String) (price : ℚ) : PnLTracker :=
  if symbol ≠ "" ∧ 0 < price then
    { t with positions := t.positions.insert symbol { t.position symbol with lastTradePrice := price } }
  else t

end PnLTracker

/-! ## One position -/

namespace Position

/-- What the position has made so far and is worth at a price of the market. -/
def value (pos : Position) (price : ℚ) : ℚ := pos.realizedPnl + pos.quantity * (price - pos.avgEntryPrice)

end Position

/-- What fills are worth at a price of the market. -/
def fillsValue (fills : List Fill) (price : ℚ) : ℚ := (fills.map fun f => f.signedQty * (price - f.price)).sum

/-- The signed quantity of fills. -/
def netQuantity (fills : List Fill) : Int := (fills.map Fill.signedQty).sum

/-- The fills since the last one that opened a position or reversed it. -/
def entryFills (fills : List Fill) : List Fill :=
  (fills.foldl (fun (s : Int × List Fill) f =>
    (s.1 + f.signedQty, if s.1 = 0 ∨ s.1 * (s.1 + f.signedQty) < 0 then [f] else s.2 ++ [f])) (0, [])).2


/-- What `_apply_fill` does to a position: it opens one, adds to it, takes some of it, closes it or reverses it. -/
inductive Applied (pos : Position) (fill : Fill) : Position → Prop
  | opened (hq : pos.quantity = 0) : Applied pos fill
      { pos with quantity := fill.signedQty, avgEntryPrice := fill.price, lastTradePrice := fill.price }
  | added {avg : ℚ} (hq : 0 < pos.quantity * fill.signedQty)
      (havg : avg * (pos.quantity + fill.signedQty) = pos.avgEntryPrice * pos.quantity + fill.price * fill.signedQty)
      (hlo : min pos.avgEntryPrice fill.price ≤ avg) (hhi : avg ≤ max pos.avgEntryPrice fill.price) :
      Applied pos fill { pos with quantity := pos.quantity + fill.signedQty, avgEntryPrice := avg, lastTradePrice := fill.price }
  | reduced (hq : 0 < pos.quantity * (pos.quantity + fill.signedQty)) (hd : pos.quantity * fill.signedQty < 0) :
      Applied pos fill
        { pos with quantity := pos.quantity + fill.signedQty, lastTradePrice := fill.price
                   realizedPnl := pos.realizedPnl - fill.signedQty * (fill.price - pos.avgEntryPrice) }
  | closed (hq : pos.quantity ≠ 0) (hd : pos.quantity + fill.signedQty = 0) : Applied pos fill
      { pos with quantity := 0, avgEntryPrice := 0, lastTradePrice := fill.price
                 realizedPnl := pos.realizedPnl + pos.quantity * (fill.price - pos.avgEntryPrice) }
  | reversed (hq : pos.quantity * (pos.quantity + fill.signedQty) < 0) : Applied pos fill
      { pos with quantity := pos.quantity + fill.signedQty, avgEntryPrice := fill.price, lastTradePrice := fill.price
                 realizedPnl := pos.realizedPnl + pos.quantity * (fill.price - pos.avgEntryPrice) }

/-- A mean of two prices with positive weights lies between them. -/
theorem mean_between {a p v w : ℚ} (hv : 0 < v) (hw : 0 < w) : min a p ≤ (a * v + p * w) / (v + w) ∧
    (a * v + p * w) / (v + w) ≤ max a p := by
  have hvw : 0 < v + w := add_pos hv hw
  rw [le_div_iff₀ hvw, div_le_iff₀ hvw]
  constructor
  · calc min a p * (v + w) = min a p * v + min a p * w := by ring
      _ ≤ a * v + p * w := add_le_add (mul_le_mul_of_nonneg_right (min_le_left ..) hv.le)
          (mul_le_mul_of_nonneg_right (min_le_right ..) hw.le)
  · calc a * v + p * w ≤ max a p * v + max a p * w := add_le_add (mul_le_mul_of_nonneg_right (le_max_left ..) hv.le)
          (mul_le_mul_of_nonneg_right (le_max_right ..) hw.le)
      _ = max a p * (v + w) := by ring

theorem Position.applied (pos : Position) {fill : Fill} (hd : fill.signedQty ≠ 0) : Applied pos fill (pos.applyFill fill) := by
  unfold Position.applyFill
  generalize hq : pos.quantity = q
  generalize hs : fill.signedQty = d at hd
  dsimp only
  by_cases h0 : q = 0
  · rw [if_pos h0, ← hs]
    exact .opened (hq.trans h0)
  rw [if_neg h0]
  by_cases hsame : 0 < q ∧ 0 < d ∨ q < 0 ∧ d < 0
  · rw [if_pos hsame]
    have hne : q + d ≠ 0 := by omega
    rw [if_pos hne]
    -- the mean price, with the sizes of the position and of the fill as weights
    have hsum : |q + d| = |q| + |d| := by
      rcases hsame with ⟨h1, h2⟩ | ⟨h1, h2⟩
      · rw [abs_of_pos h1, abs_of_pos h2, abs_of_pos (by omega)]
      · rw [abs_of_neg h1, abs_of_neg h2, abs_of_neg (by omega)]; omega
    have hv : (0 : ℚ) < (|q| : Int) := by exact_mod_cast abs_pos.2 h0
    have hw : (0 : ℚ) < (|d| : Int) := by exact_mod_cast abs_pos.2 hd
    obtain ⟨hlo, hhi⟩ := mean_between (a := pos.avgEntryPrice) (p := fill.price) hv hw
    rw [hsum, Int.cast_add]
    have hmean : (pos.avgEntryPrice * (|q| : Int) + fill.price * (|d| : Int)) / ((|q| : Int) + (|d| : Int)) * (q + d : ℚ) =
        pos.avgEntryPrice * q + fill.price * d := by
      rw [div_mul_eq_mul_div, div_eq_iff (add_pos hv hw).ne']
      rcases hsame with ⟨h1, h2⟩ | ⟨h1, h2⟩
      · rw [abs_of_pos h1, abs_of_pos h2]
      · rw [abs_of_neg h1, abs_of_neg h2]; push_cast; ring
    have hpos : 0 < pos.quantity * fill.signedQty := by
      rw [hq, hs]
      exact hsame.elim (fun h => mul_pos h.1 h.2) fun h => mul_pos_of_neg_of_neg h.1 h.2
    have h := Applied.added hpos (by rw [hq, hs]; exact hmean) hlo hhi
    rw [hq, hs] at h
    exact h
  rw [if_neg hsame]
  have hsign : 0 < q ∧ d < 0 ∨ q < 0 ∧ 0 < d := by omega
  -- what is closed is realized, from either side
  have hrealized : ∀ {n : Int} {c : ℚ}, (0 < q → (n : ℚ) = c) → (q < 0 → (n : ℚ) = -c) →
      (if 0 < q then pos.realizedPnl + (fill.price - pos.avgEntryPrice) * n
        else pos.realizedPnl + (pos.avgEntryPrice - fill.price) * n) =
        pos.realizedPnl + c * (fill.price - pos.avgEntryPrice) := by
    intro n c h1 h2
    rcases hsign with ⟨h, -⟩ | ⟨h, -⟩
    · rw [if_pos h, h1 h]; ring
    · rw [if_neg (by omega), h2 h]; ring
  have habs : 0 < q ∧ d < 0 ∧ |q| = q ∧ |d| = -d ∨ q < 0 ∧ 0 < d ∧ |q| = -q ∧ |d| = d :=
    hsign.imp (fun h => ⟨h.1, h.2, abs_of_pos h.1, abs_of_neg h.2⟩) fun h => ⟨h.1, h.2, abs_of_neg h.1, abs_of_pos h.2⟩
  rcases lt_trichotomy |d| |q| with hlt | heq | hgt
  · -- something is left
    rw [min_eq_left hlt.le, if_neg (by omega), if_neg (show q + d ≠ 0 by omega)]
    have hpos : 0 < pos.quantity * (pos.quantity + fill.signedQty) := by
      rw [hq, hs]
      rcases habs with ⟨h1, h2, h3, h4⟩ | ⟨h1, h2, h3, h4⟩
      · exact mul_pos h1 (by omega)
      · exact mul_pos_of_neg_of_neg h1 (by omega)
    have hneg : pos.quantity * fill.signedQty < 0 := by
      rw [hq, hs]
      exact hsign.elim (fun h => mul_neg_of_pos_of_neg h.1 h.2) fun h => mul_neg_of_neg_of_pos h.1 h.2
    have happ := Applied.reduced hpos hneg
    rw [hq, hs, sub_eq_add_neg, ← neg_mul] at happ
    rw [hrealized (c := -d) (fun h => ?_) fun h => ?_]
    · exact happ
    · rw [abs_of_neg (by omega), Int.cast_neg]
    · rw [abs_of_pos (by omega), neg_neg]
  · have hsum : q + d = 0 := by omega
    rw [heq, min_self, if_neg (by omega), if_pos hsum, hsum]
    have hzero : pos.quantity + fill.signedQty = 0 := by rw [hq, hs]; exact hsum
    have happ := Applied.closed (by rw [hq]; exact h0) hzero
    rw [hq] at happ
    rw [hrealized (c := q) (fun h => ?_) fun h => ?_]
    · exact happ
    · rw [abs_of_pos h]
    · rw [abs_of_neg h, Int.cast_neg]
  · -- more is traded than there was
    have hquantity : (d + if d < 0 then |q| else -|q|) = q + d := by
      rcases habs with ⟨h1, h2, h3, h4⟩ | ⟨h1, h2, h3, h4⟩
      · rw [if_pos h2]; omega
      · rw [if_neg (by omega)]; omega
    have hneg : pos.quantity * (pos.quantity + fill.signedQty) < 0 := by
      rw [hq, hs]
      rcases habs with ⟨h1, h2, h3, h4⟩ | ⟨h1, h2, h3, h4⟩
      · exact mul_neg_of_pos_of_neg h1 (by omega)
      · exact mul_neg_of_neg_of_pos h1 (by omega)
    have happ := Applied.reversed hneg
    rw [hq, hs] at happ
    rw [min_eq_right hgt.le, if_pos (by omega), hquantity, hrealized (c := q) (fun h => ?_) fun h => ?_]
    · exact happ
    · rw [abs_of_pos h]
    · rw [abs_of_neg h, Int.cast_neg]

theorem netQuantity_cons (f : Fill) (fills : List Fill) : netQuantity (f :: fills) = f.signedQty + netQuantity fills := rfl

@[simp] theorem netQuantity_append (fills : List Fill) (f : Fill) : netQuantity (fills ++ [f]) = netQuantity fills + f.signedQty := by
  unfold netQuantity
  rw [List.map_append, List.sum_append, List.map_singleton, List.sum_singleton]

@[simp] theorem fillsValue_append (fills : List Fill) (f : Fill) (price : ℚ) :
    fillsValue (fills ++ [f]) price = fillsValue fills price + f.signedQty * (price - f.price) := by
  unfold fillsValue
  rw [List.map_append, List.sum_append, List.map_singleton, List.sum_singleton]

theorem entryFills_append (fills : List Fill) (f : Fill) : entryFills (fills ++ [f]) =
    if netQuantity fills = 0 ∨ netQuantity fills * (netQuantity fills + f.signedQty) < 0 then [f] else entryFills fills ++ [f] := by
  have hnet : ∀ (l : List Fill) (s : Int × List Fill), (l.foldl (fun (s : Int × List Fill) f =>
      (s.1 + f.signedQty, if s.1 = 0 ∨ s.1 * (s.1 + f.signedQty) < 0 then [f] else s.2 ++ [f])) s).1 =
        s.1 + netQuantity l := by
    intro l
    induction l with
    | nil => exact fun s => (add_zero _).symm
    | cons g l ih =>
      intro s
      rw [List.foldl_cons, ih, netQuantity_cons, ← add_assoc]
  unfold entryFills
  rw [List.foldl_append, List.foldl_cons, List.foldl_nil, hnet, zero_add]

/-- A position that is what its fills add up to. -/
structure Position.Accounts (pos : Position) (fills : List Fill) : Prop where
  quantity : pos.quantity = netQuantity fills
  value : ∀ price, pos.value price = fillsValue fills price
  flat : pos.quantity = 0 → pos.avgEntryPrice = 0
  /-- The average entry price lies among the prices of the fills that built the position. -/
  entry : pos.quantity ≠ 0 → (∃ f ∈ entryFills fills, f.price ≤ pos.avgEntryPrice) ∧
    ∃ f ∈ entryFills fills, pos.avgEntryPrice ≤ f.price

namespace Position.Accounts

theorem new (symbol : String) : (Position.new symbol).Accounts [] :=
  ⟨rfl, fun price => by simp [Position.new, Position.value, fillsValue], fun _ => rfl, fun h => absurd rfl h⟩

theorem applyFill {pos : Position} {fills : List Fill} {f : Fill} (h : pos.Accounts fills) (hf : 0 < f.quantity) :
    (pos.applyFill f).Accounts (fills ++ [f]) := by
  have hd : f.signedQty ≠ 0 := by
    unfold Fill.signedQty
    split_ifs <;> omega
  have hvalue := h.value
  unfold Position.value at hvalue
  have hentry := entryFills_append fills f
  rw [← h.quantity] at hentry
  have hself : f ∈ entryFills (fills ++ [f]) := by
    rw [hentry]
    split_ifs
    · exact List.mem_singleton.2 rfl
    · exact List.mem_append_right _ (List.mem_singleton.2 rfl)
  -- while the position keeps its side, the fills that built it stay
  have hkeep : ¬ (pos.quantity = 0 ∨ pos.quantity * (pos.quantity + f.signedQty) < 0) →
      ∀ g ∈ entryFills fills, g ∈ entryFills (fills ++ [f]) := by
    intro hside g hg
    rw [hentry, if_neg hside]
    exact List.mem_append_left _ hg
  have happ := pos.applied hd
  generalize pos.applyFill f = pos' at happ
  cases happ with
  | opened hq =>
    refine ⟨?_, fun price => ?_, fun h0 => absurd h0 hd, fun _ => ⟨⟨f, hself, le_refl _⟩, f, hself, le_refl _⟩⟩
    · rw [netQuantity_append, ← h.quantity, hq, zero_add]
    · rw [fillsValue_append, ← hvalue, hq]
      unfold Position.value
      ring
  | @added avg hq havg hlo hhi =>
    have hne : pos.quantity ≠ 0 := fun h0 => by rw [h0, zero_mul] at hq; exact absurd hq (lt_irrefl _)
    have hside : 0 < pos.quantity * (pos.quantity + f.signedQty) := by
      rw [mul_add]
      exact add_pos (mul_self_pos.2 hne) hq
    obtain ⟨⟨g, hg, hglo⟩, k, hk, hkhi⟩ := h.entry hne
    have hold := hkeep fun hx => hx.elim hne fun hx => absurd hside (not_lt.2 hx.le)
    refine ⟨by rw [netQuantity_append, ← h.quantity], fun price => ?_, fun h0 => ?_, fun _ => ⟨?_, ?_⟩⟩
    · rw [fillsValue_append, ← hvalue]
      unfold Position.value
      push_cast
      linear_combination -havg
    · have h0 : pos.quantity + f.signedQty = 0 := h0
      rw [h0, mul_zero] at hside
      exact absurd hside (lt_irrefl _)
    · rcases min_le_iff.1 hlo with hle | hle
      · exact ⟨g, hold g hg, hglo.trans hle⟩
      · exact ⟨f, hself, hle⟩
    · rcases le_max_iff.1 hhi with hle | hle
      · exact ⟨k, hold k hk, hle.trans hkhi⟩
      · exact ⟨f, hself, hle⟩
  | reduced hq hneg =>
    have hne : pos.quantity ≠ 0 := fun h0 => by rw [h0, zero_mul] at hq; exact absurd hq (lt_irrefl _)
    obtain ⟨⟨g, hg, hglo⟩, k, hk, hkhi⟩ := h.entry hne
    have hold := hkeep fun hx => hx.elim hne fun hx => absurd hq (not_lt.2 hx.le)
    refine ⟨by rw [netQuantity_append, ← h.quantity], fun price => ?_, fun h0 => ?_,
      fun _ => ⟨⟨g, hold g hg, hglo⟩, k, hold k hk, hkhi⟩⟩
    · rw [fillsValue_append, ← hvalue]
      unfold Position.value
      push_cast
      ring
    · have h0 : pos.quantity + f.signedQty = 0 := h0
      rw [h0, mul_zero] at hq
      exact absurd hq (lt_irrefl _)
  | closed hq h0 =>
    have hsum : (pos.quantity + f.signedQty : ℚ) = 0 := by exact_mod_cast h0
    refine ⟨by rw [netQuantity_append, ← h.quantity, h0], fun price => ?_, fun _ => rfl, fun hne => absurd rfl hne⟩
    rw [fillsValue_append, ← hvalue]
    unfold Position.value
    push_cast
    linear_combination (f.price - price) * hsum
  | reversed hq =>
    refine ⟨by rw [netQuantity_append, ← h.quantity], fun price => ?_, fun h0 => ?_,
      fun _ => ⟨⟨f, hself, le_refl _⟩, f, hself, le_refl _⟩⟩
    · rw [fillsValue_append, ← hvalue]
      unfold Position.value
      push_cast
      ring
    · have h0 : pos.quantity + f.signedQty = 0 := h0
      rw [h0, mul_zero] at hq
      exact absurd hq (lt_irrefl _)

end Position.Accounts

/-! ## Fills on the tracker -/

namespace PnLTracker

theorem position_applyFill (t : PnLTracker) (f : Fill) (symbol : String) : (t.applyFill f).position symbol =
    if symbol = f.symbol then (t.position symbol).applyFill f else t.position symbol := by
  show ((t.positions.insert f.symbol ((t.position f.symbol).applyFill f)).find? symbol).getD _ = _
  rw [SortedMap.find?_insert]
  split_ifs with h
  · rw [h]; rfl
  · rfl

end PnLTracker

/-- The fills of a symbol. -/
def fillsOf (symbol : String) (fills : List Fill) : List Fill := fills.filter (·.symbol = symbol)

theorem fillsOf_append (symbol : String) (fills : List Fill) (f : Fill) :
    fillsOf symbol (fills ++ [f]) = if symbol = f.symbol then fillsOf symbol fills ++ [f] else fillsOf symbol fills := by
  unfold fillsOf
  rw [List.filter_append]
  by_cases h : symbol = f.symbol
  · rw [if_pos h, List.filter_cons_of_pos (by simpa using h.symm), List.filter_nil]
  · rw [if_neg h, List.filter_cons_of_neg (by simpa using Ne.symm h), List.filter_nil, List.append_nil]

/-- One more fill on the tracker: its symbol's position accounts for it, the others are as they were. -/
theorem Position.Accounts.step {t : PnLTracker} {fills : List Fill} {symbol : String} {f : Fill}
    (h : (t.position symbol).Accounts (fillsOf symbol fills)) (hf : 0 < f.quantity) :
    ((t.applyFill f).position symbol).Accounts (fillsOf symbol (fills ++ [f])) := by
  rw [PnLTracker.position_applyFill, fillsOf_append]
  split_ifs
  · exact h.applyFill hf
  · exact h

theorem applyFills_position (symbol : String) (fills : List Fill) (hq : ∀ f ∈ fills, 0 < f.quantity) :
    ((fills.foldl PnLTracker.applyFill .new).position symbol).Accounts (fillsOf symbol fills) := by
  induction fills using List.reverseRecOn with
  | nil => exact .new symbol
  | append_singleton fills f ih =>
    rw [List.foldl_append]
    exact (ih fun g hg => hq g (List.mem_append_left _ hg)).step (hq f (List.mem_append_right _ (List.mem_singleton.2 rfl)))

/-- After any fills of any symbols, each position has the net quantity of its fills; at every price it has made and is
worth what they are worth; it has no entry price when it is flat, and otherwise one among the prices of the fills since
it was last opened or reversed. -/
theorem applyFills_accounts (symbol : String) (fills : List Fill) (hq : ∀ f ∈ fills, 0 < f.quantity) :
    let pos := (fills.foldl PnLTracker.applyFill .new).position symbol
    pos.quantity = netQuantity (fillsOf symbol fills) ∧
    (∀ price, pos.realizedPnl + pos.quantity * (price - pos.avgEntryPrice) = fillsValue (fillsOf symbol fills) price) ∧
    (pos.quantity = 0 → pos.avgEntryPrice = 0) ∧
    (pos.quantity ≠ 0 → (∃ f ∈ entryFills (fillsOf symbol fills), f.price ≤ pos.avgEntryPrice) ∧
      ∃ f ∈ entryFills (fillsOf symbol fills), pos.avgEntryPrice ≤ f.price) :=
  have h := applyFills_position symbol fills hq
  ⟨h.quantity, h.value, h.flat, h.entry⟩

/-- Long, added to, reversed to short, added to, and closed in part. -/
def sampleFills : List Fill :=
  [⟨"a", "SYM", "BUY", 100, 10⟩, ⟨"b", "SYM", "BUY", 103, 5⟩, ⟨"c", "SYM", "SELL", 104, 20⟩, ⟨"d", "SYM", "SELL", 108, 5⟩,
    ⟨"e", "SYM", "BUY", 90, 4⟩]

theorem applyFills_accounts_sampleFills :
    entryFills (fillsOf "SYM" sampleFills) = sampleFills.drop 2 ∧
    let pos := (sampleFills.foldl PnLTracker.applyFill .new).position "SYM"
    pos.quantity = -6 ∧ pos.avgEntryPrice = 106 ∧ pos.realizedPnl = 109 ∧
    pos.realizedPnl + pos.quantity * (100 - pos.avgEntryPrice) = fillsValue (fillsOf "SYM" sampleFills) 100 :=
  ⟨by decide +kernel, by decide +kernel, by decide +kernel, by decide +kernel,
    (applyFills_accounts "SYM" sampleFills (by decide)).2.1 100⟩

/-! ## Finding fills -/

/-- The filled quantities reported for an order. -/
def filledOf (id : String) (msgs : List OrderStatus) : List Int :=
  (msgs.filter (·.getOrderId = id)).map (·.getFilledQuantity)

theorem filledOf_append (id : String) (msgs : List OrderStatus) (m : OrderStatus) : filledOf id (msgs ++ [m]) =
    if m.getOrderId = id then filledOf id msgs ++ [m.getFilledQuantity] else filledOf id msgs := by
  unfold filledOf
  rw [List.filter_append, List.map_append]
  by_cases h : m.getOrderId = id
  · rw [if_pos h, List.filter_cons_of_pos (by simpa using h), List.filter_nil, List.map_singleton]
  · rw [if_neg h, List.filter_cons_of_neg (by simpa using h), List.filter_nil, List.map_nil, List.append_nil]

theorem mem_filledOf {id : String} {msgs : List OrderStatus} {n : Int} :
    n ∈ filledOf id msgs ↔ ∃ m ∈ msgs, m.getOrderId = id ∧ m.getFilledQuantity = n := by
  unfold filledOf
  simp [and_assoc]

/-- The quantity recorded for an order. -/
def recorded (id : String) (fills : List Fill) : Int := ((fills.filter (·.orderId = id)).map Fill.quantity).sum

theorem recorded_append (id : String) (fills : List Fill) (f : Fill) :
    recorded id (fills ++ [f]) = recorded id fills + if f.orderId = id then f.quantity else 0 := by
  unfold recorded
  rw [List.filter_append, List.map_append, List.sum_append]
  by_cases h : f.orderId = id
  · rw [if_pos h, List.filter_cons_of_pos (by simpa using h), List.filter_nil, List.map_singleton, List.sum_singleton]
  · rw [if_neg h, List.filter_cons_of_neg (by simpa using h), List.filter_nil, List.map_nil, List.sum_nil]

namespace PnLTracker

/-- The high-water mark of an order; 0 for an order not seen. -/
def lastFilled (t : PnLTracker) (id : String) : Int := ((t.orderMeta.find? id).map (·.lastFilled)).getD 0

/-- The tracker after the messages: the mark of each order is the highest quantity reported for it, its fills add up to
the mark, and they carry the data of its messages. -/
structure Tracks (t : PnLTracker) (msgs : List OrderStatus) : Prop where
  positions : ∀ symbol, (t.position symbol).Accounts (fillsOf symbol t.fills)
  fill : ∀ f ∈ t.fills, f.orderId ≠ "" ∧ ∃ m ∈ msgs, m.getOrderId = f.orderId ∧ m.getSymbol = f.symbol ∧ m.getSide = f.side ∧
    m.getPrice = f.price
  mark : ∀ id ≠ "", t.lastFilled id = highest (filledOf id msgs)
  recorded : ∀ id ≠ "", Bridge.recorded id t.fills = highest (filledOf id msgs)

namespace Tracks

theorem new : Tracks new [] where
  positions symbol := .new symbol
  fill _ hf := by cases hf
  mark _ _ := rfl
  recorded _ _ := rfl

/-- A message that raises the mark of its order brings a fill of the difference; any other changes nothing. -/
theorem processOrderStatus {t : PnLTracker} {msgs : List OrderStatus} (h : Tracks t msgs) (m : OrderStatus) :
    Tracks (t.processOrderStatus m) (msgs ++ [m]) := by
  have hold : ∀ f ∈ t.fills, f.orderId ≠ "" ∧ ∃ m' ∈ msgs ++ [m], m'.getOrderId = f.orderId ∧ m'.getSymbol = f.symbol ∧
      m'.getSide = f.side ∧ m'.getPrice = f.price := fun f hf => by
    obtain ⟨h1, m', h2, h3⟩ := h.fill f hf
    exact ⟨h1, m', List.mem_append_left _ h2, h3⟩
  unfold PnLTracker.processOrderStatus
  by_cases hid : m.getOrderId = ""
  · rw [if_pos hid]
    have hsame : ∀ id ≠ "", filledOf id (msgs ++ [m]) = filledOf id msgs := fun id hne => by
      rw [filledOf_append, if_neg fun he => hne (he.symm.trans hid)]
    exact ⟨h.positions, hold, fun id hne => by rw [hsame id hne]; exact h.mark id hne,
      fun id hne => by rw [hsame id hne]; exact h.recorded id hne⟩
  rw [if_neg hid]
  dsimp only
  generalize hentry : (t.orderMeta.find? m.getOrderId).getD
    ⟨m.getSide, m.getSymbol, 0, m.getPrice, m.getOrderType⟩ = entry
  have hlast : entry.lastFilled = highest (filledOf m.getOrderId msgs) := by
    rw [← h.mark _ hid, ← hentry]
    unfold PnLTracker.lastFilled
    cases t.orderMeta.find? m.getOrderId <;> rfl
  -- the highest reported quantities, after the message
  have hhigh : ∀ id, highest (filledOf id (msgs ++ [m])) = if m.getOrderId = id then max entry.lastFilled m.getFilledQuantity
      else highest (filledOf id msgs) := fun id => by
    rw [filledOf_append]
    split_ifs with he
    · have hnn : 0 ≤ highest (filledOf m.getOrderId msgs) := highest_nonneg _
      rw [highest_append, highest_cons, highest_nil, ← he, hlast]
      omega
    · rfl
  have hmark : ∀ (x : OrderMeta) (id : String), (((t.orderMeta.insert m.getOrderId x).find? id).map (·.lastFilled)).getD 0 =
      if id = m.getOrderId then x.lastFilled else t.lastFilled id := fun x id => by
    rw [SortedMap.find?_insert]
    split_ifs <;> rfl
  split_ifs with hlt
  · refine ⟨fun symbol => ?_, fun f hf => ?_, fun id hne => ?_, fun id hne => ?_⟩
    · exact (h.positions symbol).step (by dsimp only; omega)
    · rcases List.mem_append.1 hf with hf | hf
      · exact hold f hf
      · rw [List.mem_singleton.1 hf]
        exact ⟨hid, m, List.mem_append_right _ (List.mem_singleton.2 rfl), rfl, rfl, rfl, rfl⟩
    · rw [hhigh]
      unfold PnLTracker.lastFilled
      show (((((t.orderMeta.insert m.getOrderId entry).insert m.getOrderId _).find? id).map (·.lastFilled)).getD 0) = _
      rw [SortedMap.find?_insert]
      by_cases he : m.getOrderId = id
      · rw [if_pos he.symm, if_pos he, max_eq_right hlt.le]; rfl
      · rw [if_neg (Ne.symm he), if_neg he, hmark, if_neg (Ne.symm he), h.mark id hne]
    · show Bridge.recorded id (t.fills ++ [_]) = _
      rw [recorded_append, h.recorded id hne, hhigh]
      dsimp only
      by_cases he : m.getOrderId = id
      · rw [if_pos he, if_pos he, max_eq_right hlt.le, hlast, he]; omega
      · rw [if_neg he, if_neg he, add_zero]
  · refine ⟨h.positions, hold, fun id hne => ?_, fun id hne => ?_⟩
    · rw [hhigh]
      unfold PnLTracker.lastFilled
      rw [hmark]
      by_cases he : m.getOrderId = id
      · rw [if_pos he.symm, if_pos he, max_eq_left (by omega)]
      · rw [if_neg (Ne.symm he), if_neg he, h.mark id hne]
    · rw [hhigh, h.recorded id hne]
      split_ifs with he
      · rw [max_eq_left (by omega), hlast, he]
      · rfl

/-- A trade message changes a last price. -/
theorem processTrade {t : PnLTracker} {msgs : List OrderStatus} (h : Tracks t msgs) (symbol : String) (price : ℚ) :
    Tracks (t.processTrade symbol price) msgs := by
  unfold PnLTracker.processTrade
  split_ifs
  · refine ⟨fun name => ?_, h.fill, h.mark, h.recorded⟩
    have hpos := h.positions name
    show (((t.positions.insert symbol { t.position symbol with lastTradePrice := price }).find? name).getD (.new name)).Accounts _
    rw [SortedMap.find?_insert]
    split_ifs with hn
    · rw [hn] at hpos ⊢
      exact ⟨hpos.quantity, hpos.value, hpos.flat, hpos.entry⟩
    · exact hpos
  · exact h

end Tracks

theorem processOrderStatuses_tracks (msgs : List OrderStatus) : Tracks (msgs.foldl processOrderStatus .new) msgs := by
  induction msgs using List.reverseRecOn with
  | nil => exact .new
  | append_singleton msgs m ih =>
    rw [List.foldl_append]
    exact ih.processOrderStatus m

end PnLTracker

/-! ## Positions from messages -/

/-- Messages of one order agree on its symbol and side. -/
def Agree (msgs : List OrderStatus) : Prop := ∀ m ∈ msgs, ∀ m' ∈ msgs, m.getOrderId = m'.getOrderId →
  m.getSymbol = m'.getSymbol ∧ m.getSide = m'.getSide

instance (msgs : List OrderStatus) : Decidable (Agree msgs) := inferInstanceAs (Decidable (∀ m ∈ msgs, ∀ m' ∈ msgs, _ → _))

/-- The orders of a symbol. -/
def orderIds (symbol : String) (msgs : List OrderStatus) : Finset String :=
  ((msgs.filter fun m => m.getSymbol = symbol ∧ m.getOrderId ≠ "").map (·.getOrderId)).toFinset

theorem mem_orderIds {symbol id : String} {msgs : List OrderStatus} :
    id ∈ orderIds symbol msgs ↔ ∃ m ∈ msgs, m.getSymbol = symbol ∧ m.getOrderId = id ∧ id ≠ "" := by
  unfold orderIds
  simp only [List.mem_toFinset, List.mem_map, List.mem_filter, decide_eq_true_eq]
  constructor
  · rintro ⟨m, ⟨hm, hs, hne⟩, rfl⟩
    exact ⟨m, hm, hs, rfl, hne⟩
  · rintro ⟨m, hm, hs, rfl, hne⟩
    exact ⟨m, ⟨hm, hs, hne⟩, rfl⟩

/-- The order buys. -/
def IsBuy (msgs : List OrderStatus) (id : String) : Prop := ∃ m ∈ msgs, m.getOrderId = id ∧ m.getSide = "BUY"

instance (msgs : List OrderStatus) (id : String) : Decidable (IsBuy msgs id) := inferInstanceAs (Decidable (∃ m ∈ msgs, _))

/-- The highest quantity reported for an order, with the sign of its side. -/
def signedFilled (msgs : List OrderStatus) (id : String) : Int :=
  if IsBuy msgs id then highest (filledOf id msgs) else -highest (filledOf id msgs)

/-- Fills of one side add up to their quantity with its sign. -/
theorem netQuantity_of_side {fills : List Fill} {side : String} (h : ∀ f ∈ fills, f.side = side) :
    netQuantity fills = if side = "BUY" then (fills.map Fill.quantity).sum else -(fills.map Fill.quantity).sum := by
  induction fills with
  | nil => simp [netQuantity]
  | cons f fills ih =>
    rw [netQuantity_cons, ih fun g hg => h g (List.mem_cons_of_mem _ hg), List.map_cons, List.sum_cons]
    unfold Fill.signedQty
    rw [h f List.mem_cons_self]
    split_ifs
    · rfl
    · omega

namespace PnLTracker.Tracks

variable {t : PnLTracker} {msgs : List OrderStatus}

/-- The fills of a symbol that belong to one of its orders are all fills of that order. -/
theorem fillsOf_filter (h : Tracks t msgs) (ha : Agree msgs) {symbol id : String} (hid : id ∈ orderIds symbol msgs) :
    (fillsOf symbol t.fills).filter (·.orderId = id) = t.fills.filter (·.orderId = id) := by
  unfold fillsOf
  rw [List.filter_filter]
  refine List.filter_congr fun f hf => ?_
  by_cases he : f.orderId = id
  · obtain ⟨m, hm, hs, hmid, -⟩ := mem_orderIds.1 hid
    obtain ⟨-, m', hm', hid', hs', -⟩ := h.fill f hf
    have hsym := (ha m hm m' hm' (by rw [hmid, hid', he])).1
    simp [he, ← hs', ← hsym, hs]
  · simp [he]

theorem quantity (h : Tracks t msgs) (ha : Agree msgs) (symbol : String) :
    (t.position symbol).quantity = ∑ id ∈ orderIds symbol msgs, signedFilled msgs id := by
  rw [(h.positions symbol).quantity]
  have hkeys : ∀ f ∈ fillsOf symbol t.fills, f.orderId ∈ orderIds symbol msgs := fun f hf => by
    obtain ⟨hf, hs⟩ := List.mem_filter.1 hf
    obtain ⟨hne, m, hm, hid, hsym, -⟩ := h.fill f hf
    exact mem_orderIds.2 ⟨m, hm, hsym.trans (by simpa using hs), hid, hne⟩
  unfold netQuantity
  rw [sum_map_eq_sum_keys Fill.orderId Fill.signedQty (orderIds symbol msgs) _ hkeys]
  refine Finset.sum_congr rfl fun id hid => ?_
  rw [h.fillsOf_filter ha hid]
  obtain ⟨m, hm, -, hmid, hne⟩ := mem_orderIds.1 hid
  -- the fills of the order have the side of its messages
  have hside : ∀ f ∈ t.fills.filter (·.orderId = id), f.side = m.getSide := fun f hf => by
    obtain ⟨hf, he⟩ := List.mem_filter.1 hf
    obtain ⟨-, m', hm', hid', -, hs', -⟩ := h.fill f hf
    rw [← hs', (ha m hm m' hm' (by rw [hmid, hid']; exact (of_decide_eq_true he).symm)).2]
  have hbuy : IsBuy msgs id ↔ m.getSide = "BUY" :=
    ⟨fun ⟨m', hm', hid', hs'⟩ => by rw [(ha m hm m' hm' (hmid.trans hid'.symm)).2, hs'], fun hs => ⟨m, hm, hmid, hs⟩⟩
  have hnet := netQuantity_of_side hside
  have hrec : ((t.fills.filter (·.orderId = id)).map Fill.quantity).sum = highest (filledOf id msgs) := h.recorded id hne
  rw [hrec] at hnet
  unfold signedFilled
  simp only [hbuy]
  exact hnet

end PnLTracker.Tracks

/-- Which orders there are, and what each comes to, depends on the messages and not on their order or number. -/
theorem sum_signedFilled_congr {msgs msgs' : List OrderStatus} (h : ∀ m, m ∈ msgs' ↔ m ∈ msgs) (symbol : String) :
    ∑ id ∈ orderIds symbol msgs', signedFilled msgs' id = ∑ id ∈ orderIds symbol msgs, signedFilled msgs id := by
  have hids : orderIds symbol msgs' = orderIds symbol msgs := by
    ext id
    simp only [mem_orderIds, h]
  rw [hids]
  refine Finset.sum_congr rfl fun id _ => ?_
  have hhigh : highest (filledOf id msgs') = highest (filledOf id msgs) :=
    highest_congr fun n => by simp only [mem_filledOf, h]
  have hbuy : IsBuy msgs' id ↔ IsBuy msgs id := by
    unfold IsBuy
    simp only [h]
  unfold signedFilled
  simp only [hhigh, hbuy]

/-- After any messages, in which those of one order agree on its symbol and side: the fills recorded for each order add
up to the highest filled quantity reported for it; each position is the sum of these over the orders of its symbol, sells
negative; and the same messages in another order, or repeated, lead to the same positions. -/
theorem processOrderStatuses_positions (msgs : List OrderStatus) (ha : Agree msgs) :
    let t := msgs.foldl PnLTracker.processOrderStatus .new
    (∀ id ≠ "", recorded id t.fills = highest (filledOf id msgs)) ∧ (∀ f ∈ t.fills, f.orderId ≠ "") ∧
    (∀ symbol, (t.position symbol).quantity = ∑ id ∈ orderIds symbol msgs, signedFilled msgs id) ∧
    ∀ msgs' : List OrderStatus, (∀ m, m ∈ msgs' ↔ m ∈ msgs) → ∀ symbol,
      ((msgs'.foldl PnLTracker.processOrderStatus .new).position symbol).quantity = (t.position symbol).quantity := by
  have h := PnLTracker.processOrderStatuses_tracks msgs
  refine ⟨h.recorded, fun f hf => (h.fill f hf).1, h.quantity ha, fun msgs' hmem symbol => ?_⟩
  have ha' : Agree msgs' := fun m hm m' hm' => ha m ((hmem m).1 hm) m' ((hmem m').1 hm')
  rw [(PnLTracker.processOrderStatuses_tracks msgs').quantity ha', h.quantity ha, sum_signedFilled_congr hmem]

/-- A fill reported twice, a stale report after it, and an order of the other side that turns the position. -/
def sampleStatuses : List OrderStatus :=
  [⟨some "a", some "SYM", some "BUY", some 100, some 0, none⟩, ⟨some "a", some "SYM", some "BUY", some 100, some 4, none⟩,
    ⟨some "b", some "SYM", some "SELL", some 101, some 6, none⟩, ⟨some "a", some "SYM", some "BUY", some 100, some 4, none⟩,
    ⟨some "a", some "SYM", some "BUY", some 100, some 1, none⟩]

theorem processOrderStatuses_positions_sampleStatuses :
    recorded "a" (sampleStatuses.foldl PnLTracker.processOrderStatus .new).fills = 4 ∧
    ((sampleStatuses.reverse.foldl PnLTracker.processOrderStatus .new).position "SYM").quantity = -2 := by
  have h := processOrderStatuses_positions sampleStatuses (by decide +kernel)
  refine ⟨(h.1 "a" (by decide)).trans (by decide +kernel), ?_⟩
  rw [h.2.2.2 _ fun m => List.mem_reverse]
  decide +kernel

end OrderbookGC.Bridge
