/-
The price chart of the browser, `PriceChart.tsx`. `buildCandles` cuts the price history into intervals of three seconds,
by the time at which the browser received each trade, and shows a candle for each of the latest intervals with a trade
(`buildCandles_spec`). A price is an exact number here, where JavaScript has a double; times are whole milliseconds.
-/
import Mathlib.Algebra.BigOperators.Group.List.Basic
import Mathlib.Algebra.Order.Ring.Rat
import Mathlib.Data.Finset.Card
import OrderbookGC.Container.InsertionMap
import OrderbookGC.Container.Recent

namespace OrderbookGC.Frontend

open Container

/-- A trade as the chart keeps it. -/
structure PricePoint where
  price : ℚ
  quantity : Int
  time : Int
deriving DecidableEq

structure Candle where
  time : Int
  timeLabel : String
  openPrice : ℚ
  high : ℚ
  low : ℚ
  close : ℚ
  volume : Int
  range : ℚ × ℚ
deriving DecidableEq

def candleIntervalMs : Int := 3000

def maxVisibleCandles : Nat := 60

/-- `n.toString().padStart(2, '0')`. -/
def padStart2 (n : Nat) : String := if n < 10 then "0" ++ toString n else toString n

/-- Hours, minutes and seconds of a `Date`, in the time zone of the browser. -/
def formatTime (localTime : Int → Nat × Nat × Nat) (ts : Int) : String :=
  let (hh, mm, ss) := localTime ts
  padStart2 hh ++ ":" ++ padStart2 mm ++ ":" ++ padStart2 ss

/-- The interval of a point, by its begin. -/
def PricePoint.bucket (p : PricePoint) : Int := p.time / candleIntervalMs * candleIntervalMs

section Build

variable (localTime : Int → Nat × Nat × Nat)

/-- The candle of a bucket; a bucket is made with its first point. -/
def candle (time : Int) (first : PricePoint) (rest : List PricePoint) : Candle :=
  let h := (rest.map (·.price)).foldl max first.price
  let l := (rest.map (·.price)).foldl min first.price
  { time, timeLabel := formatTime localTime time, openPrice := first.price, high := h, low := l
    close := (rest.map (·.price)).getLastD first.price
    volume := (first :: rest).foldl (fun s p => s + p.quantity) 0, range := (l, h) }

def allCandles (history : List PricePoint) : List Candle :=
  (InsertionMap.groupBy PricePoint.bucket history).sorted.filterMap fun e => match e.2 with
    | [] => none
    | first :: rest => some (candle localTime e.1 first rest)

def buildCandles (history : List PricePoint) : List Candle := (allCandles localTime history).rtake maxVisibleCandles

end Build

/-! ## What a candle shows -/

/-- The points of an interval, in the order in which they came. -/
def pointsAt (history : List PricePoint) (time : Int) : List PricePoint := history.filter (·.bucket = time)

/-- The candle shows the trades of its interval. -/
structure Candle.Of (localTime : Int → Nat × Nat × Nat) (history : List PricePoint) (c : Candle) : Prop where
  opened : (pointsAt history c.time).head?.map (·.price) = some c.openPrice
  closed : (pointsAt history c.time).getLast?.map (·.price) = some c.close
  high : IsGreatest {x | ∃ p ∈ pointsAt history c.time, p.price = x} c.high
  low : IsLeast {x | ∃ p ∈ pointsAt history c.time, p.price = x} c.low
  volume : c.volume = ((pointsAt history c.time).map (·.quantity)).sum
  range : c.range = (c.low, c.high)
  timeLabel : c.timeLabel = formatTime localTime c.time

/-- The intervals with a point that are later than one. -/
def laterBuckets (history : List PricePoint) (time : Int) : Finset Int :=
  ((history.map PricePoint.bucket).filter (time < ·)).toFinset

section Spec

variable {localTime : Int → Nat × Nat × Nat} {history : List PricePoint}

/-- The candle of an interval, from its points. -/
theorem candle_of {time : Int} {first : PricePoint} {rest : List PricePoint} (h : pointsAt history time = first :: rest) :
    (candle localTime time first rest).Of localTime history := by
  have hprices : {x | ∃ p ∈ first :: rest, p.price = x} = {x | x ∈ first.price :: rest.map (·.price)} := by
    ext x
    rw [← List.map_cons (f := fun p : PricePoint => p.price), Set.mem_ofPred_eq, Set.mem_ofPred_eq, List.mem_map]
  refine ⟨?_, ?_, ?_, ?_, ?_, rfl, rfl⟩
  all_goals
    dsimp only [candle]
    rw [h]
  · rfl
  · rw [List.getLast?_cons, Option.map_some, List.getLastD_eq_getLast?, List.getLast?_map]
    cases rest.getLast? <;> rfl
  · exact hprices ▸ isGreatest_foldl_max _ _
  · exact hprices ▸ isLeast_foldl_min _ _
  · rw [List.sum_eq_foldl, List.foldl_map]

/-- A candle is determined by its interval. -/
theorem Candle.Of.eq {c c' : Candle} (h : c.Of localTime history) (h' : c'.Of localTime history) (ht : c.time = c'.time) :
    c = c' := by
  obtain ⟨h1, h2, h3, h4, h5, h6, h7⟩ := h
  obtain ⟨h1', h2', h3', h4', h5', h6', h7'⟩ := h'
  rw [ht] at h1 h2 h3 h4 h5 h7
  have ho := Option.some.inj (h1.symm.trans h1')
  have hc := Option.some.inj (h2.symm.trans h2')
  have hh := h3.unique h3'
  have hl := h4.unique h4'
  cases c
  cases c'
  simp_all

theorem mem_allCandles {c : Candle} : c ∈ allCandles localTime history ↔ c.Of localTime history := by
  unfold allCandles
  rw [List.mem_filterMap]
  constructor
  · rintro ⟨⟨time, points⟩, he, hc⟩
    obtain ⟨hpoints, -⟩ := InsertionMap.mem_entries_groupBy.1 (InsertionMap.mem_sorted.1 he)
    cases points with
    | nil => cases hc
    | cons first rest =>
      cases hc
      exact candle_of hpoints.symm
  · intro h
    cases hpoints : pointsAt history c.time with
    | nil =>
      have := h.opened
      rw [hpoints] at this
      cases this
    | cons first rest =>
      refine ⟨(c.time, first :: rest), InsertionMap.mem_sorted.2 (InsertionMap.mem_entries_groupBy.2 ⟨?_, by simp⟩), ?_⟩
      · exact hpoints.symm
      · exact congrArg some ((candle_of hpoints).eq h rfl)

/-- One candle for each bucket. -/
theorem map_time_allCandles : (allCandles localTime history).map (·.time) =
    (InsertionMap.groupBy PricePoint.bucket history).sorted.map (·.1) := by
  have hne : ∀ e ∈ (InsertionMap.groupBy PricePoint.bucket history).sorted, e.2 ≠ [] := fun e he =>
    (InsertionMap.mem_entries_groupBy.1 (InsertionMap.mem_sorted.1 he)).2
  unfold allCandles
  revert hne
  generalize (InsertionMap.groupBy PricePoint.bucket history).sorted = l
  induction l with
  | nil => intro _; rfl
  | cons e l ih =>
    intro hne
    obtain ⟨time, points⟩ := e
    cases points with
    | nil => exact absurd rfl (hne _ List.mem_cons_self)
    | cons first rest =>
      rw [List.filterMap_cons, List.map_cons, List.map_cons, ih fun e he => hne e (List.mem_cons_of_mem _ he)]
      rfl

theorem allCandles_sorted : (allCandles localTime history).Pairwise fun c c' => c.time < c'.time := by
  rw [← List.pairwise_map (f := fun c : Candle => c.time), map_time_allCandles, List.pairwise_map]
  exact InsertionMap.sorted_lt _

/-- The candles later than a time are as many as the later intervals. -/
theorem length_later (time : Int) : ((allCandles localTime history).filter fun c => time < c.time).length =
    (laterBuckets history time).card := by
  have hnodup : (((allCandles localTime history).filter fun c => time < c.time).map (·.time)).Nodup :=
    List.pairwise_map.2 ((allCandles_sorted.filter _).imp ne_of_lt)
  rw [← List.length_map (fun c : Candle => c.time), ← List.toFinset_card_of_nodup hnodup]
  congr 1
  ext b
  simp only [laterBuckets, List.mem_toFinset, List.mem_map, List.mem_filter, decide_eq_true_eq]
  constructor
  · rintro ⟨c, ⟨hc, ht⟩, rfl⟩
    have hO := mem_allCandles.1 hc
    obtain ⟨p, hp, -⟩ := hO.high.1
    obtain ⟨hmem, hb⟩ := List.mem_filter.1 hp
    exact ⟨⟨p, hmem, of_decide_eq_true hb⟩, ht⟩
  · rintro ⟨⟨p, hp, rfl⟩, ht⟩
    have hmem : p ∈ pointsAt history p.bucket := List.mem_filter.2 ⟨hp, decide_eq_true rfl⟩
    cases hpoints : pointsAt history p.bucket with
    | nil => rw [hpoints] at hmem; cases hmem
    | cons first rest =>
      have hcandle : (candle localTime p.bucket first rest).Of localTime history := candle_of hpoints
      exact ⟨_, ⟨mem_allCandles.2 hcandle, ht⟩, rfl⟩

end Spec

/-- The chart shows, in the order of time and each once, the candles of the latest sixty intervals in which there was a
trade: each opens and closes with the first and the last trade of its interval, reaches from the lowest to the highest of
their prices, and adds up their quantities. -/
theorem buildCandles_spec (localTime : Int → Nat × Nat × Nat) (history : List PricePoint) :
    ((buildCandles localTime history).Pairwise fun c c' => c.time < c'.time) ∧
    ∀ c, c ∈ buildCandles localTime history ↔
      c.Of localTime history ∧ (laterBuckets history c.time).card < maxVisibleCandles := by
  refine ⟨allCandles_sorted.sublist (List.drop_sublist _ _), fun c => ?_⟩
  unfold buildCandles
  rw [mem_rtake_iff allCandles_sorted, mem_allCandles, length_later]

end OrderbookGC.Frontend
