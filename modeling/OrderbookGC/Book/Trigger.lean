/-
The trigger loop of `processStopOrders`: for a batch of trade prices, exactly the stop orders whose
stop price one of them reaches leave the stop maps; they are triggered and put in flight, every
other stop order keeps its place. The orders of the two stop maps are rearranged, never lost or
duplicated (`takeAllTriggered_perm`), which also counts them.
-/
import OrderbookGC.Book.Place
import Mathlib.Data.List.Perm.Basic

namespace OrderbookGC

open Container OrderBook

variable {P : Type} [LinearOrder P]

/-! ## The contents of a price map -/

/-- All orders of a price map, level by level from the lowest price. -/
def contents {β : Type} (m : SortedMap P (List β)) : List β := m.entries.flatMap (·.2)

theorem mem_contents {β : Type} {m : SortedMap P (List β)} {p : β} :
    p ∈ contents m ↔ ∃ k q, m.find? k = some q ∧ p ∈ q := by
  simp only [contents, List.mem_flatMap, SortedMap.find?_eq_some_iff]
  constructor
  · rintro ⟨e, he, hp⟩; exact ⟨e.1, e.2, he, hp⟩
  · rintro ⟨k, q, he, hp⟩; exact ⟨(k, q), he, hp⟩

theorem mem_contents_levels {b : OrderBook P} {d : OrderSide} {p : OrderPtr} :
    p ∈ contents (b.levels d) ↔ ∃ k, p ∈ b.queue d k := by
  rw [mem_contents]
  constructor
  · rintro ⟨k, q, hf, hp⟩; exact ⟨k, by rw [queue_eq_of_find? hf]; exact hp⟩
  · rintro ⟨k, hp⟩; exact ⟨k, _, find?_of_mem_queue hp, hp⟩

theorem mem_contents_stops {b : OrderBook P} {d : OrderSide} {p : OrderPtr} :
    p ∈ contents (b.stops d) ↔ ∃ k, p ∈ b.stopQueue d k := by
  rw [mem_contents]
  constructor
  · rintro ⟨k, q, hf, hp⟩; exact ⟨k, by unfold stopQueue; rw [hf]; exact hp⟩
  · rintro ⟨k, hp⟩; exact ⟨k, _, find?_of_mem_stopQueue hp, hp⟩

/-- A map whose queues have no repetition and no common order has no repetition. -/
theorem nodup_contents {β : Type} {m : SortedMap P (List β)} (hn : ∀ k q, m.find? k = some q → q.Nodup)
    (hd : ∀ k k' q q' p, m.find? k = some q → m.find? k' = some q' → p ∈ q → p ∈ q' → k = k') :
    (contents m).Nodup := by
  unfold contents
  refine List.nodup_flatMap.2 ⟨fun e he => hn e.1 e.2 (SortedMap.find?_eq_some_iff.2 he), ?_⟩
  refine m.sorted.imp_of_mem fun {a c} ha hc hlt => ?_
  intro p hpa hpc
  have := hd a.1 c.1 a.2 c.2 p (SortedMap.find?_eq_some_iff.2 ha) (SortedMap.find?_eq_some_iff.2 hc) hpa hpc
  exact absurd this (ne_of_lt hlt)

namespace BookInv

variable {F : List OrderPtr} {b : OrderBook P}

theorem nodup_levels (hI : BookInv F b) (d : OrderSide) : (contents (b.levels d)).Nodup := by
  refine nodup_contents (fun k q hq => ?_) (fun k k' q q' p hq hq' hp hp' => ?_)
  · rw [← queue_eq_of_find? hq]; exact hI.nodup d k
  · rw [← queue_eq_of_find? hq] at hp
    rw [← queue_eq_of_find? hq'] at hp'
    rw [← (hI.rest hp).2.1, ← (hI.rest hp').2.1]

theorem nodup_stops (hI : BookInv F b) (d : OrderSide) : (contents (b.stops d)).Nodup := by
  have heq : ∀ {k q}, (b.stops d).find? k = some q → b.stopQueue d k = q := fun h => by
    unfold stopQueue; rw [h]; rfl
  refine nodup_contents (fun k q hq => ?_) (fun k k' q q' p hq hq' hp hp' => ?_)
  · rw [← heq hq]; exact hI.nodupStop d k
  · rw [← heq hq] at hp
    rw [← heq hq'] at hp'
    rw [← (hI.stop hp).2.1, ← (hI.stop hp').2.1]

theorem nodup_allStops (hI : BookInv F b) : (contents (b.stops .buy) ++ contents (b.stops .sell)).Nodup := by
  refine List.nodup_append.2 ⟨hI.nodup_stops .buy, hI.nodup_stops .sell, fun p hp p' hp' => ?_⟩
  rintro rfl
  obtain ⟨k, hk⟩ := mem_contents_stops.1 hp
  obtain ⟨k', hk'⟩ := mem_contents_stops.1 hp'
  have h := (hI.stop hk).1
  rw [(hI.stop hk').1] at h
  cases h

end BookInv

/-! ## Taking the triggered orders out -/

/-- A stop order of side `d` with stop price `k` is triggered by a trade at `price`. -/
def triggeredBy (d : OrderSide) (price k : P) : Bool :=
  match d with
  | .buy => decide (k ≤ price)
  | .sell => decide (price ≤ k)

/-- Some price of the batch triggers the stop orders of side `d` at `k`. -/
def reached (d : OrderSide) (prices : List P) (k : P) : Bool := prices.any (triggeredBy d · k)

theorem reached_iff {d : OrderSide} {prices : List P} {k : P} :
    reached d prices k = true ↔ ∃ price ∈ prices, triggeredBy d price k = true := by
  simp [reached]

namespace MatchState

section Take

variable {β : Type}

theorem takeTriggered_spec (price : P) (sb ss : SortedMap P (List β)) :
    let r := takeTriggered price (sb, ss)
    (∀ p, p ∈ r.1 ↔ (∃ k q, sb.find? k = some q ∧ p ∈ q ∧ triggeredBy .buy price k = true) ∨
      ∃ k q, ss.find? k = some q ∧ p ∈ q ∧ triggeredBy .sell price k = true) ∧
    (∀ k, r.2.1.find? k = if triggeredBy .buy price k = true then none else sb.find? k) ∧
    (∀ k, r.2.2.find? k = if triggeredBy .sell price k = true then none else ss.find? k) := by
  have hsell : (fun k : P => !decide (k < price)) = fun k => triggeredBy .sell price k := by
    funext k; simp [triggeredBy, ← not_lt]
  obtain ⟨b1, b2⟩ := SortedMap.popMinWhile_eq (m := sb) (t := fun k => triggeredBy .buy price k) fun a c hac h => by
    simp only [triggeredBy, decide_eq_true_eq] at h ⊢; exact hac.trans h
  obtain ⟨s1, s2⟩ := SortedMap.popMaxWhile_eq (m := ss) (t := fun k => triggeredBy .sell price k) fun a c hac h => by
    simp only [triggeredBy, decide_eq_true_eq] at h ⊢; exact h.trans hac
  intro r
  have hr : r = ((sb.popMinWhile fun k => triggeredBy .buy price k).1.flatMap (·.2) ++
      (ss.popMaxWhile fun k => triggeredBy .sell price k).1.flatMap (·.2),
      (sb.popMinWhile fun k => triggeredBy .buy price k).2, (ss.popMaxWhile fun k => triggeredBy .sell price k).2) := by
    show takeTriggered price (sb, ss) = _
    unfold takeTriggered
    rw [hsell]; rfl
  rw [hr, b1, s1]
  refine ⟨fun p => ?_, b2, s2⟩
  simp only [List.mem_append, List.mem_flatMap, List.mem_reverse, List.mem_filter, SortedMap.find?_eq_some_iff,
    Prod.exists]
  refine or_congr ?_ ?_ <;>
  · constructor
    · rintro ⟨k, q, ⟨h1, h2⟩, h3⟩; exact ⟨k, q, h1, h3, h2⟩
    · rintro ⟨k, q, h1, h3, h2⟩; exact ⟨k, q, ⟨h1, h2⟩, h3⟩

/-- Exactly the orders at reached stop prices are taken out. -/
theorem takeAllTriggered_spec : ∀ (prices : List P) (sb ss : SortedMap P (List β)),
    let r := takeAllTriggered prices (sb, ss)
    (∀ p, p ∈ r.1 ↔ (∃ k q, sb.find? k = some q ∧ p ∈ q ∧ reached .buy prices k = true) ∨
      ∃ k q, ss.find? k = some q ∧ p ∈ q ∧ reached .sell prices k = true) ∧
    (∀ k, r.2.1.find? k = if reached .buy prices k = true then none else sb.find? k) ∧
    (∀ k, r.2.2.find? k = if reached .sell prices k = true then none else ss.find? k)
  | [], sb, ss => by simp [takeAllTriggered, reached]
  | price :: prices, sb, ss => by
    obtain ⟨t1, t2, t3⟩ := takeTriggered_spec price sb ss
    rcases hr : takeTriggered price (sb, ss) with ⟨tr, sb', ss'⟩
    obtain ⟨a1, a2, a3⟩ := takeAllTriggered_spec prices sb' ss'
    simp only [hr] at t1 t2 t3
    simp only [takeAllTriggered, hr]
    have hcons : ∀ d k, reached d (price :: prices) k = (triggeredBy d price k || reached d prices k) := fun _ _ => rfl
    refine ⟨fun p => ?_, fun k => ?_, fun k => ?_⟩
    · rw [List.mem_append, t1, a1]
      simp only [hcons, t2, t3, Bool.or_eq_true]
      constructor
      · rintro ((⟨k, q, h1, h2, h3⟩ | ⟨k, q, h1, h2, h3⟩) | (⟨k, q, h1, h2, h3⟩ | ⟨k, q, h1, h2, h3⟩))
        · exact .inl ⟨k, q, h1, h2, .inl h3⟩
        · exact .inr ⟨k, q, h1, h2, .inl h3⟩
        · split_ifs at h1; exact .inl ⟨k, q, h1, h2, .inr h3⟩
        · split_ifs at h1; exact .inr ⟨k, q, h1, h2, .inr h3⟩
      · rintro (⟨k, q, h1, h2, h3⟩ | ⟨k, q, h1, h2, h3⟩)
        · by_cases hk : triggeredBy .buy price k = true
          · exact .inl (.inl ⟨k, q, h1, h2, hk⟩)
          · exact .inr (.inl ⟨k, q, by rw [if_neg hk]; exact h1, h2, h3.resolve_left hk⟩)
        · by_cases hk : triggeredBy .sell price k = true
          · exact .inl (.inr ⟨k, q, h1, h2, hk⟩)
          · exact .inr (.inr ⟨k, q, by rw [if_neg hk]; exact h1, h2, h3.resolve_left hk⟩)
    · rw [a2, t2, hcons]
      cases triggeredBy .buy price k <;> cases reached .buy prices k <;> rfl
    · rw [a3, t3, hcons]
      cases triggeredBy .sell price k <;> cases reached .sell prices k <;> rfl

theorem popMinWhile_contents (m : SortedMap P (List β)) (t : P → Bool) :
    (m.popMinWhile t).1.flatMap (·.2) ++ contents (m.popMinWhile t).2 = contents m := by
  rw [contents, contents, ← List.flatMap_append]
  show ((m.entries.takeWhile _) ++ (m.entries.dropWhile _)).flatMap _ = _
  rw [List.takeWhile_append_dropWhile]

theorem takeTriggered_perm (price : P) (sb ss : SortedMap P (List β)) :
    ((takeTriggered price (sb, ss)).1 ++ (contents (takeTriggered price (sb, ss)).2.1 ++
      contents (takeTriggered price (sb, ss)).2.2)).Perm (contents sb ++ contents ss) := by
  have hmax : ∀ (m : SortedMap P (List β)) (t : P → Bool),
      ((m.popMaxWhile t).1.flatMap (·.2) ++ contents (m.popMaxWhile t).2).Perm (contents m) := by
    intro m t
    rw [contents, contents, ← List.flatMap_append]
    refine List.Perm.flatMap_right _ ?_
    show ((m.entries.reverse.takeWhile _) ++ (m.entries.rdropWhile _)).Perm _
    have h := (List.reverse_perm (m.entries.reverse.dropWhile (t ·.1))).append_left (m.entries.reverse.takeWhile (t ·.1))
    refine h.trans ?_
    rw [List.takeWhile_append_dropWhile]
    exact List.reverse_perm _
  unfold takeTriggered
  simp only
  generalize (fun k : P => decide (k ≤ price)) = t1
  generalize (fun k : P => !decide (k < price)) = t2
  have h1 := popMinWhile_contents sb t1
  have h2 := hmax ss t2
  rw [← h1, List.append_assoc, List.append_assoc]
  refine List.Perm.append_left _ ?_
  refine (List.perm_append_comm_assoc _ _ _).trans ?_
  exact h2.append_left _

/-- The orders taken out and those left are the orders that were there. -/
theorem takeAllTriggered_perm : ∀ (prices : List P) (sb ss : SortedMap P (List β)),
    ((takeAllTriggered prices (sb, ss)).1 ++ (contents (takeAllTriggered prices (sb, ss)).2.1 ++
      contents (takeAllTriggered prices (sb, ss)).2.2)).Perm (contents sb ++ contents ss)
  | [], sb, ss => List.Perm.refl _
  | price :: prices, sb, ss => by
    have h := takeTriggered_perm price sb ss
    rcases hr : takeTriggered price (sb, ss) with ⟨tr, sb', ss'⟩
    have ih := takeAllTriggered_perm prices sb' ss'
    rw [hr] at h
    simp only [takeAllTriggered, hr, List.append_assoc]
    exact (ih.append_left tr).trans h

end Take

/-! ## The trigger step -/

theorem triggerOrders_heap : ∀ (l : List OrderPtr) (s : MatchState P) (p : OrderPtr),
    (triggerOrders l s).heap p = if p ∈ l then (s.heap p).trigger.2 else s.heap p
  | [], s, p => by simp [triggerOrders]
  | a :: l, s, p => by
    show (triggerOrders l (s.modify a (·.trigger))).heap p = _
    rw [triggerOrders_heap l, modify_heap]
    by_cases ha : p = a
    · subst ha
      by_cases hl : p ∈ l <;> simp [hl, Order.trigger_trigger]
    · simp [ha]

theorem triggerOrders_frame : ∀ (l : List OrderPtr) (s : MatchState P),
    ∃ h, triggerOrders l s = { s with heap := h }
  | [], s => ⟨s.heap, rfl⟩
  | a :: l, s => by
    obtain ⟨h, hh⟩ := triggerOrders_frame l (s.modify a (·.trigger))
    exact ⟨h, hh⟩

/-- Everything the trigger step changes, for a batch of prices. -/
structure TriggerEffect (prices : List P) (triggered : List OrderPtr) (s s' : MatchState P) : Prop where
  mem : ∀ p, p ∈ triggered ↔ ∃ d k, p ∈ s.stopQueue d k ∧ reached d prices k = true
  perm : (triggered ++ (contents s'.stopBuyOrders ++ contents s'.stopSellOrders)).Perm
    (contents s.stopBuyOrders ++ contents s.stopSellOrders)
  heap : ∀ p, s'.heap p = if p ∈ triggered then (s.heap p).trigger.2 else s.heap p
  stops : ∀ d k, (s'.stops d).find? k = if reached d prices k = true then none else (s.stops d).find? k
  levels : ∀ d, s'.levels d = s.levels d
  index : s'.ordersById = s.ordersById
  nextPtr : s'.nextPtr = s.nextPtr
  symbol : s'.symbol = s.symbol
  tickSize : s'.tickSize = s.tickSize
  trades : s'.pendingTrades = s.pendingTrades
  updates : s'.pendingOrderUpdates = s.pendingOrderUpdates
  calls : s'.matchCalls = s.matchCalls

theorem triggerStops_effect (prices : List P) (s : MatchState P) :
    TriggerEffect prices (triggerStops prices s).1 s (triggerStops prices s).2 := by
  obtain ⟨t1, t2, t3⟩ := takeAllTriggered_spec prices s.stopBuyOrders s.stopSellOrders
  have hp := takeAllTriggered_perm prices s.stopBuyOrders s.stopSellOrders
  unfold triggerStops
  rcases hr : takeAllTriggered prices (s.stopBuyOrders, s.stopSellOrders) with ⟨tr, sb, ss⟩
  simp only [hr] at t1 t2 t3 hp ⊢
  obtain ⟨h, hh⟩ := triggerOrders_frame tr { s with stopBuyOrders := sb, stopSellOrders := ss }
  have hheap := triggerOrders_heap tr { s with stopBuyOrders := sb, stopSellOrders := ss }
  rw [hh] at hheap ⊢
  refine ⟨fun p => ?_, hp, hheap, fun d k => ?_, fun d => by cases d <;> rfl, rfl, rfl, rfl, rfl, rfl, rfl, rfl⟩
  · have hq : ∀ {d k}, p ∈ s.stopQueue d k ↔ ∃ q, (s.stops d).find? k = some q ∧ p ∈ q := by
      intro d k
      constructor
      · intro hp; exact ⟨_, find?_of_mem_stopQueue hp, hp⟩
      · rintro ⟨q, h1, h2⟩; unfold stopQueue; rw [h1]; exact h2
    rw [t1]
    simp only [hq]
    constructor
    · rintro (⟨k, q, h1, h2, h3⟩ | ⟨k, q, h1, h2, h3⟩)
      · exact ⟨.buy, k, ⟨q, h1, h2⟩, h3⟩
      · exact ⟨.sell, k, ⟨q, h1, h2⟩, h3⟩
    · rintro ⟨d, k, ⟨q, h1, h2⟩, h3⟩
      cases d
      · exact .inl ⟨k, q, h1, h2, h3⟩
      · exact .inr ⟨k, q, h1, h2, h3⟩
  · cases d
    · exact t2 k
    · exact t3 k

theorem stopCount_eq (s : MatchState P) :
    s.stopCount = (contents s.stopBuyOrders ++ contents s.stopSellOrders).length := by
  simp [stopCount, contents, List.length_flatMap]

namespace TriggerEffect

variable {prices : List P} {triggered : List OrderPtr} {s s' : MatchState P}

theorem count (h : TriggerEffect prices triggered s s') : triggered.length + s'.stopCount = s.stopCount := by
  rw [stopCount_eq, stopCount_eq, ← h.perm.length_eq]
  simp

theorem nodup (h : TriggerEffect prices triggered s s') (hI : BookInv [] s.toOrderBook) : triggered.Nodup :=
  (List.nodup_append.1 (h.perm.nodup_iff.2 hI.nodup_allStops)).1

theorem stopQueue (h : TriggerEffect prices triggered s s') (d : OrderSide) (k : P) :
    s'.stopQueue d k = if reached d prices k = true then [] else s.stopQueue d k := by
  unfold OrderBook.stopQueue
  rw [h.stops]
  split_ifs <;> rfl

theorem queue (h : TriggerEffect prices triggered s s') (d : OrderSide) (k : P) : s'.queue d k = s.queue d k := by
  unfold OrderBook.queue; rw [h.levels]

theorem static (h : TriggerEffect prices triggered s s') (p : OrderPtr) : (s.heap p).SameStatic (s'.heap p) := by
  rw [h.heap]
  split_ifs
  · exact Order.trigger_static _
  · exact .refl _

/-- A triggered order was a stop order in a stop map. -/
theorem wasStop (h : TriggerEffect prices triggered s s') (hI : BookInv [] s.toOrderBook) {p : OrderPtr}
    (hp : p ∈ triggered) : (s.heap p).isStopOrder = true := by
  obtain ⟨d, k, hk, -⟩ := (h.mem p).1 hp
  exact (hI.stop hk).2.2

theorem held_iff (h : TriggerEffect prices triggered s s') (hI : BookInv [] s.toOrderBook) {p : OrderPtr} :
    s'.Held p ↔ s.Held p ∧ p ∉ triggered := by
  unfold Held
  simp only [h.queue]
  constructor
  · rintro (⟨d, k, hp⟩ | ⟨d, k, hp⟩)
    · refine ⟨.inl ⟨d, k, hp⟩, fun ht => ?_⟩
      obtain ⟨e, l, hl, -⟩ := (h.mem p).1 ht
      exact hI.not_mem_stopQueue hp hl
    · rw [h.stopQueue] at hp
      split_ifs at hp with hr
      · cases hp
      · refine ⟨.inr ⟨d, k, hp⟩, fun ht => ?_⟩
        obtain ⟨e, l, hl, hrl⟩ := (h.mem p).1 ht
        obtain ⟨h1, h2, -⟩ := hI.stop hp
        obtain ⟨h1', h2', -⟩ := hI.stop hl
        rw [h1'] at h1; rw [h2'] at h2
        subst h1 h2
        exact hr hrl
  · rintro ⟨hp | ⟨d, k, hp⟩, hno⟩
    · exact .inl hp
    · refine .inr ⟨d, k, ?_⟩
      rw [h.stopQueue, if_neg fun hr => hno ((h.mem p).2 ⟨d, k, hp, hr⟩)]
      exact hp

/-- The triggered orders leave the stop maps and are in flight. -/
theorem inv (h : TriggerEffect prices triggered s s') (hI : Inv [] s.toOrderBook) : Inv triggered s'.toOrderBook := by
  have hB := hI.toBookInv
  have hheld : ∀ {p}, p ∈ triggered → s.Held p := fun {p} hp => by
    obtain ⟨d, k, hk, -⟩ := (h.mem p).1 hp
    exact .inr ⟨d, k, hk⟩
  have hother : ∀ {p}, p ∉ triggered → s'.heap p = s.heap p := fun hp => by rw [h.heap, if_neg hp]
  have hlive : ∀ {p}, p ∈ triggered → (s'.heap p).Live := fun hp => by
    rw [h.heap, if_pos hp]; exact (hB.live (hheld hp)).trigger
  refine ⟨?_, fun p hp => ?_⟩
  · constructor
    · intro d k p hp
      rw [h.queue] at hp
      rw [hother ((h.held_iff hB).1 (.inl ⟨d, k, by rw [h.queue]; exact hp⟩)).2]
      exact hB.rest hp
    · intro d k p hp
      rw [hother ((h.held_iff hB).1 (.inr ⟨d, k, hp⟩)).2]
      rw [h.stopQueue] at hp
      split_ifs at hp with hr
      · cases hp
      · exact hB.stop hp
    · intro p hp
      obtain ⟨hp, hno⟩ := (h.held_iff hB).1 hp
      rw [hother hno]; exact hB.live hp
    · intro d k; rw [h.queue]; exact hB.nodup d k
    · intro d k
      rw [h.stopQueue]
      split_ifs
      · exact List.nodup_nil
      · exact hB.nodupStop d k
    · intro d k; rw [h.levels]; exact hB.full d k
    · intro d k
      rw [h.stops]
      split_ifs
      · simp
      · exact hB.fullStop d k
    · intro id p
      rw [h.index, hB.index, (h.static p).id, h.held_iff hB]
      refine and_congr_right fun _ => ⟨?_, ?_⟩
      · rintro (hp | hp)
        · by_cases ht : p ∈ triggered
          · exact .inr ht
          · exact .inl ⟨hp, ht⟩
        · cases hp
      · rintro (hp | hp)
        · exact .inl hp.1
        · exact .inl (hheld hp)
    · intro p hp hh; exact ((h.held_iff hB).1 hh).2 hp
    · exact h.nodup hB
    · intro p hp; exact (hlive hp).sound
    · intro p hp; exact hlive (List.mem_of_mem_tail hp)
    · rintro p (hp | hp)
      · rw [h.nextPtr]; exact hB.alloc (.inl ((h.held_iff hB).1 hp).1)
      · rw [h.nextPtr]; exact hB.alloc (.inl (hheld hp))
  · rw [h.heap, if_pos hp]
    rcases Order.trigger_not_stop (h.wasStop hB hp) with ⟨ht, -⟩ | ⟨ht, -⟩ <;> simp [Order.isStopOrder, ht]

end TriggerEffect

end MatchState

end OrderbookGC
