/-
How orders come into the book and leave it: the steps around the matching loop. An order enters
the flight when its id is put into the index, and leaves it by resting, by going to a stop map, or
by being dropped from the index (filled, or a market order cancelled for lack of liquidity). Each
step keeps the representation invariant with the flight changed accordingly.
-/
import OrderbookGC.Book.Invariant

namespace OrderbookGC

open Container OrderBook

variable {P : Type} [LinearOrder P]

/-! ## Entering and leaving the flight -/

namespace BookInv

variable {F : List OrderPtr} {order : OrderPtr} {b b' : OrderBook P}

/-- An order that leaves the flight without a queue also leaves the index. -/
theorem drop (hI : BookInv (order :: F) b) (hl : ∀ d, b'.levels d = b.levels d)
    (hs : ∀ d, b'.stops d = b.stops d) (hh : ∀ p, p ≠ order → b'.heap p = b.heap p)
    (hid : (b'.heap order).id = (b.heap order).id) (hi : b'.ordersById = b.ordersById.erase (b.heap order).id)
    (hn : b'.nextPtr = b.nextPtr) : BookInv F b' := by
  have hq : ∀ d k, b'.queue d k = b.queue d k := fun d k => by unfold OrderBook.queue; rw [hl]
  have hsq : ∀ d k, b'.stopQueue d k = b.stopQueue d k := fun d k => by unfold OrderBook.stopQueue; rw [hs]
  have hheld : ∀ p, b'.Held p ↔ b.Held p := fun p => by unfold Held; simp only [hq, hsq]
  have hnot : ¬ b.Held order := hI.flight order (List.mem_cons_self ..)
  have hoF : order ∉ F := (List.nodup_cons.1 hI.flightNodup).1
  have hne : ∀ {p}, b.Held p → p ≠ order := fun hp e => hnot (e ▸ hp)
  have hneF : ∀ {p}, p ∈ F → p ≠ order := fun hp e => hoF (e ▸ hp)
  constructor
  · intro d k p hp
    rw [hq] at hp
    rw [hh p (hne (.inl ⟨d, k, hp⟩))]; exact hI.rest hp
  · intro d k p hp
    rw [hsq] at hp
    rw [hh p (hne (.inr ⟨d, k, hp⟩))]; exact hI.stop hp
  · intro p hp
    rw [hheld] at hp
    rw [hh p (hne hp)]; exact hI.live hp
  · intro d k; rw [hq]; exact hI.nodup d k
  · intro d k; rw [hsq]; exact hI.nodupStop d k
  · intro d k; rw [hl]; exact hI.full d k
  · intro d k; rw [hs]; exact hI.fullStop d k
  · intro id p
    rw [hi, SortedMap.find?_erase, hheld]
    have hidp : (b'.heap p).id = (b.heap p).id := by
      by_cases hp : p = order
      · rw [hp, hid]
      · rw [hh p hp]
    rw [hidp]
    split_ifs with hc
    · constructor
      · intro hn; cases hn
      · rintro ⟨h1, h2⟩
        have hp : p = order := hI.eq_of_id (h2.imp_right (List.mem_cons_of_mem _)) (.inr (List.mem_cons_self ..))
          (h1.trans hc)
        rcases h2 with h2 | h2
        · exact absurd hp (hne h2)
        · exact absurd hp (hneF h2)
    · rw [hI.index]
      refine and_congr_right fun h1 => or_congr_right ⟨fun h2 => ?_, List.mem_cons_of_mem _⟩
      rcases List.mem_cons.1 h2 with rfl | h2
      · exact absurd h1.symm hc
      · exact h2
  · intro p hp; rw [hheld]; exact hI.flight p (List.mem_cons_of_mem _ hp)
  · exact (List.nodup_cons.1 hI.flightNodup).2
  · intro p hp; rw [hh p (hneF hp)]; exact hI.flightSound p (List.mem_cons_of_mem _ hp)
  · intro p hp; rw [hh p (hneF (List.mem_of_mem_tail hp))]; exact hI.waiting p (List.mem_of_mem_tail hp)
  · intro p hp
    rw [hn]; rw [hheld] at hp
    exact hI.alloc (hp.imp_right (List.mem_cons_of_mem _))

/-- An order that leaves the flight into the queue its fields name. -/
theorem push (hI : BookInv (order :: F) b) (hlive : (b.heap order).Live) (hh : b'.heap = b.heap)
    (hi : b'.ordersById = b.ordersById) (hn : b'.nextPtr = b.nextPtr)
    (hq : ∀ d k, b'.queue d k = b.queue d k ∨ (b'.queue d k = b.queue d k ++ [order] ∧
      (b.heap order).side = d ∧ (b.heap order).price = k ∧ (b.heap order).orderType = .limit))
    (hs : ∀ d k, b'.stopQueue d k = b.stopQueue d k ∨ (b'.stopQueue d k = b.stopQueue d k ++ [order] ∧
      (b.heap order).side = d ∧ (b.heap order).stopPrice = k ∧ (b.heap order).isStopOrder = true))
    (hmem : b'.Held order) (hf : ∀ d k, (b'.levels d).find? k ≠ some [])
    (hfs : ∀ d k, (b'.stops d).find? k ≠ some []) : BookInv F b' := by
  have hnot : ¬ b.Held order := hI.flight order (List.mem_cons_self ..)
  have hheld : ∀ p, b'.Held p ↔ b.Held p ∨ p = order := by
    intro p
    constructor
    · rintro (⟨d, k, hp⟩ | ⟨d, k, hp⟩)
      · rcases hq d k with h | ⟨h, -⟩ <;> rw [h] at hp
        · exact .inl (.inl ⟨d, k, hp⟩)
        · exact (List.mem_append.1 hp).imp (fun h => .inl ⟨d, k, h⟩) List.mem_singleton.1
      · rcases hs d k with h | ⟨h, -⟩ <;> rw [h] at hp
        · exact .inl (.inr ⟨d, k, hp⟩)
        · exact (List.mem_append.1 hp).imp (fun h => .inr ⟨d, k, h⟩) List.mem_singleton.1
    · rintro ((⟨d, k, hp⟩ | ⟨d, k, hp⟩) | rfl)
      · refine .inl ⟨d, k, ?_⟩
        rcases hq d k with h | ⟨h, -⟩ <;> rw [h]
        · exact hp
        · exact List.mem_append_left _ hp
      · refine .inr ⟨d, k, ?_⟩
        rcases hs d k with h | ⟨h, -⟩ <;> rw [h]
        · exact hp
        · exact List.mem_append_left _ hp
      · exact hmem
  have hsnoc : ∀ {l : List OrderPtr}, l.Nodup → (∀ p ∈ l, b.Held p) → (l ++ [order]).Nodup := by
    intro l hl hp
    refine List.nodup_append.2 ⟨hl, List.nodup_singleton _, fun x hx y hy => ?_⟩
    rw [List.mem_singleton] at hy
    rintro rfl
    exact hnot (hy ▸ hp x hx)
  constructor
  · intro d k p hp
    rw [hh]
    rcases hq d k with h | ⟨h, hside⟩ <;> rw [h] at hp
    · exact hI.rest hp
    · rcases List.mem_append.1 hp with hp | hp
      · exact hI.rest hp
      · rw [List.mem_singleton.1 hp]; exact hside
  · intro d k p hp
    rw [hh]
    rcases hs d k with h | ⟨h, hside⟩ <;> rw [h] at hp
    · exact hI.stop hp
    · rcases List.mem_append.1 hp with hp | hp
      · exact hI.stop hp
      · rw [List.mem_singleton.1 hp]; exact hside
  · intro p hp
    rw [hh]
    rcases (hheld p).1 hp with hp | rfl
    · exact hI.live hp
    · exact hlive
  · intro d k
    rcases hq d k with h | ⟨h, -⟩ <;> rw [h]
    · exact hI.nodup d k
    · exact hsnoc (hI.nodup d k) fun p hp => .inl ⟨d, k, hp⟩
  · intro d k
    rcases hs d k with h | ⟨h, -⟩ <;> rw [h]
    · exact hI.nodupStop d k
    · exact hsnoc (hI.nodupStop d k) fun p hp => .inr ⟨d, k, hp⟩
  · exact hf
  · exact hfs
  · intro id p
    rw [hi, hh, hI.index, hheld, List.mem_cons, or_assoc]
  · intro p hp hp'
    rcases (hheld p).1 hp' with hp' | rfl
    · exact hI.flight p (List.mem_cons_of_mem _ hp) hp'
    · exact (List.nodup_cons.1 hI.flightNodup).1 hp
  · exact (List.nodup_cons.1 hI.flightNodup).2
  · intro p hp; rw [hh]; exact hI.flightSound p (List.mem_cons_of_mem _ hp)
  · intro p hp; rw [hh]; exact hI.waiting p (List.mem_of_mem_tail hp)
  · intro p hp
    rw [hn]
    refine hI.alloc ?_
    rcases hp with hp | hp
    · rcases (hheld p).1 hp with hp | rfl
      · exact .inl hp
      · exact .inr (List.mem_cons_self ..)
    · exact .inr (List.mem_cons_of_mem _ hp)

/-- An order enters the flight when its id, not yet taken, is put into the index. -/
theorem enter (hI : BookInv [] b) (hlive : (b.heap order).Live) (hnot : ¬ b.Held order)
    (halloc : order < b.nextPtr) (hfree : b.ordersById.find? (b.heap order).id = none) :
    BookInv [order] { b with ordersById := b.ordersById.insert (b.heap order).id order } := by
  constructor
  · exact hI.rest
  · exact hI.stop
  · exact hI.live
  · exact hI.nodup
  · exact hI.nodupStop
  · exact hI.full
  · exact hI.fullStop
  · intro id p
    show (b.ordersById.insert (b.heap order).id order).find? id = some p ↔
      (b.heap p).id = id ∧ (b.Held p ∨ p ∈ [order])
    rw [SortedMap.find?_insert, List.mem_singleton]
    split_ifs with hc
    · subst hc
      constructor
      · intro h; cases h; exact ⟨rfl, .inr rfl⟩
      · rintro ⟨hid, hp | rfl⟩
        · have := hI.index.2 ⟨hid, .inl hp⟩
          rw [hfree] at this; cases this
        · rfl
    · rw [hI.index]
      refine and_congr_right fun hid => or_congr_right ⟨fun h => (List.not_mem_nil h).elim, ?_⟩
      rintro rfl; exact absurd hid.symm hc
  · intro p hp; rw [List.mem_singleton.1 hp]; exact hnot
  · exact List.nodup_singleton _
  · intro p hp; rw [List.mem_singleton.1 hp]; exact hlive.sound
  · intro p hp; cases hp
  · rintro p (hp | hp)
    · exact hI.alloc (.inl hp)
    · rw [List.mem_singleton.1 hp]; exact halloc

/-- A new object changes nothing for the orders of the book. -/
theorem allocate (hI : BookInv [] b) (o : Order P) : BookInv [] (b.alloc o).2 := by
  have hh : ∀ {p}, b.Held p → (b.alloc o).2.heap p = b.heap p := fun hp =>
    Function.update_of_ne (ne_of_lt (hI.alloc (.inl hp))) _ _
  have hheld : ∀ p, (b.alloc o).2.Held p ↔ b.Held p := fun _ => Iff.rfl
  constructor
  · intro d k p hp; rw [hh (.inl ⟨d, k, hp⟩)]; exact hI.rest hp
  · intro d k p hp; rw [hh (.inr ⟨d, k, hp⟩)]; exact hI.stop hp
  · intro p hp; rw [hh hp]; exact hI.live hp
  · exact hI.nodup
  · exact hI.nodupStop
  · exact hI.full
  · exact hI.fullStop
  · intro id p
    show b.ordersById.find? id = some p ↔ _
    rw [hI.index, hheld]
    constructor
    · rintro ⟨h1, h2 | h2⟩
      · exact ⟨by rw [hh h2]; exact h1, .inl h2⟩
      · cases h2
    · rintro ⟨h1, h2 | h2⟩
      · exact ⟨by rw [hh h2] at h1; exact h1, .inl h2⟩
      · cases h2
  · intro p hp; cases hp
  · exact .nil
  · intro p hp; cases hp
  · intro p hp; cases hp
  · rintro p (hp | hp)
    · exact Nat.lt_succ_of_lt (hI.alloc (.inl hp))
    · cases hp

end BookInv

namespace MatchState

/-! ## Rest, cancel or drop -/

/-- What `placeRemainder` does with an order that came out of the matching loop. -/
inductive PlaceEffect (order : OrderPtr) (s s' : MatchState P) : Prop
  | rest (hl : (s.heap order).Live) (ht : (s.heap order).orderType = .limit) (h : s' = s.addOrderToBook order)
  | cancel (hl : (s.heap order).Live) (ht : (s.heap order).orderType = .market)
      (h : s' = { s with
        heap := Function.update s.heap order { s.heap order with status := .canceled }
        ordersById := s.ordersById.erase (s.heap order).id })
  | drop (h0 : (s.heap order).remainingQuantity = 0) (hf : (s.heap order).status = .filled)
      (h : s' = s.eraseId (s.heap order).id)

theorem placeRemainder_effect {F : List OrderPtr} {order : OrderPtr} {s : MatchState P}
    (hI : Inv (order :: F) s.toOrderBook) : PlaceEffect order s (s.placeRemainder order) := by
  have hty := hI.flightType order (List.mem_cons_self ..)
  unfold placeRemainder
  rcases hI.flightSound order (List.mem_cons_self ..) with hl | ⟨hf, h0⟩
  · have hc : (0 < (s.heap order).remainingQuantity && (s.heap order).status ≠ .filled &&
        (s.heap order).status ≠ .canceled) = true := by
      rcases hl.status with h | h <;> simp [hl.remaining, h]
    simp only [hc, if_true]
    by_cases hm : (s.heap order).orderType = .market
    · rw [if_pos hm]
      exact .cancel hl hm (by simp [modify, eraseId, Order.cancel_of_live hl])
    · rw [if_neg hm]
      refine .rest hl ?_ rfl
      cases ht : (s.heap order).orderType <;> simp [Order.isStopOrder, ht] at hty hm ⊢
  · simp only [h0, hf]
    exact .drop h0 hf rfl

theorem addOrderToBook_queue (s : MatchState P) (order : OrderPtr) (d : OrderSide) (k : P) :
    (s.addOrderToBook order).queue d k =
      if d = (s.heap order).side ∧ k = (s.heap order).price then s.queue d k ++ [order] else s.queue d k := by
  unfold addOrderToBook OrderBook.queue
  simp only [setLevels_levels]
  by_cases hd : d = (s.heap order).side
  · subst hd
    by_cases hk : k = (s.heap order).price
    · simp [hk]
    · simp [hk, SortedMap.find?_insert]
  · simp [hd]

theorem addOrderToBook_full {s : MatchState P} (order : OrderPtr) (hf : ∀ d k, (s.levels d).find? k ≠ some [])
    (d : OrderSide) (k : P) : ((s.addOrderToBook order).levels d).find? k ≠ some [] := by
  unfold addOrderToBook
  simp only [setLevels_levels]
  by_cases hd : d = (s.heap order).side
  · subst hd
    by_cases hk : k = (s.heap order).price
    · simp [hk]
    · simpa [hk, SortedMap.find?_insert] using hf _ _
  · simpa [hd] using hf _ _

/-- The order placed leaves the flight. -/
theorem PlaceEffect.inv {F : List OrderPtr} {order : OrderPtr} {s s' : MatchState P} (h : PlaceEffect order s s')
    (hI : Inv (order :: F) s.toOrderBook) : Inv F s'.toOrderBook := by
  have hoF : ∀ p ∈ F, p ≠ order := fun p hp e => (List.nodup_cons.1 hI.flightNodup).1 (e ▸ hp)
  have hty : ∀ p ∈ F, (s.heap p).isStopOrder = false := fun p hp => hI.flightType p (List.mem_cons_of_mem _ hp)
  cases h with
  | rest hl ht h =>
    subst h
    have hh : (s.addOrderToBook order).heap = s.heap := setLevels_heap ..
    have hq := addOrderToBook_queue s order
    refine ⟨hI.toBookInv.push hl hh (setLevels_ordersById ..) (setLevels_nextPtr ..) (fun d k => ?_)
      (fun d k => .inl (by unfold OrderBook.stopQueue addOrderToBook; rw [setLevels_stops])) ?_
      (addOrderToBook_full order hI.full) (fun d k => by unfold addOrderToBook; rw [setLevels_stops]; exact hI.fullStop d k),
      fun p hp => by rw [hh]; exact hty p hp⟩
    · rw [hq]
      split_ifs with hc
      · exact .inr ⟨rfl, hc.1.symm, hc.2.symm, ht⟩
      · exact .inl rfl
    · refine .inl ⟨(s.heap order).side, (s.heap order).price, ?_⟩
      rw [hq, if_pos ⟨rfl, rfl⟩]
      simp
  | cancel hl ht h =>
    subst h
    refine ⟨hI.toBookInv.drop (fun d => by cases d <;> rfl) (fun d => by cases d <;> rfl)
      (fun p hp => Function.update_of_ne hp _ _) ?_ rfl rfl, fun p hp => ?_⟩
    · show (Function.update s.heap order _ order).id = _
      rw [Function.update_self]
    · show (Function.update s.heap order _ p).isStopOrder = _
      rw [Function.update_of_ne (hoF p hp)]; exact hty p hp
  | drop h0 hf h =>
    subst h
    exact ⟨hI.toBookInv.drop (eraseId_levels s · _) (eraseId_stops s · _) (fun p _ => rfl) rfl rfl rfl, hty⟩

/-- What rests after an order is placed rested before, or is that order. -/
theorem PlaceEffect.held {order p : OrderPtr} {s s' : MatchState P} (h : PlaceEffect order s s')
    (hp : s'.Held p) : s.Held p ∨ p = order := by
  cases h with
  | rest _ _ h =>
    subst h
    rcases hp with ⟨d, k, hk⟩ | hk
    · rw [addOrderToBook_queue] at hk
      split_ifs at hk
      · rcases List.mem_append.1 hk with hk | hk
        · exact .inl (.inl ⟨d, k, hk⟩)
        · exact .inr (List.mem_singleton.1 hk)
      · exact .inl (.inl ⟨d, k, hk⟩)
    · refine .inl (.inr ?_)
      obtain ⟨d, k, hk⟩ := hk
      unfold addOrderToBook OrderBook.stopQueue at hk
      rw [setLevels_stops] at hk
      exact ⟨d, k, hk⟩
  | cancel _ _ h => subst h; exact .inl hp
  | drop _ _ h => subst h; exact .inl hp

/-- Nothing that rests is moved by placing another order. -/
theorem PlaceEffect.held_of {order p : OrderPtr} {s s' : MatchState P} (h : PlaceEffect order s s')
    (hp : s.Held p) : s'.Held p := by
  cases h with
  | rest _ _ h =>
    subst h
    rcases hp with ⟨d, k, hk⟩ | ⟨d, k, hk⟩
    · refine .inl ⟨d, k, ?_⟩
      rw [addOrderToBook_queue]
      split_ifs
      · exact List.mem_append_left _ hk
      · exact hk
    · refine .inr ⟨d, k, ?_⟩
      unfold addOrderToBook OrderBook.stopQueue
      rw [setLevels_stops]; exact hk
  | cancel _ _ h => subst h; exact hp
  | drop _ _ h => subst h; exact hp

/-- Placing changes no remainder; the only status it changes is that of a cancelled remainder. -/
theorem PlaceEffect.heap {order : OrderPtr} {s s' : MatchState P} (h : PlaceEffect order s s')
    (p : OrderPtr) : s'.heap p = s.heap p ∨
      p = order ∧ (s.heap p).Live ∧ (s.heap p).orderType = .market ∧ s'.heap p = { s.heap p with status := .canceled } := by
  cases h with
  | rest _ _ h => subst h; exact .inl (by unfold addOrderToBook; rw [setLevels_heap])
  | cancel hl ht h =>
    subst h
    by_cases hp : p = order
    · subst hp; exact .inr ⟨rfl, hl, ht, Function.update_self ..⟩
    · exact .inl (Function.update_of_ne hp ..)
  | drop _ _ h => subst h; exact .inl rfl

end MatchState

end OrderbookGC
