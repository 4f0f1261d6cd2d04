/-
What can be reported of an order: its remainder is within its quantity, only a filled order has nothing left, and a stop
order that waits has all of it. And where a trade has its price from: an order that was in the book before the call or
came with it, which had what is traded.
-/
import OrderbookGC.Book.Progress

namespace OrderbookGC

open Container OrderBook MatchState

variable {P : Type}

namespace Order

structure Accounted (o : Order P) : Prop where
  le : o.remainingQuantity ≤ o.quantity
  left : o.status = .filled ∨ 0 < o.remainingQuantity
  waiting : o.isStopOrder = true → o.remainingQuantity = o.quantity

/-- An order that trades is no stop order. -/
theorem Accounted.advance {o o' : Order P} (h : o.Accounted) (hs : o.SameStatic o') (ht : o'.isStopOrder = false)
    (hr : o'.remainingQuantity ≤ o.remainingQuantity) (hl : o'.Sound) : o'.Accounted := by
  refine ⟨?_, ?_, fun hstop => ?_⟩
  · rw [hs.quantity]
    exact UInt32.le_trans hr h.le
  · rcases hl with hl | ⟨hf, -⟩
    · exact .inr hl.remaining
    · exact .inl hf
  · rw [ht] at hstop
    cases hstop

theorem Accounted.cancel {o : Order P} (h : o.Accounted) (hl : o.Live) : ({ o with status := .canceled } : Order P).Accounted :=
  ⟨h.le, .inr hl.remaining, h.waiting⟩

theorem Accounted.trigger {o : Order P} (h : o.Accounted) : o.trigger.2.Accounted := by
  refine ⟨?_, ?_, fun hstop => ?_⟩
  · rw [trigger_remainingQuantity, (trigger_static o).quantity]
    exact h.le
  · rw [trigger_remainingQuantity, trigger_status]
    exact h.left
  · rw [trigger_remainingQuantity, (trigger_static o).quantity]
    cases hs : o.isStopOrder with
    | true => exact h.waiting hs
    | false =>
      -- what does not wait is not triggered
      have heq : o.trigger.2 = o := by
        unfold isStopOrder at hs
        unfold Order.trigger
        cases ho : o.orderType <;> simp [ho] at hs ⊢
      rw [heq, hs] at hstop
      cases hstop

end Order

variable [LinearOrder P]

/-- A trade leaves both its orders accounted for. -/
theorem MatchState.HitEffect.accounted {order maker p : OrderPtr} {key : P} {rest : List OrderPtr} {s s' : MatchState P}
    {F : List OrderPtr} (he : HitEffect order key maker rest s s') (hI : Inv (order :: F) s.toOrderBook)
    (hp : (s.heap p).Accounted) : (s'.heap p).Accounted := by
  by_cases h1 : p = order
  · subst h1
    obtain ⟨-, hsound, hsum⟩ := he.taker_spec
    refine hp.advance (he.static p) ?_ (UInt32.le_iff_toNat_le.2 (by omega)) hsound
    rw [he.isStopOrder]
    exact hI.flightType p (List.mem_cons_self ..)
  · by_cases h2 : p = maker
    · subst h2
      obtain ⟨-, hsound, hsum⟩ := he.maker_spec
      refine hp.advance (he.static p) ?_ (UInt32.le_iff_toNat_le.2 (by omega)) hsound
      have htype := (hI.rest (he.makerMem ▸ List.mem_cons_self ..)).2.2
      rw [he.isStopOrder]
      unfold Order.isStopOrder
      rw [htype]
      rfl
    · rw [he.heapOther p h1 h2]
      exact hp

theorem MatchState.Cascade.accounted {n : Nat} {F : List OrderPtr} {s s' : MatchState P} (h : Cascade n F s s')
    (hI : Inv F s.toOrderBook) {p : OrderPtr} (hp : (s.heap p).Accounted) : (s'.heap p).Accounted := by
  refine (h.invariant (J := fun _ _ t => (t.heap p).Accounted) (fun _ _ _ _ _ hJ => hJ)
    (fun _ _ _ _ _ _ _ _ hI hJ _ he => he.accounted hI hJ) ?_ ?_ hI hp).2
  · intro _ order F t t' hI hJ _ he
    rcases he.heap p with heq | ⟨rfl, hl, -, heq⟩
    · rw [heq]; exact hJ
    · rw [heq]; exact hJ.cancel hl
  · intro _ triggered t t' hI hJ _ he
    rw [he.heap]
    split_ifs
    · exact hJ.trigger
    · exact hJ

/-- The middle of a call that began in `s₀`, with what the trades so far took. -/
structure OriginInv (order : OrderPtr) (s₀ : MatchState P) (F : List OrderPtr) (s : MatchState P) : Prop
    extends CallInv order s₀ F s where
  le : ∀ p, (s.heap p).remainingQuantity ≤ (s₀.heap p).remainingQuantity
  origin : ∀ t ∈ s.pendingTrades, ∃ p, (s₀.Held p ∨ p = order) ∧ (s₀.heap p).price = t.price ∧
    t.quantity ≤ (s₀.heap p).remainingQuantity

namespace OriginInv

variable {order : OrderPtr} {s₀ s s' : MatchState P} {F : List OrderPtr}

theorem hit {taker maker : OrderPtr} {key : P} {rest : List OrderPtr} (h : OriginInv order s₀ (taker :: F) s)
    (hI : Inv (taker :: F) s.toOrderBook) (ht : Target taker s key maker rest) (he : HitEffect taker key maker rest s s') :
    OriginInv order s₀ (taker :: F) s' := by
  refine ⟨h.toCallInv.hit hI ht he, fun p => UInt32.le_trans ?_ (h.le p), fun t htm => ?_⟩
  · rw [UInt32.le_iff_toNat_le]
    by_cases h1 : p = taker
    · have := he.taker_spec.2.2
      rw [h1]
      omega
    · by_cases h2 : p = maker
      · have := he.maker_spec.2.2
        rw [h2]
        omega
      · rw [he.heapOther p h1 h2]
  · rw [he.trades] at htm
    rcases List.mem_append.1 htm with htm | htm
    · exact h.origin t htm
    · -- the price is the maker's, and the quantity within what is left of it
      rw [List.mem_singleton.1 htm]
      have hheld : s.Held maker := .inl ⟨_, key, by rw [he.makerMem]; exact List.mem_cons_self ..⟩
      refine ⟨maker, h.known maker (.inl hheld), (h.static maker).price.symm, UInt32.le_trans ?_ (h.le maker)⟩
      rw [UInt32.le_iff_toNat_le]
      show (hitQuantity taker maker s).toNat ≤ _
      rw [hitQuantity_toNat]
      omega

theorem place {taker : OrderPtr} (h : OriginInv order s₀ (taker :: F) s) (hI : Inv (taker :: F) s.toOrderBook)
    (he : PlaceEffect taker s s') : OriginInv order s₀ F s' := by
  refine ⟨h.toCallInv.place hI he, fun p => ?_, fun t ht => h.origin t (he.frame.2.1 ▸ ht)⟩
  rcases he.heap p with heq | ⟨-, -, -, heq⟩
  · rw [heq]; exact h.le p
  · rw [heq]; exact h.le p

theorem trigger {prices : List P} {triggered : List OrderPtr} (h : OriginInv order s₀ [] s) (hI : Inv [] s.toOrderBook)
    (he : TriggerEffect prices triggered s s') : OriginInv order s₀ triggered s' := by
  refine ⟨h.toCallInv.trigger hI he, fun p => ?_, fun t ht => h.origin t (he.trades ▸ ht)⟩
  rw [he.heap]
  split_ifs
  · rw [Order.trigger_remainingQuantity]
    exact h.le p
  · exact h.le p

end OriginInv

theorem MatchState.Cascade.originInv (order : OrderPtr) {s₀ s s' : MatchState P} {n : Nat} {F : List OrderPtr}
    (h : Cascade n F s s') (hI : Inv F s.toOrderBook) (hO : OriginInv order s₀ F s) : OriginInv order s₀ [] s' :=
  (h.invariant (J := fun _ F t => OriginInv order s₀ F t)
    (fun _ _ _ _ _ hJ => ⟨⟨hJ.static, hJ.priced, hJ.untriggered, hJ.known, hJ.updates, hJ.frame, hJ.fate, hJ.trades,
      hJ.symbol, hJ.tickSize, hJ.nextPtr⟩, hJ.le, hJ.origin⟩)
    (fun _ _ _ _ _ _ _ _ hI hJ ht he => hJ.hit hI ht he) (fun _ _ _ _ _ hI hJ _ he => hJ.place hI he)
    (fun _ _ _ _ hI hJ _ he => hJ.trigger hI he) hI hO).2

namespace AddEffect

variable {order : OrderPtr} {b : OrderBook P} {out : AddOutcome P}

theorem accounted (he : AddEffect order b out) (hI : Inv [] b) {p : OrderPtr} (hp : (b.heap p).Accounted) :
    (out.state.heap p).Accounted := by
  cases he with
  | refused _ => exact hp
  | stopped _ _ _ =>
    show (((entered order b).addStopOrder order).heap p).Accounted
    rw [addStopOrder_heap]
    exact hp
  | matched ha hid hs hc => exact hc.accounted (entered_inv hI ha hid hs) hp

/-- A trade is at the price of an order of the call, and takes no more than that had. -/
theorem origin (he : AddEffect order b out) (hI : Inv [] b) {t : Trade P} (ht : .trade t ∈ out.callbacks) :
    ∃ p, (b.Held p ∨ p = order) ∧ (b.heap p).price = t.price ∧ t.quantity ≤ (b.heap p).remainingQuantity := by
  cases he with
  | refused _ => cases ht
  | stopped _ _ _ =>
    rw [mem_fireCallbacks_trade, addStopOrder_pendingTrades] at ht
    cases ht
  | matched ha hid hs hc =>
    have hO : OriginInv order (entered order b) [order] (entered order b) :=
      ⟨.entered order b, fun _ => UInt32.le_refl _, fun _ ht => (by cases ht)⟩
    exact (hc.originInv order (entered_inv hI ha hid hs) hO).origin t (mem_fireCallbacks_trade.1 ht)

end AddEffect

end OrderbookGC
