/-
Which orders a call of `addOrder` leaves in the book. The incoming order stays when it waits as a stop order, or when
it has a limit and the trades of the call do not use it up. An order of the book stays, or is announced, or is a `STOP`
order that the trades reached and gave nothing: that one is cancelled without a word.
-/
import OrderbookGC.Book.Progress

namespace OrderbookGC

open Container OrderBook MatchState

variable {P : Type} [LinearOrder P]

/-- Only an order without a limit is cancelled by a call. -/
theorem MatchState.Cascade.canceled {n : Nat} {F : List OrderPtr} {s s' : MatchState P} (h : Cascade n F s s')
    (hI : Inv F s.toOrderBook) (p : OrderPtr) (hp : (s'.heap p).status = .canceled) :
    (s.heap p).status = .canceled ∨ ¬ (s'.heap p).Priced := by
  refine (h.invariant (J := fun _ _ t => ∀ p, (t.heap p).status = .canceled →
    (s.heap p).status = .canceled ∨ ¬ (t.heap p).Priced) (fun _ _ _ _ _ hJ => hJ) ?_ ?_ ?_ hI fun p hp => .inl hp).2 p hp
  · intro _ order F key maker rest t t' hI hJ _ he p hp
    have hfill : ∀ q, (t'.heap q).Sound → (t'.heap q).status ≠ .canceled := fun q hs hc => by
      rcases hs with hl | ⟨hf, -⟩
      · rcases hl.status with hs | hs <;> rw [hs] at hc <;> cases hc
      · rw [hf] at hc
        cases hc
    by_cases h1 : p = order
    · exact absurd hp (hfill p (h1 ▸ he.taker_spec.2.1))
    · by_cases h2 : p = maker
      · exact absurd hp (hfill p (h2 ▸ he.maker_spec.2.1))
      · rw [he.heapOther p h1 h2] at hp ⊢
        exact hJ p hp
  · intro _ order F t t' hI hJ _ he p hp
    rcases he.heap p with heq | ⟨-, -, hm, heq⟩
    · rw [heq] at hp ⊢
      exact hJ p hp
    · right
      rw [heq]
      unfold Order.Priced
      simp [hm]
  · intro _ triggered t t' hI hJ _ he p hp
    rw [he.heap] at hp ⊢
    split_ifs at hp ⊢
    · rw [Order.trigger_status] at hp
      rw [Order.trigger_priced]
      exact hJ p hp
    · exact hJ p hp

section Outcome

variable {b : OrderBook P} {o : Order P} {out : AddOutcome P}

theorem AddEffect.canceled {order : OrderPtr} (he : AddEffect order b out) (hI : Inv [] b) {p : OrderPtr}
    (hp : (out.state.heap p).status = .canceled) : (b.heap p).status = .canceled ∨ ¬ (b.heap p).Priced := by
  rw [← (he.call hI).priced p]
  cases he with
  | refused _ => exact .inl hp
  | stopped _ _ _ =>
    have hp : (((entered order b).addStopOrder order).heap p).status = .canceled := hp
    rw [addStopOrder_heap] at hp
    exact .inl hp
  | matched ha hid hs hc => exact hc.canceled (entered_inv hI ha hid hs) p hp

theorem AddEffect.accepted_of_trade {order : OrderPtr} (he : AddEffect order b out) {t : Trade P}
    (ht : t ∈ out.state.pendingTrades) : out.accepted = true := by
  cases he with
  | refused _ => cases ht
  | stopped _ _ _ | matched _ _ _ _ => rfl

/-- An order of the call that has a limit and something left stays in the book. -/
theorem AddEffect.held_of_priced (he : AddEffect b.nextPtr (b.alloc o).2 out) (hI : Inv [] b) (hI' : Inv [] (b.alloc o).2)
    (hacc : out.accepted = true) {p : OrderPtr} (hp : b.Held p ∨ p = b.nextPtr) (hl : ((b.alloc o).2.heap p).Live)
    (hprice : ((b.alloc o).2.heap p).Priced) (hrem : (out.state.heap p).remainingQuantity ≠ 0) : out.state.Held p := by
  refine ((he.call hI').fate hacc p hp).resolve_right ?_
  rintro (hf | hc)
  · exact hrem ((he.filled_iff hI hI' hacc hp).1 hf)
  · rcases he.canceled hI' hc with hc | hc
    · rcases hl.status with hs | hs <;> rw [hs] at hc <;> cases hc
    · exact hc hprice

/-- An order that is neither a stop order nor has a limit does not stay in the book. -/
theorem CallEffect.not_held {order : OrderPtr} (h : CallEffect order b out) {p : OrderPtr} (hprice : ¬ (b.heap p).Priced)
    (hs : (out.state.heap p).isStopOrder = false) : ¬ out.state.Held p := by
  rintro (⟨d, k, hp⟩ | ⟨d, k, hp⟩)
  · exact hprice ((h.priced p).1 (.inl (h.inv.rest hp).2.2))
  · rw [(h.inv.stop hp).2.2] at hs
    cases hs

/-- The trades that price-time priority makes from the book before the call do not use the order up, and it can wait. -/
def Rests (b : OrderBook P) (o : Order P) : Prop :=
  o.remainingQuantity ≠ 0 ∧ (o.isStopOrder = true ∨ o.orderType = .limit ∧
    ∀ e, (b.alloc o).2.toRef.addOrder o.ref = some e →
      ((e.trades.filter fun t => t.buyOrderId = o.id ∨ t.sellOrderId = o.id).map (·.quantity)).sum < o.remainingQuantity.toNat)

instance (b : OrderBook P) (o : Order P) : Decidable (Rests b o) :=
  inferInstanceAs (Decidable (_ ∧ (_ ∨ _ ∧ ∀ e ∈ (b.alloc o).2.toRef.addOrder o.ref, _)))

omit [LinearOrder P] in
theorem sum_refTrades (id : String) (ts : List (Trade P)) :
    (((ts.map Trade.ref).filter fun t => t.buyOrderId = id ∨ t.sellOrderId = id).map (·.quantity)).sum = traded id ts := by
  unfold traded
  rw [List.filter_map, List.map_map]
  refine congrArg (fun l => (List.map _ l).sum) (List.filter_congr fun t _ => ?_)
  rfl

/-- An order whose id is free is in the book after its call exactly when it rests. -/
theorem AddEffect.rests_iff (he : AddEffect b.nextPtr (b.alloc o).2 out) (hI : Inv [] b) (hI' : Inv [] (b.alloc o).2)
    (hid : b.ordersById.find? o.id = none) :
    out.state.Held b.nextPtr ↔ Rests b o := by
  have hself : (b.alloc o).2.heap b.nextPtr = o := Function.update_self ..
  have hcall := he.call hI'
  have hfree : ¬ (b.alloc o).2.Held b.nextPtr := fun hp => absurd (hI.alloc (.inl hp)) (Nat.lt_irrefl _)
  obtain ⟨e, hre, htr⟩ := he.refTrades hI'
  rw [hself] at hre
  have hsum : ((e.trades.filter fun t => t.buyOrderId = o.id ∨ t.sellOrderId = o.id).map (·.quantity)).sum =
      traded o.id out.state.pendingTrades := by rw [htr, sum_refTrades]
  cases he with
  | refused h =>
    have h0 : o.remainingQuantity = 0 := by
      rw [hself] at h
      refine h.resolve_right fun ⟨p, hp⟩ => ?_
      rw [show b.ordersById.find? o.id = some p from hp] at hid
      cases hid
    exact iff_of_false hfree fun hr => hr.1 h0
  | stopped ha _ hs =>
    rw [hself] at hs
    refine iff_of_true (addStopOrder_held.2 (.inr rfl)) ⟨?_, .inl hs⟩
    have := ha.live
    rw [hself] at this
    exact UInt32.pos_iff_ne_zero.1 this.remaining
  | @matched s' ha hid' hs hc =>
    have hlive := ha.live
    rw [hself] at hs hlive
    have he : AddEffect b.nextPtr (b.alloc o).2 ⟨true, s', fireCallbacks b.nextPtr s'⟩ :=
      .matched ha hid' (by rw [hself]; exact hs) hc
    have hbal := he.balance hI hI' rfl (.inr rfl)
    rw [hself] at hbal
    by_cases ht : o.orderType = .limit
    · -- a limit order stays when it has something left
      have hpriced : ((b.alloc o).2.heap b.nextPtr).Priced := by rw [hself]; exact .inl ht
      have hheld : s'.Held b.nextPtr ↔ (s'.heap b.nextPtr).remainingQuantity ≠ 0 :=
        ⟨fun hp => UInt32.pos_iff_ne_zero.1 (hcall.inv.live hp).remaining,
          he.held_of_priced hI hI' rfl (.inr rfl) ha.live hpriced⟩
      have hzero : (s'.heap b.nextPtr).remainingQuantity = 0 ↔ (s'.heap b.nextPtr).remainingQuantity.toNat = 0 :=
        UInt32.toNat_inj.symm
      rw [hheld, Ne, hzero]
      have hbal : o.remainingQuantity.toNat = (s'.heap b.nextPtr).remainingQuantity.toNat + traded o.id s'.pendingTrades := hbal
      constructor
      · refine fun hne => ⟨UInt32.pos_iff_ne_zero.1 hlive.remaining, .inr ⟨ht, fun e' he' => ?_⟩⟩
        rw [hre] at he'
        cases he'
        rw [hsum]
        show traded o.id s'.pendingTrades < _
        omega
      · rintro ⟨-, hstop | ⟨-, hlt⟩⟩
        · rw [hs] at hstop
          cases hstop
        · have hlt : traded o.id s'.pendingTrades < o.remainingQuantity.toNat := hsum ▸ hlt e hre
          omega
    · refine iff_of_false (hcall.not_held ?_ ?_) ?_
      · rw [hself]
        rintro (h | h)
        · exact ht h
        · unfold Order.isStopOrder at hs
          simp [h] at hs
      · cases hst : (s'.heap b.nextPtr).isStopOrder with
        | false => rfl
        | true =>
          have := hcall.untriggered b.nextPtr hst
          rw [hself, hs] at this
          cases this
      · rintro ⟨-, hstop | ⟨hlim, -⟩⟩
        · rw [hs] at hstop
          cases hstop
        · exact ht hlim

/-- An order of the book that is not announced leaves it exactly when it is a `STOP` order that the trades reach. -/
theorem AddEffect.dropped_iff (he : AddEffect b.nextPtr (b.alloc o).2 out) (hI : Inv [] b) (hI' : Inv [] (b.alloc o).2)
    (hacc : out.accepted = true) {p : OrderPtr} (hp : b.Held p) (hno : .order p ∉ out.callbacks) :
    ¬ out.state.Held p ↔ (b.heap p).orderType = .stop ∧
      ∃ d k, p ∈ b.stopQueue d k ∧ reachedBy d out.state.pendingTrades k = true := by
  have hC := he.changes hI' hacc
  have hcall := he.call hI'
  have hheap : (b.alloc o).2.heap p = b.heap p := Function.update_of_ne (Nat.ne_of_lt (hI.alloc (.inl hp))) ..
  have hq : ∀ d k, (b.alloc o).2.stopQueue d k = b.stopQueue d k := fun d k => by cases d <;> rfl
  have hlive : ((b.alloc o).2.heap p).Live := by rw [hheap]; exact hI.live hp
  constructor
  · intro hgone
    have hne : out.state.heap p ≠ (b.alloc o).2.heap p := fun heq => by
      have hfin := (hcall.fate hacc p (.inl hp)).resolve_left hgone
      rw [heq] at hfin
      exact hlive.not_finished hfin
    obtain ⟨d, k, hk, hr⟩ := hC.unannounced p hno hne
    refine ⟨?_, d, k, hq d k ▸ hk, hr⟩
    -- a stop limit order would have gone to the book with all it had
    have hstop := (hI.stop (hq d k ▸ hk)).2.2
    have hpriced : ¬ ((b.alloc o).2.heap p).Priced := fun hprice => hgone <|
      he.held_of_priced hI hI' hacc (.inl hp) hlive hprice fun h0 => by
        have hbal := he.settles hI hI' (.inl hp)
        rw [he.traded_eq_zero hI' fun q hq hid => hno ?_, h0, Nat.add_zero] at hbal
        · exact UInt32.pos_iff_ne_zero.1 hlive.remaining (UInt32.toNat_inj.1 hbal)
        · exact hcall.eq_of_id hI' hacc (.inl hp) (hcall.announced q hq) hid.symm ▸ hq
    rw [hheap] at hpriced
    unfold Order.isStopOrder at hstop
    unfold Order.Priced at hpriced
    cases ht : (b.heap p).orderType <;> simp [ht] at hstop hpriced ⊢
  · rintro ⟨ht, d, k, hk, hr⟩
    refine hcall.not_held ?_ (hC.untyped d k p (hq d k ▸ hk) hr)
    rw [hheap]
    unfold Order.Priced
    simp [ht]

end Outcome

end OrderbookGC
