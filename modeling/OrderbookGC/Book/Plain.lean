/-
A book without stop orders. A call with an order that is none makes no cascade: what it leaves of each queue are the
orders it has not used up, in their old places, and the incoming order comes last if it rests. When the incoming order
does not cross the book, nothing is traded and nothing but its queue changes.
-/
import OrderbookGC.Book.Outcome

namespace OrderbookGC

open Container OrderBook MatchState

variable {P : Type} [LinearOrder P]

/-- No stop order waits in the book. -/
def NoStops (b : OrderBook P) : Prop := ∀ d k, b.stopQueue d k = []

/-- What is left of a queue: the orders with something left. -/
def remaining (heap : OrderPtr → Order P) (q : List OrderPtr) : List OrderPtr :=
  q.filter fun p => (heap p).remainingQuantity ≠ 0

omit [LinearOrder P] in
theorem mem_remaining {heap : OrderPtr → Order P} {q : List OrderPtr} {p : OrderPtr} :
    p ∈ remaining heap q ↔ p ∈ q ∧ (heap p).remainingQuantity ≠ 0 := by
  unfold remaining
  simp

omit [LinearOrder P] in
theorem remaining_congr {heap heap' : OrderPtr → Order P} {q : List OrderPtr}
    (h : ∀ p ∈ q, (heap' p).remainingQuantity = 0 ↔ (heap p).remainingQuantity = 0) : remaining heap' q = remaining heap q :=
  List.filter_congr fun p hp => decide_eq_decide.2 (not_congr (h p hp))

omit [LinearOrder P] in
/-- What a later state leaves of what an earlier one has left. -/
theorem remaining_remaining {heap heap' : OrderPtr → Order P} {q : List OrderPtr}
    (h : ∀ p, (heap p).remainingQuantity = 0 → (heap' p).remainingQuantity = 0) :
    remaining heap' (remaining heap q) = remaining heap' q := by
  unfold remaining
  rw [List.filter_filter]
  refine List.filter_congr fun p _ => ?_
  by_cases h0 : (heap p).remainingQuantity = 0
  · simp [h0, h p h0]
  · simp [h0]

/-- A book at rest has nothing to leave out. -/
theorem remaining_queue {F : List OrderPtr} {b : OrderBook P} (hI : BookInv F b) (d : OrderSide) (k : P) :
    remaining b.heap (b.queue d k) = b.queue d k :=
  List.filter_eq_self.2 fun _ hp => decide_eq_true (UInt32.pos_iff_ne_zero.1 (hI.live_of_mem_queue hp).remaining)

/-- A trade takes its maker out of the queue when it has used it up. -/
theorem MatchState.HitEffect.remaining {F : List OrderPtr} {order maker : OrderPtr} {key : P} {rest : List OrderPtr}
    {s s' : MatchState P} (he : HitEffect order key maker rest s s') (hI : Inv (order :: F) s.toOrderBook) (d : OrderSide)
    (k : P) : s'.queue d k = OrderbookGC.remaining s'.heap (s.queue d k) := by
  have hB := hI.toBookInv
  -- all but the maker have as much left as before
  have hkeep : ∀ {d k p}, p ∈ s.queue d k → p ≠ maker → (s'.heap p).remainingQuantity ≠ 0 := fun {d k p} hp hm => by
    have ho : p ≠ order := fun heq => hB.flight order List.mem_cons_self (.inl ⟨d, k, heq ▸ hp⟩)
    rw [he.heapOther p ho hm]
    exact UInt32.pos_iff_ne_zero.1 (hB.live_of_mem_queue hp).remaining
  have hmaker : maker ∈ s.queue (s.heap order).side.opposite key := by rw [he.makerMem]; exact List.mem_cons_self
  have hnd := hB.nodup (s.heap order).side.opposite key
  rw [he.makerMem, List.nodup_cons] at hnd
  rw [he.queue]
  by_cases hdk : d = (s.heap order).side.opposite ∧ k = key
  · obtain ⟨rfl, rfl⟩ := hdk
    have hrest : OrderbookGC.remaining s'.heap rest = rest := List.filter_eq_self.2 fun p hp =>
      decide_eq_true (hkeep (by rw [he.makerMem]; exact List.mem_cons_of_mem _ hp) fun heq => hnd.1 (heq ▸ hp))
    rw [he.makerMem]
    unfold OrderbookGC.remaining at hrest ⊢
    by_cases h0 : (s'.heap maker).remainingQuantity = 0
    · rw [if_pos ⟨rfl, rfl, h0⟩, List.filter_cons_of_neg (by simp [h0]), hrest]
    · rw [if_neg fun h => h0 h.2.2, List.filter_cons_of_pos (by simp [h0]), hrest]
  · rw [if_neg fun h => hdk ⟨h.1, h.2.1⟩]
    refine (List.filter_eq_self.2 fun p hp => decide_eq_true (hkeep hp fun heq => hdk ?_)).symm
    -- the maker is in no other queue
    rw [heq] at hp
    exact ⟨(hB.rest hp).1.symm.trans (hB.rest hmaker).1, (hB.rest hp).2.1.symm.trans (hB.rest hmaker).2.1⟩

/-- The incoming order in its queue, when it rests. -/
def restsIn (heap : OrderPtr → Order P) (order : OrderPtr) (d : OrderSide) (k : P) : List OrderPtr :=
  if (heap order).remainingQuantity ≠ 0 ∧ (heap order).orderType = .limit ∧ (heap order).side = d ∧ (heap order).price = k
  then [order] else []

/-- The middle of a call on the book `b`: while the order is matched, and after it has been placed. -/
structure PlainInv (order : OrderPtr) (b : OrderBook P) (F : List OrderPtr) (s : MatchState P) : Prop where
  noStops : NoStops s.toOrderBook
  flight : F = [order] ∨ F = []
  queue : ∀ d k, s.queue d k = remaining s.heap (b.queue d k) ++ if F = [] then restsIn s.heap order d k else []

theorem MatchState.Cascade.plainInv {order : OrderPtr} {b : OrderBook P} {n : Nat} {F : List OrderPtr} {s s' : MatchState P}
    (h : Cascade n F s s') (hI : Inv F s.toOrderBook) (hP : PlainInv order b F s) :
    PlainInv order b [] s' := by
  refine (h.invariant (J := fun _ F t => PlainInv order b F t) (fun n o F t _ hJ => ?_) ?_ ?_ ?_ hI hP).2
  · exact ⟨fun d k => by have := hJ.noStops d k; unfold OrderBook.stopQueue at this ⊢; rwa [logMatch_stops], hJ.flight,
      fun d k => by have := hJ.queue d k; unfold OrderBook.queue at this ⊢; rwa [logMatch_levels]⟩
  · intro _ o F key maker rest t t' hI hJ _ he
    refine ⟨fun d k => ?_, hJ.flight, fun d k => ?_⟩
    · have := hJ.noStops d k
      unfold OrderBook.stopQueue at this ⊢
      rwa [he.stops]
    · rw [he.remaining hI, hJ.queue, if_neg (List.cons_ne_nil _ _), if_neg (List.cons_ne_nil _ _), List.append_nil, List.append_nil]
      refine remaining_remaining fun p h0 => ?_
      have hle : (t'.heap p).remainingQuantity ≤ (t.heap p).remainingQuantity := by
        by_cases h1 : p = o
        · rw [h1, UInt32.le_iff_toNat_le, ← he.taker_spec.2.2]; omega
        · by_cases h2 : p = maker
          · rw [h2, UInt32.le_iff_toNat_le, ← he.maker_spec.2.2]; omega
          · rw [he.heapOther p h1 h2]; exact UInt32.le_refl _
      rw [h0] at hle
      exact UInt32.le_antisymm hle UInt32.zero_le
  · intro _ o F t t' hI hJ _ he
    obtain ⟨rfl, rfl⟩ : o = order ∧ F = [] := by
      rcases hJ.flight with hF | hF
      · exact List.cons.inj hF
      · cases hF
    have hrem : ∀ p, (t'.heap p).remainingQuantity = (t.heap p).remainingQuantity := fun p => by
      rcases he.heap p with heq | ⟨-, -, -, heq⟩ <;> rw [heq]
    have hq := hJ.queue
    refine ⟨fun d k => ?_, .inr rfl, fun d k => ?_⟩
    · have := hJ.noStops d k
      unfold OrderBook.stopQueue at this ⊢
      rwa [he.frame.1]
    · have hold : remaining t'.heap (b.queue d k) = t.queue d k := by
        rw [hq, if_neg (List.cons_ne_nil _ _), List.append_nil]
        exact remaining_congr fun p _ => by rw [hrem]
      rw [hold, if_pos rfl]
      unfold restsIn
      rw [hrem]
      cases he with
      | rest hl ht h =>
        subst h
        have hh : (t.addOrderToBook o).heap = t.heap := by unfold addOrderToBook; rw [setLevels_heap]
        rw [addOrderToBook_queue, hh]
        by_cases hdk : d = (t.heap o).side ∧ k = (t.heap o).price
        · rw [if_pos hdk, if_pos ⟨UInt32.pos_iff_ne_zero.1 hl.remaining, ht, hdk.1.symm, hdk.2.symm⟩]
        · rw [if_neg hdk, if_neg fun h => hdk ⟨h.2.2.1.symm, h.2.2.2.symm⟩, List.append_nil]
      | cancel hl ht h =>
        subst h
        rw [if_neg, List.append_nil]
        · cases d <;> rfl
        · simp [ht]
      | drop h0 hf h =>
        subst h
        rw [if_neg fun hc => hc.1 h0, List.append_nil]
        cases d <;> rfl
  · intro _ triggered t t' hI hJ _ he
    have hnone : triggered = [] := List.eq_nil_iff_forall_not_mem.2 fun p hp => by
      obtain ⟨d, k, hk, -⟩ := (he.mem p).1 hp
      rw [hJ.noStops] at hk
      cases hk
    have hheap : t'.heap = t.heap := funext fun p => by rw [he.heap, if_neg (by simp [hnone])]
    refine ⟨fun d k => ?_, .inr hnone, fun d k => ?_⟩
    · have := hJ.noStops d k
      unfold OrderBook.stopQueue at this ⊢
      rw [he.stops]
      split_ifs
      · rfl
      · exact this
    · rw [he.queue, hheap, hnone]
      exact hJ.queue d k

section Call

variable {b : OrderBook P} {o : Order P} {out : AddOutcome P}

/-- What a call leaves of each queue: its orders that are not used up, and the incoming order at the end if it rests. -/
theorem AddEffect.plain {order : OrderPtr} (he : AddEffect order b out) (hI : Inv [] b) (hn : NoStops b)
    (hs : out.accepted = true → (b.heap order).isStopOrder = false) : NoStops out.state.toOrderBook ∧ (out.accepted = true → ∀ d k,
      out.state.queue d k = remaining out.state.heap (b.queue d k) ++ restsIn out.state.heap order d k) := by
  cases he with
  | refused _ => exact ⟨hn, nofun⟩
  | stopped _ _ hstop =>
    rw [hs rfl] at hstop
    cases hstop
  | @matched s' ha hid _ hc =>
    have hE := entered_inv hI ha hid (hs rfl)
    have hstops : ∀ d, (entered order b).stops d = b.stops d := fun d => by cases d <;> rfl
    have hlevels : ∀ d, (entered order b).levels d = b.levels d := fun d => by cases d <;> rfl
    have h0 : PlainInv order b [order] (entered order b) := by
      refine ⟨fun d k => ?_, .inl rfl, fun d k => ?_⟩
      · unfold OrderBook.stopQueue
        rw [hstops]
        exact hn d k
      · rw [if_neg (List.cons_ne_nil _ _), List.append_nil]
        refine Eq.trans ?_ (remaining_queue hI.toBookInv d k).symm
        unfold OrderBook.queue
        rw [hlevels]
    have hJ := hc.plainInv hE h0
    exact ⟨hJ.noStops, fun _ d k => by rw [hJ.queue, if_pos rfl]⟩

/-- What such a call does not announce it does not change. -/
theorem AddEffect.unchanged {order p : OrderPtr} (he : AddEffect order b out) (hI : Inv [] b) (hn : NoStops b)
    (hno : .order p ∉ out.callbacks) : out.state.heap p = b.heap p := by
  cases hacc : out.accepted with
  | false => rw [((he.call hI).refused hacc).1]
  | true =>
    by_contra hne
    obtain ⟨d, k, hk, -⟩ := (he.changes hI hacc).unannounced p hno hne
    rw [hn] at hk
    cases hk

/-- The incoming order accepts none of the prices on the other side. -/
def Uncrossing (b : OrderBook P) (o : Order P) : Prop := ∀ k, b.queue o.side.opposite k ≠ [] → accepts o.side o.price k = false

/-- An order that does not cross the book trades with nothing: every trade is between orders whose limits accept its
price, and neither two resting orders do nor the incoming one and a resting one. -/
theorem AddEffect.no_trade (he : AddEffect b.nextPtr (b.alloc o).2 out) (hI : Inv [] b) (hI' : Inv [] (b.alloc o).2)
    (hU : Uncrossed b) (hn : NoStops b) (hlim : o.orderType = .limit) (hx : Uncrossing b o) (t : Trade P) :
    .trade t ∉ out.callbacks := by
  intro ht
  obtain ⟨-, ⟨p, hp⟩, ⟨q, hq⟩⟩ := (he.call hI').trades t ht
  have hself : (b.alloc o).2.heap b.nextPtr = o := Function.update_self ..
  have hheap : ∀ {p}, b.Held p → (b.alloc o).2.heap p = b.heap p := fun hp =>
    Function.update_of_ne (Nat.ne_of_lt (hI.alloc (.inl hp))) ..
  -- a resting order that is a party of the trade is in a level of its side that accepts the price
  have hrest : ∀ {d id p}, Party b.nextPtr (b.alloc o).2 d id t.price p → p ≠ b.nextPtr →
      ∃ k, b.queue d k ≠ [] ∧ accepts d k t.price = true := fun {d id p} hp hne => by
    have hheld : b.Held p := hp.known.resolve_right hne
    obtain ⟨d', k, hk⟩ := hheld.resolve_right fun ⟨d, k, hk⟩ => by rw [hn] at hk; cases hk
    obtain ⟨hd, hpr, hty⟩ := hI.rest hk
    have hside := hp.side
    have hacc := hp.limit (by rw [hheap hheld]; exact .inl hty)
    rw [hheap hheld] at hside hacc
    rw [hd] at hside
    rw [hpr] at hacc
    exact ⟨k, hside ▸ List.ne_nil_of_mem hk, hacc⟩
  have hself' : ∀ {d id}, Party b.nextPtr (b.alloc o).2 d id t.price b.nextPtr →
      o.side = d ∧ accepts d o.price t.price = true := fun {d id} hp => by
    have hside := hp.side
    have hacc := hp.limit (by rw [hself]; exact .inl hlim)
    rw [hself] at hside hacc
    exact ⟨hside, hacc⟩
  by_cases hpo : p = b.nextPtr
  · obtain ⟨hside, hacc⟩ := hself' (hpo ▸ hp)
    by_cases hqo : q = b.nextPtr
    · rw [(hself' (hqo ▸ hq)).1] at hside
      cases hside
    · obtain ⟨k, hk, hacc'⟩ := hrest hq hqo
      have := hx k (by rw [hside]; exact hk)
      rw [hside] at this
      simp only [accepts, Bool.not_eq_true', Bool.not_eq_false', decide_eq_true_eq, decide_eq_false_iff_not, gt_iff_lt, not_lt]
        at hacc hacc' this
      exact absurd (lt_of_le_of_lt hacc this) (not_lt.2 hacc')
  · obtain ⟨k, hk, hacc⟩ := hrest hp hpo
    by_cases hqo : q = b.nextPtr
    · obtain ⟨hside, hacc'⟩ := hself' (hqo ▸ hq)
      have := hx k (by rw [hside]; exact hk)
      rw [hside] at this
      simp only [accepts, Bool.not_eq_true', Bool.not_eq_false', decide_eq_true_eq, decide_eq_false_iff_not, gt_iff_lt, not_lt]
        at hacc hacc' this
      exact absurd (lt_of_lt_of_le this hacc') (not_lt.2 hacc)
    · obtain ⟨k', hk', hacc'⟩ := hrest hq hqo
      have hlt := hU k k' hk hk'
      simp only [accepts, Bool.not_eq_true', decide_eq_false_iff_not, gt_iff_lt, not_lt] at hacc hacc'
      exact absurd (lt_of_le_of_lt hacc hlt) (not_lt.2 hacc')

end Call

end OrderbookGC
