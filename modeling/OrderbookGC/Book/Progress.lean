/-
How far a call of `addOrder` moves each of its orders: a remainder only falls, a status leaves `PENDING` and
`PARTIAL` only for good, and what a remainder falls by is what the trades of the call name the order with.
-/
import OrderbookGC.Book.Notify
import OrderbookGC.Book.Safety

namespace OrderbookGC

open Container OrderBook MatchState

variable {P : Type}

/-! ## One object -/

/-- What can become of an order in a call: nothing, a fill, or a cancellation. -/
inductive Order.Advance (o o' : Order P) : Prop
  | same (hs : o'.status = o.status) (hr : o'.remainingQuantity = o.remainingQuantity)
  | fill (hs : o'.status = .partialFill ∨ o'.status = .filled) (hr : o'.remainingQuantity < o.remainingQuantity)
  | cancel (hs : o'.status = .canceled) (hr : o'.remainingQuantity ≤ o.remainingQuantity)

namespace Order.Advance

variable {o o' o'' : Order P}

theorem refl (o : Order P) : o.Advance o := .same rfl rfl

theorem le (h : o.Advance o') : o'.remainingQuantity ≤ o.remainingQuantity := by
  cases h with
  | same _ hr => exact UInt32.le_of_eq hr
  | fill _ hr => exact UInt32.le_of_lt hr
  | cancel _ hr => exact hr

theorem trans_same (h : o.Advance o') (hs : o''.status = o'.status) (hr : o''.remainingQuantity = o'.remainingQuantity) :
    o.Advance o'' := by
  cases h with
  | same hs' hr' => exact .same (hs.trans hs') (hr.trans hr')
  | fill hs' hr' => exact .fill (by rwa [hs]) (by rwa [hr])
  | cancel hs' hr' => exact .cancel (hs.trans hs') (by rwa [hr])

/-- A live order after a call is as it was, or partially filled. -/
theorem live (h : o.Advance o') (hl : o'.Live) :
    o'.status = o.status ∧ o'.remainingQuantity = o.remainingQuantity ∨
      o'.status = .partialFill ∧ o'.remainingQuantity < o.remainingQuantity := by
  cases h with
  | same hs hr => exact .inl ⟨hs, hr⟩
  | fill hs hr =>
    refine .inr ⟨hs.resolve_right fun hf => ?_, hr⟩
    rcases hl.status with hs' | hs' <;> simp [hf] at hs'
  | cancel hs hr => rcases hl.status with hs' | hs' <;> simp [hs] at hs'

end Order.Advance

/-- A fill that succeeds, of something. -/
theorem Order.fill_advance {o : Order P} {q : UInt32} (hok : (o.fill q).1 = true) (hq : 0 < q) :
    ((o.fill q).2.status = .partialFill ∨ (o.fill q).2.status = .filled) ∧
      (o.fill q).2.remainingQuantity < o.remainingQuantity := by
  constructor
  · unfold Order.fill at hok ⊢
    split_ifs at hok ⊢
    by_cases h0 : o.remainingQuantity - q = 0
    · exact .inr (by simp [h0])
    · exact .inl (by simp [h0])
  · have hsum := Order.fill_toNat hok
    have := UInt32.lt_iff_toNat_lt.1 hq
    rw [UInt32.lt_iff_toNat_lt]
    simp only [UInt32.toNat_zero] at this
    omega

/-! ## One call -/

variable [LinearOrder P]

theorem MatchState.Cascade.advance {n : Nat} {F : List OrderPtr} {s s' : MatchState P} (h : Cascade n F s s')
    (hI : Inv F s.toOrderBook) (p : OrderPtr) : (s.heap p).Advance (s'.heap p) := by
  refine (h.invariant (J := fun _ _ t => ∀ p, (s.heap p).Advance (t.heap p)) (fun _ _ _ _ _ hJ => hJ) ?_ ?_ ?_ hI
    fun p => .refl _).2 p
  · intro _ order F key maker rest t t' hI hJ _ he p
    have hq : 0 < hitQuantity order maker t := UInt32.lt_iff_toNat_lt.2 he.quantity_pos
    by_cases h1 : p = order
    · obtain ⟨hs, hr⟩ := Order.fill_advance he.taker_spec.1 hq
      rw [h1, he.heapTaker]
      exact .fill hs (UInt32.lt_of_lt_of_le hr (hJ order).le)
    · by_cases h2 : p = maker
      · obtain ⟨hs, hr⟩ := Order.fill_advance he.maker_spec.1 hq
        rw [h2, he.heapMaker]
        exact .fill hs (UInt32.lt_of_lt_of_le hr (hJ maker).le)
      · rw [he.heapOther p h1 h2]
        exact hJ p
  · intro _ order F t t' hI hJ _ he p
    rcases he.heap p with heq | ⟨-, -, -, heq⟩
    · rw [heq]; exact hJ p
    · rw [heq]; exact .cancel rfl (hJ p).le
  · intro _ triggered t t' hI hJ _ he p
    rw [he.heap]
    split_ifs
    · exact (hJ p).trans_same (Order.trigger_status _) (Order.trigger_remainingQuantity _)
    · exact hJ p

theorem AddEffect.advance {order : OrderPtr} {b : OrderBook P} {out : AddOutcome P} (he : AddEffect order b out)
    (hI : Inv [] b) (p : OrderPtr) : (b.heap p).Advance (out.state.heap p) := by
  cases he with
  | refused _ => exact .refl _
  | stopped _ _ _ =>
    show Order.Advance _ (((entered order b).addStopOrder order).heap p)
    rw [addStopOrder_heap]
    exact .refl _
  | matched ha hid hs hc => exact hc.advance (entered_inv hI ha hid hs) p

/-- The ledger of a book at rest: nothing has been traded since. -/
theorem Ledger.held {b : OrderBook P} (hI : Inv [] b) :
    Ledger [] (b.heldOrders.map fun p => (p, b.heap p)) [] b := by
  have hmem : ∀ e ∈ b.heldOrders.map fun p => (p, b.heap p), b.Held e.1 ∧ e.2 = b.heap e.1 := fun e he => by
    obtain ⟨p, hp, rfl⟩ := List.mem_map.1 he
    exact ⟨mem_heldOrders.1 hp, rfl⟩
  refine ⟨fun e he e' he' hid => ?_, fun e he => ?_, fun e he => ?_, fun e he => ?_, nofun, nofun, nofun,
    fun p hp => ⟨b.heap p, List.mem_map.2 ⟨p, mem_heldOrders.2 (hp.resolve_right List.not_mem_nil), rfl⟩⟩, fun e he => ?_⟩
  · rw [(hmem e he).2, (hmem e' he').2] at hid
    exact hI.eq_of_id (.inl (hmem e he).1) (.inl (hmem e' he').1) hid
  · rw [(hmem e he).2]; exact .refl _
  · rw [(hmem e he).2, traded_nil, Nat.add_zero]
  · exact (hI.live (hmem e he).1).sound.filled_iff
  · exact hI.alloc (.inl (hmem e he).1)

section Accepted

variable {b : OrderBook P} {o : Order P} {out : AddOutcome P}

/-- The ledger of the orders an accepted call is about. -/
theorem AddEffect.ledger_held (he : AddEffect b.nextPtr (b.alloc o).2 out) (hI : Inv [] b) (hI' : Inv [] (b.alloc o).2)
    (hacc : out.accepted = true) : Ledger [] ((b.heldOrders.map fun p => (p, b.heap p)) ++ [(b.nextPtr, o)])
      out.state.pendingTrades out.state.toOrderBook := by
  have hself : (b.alloc o).2.heap b.nextPtr = o := Function.update_self ..
  have hfree : b.ordersById.find? o.id = none := by
    have := (he.call hI').free hacc
    rwa [hself] at this
  have hnew : ∀ e ∈ b.heldOrders.map fun p => (p, b.heap p), e.2.id ≠ o.id := fun e hmem hid => by
    obtain ⟨q, hq, rfl⟩ := List.mem_map.1 hmem
    rw [hI.index.2 ⟨hid, .inl (mem_heldOrders.1 hq)⟩] at hfree
    cases hfree
  have hL := AddEffect.ledger he hI' (.held hI) hnew
  rwa [if_pos hacc, List.nil_append] at hL

/-- The orders of the call are in its ledger. -/
theorem mem_ledger (hI : Inv [] b) {p : OrderPtr} (hp : b.Held p ∨ p = b.nextPtr) :
    (p, (b.alloc o).2.heap p) ∈ (b.heldOrders.map fun p => (p, b.heap p)) ++ [(b.nextPtr, o)] := by
  rcases hp with hp | rfl
  · have hheap : (b.alloc o).2.heap p = b.heap p := Function.update_of_ne (Nat.ne_of_lt (hI.alloc (.inl hp))) ..
    rw [hheap]
    exact List.mem_append_left _ (List.mem_map.2 ⟨p, mem_heldOrders.2 hp, rfl⟩)
  · have hself : (b.alloc o).2.heap b.nextPtr = o := Function.update_self ..
    rw [hself]
    exact List.mem_append_right _ (List.mem_singleton.2 rfl)

/-- What an order of the book, or the submitted one, loses in a call is what the call's trades name it with. -/
theorem AddEffect.balance (he : AddEffect b.nextPtr (b.alloc o).2 out) (hI : Inv [] b) (hI' : Inv [] (b.alloc o).2)
    (hacc : out.accepted = true) {p : OrderPtr} (hp : b.Held p ∨ p = b.nextPtr) :
    ((b.alloc o).2.heap p).remainingQuantity.toNat =
      (out.state.heap p).remainingQuantity.toNat + traded ((b.alloc o).2.heap p).id out.state.pendingTrades :=
  (he.ledger_held hI hI' hacc).balance _ (mem_ledger hI hp)

theorem AddEffect.filled_iff (he : AddEffect b.nextPtr (b.alloc o).2 out) (hI : Inv [] b) (hI' : Inv [] (b.alloc o).2)
    (hacc : out.accepted = true) {p : OrderPtr} (hp : b.Held p ∨ p = b.nextPtr) :
    (out.state.heap p).status = .filled ↔ (out.state.heap p).remainingQuantity = 0 :=
  (he.ledger_held hI hI' hacc).filled _ (mem_ledger hI hp)

end Accepted

/-! ## What the callbacks tell -/

/-- The trades among the callbacks of a call. -/
def tradesIn (cbs : List (Callback P)) : List (Trade P) :=
  cbs.filterMap fun c => match c with
    | .trade t => some t
    | .order _ => none

omit [LinearOrder P] in
@[simp] theorem mem_tradesIn {cbs : List (Callback P)} {t : Trade P} : t ∈ tradesIn cbs ↔ .trade t ∈ cbs := by
  unfold tradesIn
  rw [List.mem_filterMap]
  constructor
  · rintro ⟨c, hc, hct⟩
    cases c with
    | trade t' => cases hct; exact hc
    | order p => cases hct
  · exact fun h => ⟨_, h, rfl⟩

theorem tradesIn_fireCallbacks (order : OrderPtr) (s : MatchState P) :
    tradesIn (fireCallbacks order s) = s.pendingTrades := by
  unfold tradesIn fireCallbacks
  simp only [List.filterMap_append, List.filterMap_map]
  have h1 : (fun c : Callback P => match c with | .trade t => some t | .order _ => none) ∘ Callback.trade = some := rfl
  have h2 : (fun c : Callback P => match c with | .trade t => some t | .order _ => none) ∘ Callback.order =
    fun _ => none := rfl
  rw [h1, h2]
  simp

section Callbacks

variable {b : OrderBook P} {o : Order P} {out : AddOutcome P}

/-- An order of the call loses what the reported trades name it with, and nothing if it is not announced. -/
theorem AddEffect.settles (he : AddEffect b.nextPtr (b.alloc o).2 out) (hI : Inv [] b) (hI' : Inv [] (b.alloc o).2)
    {p : OrderPtr} (hp : b.Held p ∨ p = b.nextPtr) :
    ((b.alloc o).2.heap p).remainingQuantity.toNat =
      (out.state.heap p).remainingQuantity.toNat + traded ((b.alloc o).2.heap p).id (tradesIn out.callbacks) := by
  cases hacc : out.accepted with
  | true =>
    rw [(he.changes hI' hacc).callbacks, tradesIn_fireCallbacks]
    exact he.balance hI hI' hacc hp
  | false =>
    obtain ⟨hst, hcb⟩ := (he.call hI').refused hacc
    rw [hcb, congrArg OrderBook.heap hst]
    rfl

/-- The reported trades name announced orders only. -/
theorem AddEffect.traded_eq_zero (he : AddEffect b.nextPtr (b.alloc o).2 out) (hI' : Inv [] (b.alloc o).2) {id : String}
    (hno : ∀ p, .order p ∈ out.callbacks → ((b.alloc o).2.heap p).id ≠ id) : traded id (tradesIn out.callbacks) = 0 := by
  unfold traded
  rw [List.filter_eq_nil_iff.2, List.map_nil, List.sum_nil]
  intro t ht hn
  have hcb := mem_tradesIn.1 ht
  have hacc := (he.call hI').accepted_of_mem hcb
  have hC := he.changes hI' hacc
  rw [hC.callbacks, mem_fireCallbacks_trade] at hcb
  obtain ⟨p, hp, -, hid⟩ := hC.named t hcb id (of_decide_eq_true hn)
  exact hno p hp hid

end Callbacks

end OrderbookGC
