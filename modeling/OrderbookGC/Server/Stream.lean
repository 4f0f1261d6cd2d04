/-
The status messages about one order, in the order they are sent. The callbacks of a call read the order objects after
the call, and one object can be announced several times; the owner entry, erased with the first message that says the
order is finished, is what ends the stream (`run_stream`).
-/
import OrderbookGC.Server.Ownership
import OrderbookGC.Book.Progress

namespace OrderbookGC

open Container OrderBook MatchState

/-- The message says that the order is finished. -/
def OrderStatusMessage.Final (m : OrderStatusMessage) : Prop := m.status = .filled ∨ m.status = .canceled

/-- What a message about an order leaves to a later one: the same order, filled at least as far; nothing, if it was
final. -/
structure OrderStatusMessage.Precedes (m m' : OrderStatusMessage) : Prop where
  filledQuantity : m.filledQuantity ≤ m'.filledQuantity
  quantity : m'.quantity = m.quantity
  side : m'.side = m.side
  price : m'.price = m.price
  symbol : m'.symbol = m.symbol
  notFinal : ¬ m.Final

namespace OrderStatusMessage.Precedes

theorem refl {m : OrderStatusMessage} (h : ¬ m.Final) : m.Precedes m := ⟨UInt32.le_refl _, rfl, rfl, rfl, rfl, h⟩

/-- A call moves what may follow on. -/
theorem advance {m : OrderStatusMessage} {o o' : Order ℚ} (h : m.Precedes o.statusMessage) (hs : o.SameStatic o')
    (ha : o.Advance o') (hb : o.remainingQuantity ≤ o.quantity) : m.Precedes o'.statusMessage := by
  refine ⟨UInt32.le_trans h.filledQuantity ?_, hs.quantity.trans h.quantity, hs.side.trans h.side, hs.price.trans h.price,
    hs.symbol.trans h.symbol, h.notFinal⟩
  show o.quantity - o.remainingQuantity ≤ o'.quantity - o'.remainingQuantity
  have hle := ha.le
  rw [hs.quantity, UInt32.le_iff_toNat_le, UInt32.toNat_sub_of_le _ _ hb,
    UInt32.toNat_sub_of_le _ _ (UInt32.le_trans hle hb)]
  have := UInt32.le_iff_toNat_le.1 hle
  omega

end OrderStatusMessage.Precedes

namespace Server

/-! ## The messages of one call -/

/-- An announced order brings a message or none, and one only when it has an owner. -/
theorem onOrderUpdated_message (env : Env) (sv : Server) (o : Order ℚ) :
    (onOrderUpdated env sv o).statuses = sv.statuses ∨
      ∃ s, (onOrderUpdated env sv o).statuses = sv.statuses ++ [(s, o.statusMessage)] ∧
        (sv.orderOwners.find? o.id).isSome := by
  unfold onOrderUpdated
  obtain ⟨disk, n, hw, -⟩ := write_eq sv env (Db.updateOrder · o)
  rw [hw]
  dsimp only
  cases hown : sv.orderOwners.find? o.id with
  | none => exact .inl rfl
  | some c =>
    dsimp only
    by_cases hc : c.isEmpty = true
    · rw [if_pos hc]
      exact .inl rfl
    · rw [if_neg hc]
      cases hs : sv.sessions.find? c with
      | none => exact .inl rfl
      | some s => exact .inr ⟨s, statuses_sendMessage .., rfl⟩

/-- The messages of one call are about announced orders with an owner, and after a final one there is none about its
order: the entry of the owner is gone. -/
theorem dispatch_messages (env : Env) (heap : OrderPtr → Order ℚ) : ∀ (cbs : List (Callback ℚ)) (sv : Server),
    ∃ l, (dispatch env heap cbs sv).statuses = sv.statuses ++ l ∧
      (∀ e ∈ l, ∃ p, .order p ∈ cbs ∧ e.2 = (heap p).statusMessage ∧ (sv.orderOwners.find? (heap p).id).isSome) ∧
      l.Pairwise fun e e' => e.2.orderId = e'.2.orderId → ¬ e.2.Final
  | [], sv => ⟨[], by simp [dispatch], nofun, .nil⟩
  | .trade t :: cbs, sv => by
    have hd : Dispatched env heap [.trade t] sv (onTradeExecuted env sv t) := .trade t
    obtain ⟨l, h1, h2, h3⟩ := dispatch_messages env heap cbs (onTradeExecuted env sv t)
    have hst : (onTradeExecuted env sv t).statuses = sv.statuses := by
      obtain ⟨l', hl, hl'⟩ := hd.statuses
      cases l' with
      | nil => rw [hl, List.append_nil]
      | cons e l' =>
        obtain ⟨p, -, hp, -⟩ := hl' e List.mem_cons_self
        simp at hp
    refine ⟨l, h1.trans (by rw [hst]), fun e he => ?_, h3⟩
    obtain ⟨p, hp, hm, ho⟩ := h2 e he
    obtain ⟨c, hc⟩ := Option.isSome_iff_exists.1 ho
    exact ⟨p, List.mem_cons_of_mem _ hp, hm, by rw [hd.owner_of hc]; rfl⟩
  | .order p :: cbs, sv => by
    have hd : Dispatched env heap [.order p] sv (onOrderUpdated env sv (heap p)) := .order p
    obtain ⟨l, h1, h2, h3⟩ := dispatch_messages env heap cbs (onOrderUpdated env sv (heap p))
    have hrest : ∀ e ∈ l, ∃ q, .order q ∈ Callback.order p :: cbs ∧ e.2 = (heap q).statusMessage ∧
        (sv.orderOwners.find? (heap q).id).isSome := fun e he => by
      obtain ⟨q, hq, hm, ho⟩ := h2 e he
      obtain ⟨c, hc⟩ := Option.isSome_iff_exists.1 ho
      exact ⟨q, List.mem_cons_of_mem _ hq, hm, by rw [hd.owner_of hc]; rfl⟩
    rcases onOrderUpdated_message env sv (heap p) with hst | ⟨s, hst, hown⟩
    · exact ⟨l, h1.trans (by rw [hst]), hrest, h3⟩
    · refine ⟨(s, (heap p).statusMessage) :: l, h1.trans (by rw [hst, List.append_assoc]; rfl), fun e he => ?_,
        List.pairwise_cons.2 ⟨fun e he hid hfinal => ?_, h3⟩⟩
      · rcases List.mem_cons.1 he with rfl | he
        · exact ⟨p, List.mem_cons_self, rfl, hown⟩
        · exact hrest e he
      · -- after a final message the order has no owner
        obtain ⟨q, -, hm, ho⟩ := h2 e he
        have hq : (heap q).id = (heap p).id := by
          rw [hm] at hid
          exact hid.symm
        rw [hq, hd.erased p (List.mem_singleton.2 rfl) hfinal] at ho
        cases ho

/-! ## The invariant -/

/-- The messages so far are a stream for each order; while an order is live and has an owner, its state continues its
stream; and no live order has more left than it came with. -/
structure StreamInv (sv : Server) : Prop where
  stream : sv.statuses.Pairwise fun e e' => e.2.orderId = e'.2.orderId → e.2.Precedes e'.2
  current : ∀ e ∈ sv.statuses, (sv.orderOwners.find? e.2.orderId).isSome → ∀ {symbol b p},
    sv.orderbooks.find? symbol = some b → b.getOrder e.2.orderId = some p → e.2.Precedes (b.heap p).statusMessage
  bounded : ∀ {symbol b p}, sv.orderbooks.find? symbol = some b → b.Held p →
    (b.heap p).remainingQuantity ≤ (b.heap p).quantity
  posted : ∀ o ∈ sv.posted, o.remainingQuantity ≤ o.quantity

namespace StreamInv

variable {env : Env} {sv sv' : Server}

theorem initial (config : Config) : StreamInv (initial config) :=
  ⟨.nil, nofun, fun hb => (by cases hb), nofun⟩

/-- A step that sends no status message, records no owner and touches no order. -/
theorem step (h : StreamInv sv) (hst : sv'.statuses = sv.statuses)
    (ho : ∀ id, (sv'.orderOwners.find? id).isSome → (sv.orderOwners.find? id).isSome)
    (hb : ∀ {symbol b}, sv'.orderbooks.find? symbol = some b → (∃ y, sv.orderbooks.find? symbol = some y ∧ b.heap = y.heap ∧
      (∀ id p, b.getOrder id = some p → y.getOrder id = some p) ∧ ∀ p, b.Held p → y.Held p) ∨
      (∀ id, b.getOrder id = none) ∧ ∀ p, ¬ b.Held p)
    (hp : ∀ o ∈ sv'.posted, o ∈ sv.posted ∨ o.remainingQuantity = o.quantity) : StreamInv sv' := by
  refine ⟨hst ▸ h.stream, fun e he hown => fun {symbol b p} hx hp => ?_, fun {symbol b p} hx hp => ?_,
    fun o ho => (hp o ho).elim (h.posted o) UInt32.le_of_eq⟩
  · rcases hb hx with ⟨y, hy, heap, hget, -⟩ | ⟨hnone, -⟩
    · rw [heap]
      exact h.current e (hst ▸ he) (ho _ hown) hy (hget _ _ hp)
    · rw [hnone] at hp; cases hp
  · rcases hb hx with ⟨y, hy, heap, -, hheld⟩ | ⟨-, hnone⟩
    · rw [heap]
      exact h.bounded hy (hheld p hp)
    · exact absurd hp (hnone p)

theorem of_eq (h : StreamInv sv) (hst : sv'.statuses = sv.statuses) (ho : sv'.orderOwners = sv.orderOwners)
    (hb : sv'.orderbooks = sv.orderbooks) (hp : ∀ o ∈ sv'.posted, o ∈ sv.posted ∨ o.remainingQuantity = o.quantity) :
    StreamInv sv' :=
  h.step hst (fun _ hx => ho ▸ hx) (fun hx => .inl ⟨_, hb ▸ hx, rfl, fun _ _ hp => hp, fun _ hp => hp⟩) hp

theorem quiet (h : StreamInv sv) (hq : Quiet sv sv') : StreamInv sv' :=
  h.of_eq hq.statuses hq.orderOwners hq.orderbooks fun _ ho => .inl (hq.posted ▸ ho)

/-- A call of the book of `symbol` that leaves it as `b'`: what it announces to owners, and what is live with an owner
after it, was in the book before. -/
theorem call {symbol : String} {b b' : OrderBook ℚ} {cbs : List (Callback ℚ)} (h : StreamInv sv) (hI : IdInv sv)
    (hb : sv.orderbooks.find? symbol = some b) (hinv : Inv [] b)
    (hres : sv' = dispatch env b'.heap cbs (sv.setBook symbol b'))
    (hst : ∀ p, b.Held p → (b.heap p).SameStatic (b'.heap p) ∧ (b.heap p).Advance (b'.heap p))
    (hann : ∀ p, .order p ∈ cbs → (sv.orderOwners.find? (b'.heap p).id).isSome → b.Held p)
    (hlive : ∀ {id q}, b'.getOrder id = some q → (sv.orderOwners.find? id).isSome →
      b.Held q ∧ (b.heap q).id = id ∧ (b'.heap q).Live)
    (hbound : ∀ p, b'.Held p → (b'.heap p).remainingQuantity ≤ (b'.heap p).quantity) : StreamInv sv' := by
  obtain ⟨l, hl, hmem, hpair⟩ := dispatch_messages env b'.heap cbs (sv.setBook symbol b')
  have hd := dispatch_dispatched env b'.heap cbs (sv.setBook symbol b')
  rw [← hres] at hl hd
  have hl : sv'.statuses = sv.statuses ++ l := hl
  have hbooks : ∀ name, sv'.orderbooks.find? name = if name = symbol then some b' else sv.orderbooks.find? name :=
    fun name => by rw [hd.orderbooks]; exact setBook_find? ..
  -- the order a new message is about, in the book before the call
  have hnew : ∀ e ∈ l, ∃ p, b.Held p ∧ (b.heap p).id = e.2.orderId ∧ e.2 = (b'.heap p).statusMessage := fun e he => by
    obtain ⟨p, hp, hm, hown⟩ := hmem e he
    have hheld := hann p hp hown
    exact ⟨p, hheld, by rw [hm, ← (hst p hheld).1.id]; rfl, hm⟩
  have hindex : ∀ {p}, b.Held p → b.getOrder (b.heap p).id = some p := fun hp => hinv.index.2 ⟨rfl, .inl hp⟩
  -- a call moves every stream on
  have hold : ∀ e ∈ sv.statuses, (sv.orderOwners.find? e.2.orderId).isSome → ∀ p, b.Held p → (b.heap p).id = e.2.orderId →
      e.2.Precedes (b'.heap p).statusMessage := fun e he hown p hp hid =>
    (h.current e he hown hb (hid ▸ hindex hp)).advance (hst p hp).1 (hst p hp).2 (h.bounded hb hp)
  refine ⟨?_, fun e he hown => fun {name y q} hy hq => ?_, fun {name y q} hy hq => ?_,
    fun o ho => h.posted o (by rw [hd.posted] at ho; exact ho)⟩
  · rw [hl, List.pairwise_append]
    refine ⟨h.stream, ?_, fun e he e' he' hid => ?_⟩
    · refine hpair.imp_of_mem fun {e e'} he he' hnf hid => ?_
      obtain ⟨p, hp, hpid, hm⟩ := hnew e he
      obtain ⟨q, hq, hqid, hm'⟩ := hnew e' he'
      rw [hinv.eq_of_id (.inl hp) (.inl hq) (by rw [hpid, hqid, hid])] at hm
      rw [hm', ← hm]
      exact .refl (hnf hid)
    · obtain ⟨p, hp, hpid, hm'⟩ := hnew e' he'
      obtain ⟨q, hq, hm, hown⟩ := hmem e' he'
      rw [hm']
      refine hold e he ?_ p hp (by rw [hpid, hid])
      rw [hid, hm]
      exact hown
  · have hown₀ : (sv.orderOwners.find? e.2.orderId).isSome := by
      obtain ⟨c, hc⟩ := Option.isSome_iff_exists.1 hown
      have hc : sv.orderOwners.find? e.2.orderId = some c := hd.owner_of hc
      rw [hc]; rfl
    rw [hbooks] at hy
    rw [hl] at he
    by_cases hn : name = symbol
    · rw [if_pos hn] at hy
      cases hy
      obtain ⟨hheld, hid, hlv⟩ := hlive hq hown₀
      rcases List.mem_append.1 he with he | he
      · exact hold e he hown₀ q hheld hid
      · obtain ⟨p, hp, hpid, hm⟩ := hnew e he
        rw [hinv.eq_of_id (.inl hp) (.inl hheld) (hpid.trans hid.symm)] at hm
        rw [hm]
        exact .refl hlv.not_finished
    · rw [if_neg hn] at hy
      rcases List.mem_append.1 he with he | he
      · exact h.current e he hown₀ hy hq
      · obtain ⟨p, hp, hpid, -⟩ := hnew e he
        exact absurd (hI.oneBook hy hq hb (hpid ▸ hindex hp)) hn
  · rw [hbooks] at hy
    split_ifs at hy
    · cases hy
      exact hbound q hq
    · exact h.bounded hy hq

/-- An order without an owner is added. -/
theorem added {o : Order ℚ} {b : OrderBook ℚ} {out : AddOutcome ℚ} (h : StreamInv sv) (hI : IdInv sv)
    (ha : Added env o b out sv sv') (ho : o.remainingQuantity ≤ o.quantity) (hown : sv.orderOwners.find? o.id = none) :
    StreamInv sv' := by
  have hheap : ∀ {p}, b.Held p → (b.alloc o).2.heap p = b.heap p := fun hp =>
    alloc_heap_of_ne (Nat.ne_of_lt (ha.inv.alloc (.inl hp)))
  have hid : ∀ p, (out.state.heap p).id = ((b.alloc o).2.heap p).id := fun p => (ha.call.static p).id
  have hnext : (out.state.heap b.nextPtr).id = o.id := by rw [hid, alloc_heap_self]
  refine h.call hI ha.book ha.inv ha.returned (fun p hp => ?_) (fun p hp hx => ?_) (fun {id q} hq hx => ?_) fun p hp => ?_
  · rw [← hheap hp]
    exact ⟨ha.call.static p, ha.add.advance ha.invAlloc p⟩
  · rcases ha.call.announced p hp with hheld | rfl
    · exact hheld
    · rw [hnext, hown] at hx
      cases hx
  · obtain ⟨hqid, hheld | hF⟩ := ha.call.inv.index.1 hq
    · rcases ha.call.held q hheld with hb | rfl
      · have hb : b.Held q := hb
        exact ⟨hb, by rw [← hheap hb, ← hid, hqid], ha.call.inv.live hheld⟩
      · rw [← hqid, hnext, hown] at hx
        cases hx
    · cases hF
  · have hle := (ha.add.advance ha.invAlloc p).le
    rw [(ha.call.static p).quantity]
    refine UInt32.le_trans hle ?_
    rcases ha.call.held p hp with hb | rfl
    · have hb : b.Held p := hb
      rw [hheap hb]
      exact h.bounded ha.book hb
    · rw [alloc_heap_self]
      exact ho

theorem cancelled {symbol id : String} {b b' : OrderBook ℚ} {p : OrderPtr} (h : StreamInv sv) (hI : IdInv sv)
    (hc : Cancelled env symbol id b p b' sv sv') : StreamInv sv' := by
  have hheap : ∀ q, (b'.heap q).remainingQuantity = (b.heap q).remainingQuantity := fun q => by
    by_cases hq : q = p
    · rw [hq, hc.cancel.heap, Function.update_self]
    · rw [hc.cancel.heapOther hq]
  have hres : sv' = dispatch env b'.heap [.order p] (sv.setBook symbol b') := hc.result
  refine h.call hI hc.book hc.inv hres (fun q hq => ⟨hc.cancel.static q, ?_⟩) (fun q hq _ => ?_)
    (fun {i q} hq _ => ?_) fun q hq => ?_
  · by_cases hqp : q = p
    · exact .cancel (by rw [hqp, hc.cancel.heap, Function.update_self]) (UInt32.le_of_eq (hheap q))
    · rw [hc.cancel.heapOther hqp]
      exact .refl _
  · rw [Callback.order.inj (List.mem_singleton.1 hq)]
    exact hc.cancel.held
  · have hinv := hc.cancel.inv hc.inv
    obtain ⟨hqid, hheld | hF⟩ := hinv.index.1 hq
    · refine ⟨((hc.cancel.held_iff hc.inv.toBookInv).1 hheld).1, ?_, hinv.live hheld⟩
      rw [← (hc.cancel.static q).id, hqid]
    · cases hF
  · rw [hheap, (hc.cancel.static q).quantity]
    exact h.bounded hc.book ((hc.cancel.held_iff hc.inv.toBookInv).1 hq).1

/-- The reply to a submission is the first message about its order. -/
theorem acknowledge {s : SessionPtr} {o : Order ℚ} (h : StreamInv sv) (hnew : ∀ e ∈ sv.statuses, e.2.orderId ≠ o.id)
    (hlive : ∀ {symbol b p}, sv.orderbooks.find? symbol = some b → b.getOrder o.id = some p →
      b.heap p = o ∧ (b.heap p).Live) : StreamInv (sv.acknowledge s o) := by
  have hst : (sv.acknowledge s o).statuses = sv.statuses ++ [(s, o.statusMessage)] := statuses_sendMessage ..
  refine ⟨?_, fun e he hown => fun {symbol b p} hx hp => ?_, h.bounded, h.posted⟩
  · rw [hst, List.pairwise_append]
    refine ⟨h.stream, List.pairwise_singleton _ _, fun e he e' he' hid => ?_⟩
    rw [List.mem_singleton.1 he'] at hid
    exact absurd hid (hnew e he)
  · have hx : sv.orderbooks.find? symbol = some b := hx
    rw [hst] at he
    rcases List.mem_append.1 he with he | he
    · refine h.current e he ?_ hx hp
      have hown : ((sv.orderOwners.insert o.id (sv.clientId s)).find? e.2.orderId).isSome := hown
      rwa [SortedMap.find?_insert, if_neg (hnew e he)] at hown
    · rw [List.mem_singleton.1 he] at hp ⊢
      obtain ⟨heq, hl⟩ := hlive hx hp
      rw [heq] at hl ⊢
      exact .refl hl.not_finished

/-- A report is about a live order of an owner. -/
theorem reported {s : SessionPtr} {symbol id : String} {b : OrderBook ℚ} {p : OrderPtr} (h : StreamInv sv) (hI : IdInv sv)
    (hown : (sv.orderOwners.find? id).isSome) (hb : sv.orderbooks.find? symbol = some b) (hinv : Inv [] b)
    (hp : b.getOrder id = some p) : StreamInv (sv.sendMessage s (.orderStatus (b.heap p).statusMessage)) := by
  have hst : (sv.sendMessage s (.orderStatus (b.heap p).statusMessage)).statuses =
    sv.statuses ++ [(s, (b.heap p).statusMessage)] := statuses_sendMessage ..
  obtain ⟨hid, hheld | hF⟩ := hinv.index.1 hp
  swap
  · cases hF
  have hid' : (b.heap p).statusMessage.orderId = id := hid
  refine ⟨?_, fun e he ho => fun {name y q} hy hq => ?_, h.bounded, h.posted⟩
  · rw [hst, List.pairwise_append]
    refine ⟨h.stream, List.pairwise_singleton _ _, fun e he e' he' heq => ?_⟩
    rw [List.mem_singleton.1 he'] at heq ⊢
    rw [hid'] at heq
    exact h.current e he (heq ▸ hown) hb (heq ▸ hp)
  · have hy : sv.orderbooks.find? name = some y := hy
    rw [hst] at he
    rcases List.mem_append.1 he with he | he
    · exact h.current e he ho hy hq
    · rw [List.mem_singleton.1 he] at hq ⊢
      have hq : y.getOrder id = some q := hid ▸ hq
      have hn := hI.oneBook hy hq hb hp
      subst hn
      cases hy.symm.trans hb
      cases hq.symm.trans hp
      exact .refl (hinv.live hheld).not_finished

/-- A submission: its order has no owner while the book handles it, and is new to the stream. -/
theorem submitted {s : SessionPtr} {m : OrderSubmitMessage} {b : OrderBook ℚ} {out : AddOutcome ℚ} (h : StreamInv sv)
    (hI : IdInv sv) (hO : OwnInv none sv) (hs : s < sv.nextSession)
    (ha : Added env (submittedOrder env m b.tickSize) b out
      (sv.saveSubmission env ⟨generateUuid env.uuid, s, m, b.tickSize⟩ (submittedOrder env m b.tickSize)) sv')
    (hnd : sv'.uuids.Nodup) : StreamInv (sv'.acknowledge s (out.state.heap b.nextPtr)) := by
  have hnew := submitted_new ha hnd
  have hsaved := hI.saved hs m b.tickSize hnew
  have hstream : StreamInv
      (sv.saveSubmission env ⟨generateUuid env.uuid, s, m, b.tickSize⟩ (submittedOrder env m b.tickSize)) := by
    obtain ⟨disk, n, heq, -⟩ := saveSubmission_eq sv env ⟨generateUuid env.uuid, s, m, b.tickSize⟩
      (submittedOrder env m b.tickSize)
    rw [heq]
    exact h.of_eq rfl rfl rfl fun _ ho => .inl ho
  have hown : (sv.saveSubmission env ⟨generateUuid env.uuid, s, m, b.tickSize⟩
      (submittedOrder env m b.tickSize)).orderOwners.find? (generateUuid env.uuid) = none := by
    obtain ⟨disk, n, heq, -⟩ := saveSubmission_eq sv env ⟨generateUuid env.uuid, s, m, b.tickSize⟩
      (submittedOrder env m b.tickSize)
    rw [heq]
    cases hown : sv.orderOwners.find? (generateUuid env.uuid) with
    | none => rfl
    | some c =>
      obtain ⟨x, hx, hid, -⟩ := hO.owner hown
      exact absurd (hid ▸ (hI.submission x hx).1) hnew
  have hstatus : ∀ e ∈ (sv.saveSubmission env ⟨generateUuid env.uuid, s, m, b.tickSize⟩
      (submittedOrder env m b.tickSize)).statuses, e.2.orderId ≠ generateUuid env.uuid := by
    obtain ⟨disk, n, heq, -⟩ := saveSubmission_eq sv env ⟨generateUuid env.uuid, s, m, b.tickSize⟩
      (submittedOrder env m b.tickSize)
    rw [heq]
    intro e he hid
    obtain ⟨x, hx, hxid, -⟩ := hO.status e he
    exact hnew (hid ▸ hxid ▸ (hI.submission x hx).1)
  have hid : (out.state.heap b.nextPtr).id = generateUuid env.uuid := by
    rw [(ha.call.static b.nextPtr).id, alloc_heap_self]; rfl
  refine (hstream.added hsaved ha (UInt32.le_refl _) hown).acknowledge (fun e he => ?_) fun {symbol y p} hy hp => ?_
  · rw [hid]
    obtain ⟨l, hl, hmem⟩ := ha.dispatched.statuses
    rw [hl] at he
    rcases List.mem_append.1 he with he | he
    · exact hstatus e he
    · obtain ⟨p, c, -, hm, hc, -⟩ := hmem e he
      rintro heq
      have hpid : (out.state.heap p).id = generateUuid env.uuid := by rw [← heq, hm]; rfl
      rw [hpid] at hc
      cases hown.symm.trans hc
  · rw [hid] at hp
    rcases ha.live_cases hy hp with ⟨z, hz, hzp⟩ | ⟨-, hn, rfl, -⟩
    · exact absurd (hI.live (saveSubmission_live.1 ⟨symbol, z, p, hz, hzp⟩)) hnew
    · rw [ha.find?, if_pos hn] at hy
      cases hy
      obtain ⟨-, hheld | hF⟩ := ha.call.inv.index.1 hp
      · exact ⟨rfl, ha.call.inv.live hheld⟩
      · cases hF

theorem setBook {symbol : String} {b : OrderBook ℚ} (h : StreamInv sv)
    (hb : (∃ y, sv.orderbooks.find? symbol = some y ∧ b.heap = y.heap ∧ (∀ id p, b.getOrder id = some p → y.getOrder id = some p) ∧
      ∀ p, b.Held p → y.Held p) ∨ (∀ id, b.getOrder id = none) ∧ ∀ p, ¬ b.Held p) : StreamInv (sv.setBook symbol b) := by
  refine h.step rfl (fun _ hx => hx) (fun {name x} hx => ?_) fun _ ho => .inl ho
  rw [setBook_find?] at hx
  split_ifs at hx with hn
  · cases hx
    exact hn ▸ hb
  · exact .inl ⟨x, hx, rfl, fun _ _ hp => hp, fun _ hp => hp⟩

/-- A book that has just been created is empty. -/
theorem new_empty (symbol : String) (tickSize : ℚ) :
    (∀ id, (OrderBook.new symbol tickSize).getOrder id = none) ∧ ∀ p, ¬ (OrderBook.new symbol tickSize).Held p := by
  refine ⟨fun id => rfl, fun p hp => ?_⟩
  have hI : Inv [] (OrderBook.new symbol tickSize) := empty_inv ..
  have := hI.index.2 ⟨rfl, .inl hp⟩
  cases this

/-- A new process: nobody owns an order. -/
theorem booted (h : StreamInv sv) (hb : Booted env sv sv') : StreamInv sv' := by
  refine h.step hb.statuses (fun id hx => ?_) (fun {symbol b} hx => .inr ?_) fun o ho => ?_
  · rw [hb.orderOwners] at hx
    cases hx
  · rw [hb.orderbooks] at hx
    split_ifs at hx
    cases hx
    exact new_empty ..
  · rw [hb.posted] at ho
    cases ho

theorem restored {rows : List OrderRow} (hr : Restored env rows sv sv') (hR : Restoring rows sv) (h : StreamInv sv) :
    StreamInv sv' := by
  induction hr with
  | nil => exact h
  | skip _ _ ih => exact ih hR.skip h
  | @add r rows sv sv₁ sv' b out ha _ ih =>
    refine ih (hR.add ha) (h.added hR.toIdInv ha ?_ (hR.noOwner _))
    unfold Db.restoreOrder
    dsimp only
    split_ifs
    · unfold Order.fill
      split_ifs <;> simp [Order.new]
    · exact UInt32.le_refl _

end StreamInv

theorem Effect.streamInv {env : Env} {ev : Event} {sv sv' : Server} (he : Effect env ev sv sv') (hs : Sound sv)
    (hI : IdInv sv) (hO : OwnInv none sv) (h : StreamInv sv) (hnd : sv'.uuids.Nodup) : StreamInv sv' := by
  cases he with
  | quiet hq => exact h.quiet hq
  | connected => exact h.of_eq rfl rfl rfl fun _ ho => .inl ho
  | @closed _ s _ =>
    refine h.step rfl (fun id hx => ?_) (fun hx => .inl ⟨_, hx, rfl, fun _ _ hp => hp, fun _ hp => hp⟩) fun _ ho => .inl ho
    unfold removeSession at hx
    dsimp only at hx
    rw [SortedMap.find?_filterMapVals] at hx
    obtain ⟨c, hc⟩ := Option.isSome_iff_exists.1 hx
    obtain ⟨c', hc', -⟩ := Option.bind_eq_some_iff.1 hc
    have hc' : sv.orderOwners.find? id = some c' := hc'
    rw [hc']; rfl
  | created h₁ _ h₂ => exact ((h.quiet h₁).setBook (.inr (StreamInv.new_empty ..))).quiet h₂
  | ticked hb =>
    refine h.setBook (.inl ⟨_, hb, setTickSize_heap .., fun id p hp => by rwa [setTickSize_getOrder] at hp, fun p hp => ?_⟩)
    unfold OrderBook.setTickSize at hp
    split_ifs at hp <;> exact hp
  | @submitted _ sv₁ sv₂ s m b out hsess _ h₁ ha =>
    exact (h.quiet h₁).submitted (hI.quiet h₁) (hO.quiet h₁) (by rw [h₁.nextSession]; exact hasSession_lt hsess) ha hnd
  | cancelled _ h₁ _ hc => exact (h.quiet h₁).cancelled (hI.quiet h₁) hc
  | @reported _ sv₁ s id c symbol b p _ h₁ ho hb hp =>
    refine (h.quiet h₁).reported (hI.quiet h₁) ?_ (h₁.orderbooks ▸ hb) (hs.books hb) hp
    rw [h₁.orderOwners, of_decide_eq_true ho]
    rfl
  | generated hg =>
    unfold generate
    rw [hg]
    refine h.of_eq rfl rfl rfl fun o ho => ?_
    rcases List.mem_append.1 ho with ho | ho
    · exact .inl ho
    · rw [List.mem_singleton.1 ho]
      exact .inr rfl
  | dropped hp => exact h.of_eq rfl rfl rfl fun o ho => .inl (by rw [hp]; exact List.mem_cons_of_mem _ ho)
  | @posted _ _ o rest b out hp ha =>
    have hmem : o ∈ sv.posted := by rw [hp]; exact List.mem_cons_self ..
    have hpop : StreamInv { sv with posted := rest } :=
      h.of_eq rfl rfl rfl fun o ho => .inl (by rw [hp]; exact List.mem_cons_of_mem _ ho)
    refine hpop.added (hI.popPosted hp) ha (h.posted o hmem) ?_
    cases hown : sv.orderOwners.find? o.id with
    | none => rfl
    | some c =>
      obtain ⟨x, hx, hid, -⟩ := hO.owner hown
      exact absurd hid (hI.postedSubmission o hmem x hx)
  | generatorCancelled h₁ hc => exact (h.quiet h₁).cancelled (hI.quiet h₁) hc
  | restarted hb hr hq => exact (StreamInv.restored hr (hI.booted hb) (h.booted hb)).quiet hq

/-! ## Whole histories -/

/-- The status messages about an order, in the order they were sent. -/
def statusStream (sv : Server) (id : String) : List OrderStatusMessage :=
  (sv.statuses.map (·.2)).filter (·.orderId = id)

/-- In every history whose ids are pairwise distinct, each message about an order that a client submitted precedes
every later one: the quantity filled does not fall, quantity, side, price and symbol stay, and a message that says
`FILLED` or `CANCELED` is the last. -/
theorem run_stream (config : Config) (env : Env) (evs : List (Env × Event)) :
    ∃ sv, run config env evs = some sv ∧ (sv.uuids.Nodup → ∀ x ∈ sv.submissions,
      (sv.statusStream x.orderId).Pairwise OrderStatusMessage.Precedes) := by
  obtain ⟨sv, hrun, -, hK⟩ := run_rule config env evs
    (K := fun _ sv => sv.uuids.Nodup → IdInv sv ∧ OwnInv none sv ∧ StreamInv sv)
    (fun _ => ⟨.initial config, .initial config, .initial config⟩) fun pre e ev sv sv' _ hs hK he _ hnd => by
      obtain ⟨hI, hO, hS⟩ := hK (he.uuids.sublist.nodup hnd)
      exact ⟨he.idInv hI hnd, he.ownInv hs hI hO hnd, he.streamInv hs hI hO hS hnd⟩
  refine ⟨sv, hrun, fun hnd x _ => ?_⟩
  obtain ⟨-, -, hS⟩ := hK hnd
  unfold statusStream
  rw [List.pairwise_filter, List.pairwise_map]
  refine hS.stream.imp fun {e e'} h hid hid' => h ?_
  rw [of_decide_eq_true hid, of_decide_eq_true hid']

/-- A sell order rests and is bought in two parts. -/
def boughtInParts : List (Env × Event) :=
  [(sampleEnv false 1, .connect), (sampleEnv false 2, .message 0 (sampleSubmit .sell .limit 100 0 5)),
    (sampleEnv false 3, .message 0 (sampleSubmit .buy .limit 100 0 3)),
    (sampleEnv false 4, .message 0 (.orderStatus (generateUuid (sampleEnv false 2).uuid) "")),
    (sampleEnv false 5, .message 0 (sampleSubmit .buy .limit 100 0 2))]

theorem run_stream_boughtInParts : ∃ sv x, run sampleConfig (sampleEnv false 0) boughtInParts = some sv ∧
    sv.uuids.Nodup ∧ x ∈ sv.submissions ∧
    (sv.statusStream x.orderId).map (fun m => (m.status, m.filledQuantity)) =
      [(.pending, 0), (.partialFill, 3), (.partialFill, 3), (.filled, 5)] ∧
    (sv.statusStream x.orderId).Pairwise OrderStatusMessage.Precedes := by
  obtain ⟨sv, hrun, h⟩ := run_stream sampleConfig (sampleEnv false 0) boughtInParts
  have hstate : (run sampleConfig (sampleEnv false 0) boughtInParts).bind (fun sv => sv.submissions[0]?.map fun x =>
      (decide sv.uuids.Nodup, (sv.statusStream x.orderId).map fun m => (m.status, m.filledQuantity))) =
      some (true, [(.pending, 0), (.partialFill, 3), (.partialFill, 3), (.filled, 5)]) := by decide +kernel
  rw [hrun, Option.bind_some] at hstate
  obtain ⟨x, hx, he⟩ := Option.map_eq_some_iff.1 hstate
  rw [Prod.mk.injEq, decide_eq_true_eq] at he
  have hmem := List.mem_of_getElem? hx
  exact ⟨sv, x, hrun, he.1, hmem, he.2, h he.1 x hmem⟩

end Server

end OrderbookGC
