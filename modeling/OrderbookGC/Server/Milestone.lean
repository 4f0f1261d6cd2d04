/-
What the order table remembers of an order. A milestone is a stage of an order's life that is never
left, such as being finished, or being no stop order any more; the row records it once the order is
announced with it. When every call announces the orders it changes, every order that has reached the
milestone has a row that says so, and this stays so across restarts (`MilestoneInv`, `Passed`).
-/
import OrderbookGC.Server.Ids
import OrderbookGC.Book.Notify

namespace OrderbookGC

open Container OrderBook MatchState

/-- The row is one of a stop order. -/
def OrderRow.isStop (r : OrderRow) : Bool := r.orderType = .stop || r.orderType = .stopLimit

/-- A row the restore loop can add: only an order submitted without a quantity is active with nothing left. -/
def OrderRow.Restorable (r : OrderRow) : Prop :=
  Db.isActive r = true → columnInt r.remainingQuantity = 0 → columnInt r.quantity = 0

/-- A stage `Q` of an order, recorded by its row as `R`. -/
structure Milestone (Q : Order ℚ → Prop) (R : OrderRow → Prop) : Prop where
  congr : ∀ {o o' : Order ℚ}, o'.status = o.status → o'.orderType = o.orderType → Q o → Q o'
  call : ∀ {order : OrderPtr} {b : OrderBook ℚ} {out : AddOutcome ℚ}, Inv [] b → CallEffect order b out →
    ∀ p, Q (b.heap p) → Q (out.state.heap p)
  cancel : ∀ {o : Order ℚ}, Q o → Q { o with status := .canceled }
  saved : ∀ {o : Order ℚ} (now : Int), Q o → R (Db.orderRow o now)
  update : ∀ (r : OrderRow) {o : Order ℚ}, Q o → R (Db.OrderRow.update r o)
  restored : ∀ (now : Int) {r : OrderRow}, Db.isActive r = true → r.Restorable → (Q (Db.restoreOrder now r) ↔ R r)

theorem restoreOrder_status {now : Int} {r : OrderRow} (ha : Db.isActive r = true) (hr : r.Restorable) :
    ¬ (Db.restoreOrder now r).Finished := by
  unfold Db.restoreOrder
  dsimp only
  split_ifs with hlt
  · have hne : columnInt r.remainingQuantity ≠ 0 := fun h0 => by
      rw [hr ha h0, h0] at hlt
      exact absurd hlt (by decide)
    simp [Order.fill, Order.new, Order.Finished, hne]
  · simp [Order.new, Order.Finished]

/-- An order that is filled or cancelled stays so, and its row is not restored. -/
theorem finished_milestone : Milestone Order.Finished fun r => Db.isActive r = false where
  congr hs _ hq := by unfold Order.Finished at hq ⊢; rw [hs]; exact hq
  call {order b out} hI hc p hq := by
    cases hacc : out.accepted with
    | false => rw [(hc.refused hacc).1]; exact hq
    | true =>
      rw [hc.frame p]
      · exact hq
      · rintro (hp | rfl)
        · exact (hI.live hp).not_finished hq
        · exact (hc.live hacc).not_finished hq
  cancel _ := .inr rfl
  saved _ hq := by
    unfold Db.isActive Db.orderRow
    rcases hq with hq | hq <;> simp [hq]
  update _ {_} hq := by
    unfold Db.isActive Db.OrderRow.update
    rcases hq with hq | hq <;> simp [hq]
  restored now {r} ha hr := iff_of_false (restoreOrder_status ha hr) (by simp [ha])

/-- An order that is no stop order does not become one, and is restored as what it is. -/
theorem untyped_milestone : Milestone (fun o => o.isStopOrder = false) fun r => r.isStop = false where
  congr _ ht hq := by unfold Order.isStopOrder at hq ⊢; rw [ht]; exact hq
  call {order b out} _ hc p hq := by
    cases hs : (out.state.heap p).isStopOrder with
    | false => rfl
    | true => rw [hc.untriggered p hs] at hq; cases hq
  cancel hq := hq
  saved _ hq := hq
  update _ {_} hq := hq
  restored now {r} _ _ := by
    unfold Order.isStopOrder OrderRow.isStop
    rw [(Server.restoreOrder_static now r).2.1]

namespace Server

variable {Q : Order ℚ → Prop} {R : OrderRow → Prop}

/-- The order has reached the milestone: nothing live or to be restored under its id is short of it. -/
structure Passed (Q : Order ℚ → Prop) (R : OrderRow → Prop) (sv : Server) (id : String) : Prop where
  known : id ∈ sv.uuids
  rows : ∀ r ∈ sv.disk.orders, r.id = id → R r
  live : ∀ {symbol b p}, sv.orderbooks.find? symbol = some b → b.getOrder id = some p → Q (b.heap p)
  posted : ∀ o ∈ sv.posted, o.id ≠ id

/-- Every object at the milestone has passed it. -/
structure MilestoneInv (Q : Order ℚ → Prop) (R : OrderRow → Prop) (sv : Server) : Prop where
  passed : ∀ {symbol b p}, sv.orderbooks.find? symbol = some b → p < b.nextPtr → Q (b.heap p) → Passed Q R sv (b.heap p).id

namespace Passed

variable {env : Env} {sv sv' : Server} {id : String}

/-- A step that leaves the rows and the objects alone. -/
theorem step (h : Passed Q R sv id) (hu : sv.uuids ⊆ sv'.uuids) (hd : sv'.disk.orders = sv.disk.orders)
    (hb : ∀ {symbol b p}, sv'.orderbooks.find? symbol = some b → b.getOrder id = some p →
      ∃ b', sv.orderbooks.find? symbol = some b' ∧ b'.getOrder id = some p ∧ b'.heap p = b.heap p)
    (hp : ∀ o ∈ sv'.posted, o ∈ sv.posted ∨ o.id ∉ sv.uuids) : Passed Q R sv' id := by
  refine ⟨hu h.known, fun r hr => h.rows r (hd ▸ hr), fun hx hq => ?_, fun o ho hid => ?_⟩
  · obtain ⟨b', hb', hq', he⟩ := hb hx hq
    rw [← he]
    exact h.live hb' hq'
  · rcases hp o ho with ho | ho
    · exact h.posted o ho hid
    · exact ho (hid ▸ h.known)

theorem quiet (h : Passed Q R sv id) (hq : Quiet sv sv') : Passed Q R sv' id :=
  h.step hq.uuids.subset hq.orders (fun hx hp => ⟨_, hq.orderbooks ▸ hx, hp, rfl⟩) fun _ ho => .inl (hq.posted ▸ ho)

/-- The objects a call changes under the id have passed before, or are the order that comes in. -/
theorem added (M : Milestone Q R) {o : Order ℚ} {b : OrderBook ℚ} {out : AddOutcome ℚ} (h : Passed Q R sv id) (hI : IdInv sv)
    (ha : Added env o b out sv sv') (hk : o.id ∈ sv.uuids) (ho : o.id = id → Q o) : Passed Q R sv' id := by
  have hcall := ha.call
  have hd := ha.dispatched
  have hobj : ∀ p, (b.alloc o).2.Held p ∨ p = b.nextPtr → ((b.alloc o).2.heap p).id = id → Q (out.state.heap p) := by
    intro p hp hid
    refine M.call ha.invAlloc hcall p ?_
    by_cases he : p = b.nextPtr
    · rw [he, alloc_heap_self] at hid ⊢
      exact ho hid
    · rw [alloc_heap_of_ne he] at hid ⊢
      exact h.live ha.book (ha.inv.index.2 ⟨hid, .inl (hp.resolve_right he)⟩)
  refine ⟨hd.uuids ▸ h.known, fun r hr hid => ?_, fun {symbol x p} hx hp => ?_, fun q hq => ?_⟩
  · obtain ⟨f, hf, hf', -⟩ := hd.rows
    rw [hf] at hr
    obtain ⟨r₀, hr₀, rfl⟩ := List.mem_map.1 hr
    rcases hf' r₀ with heq | ⟨p, hp, hid', heq⟩
    · rw [heq] at hid ⊢
      exact h.rows r₀ hr₀ hid
    · rw [heq] at hid ⊢
      have hp' := hcall.announced p hp
      rw [(hcall.static p).id, hI.cStr_eq (hI.known ha hk hp')] at hid'
      exact M.update r₀ (hobj p hp' (hid'.symm.trans hid))
  · rw [ha.find?] at hx
    split_ifs at hx
    · cases hx
      obtain ⟨hid, hheld | hF⟩ := hcall.inv.index.1 hp
      · exact hobj p (hcall.held p hheld) ((hcall.static p).id ▸ hid)
      · cases hF
    · exact h.live hx hp
  · rw [hd.posted] at hq
    exact h.posted q hq

theorem cancelled (M : Milestone Q R) {symbol i : String} {b b' : OrderBook ℚ} {p : OrderPtr} (h : Passed Q R sv id)
    (hI : IdInv sv) (hc : Cancelled env symbol i b p b' sv sv') : Passed Q R sv' id := by
  have hd := hc.dispatched
  have hobj : ∀ q, b.getOrder id = some q → Q (b'.heap q) := by
    intro q hq
    have hQ := h.live hc.book hq
    rw [hc.cancel.heap]
    by_cases he : q = p
    · rw [he, Function.update_self]
      exact M.cancel (he ▸ hQ)
    · rw [Function.update_of_ne he]
      exact hQ
  refine ⟨hd.uuids ▸ h.known, fun r hr hid => ?_, fun {name x q} hx hq => ?_, fun o ho => ?_⟩
  · obtain ⟨f, hf, hf', -⟩ := hd.rows
    rw [hf] at hr
    obtain ⟨r₀, hr₀, rfl⟩ := List.mem_map.1 hr
    rcases hf' r₀ with heq | ⟨q, hq, hid', heq⟩
    · rw [heq] at hid ⊢
      exact h.rows r₀ hr₀ hid
    · rw [heq] at hid ⊢
      have hqp : q = p := by simpa using hq
      subst hqp
      rw [(hc.cancel.static q).id, hI.cStr_eq (hI.live (live_of_held hc.book hc.inv hc.cancel.held))] at hid'
      exact M.update r₀ (hobj q (hc.inv.index.2 ⟨hid'.symm.trans hid, .inl hc.cancel.held⟩))
  · rw [hc.find?] at hx
    split_ifs at hx
    · cases hx
      refine hobj q ?_
      unfold getOrder at hq ⊢
      rw [hc.cancel.index, SortedMap.find?_erase] at hq
      split_ifs at hq
      exact hq
    · exact h.live hx hq
  · rw [hd.posted] at ho
    exact h.posted o ho

/-- An order persisted under a new id. -/
theorem saved {x : Submission} {o : Order ℚ} (h : Passed Q R sv id) (hx : x.orderId = cStr o.id)
    (hnew : x.orderId ∉ sv.uuids) : Passed Q R (sv.saveSubmission env x o) id := by
  obtain ⟨disk, n, heq, hd⟩ := saveSubmission_eq sv env x o
  rw [heq]
  refine ⟨List.mem_append_left _ h.known, fun r hr hid => ?_, h.live, h.posted⟩
  rcases hd with ⟨hd, -⟩ | ⟨-, hd⟩
  · exact h.rows r (hd ▸ hr) hid
  · have hr : r ∈ sv.disk.orders.filter _ ++ [_] := hd ▸ hr
    rcases List.mem_append.1 hr with hr | hr
    · exact h.rows r (List.mem_of_mem_filter hr) hid
    · rw [List.mem_singleton.1 hr] at hid
      have hid : cStr o.id = id := hid
      exact absurd (hx.trans hid ▸ h.known) hnew

theorem setBook {symbol : String} {b : OrderBook ℚ} (h : Passed Q R sv id)
    (hidx : ∀ {p}, b.getOrder id = some p → ∃ y, sv.orderbooks.find? symbol = some y ∧ y.getOrder id = some p ∧
      y.heap p = b.heap p) : Passed Q R (sv.setBook symbol b) id := by
  refine h.step (List.Subset.refl _) rfl (fun {name x p} hx hp => ?_) fun _ ho => .inl ho
  rw [setBook_find?] at hx
  split_ifs at hx with hn
  · cases hx
    exact hn ▸ hidx hp
  · exact ⟨x, hx, hp, rfl⟩

theorem booted (h : Passed Q R sv id) (hb : Booted env sv sv') : Passed Q R sv' id := by
  refine h.step (hb.uuids ▸ List.Subset.refl _) hb.orders (fun {symbol b p} hx hp => ?_) fun o ho => ?_
  · rw [hb.orderbooks] at hx
    split_ifs at hx
    cases hx
    cases hp
  · rw [hb.posted] at ho; cases ho

end Passed

/-! ## Announced orders -/

/-- When the writes succeed, the row of an announced order is rewritten from it. -/
theorem Dispatched.row_eq {env : Env} {heap : OrderPtr → Order ℚ} {cbs : List (Callback ℚ)} {sv sv' : Server}
    (hd : Dispatched env heap cbs sv sv') (ho : sv.storeOpen = true) (hw : ∀ n, env.writeOk n = true) {p : OrderPtr}
    (hp : .order p ∈ cbs) (hinj : ∀ q, .order q ∈ cbs → cStr (heap q).id = cStr (heap p).id → q = p) {r : OrderRow}
    (hr : r ∈ sv'.disk.orders) (hid : r.id = cStr (heap p).id) :
    ∃ r₀ ∈ sv.disk.orders, r₀.id = r.id ∧ r = Db.OrderRow.update r₀ (heap p) := by
  obtain ⟨f, hf, hf', hfok⟩ := hd.rows
  rw [hf] at hr
  obtain ⟨r₀, hr₀, rfl⟩ := List.mem_map.1 hr
  have hid₀ : (f r₀).id = r₀.id := by
    rcases hf' r₀ with heq | ⟨_, -, -, heq⟩ <;> rw [heq]
    rfl
  rw [hid₀] at hid
  obtain ⟨q, hq, hidq, heq⟩ := hfok ho hw r₀ p hp hid
  have hqp := hinj q hq (hidq.symm.trans hid)
  exact ⟨r₀, hr₀, hid₀.symm, hqp ▸ heq⟩

section Calls

variable {env : Env} {o : Order ℚ} {b : OrderBook ℚ} {out : AddOutcome ℚ} {sv sv' : Server} {p : OrderPtr}

theorem Added.announced_inj (ha : Added env o b out sv sv') (hI : IdInv sv) (hk : o.id ∈ sv.uuids)
    (hp : .order p ∈ out.callbacks) {q : OrderPtr} (hq : .order q ∈ out.callbacks)
    (hid : cStr (out.state.heap q).id = cStr (out.state.heap p).id) : q = p := by
  have hcall := ha.call
  have hp' := hcall.announced p hp
  have hq' := hcall.announced q hq
  rw [(hcall.static p).id, (hcall.static q).id, hI.cStr_eq (hI.known ha hk hp'), hI.cStr_eq (hI.known ha hk hq')] at hid
  exact hcall.eq_of_id ha.invAlloc (hcall.accepted_of_mem hp) hq' hp' hid

/-- An order that is announced at the milestone has passed it. -/
theorem Added.passed (M : Milestone Q R) (ha : Added env o b out sv sv') (hI : IdInv sv) (hk : o.id ∈ sv.uuids)
    (hl : ¬ sv.Live o.id) (hpost : ∀ q ∈ sv.posted, q.id ≠ o.id) (ho : sv.storeOpen = true)
    (hw : ∀ n, env.writeOk n = true) (hp : .order p ∈ out.callbacks) (hQ : Q (out.state.heap p)) :
    Passed Q R sv' (out.state.heap p).id := by
  have hcall := ha.call
  have hp' := hcall.announced p hp
  have hacc := hcall.accepted_of_mem hp
  have hid := (hcall.static p).id
  have hknown := hI.known ha hk hp'
  refine ⟨by rw [ha.dispatched.uuids, hid]; exact hknown, fun r hr hrid => ?_, fun {symbol x q} hx hq => ?_,
    fun q hq => ?_⟩
  · obtain ⟨r₀, -, -, rfl⟩ := ha.dispatched.row_eq ho hw hp (fun q hq => ha.announced_inj hI hk hp hq) hr
      (by rw [hrid, hid, hI.cStr_eq hknown])
    exact M.update r₀ hQ
  · rw [ha.find?] at hx
    split_ifs at hx with hn
    · cases hx
      obtain ⟨hqid, hheld | hF⟩ := hcall.inv.index.1 hq
      · rw [(hcall.static q).id, hid] at hqid
        rw [hcall.eq_of_id ha.invAlloc hacc (hcall.held q hheld) hp' hqid]
        exact hQ
      · cases hF
    · -- it is live in no other book
      rw [hid] at hq
      exfalso
      by_cases he : p = b.nextPtr
      · rw [he, alloc_heap_self] at hq
        exact hl ⟨symbol, x, q, hx, hq⟩
      · rw [alloc_heap_of_ne he] at hq
        exact hn (hI.oneBook hx hq ha.book (ha.inv.index.2 ⟨rfl, .inl (hp'.resolve_right he)⟩))
  · rw [ha.dispatched.posted] at hq
    rw [hid]
    by_cases he : p = b.nextPtr
    · rw [he, alloc_heap_self]; exact hpost q hq
    · rw [alloc_heap_of_ne he]
      intro heq
      exact (hI.posted q hq).2 (heq ▸ live_of_held ha.book ha.inv (hp'.resolve_right he))

end Calls

namespace MilestoneInv

variable {env : Env} {sv sv' : Server}

/-- A step that keeps what has passed and leaves the objects alone. -/
theorem step (h : MilestoneInv Q R sv) (hP : ∀ {id}, Passed Q R sv id → Passed Q R sv' id)
    (hb : ∀ {symbol b p}, sv'.orderbooks.find? symbol = some b → p < b.nextPtr →
      ∃ b', sv.orderbooks.find? symbol = some b' ∧ p < b'.nextPtr ∧ b'.heap p = b.heap p) : MilestoneInv Q R sv' := by
  refine ⟨fun {symbol b p} hx hp hQ => ?_⟩
  obtain ⟨b', hb', hp', he⟩ := hb hx hp
  rw [← he] at hQ ⊢
  exact hP (h.passed hb' hp' hQ)

theorem quiet (h : MilestoneInv Q R sv) (hq : Quiet sv sv') : MilestoneInv Q R sv' :=
  h.step (fun hP => hP.quiet hq) fun hx hp => ⟨_, hq.orderbooks ▸ hx, hp, rfl⟩

/-- A call that announces everything it changes. -/
theorem added (M : Milestone Q R) {o : Order ℚ} {b : OrderBook ℚ} {out : AddOutcome ℚ} (h : MilestoneInv Q R sv)
    (hI : IdInv sv) (ha : Added env o b out sv sv') (hN : out.accepted = true → Notified b.nextPtr (b.alloc o).2 out)
    (hk : o.id ∈ sv.uuids) (hl : ¬ sv.Live o.id) (hpost : ∀ q ∈ sv.posted, q.id ≠ o.id) (ho : sv.storeOpen = true)
    (hw : ∀ n, env.writeOk n = true)
    (hobj : ∀ {symbol b p}, sv.orderbooks.find? symbol = some b → p < b.nextPtr → Q (b.heap p) → (b.heap p).id = o.id → Q o)
    (hrow : Q o → ∀ r ∈ sv.disk.orders, r.id = o.id → R r) : MilestoneInv Q R sv' := by
  refine ⟨fun {symbol x p} hx hp hQ => ?_⟩
  have hcall := ha.call
  have hold : ∀ {symbol b p}, sv.orderbooks.find? symbol = some b → p < b.nextPtr → Q (b.heap p) →
      Passed Q R sv' (b.heap p).id := fun hb hp hQ =>
    (h.passed hb hp hQ).added M hI ha hk fun he => hobj hb hp hQ he.symm
  rw [ha.find?] at hx
  split_ifs at hx with hn
  · cases hx
    rw [hcall.nextPtr] at hp
    cases hacc : out.accepted with
    | true =>
      by_cases hch : .order p ∈ out.callbacks
      · exact ha.passed M hI hk hl hpost ho hw hch hQ
      · -- what is not announced has not changed
        have hun : (out.state.heap p).status = ((b.alloc o).2.heap p).status ∧
            (out.state.heap p).orderType = ((b.alloc o).2.heap p).orderType := by
          by_contra hne
          refine hch ((hN hacc).changed p ?_)
          tauto
        have hpn : p ≠ b.nextPtr := fun he => hch (he ▸ List.mem_of_getLast? (hN hacc).last)
        rw [(hcall.static p).id]
        rw [alloc_heap_of_ne hpn] at hun ⊢
        exact hold ha.book (Nat.lt_of_le_of_ne (Nat.le_of_lt_succ hp) hpn) (M.congr hun.1.symm hun.2.symm hQ)
    | false =>
      have hst : out.state.heap = (b.alloc o).2.heap := congrArg OrderBook.heap (hcall.refused hacc).1
      rw [hst] at hQ ⊢
      by_cases hpn : p = b.nextPtr
      · -- a refused order: nothing has happened
        rw [hpn, alloc_heap_self] at hQ ⊢
        have hP : Passed Q R sv o.id := ⟨hk, hrow hQ, fun hx hq => absurd ⟨_, _, _, hx, hq⟩ hl, hpost⟩
        exact hP.added M hI ha hk fun _ => hQ
      · rw [alloc_heap_of_ne hpn] at hQ ⊢
        exact hold ha.book (Nat.lt_of_le_of_ne (Nat.le_of_lt_succ hp) hpn) hQ
  · exact hold hx hp hQ

theorem cancelled (M : Milestone Q R) {symbol id : String} {b b' : OrderBook ℚ} {p : OrderPtr} (h : MilestoneInv Q R sv)
    (hI : IdInv sv) (hc : Cancelled env symbol id b p b' sv sv') (ho : sv.storeOpen = true)
    (hw : ∀ n, env.writeOk n = true) : MilestoneInv Q R sv' := by
  refine ⟨fun {name x q} hx hq hQ => ?_⟩
  rw [hc.find?] at hx
  split_ifs at hx
  · cases hx
    rw [hc.cancel.nextPtr] at hq
    by_cases he : q = p
    · subst he
      have hid := (hc.cancel.static q).id
      have hlive := live_of_held hc.book hc.inv hc.cancel.held
      rw [hid]
      refine ⟨hc.dispatched.uuids ▸ hI.live hlive, fun r hr hrid => ?_, fun {n' x' q'} hx' hq' => ?_, fun o hpo => ?_⟩
      · obtain ⟨r₀, -, -, rfl⟩ := hc.dispatched.row_eq ho hw (List.mem_singleton.2 rfl)
          (fun q' hq' _ => by simpa using hq') hr (by rw [hrid, hid, hI.cStr_eq (hI.live hlive)])
        exact M.update r₀ hQ
      · obtain ⟨⟨y, hy, hyq⟩, hno⟩ := hc.live_iff.1 ⟨x', hx', hq'⟩
        have hindex : b.getOrder (b.heap q).id = some q := hc.inv.index.2 ⟨rfl, .inl hc.cancel.held⟩
        exact absurd ⟨hI.oneBook hy hyq hc.book hindex, hc.cancel.id⟩ hno
      · rw [hc.dispatched.posted] at hpo
        exact fun heq => (hI.posted o hpo).2 (heq ▸ hlive)
    · rw [hc.cancel.heapOther he] at hQ ⊢
      exact (h.passed hc.book hq hQ).cancelled M hI hc
  · exact (h.passed hx hq hQ).cancelled M hI hc

theorem saved {x : Submission} {o : Order ℚ} (h : MilestoneInv Q R sv) (hx : x.orderId = cStr o.id)
    (hnew : x.orderId ∉ sv.uuids) : MilestoneInv Q R (sv.saveSubmission env x o) := by
  have hb := saveSubmission_orderbooks sv env x o
  exact h.step (fun hP => hP.saved hx hnew) fun hy hp => ⟨_, hb ▸ hy, hp, rfl⟩

theorem setBook {symbol : String} {b : OrderBook ℚ} (h : MilestoneInv Q R sv)
    (hidx : ∀ {id p}, b.getOrder id = some p → ∃ y, sv.orderbooks.find? symbol = some y ∧ y.getOrder id = some p ∧
      y.heap p = b.heap p)
    (hobj : ∀ {p}, p < b.nextPtr → ∃ y, sv.orderbooks.find? symbol = some y ∧ p < y.nextPtr ∧ y.heap p = b.heap p) :
    MilestoneInv Q R (sv.setBook symbol b) := by
  refine h.step (fun hP => hP.setBook hidx) fun {name x p} hx hp => ?_
  rw [setBook_find?] at hx
  split_ifs at hx with hn
  · cases hx
    exact hn ▸ hobj hp
  · exact ⟨x, hx, hp, rfl⟩

theorem booted (hb : Booted env sv sv') : MilestoneInv Q R sv' := by
  refine ⟨fun {symbol b p} hx hp => ?_⟩
  rw [hb.orderbooks] at hx
  split_ifs at hx
  cases hx
  exact absurd hp (Nat.not_lt_zero _)

end MilestoneInv

end Server

end OrderbookGC
