/-
Limit protection from the message to the trade. A submitted price is first put on the tick of the
book, to the nearest tick for both sides, so a trade can be up to half a tick worse than the price
in the message; it is never worse than the booked price, in any call, in any cascade, and across
restarts, where the order comes back from its row (`run_limitKept`).
-/
import OrderbookGC.Server.Ids

namespace OrderbookGC

open Container OrderBook MatchState

def OrderType.Priced (t : OrderType) : Prop := t = .limit ∨ t = .stopLimit

instance (t : OrderType) : Decidable t.Priced := inferInstanceAs (Decidable (_ ∨ _))

namespace Submission

/-- The price the server books for the submission. -/
def bookedPrice (x : Submission) : ℚ := adjustPrice x.tickSize x.message.price

/-- An order or a row that stands for the submission. -/
structure Describes (x : Submission) (side : OrderSide) (orderType : OrderType) (price : ℚ) : Prop where
  side : side = x.message.side
  priced : x.message.orderType.Priced → orderType.Priced
  price : x.message.orderType.Priced → price = x.bookedPrice

end Submission

namespace Server

/-- Every trade of an order submitted with a limit is within that limit. -/
def LimitKept (limit : Submission → ℚ) (sv : Server) : Prop :=
  ∀ x ∈ sv.submissions, x.message.orderType.Priced → ∀ t ∈ sv.trades, t.buyOrderId = x.orderId ∨ t.sellOrderId = x.orderId →
    (x.message.side = .buy → t.price ≤ limit x) ∧ (x.message.side = .sell → limit x ≤ t.price)

instance (limit : Submission → ℚ) (sv : Server) : Decidable (sv.LimitKept limit) :=
  inferInstanceAs (Decidable (∀ x ∈ sv.submissions, _ → ∀ t ∈ sv.trades, _ ∨ _ → _ ∧ _))

structure LimitInv (sv : Server) : Prop where
  tick : ∀ {symbol b}, sv.orderbooks.find? symbol = some b → 0 < b.tickSize
  submission : ∀ x ∈ sv.submissions, 0 < x.tickSize
  book : ∀ x ∈ sv.submissions, ∀ {symbol b p}, sv.orderbooks.find? symbol = some b → b.getOrder x.orderId = some p →
    x.Describes (b.heap p).side (b.heap p).orderType (b.heap p).price
  row : ∀ x ∈ sv.submissions, ∀ r ∈ sv.disk.orders, r.id = x.orderId → x.Describes r.side r.orderType r.price
  trade : sv.LimitKept Submission.bookedPrice

theorem submittedOrder_describes (env : Env) (s : SessionPtr) (m : OrderSubmitMessage) (tickSize : ℚ) :
    (⟨generateUuid env.uuid, s, m, tickSize⟩ : Submission).Describes (submittedOrder env m tickSize).side
      (submittedOrder env m tickSize).orderType (submittedOrder env m tickSize).price := by
  refine ⟨rfl, id, fun hpr => ?_⟩
  have hpr : m.orderType = .limit ∨ m.orderType = .stopLimit := hpr
  unfold submittedOrder
  rcases hpr with hpr | hpr <;> simp [hpr, Order.new, Submission.bookedPrice]

namespace LimitInv

variable {env : Env} {sv sv' : Server}

theorem initial (config : Config) : LimitInv (initial config) :=
  ⟨fun hb => (by cases hb), fun _ hx => (by cases hx), fun _ hx => (by cases hx), fun _ hx => (by cases hx),
    fun _ hx => (by cases hx)⟩

/-- A step that leaves the objects, the rows, the submissions and the trades alone. -/
theorem step (h : LimitInv sv) (hd : sv'.disk.orders = sv.disk.orders) (hs : sv'.submissions = sv.submissions)
    (ht : sv'.trades = sv.trades) (hb : ∀ {symbol b}, sv'.orderbooks.find? symbol = some b → 0 < b.tickSize ∧
      ∀ {id p}, b.getOrder id = some p → ∃ b', sv.orderbooks.find? symbol = some b' ∧ b'.getOrder id = some p ∧
        b'.heap p = b.heap p) : LimitInv sv' := by
  refine ⟨fun hx => (hb hx).1, fun x hx => h.submission x (hs ▸ hx), fun x hx {symbol b p} hb' hp => ?_,
    fun x hx r hr => h.row x (hs ▸ hx) r (hd ▸ hr), ?_⟩
  · obtain ⟨c, hc, hcp, he⟩ := (hb hb').2 hp
    rw [← he]
    exact h.book x (hs ▸ hx) hc hcp
  · unfold LimitKept
    rw [hs, ht]
    exact h.trade

theorem quiet (h : LimitInv sv) (hq : Quiet sv sv') : LimitInv sv' :=
  h.step hq.orders hq.submissions hq.trades fun hb =>
    ⟨h.tick (hq.orderbooks ▸ hb), fun hp => ⟨_, hq.orderbooks ▸ hb, hp, rfl⟩⟩

theorem setBook {symbol : String} {b : OrderBook ℚ} (h : LimitInv sv) (ht : 0 < b.tickSize)
    (hb : ∀ {id p}, b.getOrder id = some p → ∃ b', sv.orderbooks.find? symbol = some b' ∧ b'.getOrder id = some p ∧
      b'.heap p = b.heap p) : LimitInv (sv.setBook symbol b) := by
  refine h.step rfl rfl rfl fun {name c} hc => ?_
  rw [setBook_find?] at hc
  split_ifs at hc with hn
  · cases hc
    exact ⟨ht, fun hp => hn ▸ hb hp⟩
  · exact ⟨h.tick hc, fun hp => ⟨c, hc, hp, rfl⟩⟩

/-- A call on the book of `symbol`: the objects it leaves in the book or announces stand for their
submissions, and its trades are within the limits. -/
theorem dispatched {heap : OrderPtr → Order ℚ} {cbs : List (Callback ℚ)} {symbol : String} {b : OrderBook ℚ}
    (h : LimitInv sv) (hd : Dispatched env heap cbs (sv.setBook symbol b) sv') (ht : 0 < b.tickSize)
    (hb : ∀ x ∈ sv.submissions, ∀ p, b.getOrder x.orderId = some p →
      x.Describes (b.heap p).side (b.heap p).orderType (b.heap p).price)
    (hc : ∀ x ∈ sv.submissions, ∀ p, .order p ∈ cbs → cStr (heap p).id = x.orderId →
      x.Describes (heap p).side (heap p).orderType (heap p).price)
    (htr : ∀ x ∈ sv.submissions, x.message.orderType.Priced → ∀ t, .trade t ∈ cbs →
      t.buyOrderId = x.orderId ∨ t.sellOrderId = x.orderId →
      (x.message.side = .buy → t.price ≤ x.bookedPrice) ∧ (x.message.side = .sell → x.bookedPrice ≤ t.price)) :
    LimitInv sv' := by
  have hsub : sv'.submissions = sv.submissions := hd.submissions
  have hfind : ∀ name, sv'.orderbooks.find? name = if name = symbol then some b else sv.orderbooks.find? name := fun name => by
    rw [hd.orderbooks]
    exact setBook_find? ..
  refine ⟨fun {name c} hx => ?_, fun x hx => h.submission x (hsub ▸ hx), fun x hx {name c p} hx' hp => ?_,
    fun x hx r hr hid => ?_, fun x hx hpr t ht' hid => ?_⟩
  · rw [hfind] at hx
    split_ifs at hx
    · cases hx; exact ht
    · exact h.tick hx
  · rw [hsub] at hx
    rw [hfind] at hx'
    split_ifs at hx'
    · cases hx'; exact hb x hx p hp
    · exact h.book x hx hx' hp
  · rw [hsub] at hx
    obtain ⟨f, hf, hf', -⟩ := hd.rows
    rw [hf] at hr
    obtain ⟨r₀, hr₀, rfl⟩ := List.mem_map.1 hr
    rcases hf' r₀ with heq | ⟨p, hp, hid', heq⟩
    · rw [heq] at hid ⊢
      exact h.row x hx r₀ hr₀ hid
    · -- an update replaces the type, and keeps the side and the price
      rw [heq] at hid ⊢
      have hid : r₀.id = x.orderId := hid
      have hold := h.row x hx r₀ hr₀ hid
      have hnew := hc x hx p hp (hid'.symm.trans hid)
      exact ⟨hold.side, hnew.priced, hold.price⟩
  · rw [hsub] at hx
    rw [hd.trades] at ht'
    rcases List.mem_append.1 ht' with ht' | ht'
    · exact h.trade x hx hpr t ht' hid
    · obtain ⟨c, hcm, hct⟩ := List.mem_filterMap.1 ht'
      cases c with
      | order p => cases hct
      | trade t' => cases hct; exact htr x hx hpr t hcm hid

theorem added {o : Order ℚ} {b : OrderBook ℚ} {out : AddOutcome ℚ} (h : LimitInv sv) (hI : IdInv sv)
    (ha : Added env o b out sv sv') (hk : o.id ∈ sv.uuids)
    (ho : ∀ x ∈ sv.submissions, o.id = x.orderId → x.Describes o.side o.orderType o.price) : LimitInv sv' := by
  have hcall := ha.call
  -- the objects of the call stand for their submissions, before it and after it
  have hobj : ∀ x ∈ sv.submissions, ∀ p, (b.alloc o).2.Held p ∨ p = b.nextPtr → ((b.alloc o).2.heap p).id = x.orderId →
      x.Describes ((b.alloc o).2.heap p).side ((b.alloc o).2.heap p).orderType ((b.alloc o).2.heap p).price := by
    intro x hx p hp hid
    by_cases he : p = b.nextPtr
    · rw [he, alloc_heap_self] at hid ⊢
      exact ho x hx hid
    · rw [alloc_heap_of_ne he] at hid ⊢
      exact h.book x hx ha.book (ha.inv.index.2 ⟨hid, .inl (hp.resolve_right he)⟩)
  have hout : ∀ x ∈ sv.submissions, ∀ p, (b.alloc o).2.Held p ∨ p = b.nextPtr → (out.state.heap p).id = x.orderId →
      x.Describes (out.state.heap p).side (out.state.heap p).orderType (out.state.heap p).price := by
    intro x hx p hp hid
    have hs := hcall.static p
    have hd := hobj x hx p hp (hs.id ▸ hid)
    exact ⟨hs.side.trans hd.side, fun hpr => (hcall.priced p).2 (hd.priced hpr), fun hpr => hs.price.trans (hd.price hpr)⟩
  refine h.dispatched ha.dispatched ?_ (fun x hx p hp => ?_) (fun x hx p hp hid => ?_) fun x hx hpr t ht hid => ?_
  · rw [hcall.tickSize]
    show 0 < b.tickSize
    exact h.tick ha.book
  · obtain ⟨hid, hheld | hF⟩ := hcall.inv.index.1 hp
    · exact hout x hx p (hcall.held p hheld) hid
    · cases hF
  · have hp' := hcall.announced p hp
    rw [(hcall.static p).id, hI.cStr_eq (hI.known ha hk hp')] at hid
    exact hout x hx p hp' (by rw [(hcall.static p).id]; exact hid)
  · obtain ⟨-, ⟨p, hp⟩, ⟨q, hq⟩⟩ := hcall.trades t ht
    have hlimit : ∀ {d id p}, Party b.nextPtr (b.alloc o).2 d id t.price p → id = x.orderId →
        x.message.side = d ∧ accepts d x.bookedPrice t.price = true := by
      intro d id p hp he
      have hd := hobj x hx p hp.known (hp.id.trans he)
      rw [← hd.side, ← hd.price hpr]
      exact ⟨hp.side, hp.limit (hd.priced hpr)⟩
    rcases hid with hid | hid
    · obtain ⟨hs, hacc⟩ := hlimit hp hid
      rw [hs]
      exact ⟨fun _ => (by simpa [accepts] using hacc), fun he => (by cases he)⟩
    · obtain ⟨hs, hacc⟩ := hlimit hq hid
      rw [hs]
      exact ⟨fun he => (by cases he), fun _ => (by simpa [accepts] using hacc)⟩

theorem cancelled {symbol id : String} {b b' : OrderBook ℚ} {p : OrderPtr} (h : LimitInv sv) (hI : IdInv sv)
    (hc : Cancelled env symbol id b p b' sv sv') : LimitInv sv' := by
  have hheap : ∀ q, (b'.heap q).side = (b.heap q).side ∧ (b'.heap q).orderType = (b.heap q).orderType ∧
      (b'.heap q).price = (b.heap q).price := by
    intro q
    rw [hc.cancel.heap]
    by_cases hq : q = p
    · rw [hq, Function.update_self]
      exact ⟨rfl, rfl, rfl⟩
    · rw [Function.update_of_ne hq]
      exact ⟨rfl, rfl, rfl⟩
  have hout : ∀ x ∈ sv.submissions, ∀ q, b.getOrder x.orderId = some q →
      x.Describes (b'.heap q).side (b'.heap q).orderType (b'.heap q).price := by
    intro x hx q hq
    obtain ⟨h1, h2, h3⟩ := hheap q
    rw [h1, h2, h3]
    exact h.book x hx hc.book hq
  refine h.dispatched hc.dispatched ?_ (fun x hx q hq => ?_) (fun x hx q hq hid => ?_) fun x hx hpr t ht => ?_
  · rw [hc.cancel.tickSize]
    exact h.tick hc.book
  · refine hout x hx q ?_
    unfold getOrder at hq ⊢
    rw [hc.cancel.index, SortedMap.find?_erase] at hq
    split_ifs at hq
    exact hq
  · have hqp : q = p := by simpa using hq
    subst hqp
    have hindex := hc.inv.index.2 ⟨rfl, .inl hc.cancel.held⟩
    rw [(hc.cancel.static q).id, hI.cStr_eq (hI.live ⟨symbol, b, q, hc.book, hindex⟩)] at hid
    exact hout x hx q (hid ▸ hindex)
  · simp at ht

/-- A new submission has no object, no trade, and at most the row saved for it. -/
theorem saved {s : SessionPtr} {m : OrderSubmitMessage} {tickSize : ℚ} (h : LimitInv sv) (hI : IdInv sv)
    (ht : 0 < tickSize) (hnew : generateUuid env.uuid ∉ sv.uuids) :
    LimitInv (sv.saveSubmission env ⟨generateUuid env.uuid, s, m, tickSize⟩ (submittedOrder env m tickSize)) := by
  obtain ⟨disk, n, heq, hd⟩ := saveSubmission_eq sv env ⟨generateUuid env.uuid, s, m, tickSize⟩
    (submittedOrder env m tickSize)
  rw [heq]
  have hcases : ∀ {Q : Submission → Prop}, (∀ x ∈ sv.submissions, Q x) → Q ⟨generateUuid env.uuid, s, m, tickSize⟩ →
      ∀ x ∈ sv.submissions ++ [⟨generateUuid env.uuid, s, m, tickSize⟩], Q x := by
    intro Q h1 h2 x hx
    rcases List.mem_append.1 hx with hx | hx
    · exact h1 x hx
    · rw [List.mem_singleton.1 hx]; exact h2
  have hrow : ∀ r ∈ disk.orders, r ∈ sv.disk.orders ∨ r = Db.orderRow (submittedOrder env m tickSize) env.now := by
    intro r hr
    rcases hd with ⟨hd, -⟩ | ⟨-, hd⟩
    · exact .inl (hd ▸ hr)
    · rw [hd] at hr
      rcases List.mem_append.1 hr with hr | hr
      · exact .inl (List.mem_of_mem_filter hr)
      · exact .inr (List.mem_singleton.1 hr)
  refine ⟨h.tick, hcases h.submission ht, hcases h.book fun {symbol b p} hb hp => ?_, hcases ?_ ?_, hcases h.trade ?_⟩
  · exact absurd (hI.live ⟨symbol, b, p, hb, hp⟩) hnew
  · intro x hx r hr hid
    rcases hrow r hr with hr | rfl
    · exact h.row x hx r hr hid
    · have hid : cStr (generateUuid env.uuid) = x.orderId := hid
      rw [cStr_generateUuid] at hid
      exact absurd (hid ▸ (hI.submission x hx).1) hnew
  · intro r hr hid
    rcases hrow r hr with hr | rfl
    · exact absurd ((show r.id = generateUuid env.uuid from hid) ▸ hI.rows r hr) hnew
    · exact submittedOrder_describes env s m tickSize
  · intro _ t ht hid
    obtain ⟨h1, h2⟩ := hI.trade t ht
    rcases hid with hid | hid
    · exact absurd ((show t.buyOrderId = generateUuid env.uuid from hid) ▸ h1) hnew
    · exact absurd ((show t.sellOrderId = generateUuid env.uuid from hid) ▸ h2) hnew

theorem booted (h : LimitInv sv) (hb : Booted env sv sv') : LimitInv sv' := by
  refine h.step hb.orders hb.submissions hb.trades fun {symbol b} hx => ?_
  rw [hb.orderbooks] at hx
  split_ifs at hx
  cases hx
  exact ⟨new_tickSize_pos .., fun hp => by cases hp⟩

/-- The restore loop; the rows it goes through were read before it. -/
theorem restored {rows : List OrderRow} (hr : Restored env rows sv sv') (hR : Restoring rows sv) (h : LimitInv sv)
    (hrows : ∀ x ∈ sv.submissions, ∀ r ∈ rows, r.id = x.orderId → x.Describes r.side r.orderType r.price) : LimitInv sv' := by
  induction hr with
  | nil => exact h
  | skip _ _ ih => exact ih hR.skip h fun x hx r hr => hrows x hx r (List.mem_cons_of_mem _ hr)
  | @add r _ _ _ _ _ _ ha _ ih =>
    refine ih (hR.add ha) (h.added hR.toIdInv ha ?_ fun x hx hid => ?_) fun x hx r hr => ?_
    · rw [restoreOrder_id]
      exact (hR.todo r (List.mem_cons_self ..)).1
    · have hd := hrows x hx r (List.mem_cons_self ..) (by rw [← restoreOrder_id env.now r]; exact hid)
      obtain ⟨h1, h2, h3⟩ := restoreOrder_static env.now r
      rw [h1, h2, h3]
      exact hd
    · rw [ha.dispatched.submissions] at hx
      exact hrows x hx r (List.mem_cons_of_mem _ hr)

end LimitInv

theorem Effect.limitInv {env : Env} {ev : Event} {sv sv' : Server} (he : Effect env ev sv sv') (hI : IdInv sv)
    (h : LimitInv sv) (hnd : sv'.uuids.Nodup) : LimitInv sv' := by
  cases he with
  | quiet hq => exact h.quiet hq
  | connected | closed _ | dropped _ =>
    exact h.step rfl rfl rfl fun hb => ⟨h.tick hb, fun hp => ⟨_, hb, hp, rfl⟩⟩
  | created h₁ _ h₂ => exact ((h.quiet h₁).setBook (new_tickSize_pos ..) fun hp => by cases hp).quiet h₂
  | @ticked _ _ b tickSize hb =>
    refine h.setBook (setTickSize_pos (h.tick hb) _) fun {id p} hp => ⟨b, hb, by rw [setTickSize_getOrder] at hp; exact hp, ?_⟩
    unfold OrderBook.setTickSize
    split_ifs <;> rfl
  | @submitted _ sv₁ sv₂ s m b out hsess _ h₁ ha =>
    have hI₁ := hI.quiet h₁
    have hs₁ : s < sv₁.nextSession := by rw [h₁.nextSession]; exact hasSession_lt hsess
    have hnew := submitted_new ha hnd
    have hI₂ := hI₁.saved hs₁ m b.tickSize hnew
    have ht : 0 < b.tickSize := (h.quiet h₁).tick (saveSubmission_orderbooks .. ▸ ha.book)
    have hL := (h.quiet h₁).saved (s := s) (m := m) hI₁ ht hnew
    have hmem := (mem_saveSubmission sv₁ env ⟨generateUuid env.uuid, s, m, b.tickSize⟩
      (submittedOrder env m b.tickSize)).2
    have hL' : LimitInv sv₂ := by
      refine hL.added hI₂ ha (hI₂.submission _ hmem).1 fun x hx hid => ?_
      rw [hI₂.submissionInj x hx _ hmem hid.symm]
      exact submittedOrder_describes env s m b.tickSize
    exact hL'.step rfl rfl rfl fun hb => ⟨hL'.tick hb, fun hp => ⟨_, hb, hp, rfl⟩⟩
  | cancelled _ h₁ _ hc => exact (h.quiet h₁).cancelled (hI.quiet h₁) hc
  | reported _ h₁ _ _ _ =>
    have hL := h.quiet h₁
    exact hL.step rfl rfl rfl fun hb => ⟨hL.tick hb, fun hp => ⟨_, hb, hp, rfl⟩⟩
  | generated hg =>
    unfold generate
    rw [hg]
    exact h.step rfl rfl rfl fun hb => ⟨h.tick hb, fun hp => ⟨_, hb, hp, rfl⟩⟩
  | @posted _ _ o rest b out hp ha =>
    have hmem : o ∈ sv.posted := by rw [hp]; exact List.mem_cons_self ..
    have hL : LimitInv { sv with posted := rest } := h.step rfl rfl rfl fun hb => ⟨h.tick hb, fun hp => ⟨_, hb, hp, rfl⟩⟩
    exact hL.added (hI.popPosted hp) ha (hI.posted o hmem).1 fun x hx hid => absurd hid.symm (hI.postedSubmission o hmem x hx)
  | generatorCancelled h₁ hc => exact (h.quiet h₁).cancelled (hI.quiet h₁) hc
  | restarted hb hr hq =>
    refine (LimitInv.restored hr (hI.booted hb) (h.booted hb) fun x hx r hr => ?_).quiet hq
    split_ifs at hr
    · exact (h.booted hb).row x hx r (mem_activeRows.1 hr).1
    · cases hr

/-- A seller rests at 100.1, and a buyer with the limit 100.06 comes in. -/
def roundedUp : List (Env × Event) :=
  [(sampleEnv false 1, .connect), (sampleEnv false 2, .message 0 (sampleSubmit .sell .limit (1001 / 10) 0 5)),
    (sampleEnv false 3, .message 0 (sampleSubmit .buy .limit (10006 / 100) 0 5))]

end Server

end OrderbookGC
