/-
When the ownership map holds live orders only. `onOrderUpdated` takes a finished order out of the map, but
`handleOrderSubmit` puts the order in after `addOrder` has returned: an order that was finished by its own submission
stays. So does a stop order that is cancelled without being announced. Nothing else does (`run_owners_iff`).
-/
import OrderbookGC.Server.Ids
import OrderbookGC.Book.Outcome

namespace OrderbookGC

open Container OrderBook MatchState

namespace Server

/-- Every order in the ownership map is live. -/
def OwnersLive (sv : Server) : Prop := ∀ id c, sv.orderOwners.find? id = some c → sv.Live id

/-- Every `STOP` order with an owner that the trades of the call reach takes part in one of them; the trades are those
price-time priority makes from the book before the call. -/
def OwnedStopsTrade (sv : Server) (b : OrderBook ℚ) (o : Order ℚ) : Prop :=
  ∀ e, (b.alloc o).2.toRef.addOrder o.ref = some e → ∀ d k p, p ∈ b.stopQueue d k → (b.heap p).orderType = .stop →
    (sv.orderOwners.find? (b.heap p).id).isSome = true → (∃ t ∈ e.trades, triggeredBy d t.price k = true) →
    ∃ t ∈ e.trades, t.buyOrderId = (b.heap p).id ∨ t.sellOrderId = (b.heap p).id

instance (sv : Server) (b : OrderBook ℚ) (o : Order ℚ) : Decidable (sv.OwnedStopsTrade b o) :=
  match h : (b.alloc o).2.toRef.addOrder o.ref with
  | none => isTrue fun e he => by rw [h] at he; cases he
  | some e =>
    decidable_of_iff (∀ d ∈ [OrderSide.buy, .sell], ∀ l ∈ (b.stops d).entries, ∀ p ∈ l.2, (b.heap p).orderType = .stop →
      (sv.orderOwners.find? (b.heap p).id).isSome = true → (∃ t ∈ e.trades, triggeredBy d t.price l.1 = true) →
      ∃ t ∈ e.trades, t.buyOrderId = (b.heap p).id ∨ t.sellOrderId = (b.heap p).id) <| by
      constructor
      · intro hall e' he' d k p hp
        rw [h] at he'
        cases he'
        obtain ⟨q, hq, hpq⟩ := mem_stopQueue_iff.1 hp
        exact hall d (by cases d <;> simp) (k, q) hq p hpq
      · rintro hall d - ⟨k, q⟩ hq p hp
        exact hall e h d k p (mem_stopQueue_iff.2 ⟨q, hq, hp⟩)

/-- The event leaves no owner behind: a submitted order rests in its book, and no owned stop order is dropped. -/
def Settled (sv : Server) : Env × Event → Prop
  | (env, .message s (.orderSubmit m)) => sv.hasSession s = true → (sv.requireAuth s "trade").1 = true →
    ∀ b, sv.getOrderbook m.symbol = some b →
      Rests b (submittedOrder env m b.tickSize) ∧ sv.OwnedStopsTrade b (submittedOrder env m b.tickSize)
  | (_, .posted) => ∀ o b, sv.posted.head? = some o → sv.getOrderbook o.symbol = some b → sv.OwnedStopsTrade b o
  | _ => True

instance (sv : Server) : ∀ ev, Decidable (sv.Settled ev)
  | (env, .message s (.orderSubmit m)) => inferInstanceAs (Decidable (sv.hasSession s = true →
    (sv.requireAuth s "trade").1 = true → ∀ b ∈ sv.getOrderbook m.symbol,
      Rests b (submittedOrder env m b.tickSize) ∧ sv.OwnedStopsTrade b (submittedOrder env m b.tickSize)))
  | (_, .posted) => decidable_of_iff (∀ o ∈ sv.posted.head?, ∀ b ∈ sv.getOrderbook o.symbol, sv.OwnedStopsTrade b o)
      ⟨fun h o b ho => h o ho b, fun h o ho b => h o b ho⟩
  | (_, .connect) | (_, .close _) | (_, .snapshotTimer) | (_, .generate _) | (_, .generatorCancel _) | (_, .restart)
  | (_, .createOrderbook ..) | (_, .setOrderbookTickSize ..) => isTrue trivial
  | (_, .message _ (.login ..)) | (_, .message _ (.register ..)) | (_, .message _ (.snapshotRequest _))
  | (_, .message _ (.orderCancel ..)) | (_, .message _ (.orderStatus ..)) | (_, .message _ .other) => isTrue trivial

/-! ## Steps that end no order -/

namespace OwnersLive

variable {env : Env} {sv sv' : Server}

theorem step (h : OwnersLive sv) (ho : ∀ id c, sv'.orderOwners.find? id = some c → ∃ c', sv.orderOwners.find? id = some c')
    (hl : ∀ id, sv.Live id → sv'.Live id) : OwnersLive sv' := fun id c hc => by
  obtain ⟨c', hc'⟩ := ho id c hc
  exact hl id (h id c' hc')

theorem quiet (h : OwnersLive sv) (hq : Quiet sv sv') : OwnersLive sv' :=
  h.step (fun id c hc => ⟨c, hq.orderOwners ▸ hc⟩) fun _ hl => by
    unfold Live at hl ⊢
    rwa [hq.orderbooks]

theorem setBook {symbol : String} {b : OrderBook ℚ} (h : OwnersLive sv)
    (hb : ∀ {y id p}, sv.orderbooks.find? symbol = some y → y.getOrder id = some p → b.getOrder id = some p) :
    OwnersLive (sv.setBook symbol b) := by
  refine h.step (fun id c hc => ⟨c, hc⟩) fun id ⟨name, y, p, hy, hp⟩ => ?_
  by_cases hn : name = symbol
  · exact ⟨name, b, p, by rw [setBook_find?, if_pos hn], hb (hn ▸ hy) hp⟩
  · exact ⟨name, y, p, by rw [setBook_find?, if_neg hn]; exact hy, hp⟩

/-- A cancelled order is announced, so it loses its owner with its place in the book. -/
theorem cancelled {symbol id : String} {b b' : OrderBook ℚ} {p : OrderPtr} (h : OwnersLive sv)
    (hc : Cancelled env symbol id b p b' sv sv') : OwnersLive sv' := fun i c hown => by
  have hd := hc.dispatched
  have hne : i ≠ id := fun he => by
    have hgone := hd.erased p (List.mem_singleton.2 rfl) (by rw [hc.cancel.heap, Function.update_self]; exact .inr rfl)
    rw [(hc.cancel.static p).id, hc.cancel.id, ← he, hown] at hgone
    cases hgone
  obtain ⟨name, y, q, hy, hq⟩ := h i c (hd.owner_of hown)
  obtain ⟨x, hx, hxq⟩ := hc.live_iff.2 ⟨⟨y, hy, hq⟩, fun hno => hne hno.2⟩
  exact ⟨name, x, q, hx, hxq⟩

section Added

variable {o : Order ℚ} {b : OrderBook ℚ} {out : AddOutcome ℚ}

theorem stopQueue_alloc (d : OrderSide) (k : ℚ) : (b.alloc o).2.stopQueue d k = b.stopQueue d k := by
  cases d <;> rfl

/-- The trades of the reference engine are those of the call. -/
theorem refTrades_iff (ha : Added env o b out sv sv') : ∃ e, (b.alloc o).2.toRef.addOrder o.ref = some e ∧
    (∀ d k, (∃ t ∈ e.trades, triggeredBy d t.price k = true) ↔ reachedBy d out.state.pendingTrades k = true) ∧
    ∀ id, (∃ t ∈ e.trades, t.buyOrderId = id ∨ t.sellOrderId = id) ↔ ∃ t ∈ out.state.pendingTrades, t.Names id := by
  obtain ⟨e, hre, htr⟩ := ha.add.refTrades ha.invAlloc
  rw [alloc_heap_self] at hre
  refine ⟨e, hre, fun d k => ?_, fun id => ?_⟩
  · rw [reachedBy_iff, htr]
    simp only [List.mem_map, exists_exists_and_eq_and]
    rfl
  · rw [htr]
    simp only [List.mem_map, exists_exists_and_eq_and]
    rfl

/-- Among the orders of the book, those the trades name are the announced ones. -/
theorem announced_iff (ha : Added env o b out sv sv') (hacc : out.accepted = true) {p : OrderPtr} (hp : b.Held p) :
    (∃ t ∈ out.state.pendingTrades, t.Names (b.heap p).id) ↔ .order p ∈ out.callbacks := by
  have hC := ha.add.changes ha.invAlloc hacc
  have hne : p ≠ b.nextPtr := Nat.ne_of_lt (ha.inv.alloc (.inl hp))
  rw [← alloc_heap_of_ne (o := o) hne]
  constructor
  · rintro ⟨t, ht, hn⟩
    obtain ⟨q, hq, hk, hid⟩ := hC.named t ht _ hn
    exact ha.call.eq_of_id ha.invAlloc hacc hk (.inl hp) hid ▸ hq
  · exact fun hcb => (hC.names p hcb).resolve_left hne

/-- A call keeps the map clean exactly when it drops no owned stop order. -/
theorem added_iff (h : OwnersLive sv) (hI : IdInv sv) (ha : Added env o b out sv sv') (hl : ¬ sv.Live o.id) :
    OwnersLive sv' ↔ sv.OwnedStopsTrade b o := by
  have hd := ha.dispatched
  have hcall := ha.call
  obtain ⟨e, hre, hreach, hnames⟩ := refTrades_iff ha
  have hindex : ∀ {p}, b.Held p → b.getOrder (b.heap p).id = some p := fun hp => ha.inv.index.2 ⟨rfl, .inl hp⟩
  have hstatic : ∀ {p}, b.Held p → (out.state.heap p).id = (b.heap p).id := fun hp => by
    rw [(hcall.static _).id, alloc_heap_of_ne (Nat.ne_of_lt (ha.inv.alloc (.inl hp)))]
  -- the orders of the book that are in it after the call are live after it
  have hlive : ∀ {p}, b.Held p → out.state.Held p → sv'.Live (b.heap p).id := fun {p} hp hp' =>
    ⟨o.symbol, out.state.toOrderBook, p, by rw [ha.find?, if_pos rfl], hcall.inv.index.2 ⟨hstatic hp, .inl hp'⟩⟩
  constructor
  · intro h' e' he' d k p hp ht hown hr
    cases hre.symm.trans he'
    rw [hnames]
    by_contra hno
    have hheld : b.Held p := .inr ⟨d, k, hp⟩
    rw [hreach] at hr
    have hacc : out.accepted = true := by
      obtain ⟨t, htm, -⟩ := reachedBy_iff.1 hr
      exact ha.add.accepted_of_trade htm
    rw [announced_iff ha hacc hheld] at hno
    have hgone : ¬ out.state.Held p :=
      (ha.add.dropped_iff ha.inv ha.invAlloc hacc hheld hno).2 ⟨ht, d, k, hp, hr⟩
    -- the entry stays
    obtain ⟨c, hc⟩ := Option.isSome_iff_exists.1 hown
    have hkept : sv'.orderOwners.find? (b.heap p).id = some c := by
      refine (hd.kept _ fun q hq hid _ => hno ?_).trans hc
      rw [(hcall.static q).id, ← alloc_heap_of_ne (o := o) (Nat.ne_of_lt (ha.inv.alloc (.inl hheld)))] at hid
      exact hcall.eq_of_id ha.invAlloc hacc (hcall.announced q hq) (.inl hheld) hid ▸ hq
    obtain ⟨name, x, q, hx, hq⟩ := h' _ c hkept
    rcases ha.live_cases hx hq with ⟨y, hy, hyq⟩ | ⟨hid, -⟩
    · have hn := hI.oneBook hy hyq ha.book (hindex hheld)
      rw [ha.find?, if_pos hn] at hx
      cases hx
      rw [hn, ha.book] at hy
      cases hy
      cases (hindex hheld).symm.trans hyq
      obtain ⟨-, hq | hF⟩ := hcall.inv.index.1 hq
      · exact hgone hq
      · cases hF
    · exact hl (hid ▸ live_of_held ha.book ha.inv hheld)
  · intro hC id c hown
    obtain ⟨name, y, p, hy, hp⟩ := h id c (hd.owner_of hown)
    by_cases hn : name = o.symbol
    · rw [hn, ha.book] at hy
      cases hy
      obtain ⟨rfl, hheld | hF⟩ := ha.inv.index.1 hp
      · refine hlive hheld ?_
        cases hacc : out.accepted with
        | false =>
          rw [(hcall.refused hacc).1]
          exact hheld
        | true =>
          by_cases hcb : .order p ∈ out.callbacks
          · -- an announced order that is finished has lost its owner
            refine (hcall.fate hacc p (.inl hheld)).resolve_right fun hfin => ?_
            have hgone := hd.erased p hcb hfin
            rw [hstatic hheld, hown] at hgone
            cases hgone
          · by_contra hgone
            obtain ⟨ht, d, k, hk, hr⟩ := (ha.add.dropped_iff ha.inv ha.invAlloc hacc hheld hcb).1 hgone
            have hown₀ : sv.orderOwners.find? (b.heap p).id = some c := hd.owner_of hown
            refine hcb ((announced_iff ha hacc hheld).1 ((hnames _).1 (hC e hre d k p hk ht ?_ ((hreach d k).2 hr))))
            rw [hown₀]; rfl
      · cases hF
    · exact ⟨name, y, p, by rw [ha.find?, if_neg hn]; exact hy, hp⟩

/-- The owner of a submitted order is recorded whatever became of it. -/
theorem acknowledge_iff {s : SessionPtr} (hnone : sv.orderOwners.find? o.id = none) :
    OwnersLive (sv.acknowledge s o) ↔ sv.Live o.id ∧ OwnersLive sv := by
  have hfind : ∀ id, (sv.acknowledge s o).orderOwners.find? id =
      if id = o.id then some (sv.clientId s) else sv.orderOwners.find? id := fun _ => SortedMap.find?_insert ..
  constructor
  · intro h
    refine ⟨h o.id _ (by rw [hfind, if_pos rfl]), fun id c hc => h id c ?_⟩
    rw [hfind, if_neg fun he => by rw [he, hnone] at hc; cases hc]
    exact hc
  · rintro ⟨hlive, h⟩ id c hc
    rw [hfind] at hc
    split_ifs at hc with he
    · exact he ▸ hlive
    · exact h id c hc

end Added

/-- A submission keeps the map clean exactly when its order rests and no owned stop order is dropped. -/
theorem submitted_iff {s : SessionPtr} {m : OrderSubmitMessage} {b : OrderBook ℚ} {out : AddOutcome ℚ}
    (h : OwnersLive sv) (hI : IdInv sv) (hs : s < sv.nextSession)
    (ha : Added env (submittedOrder env m b.tickSize) b out
      (sv.saveSubmission env ⟨generateUuid env.uuid, s, m, b.tickSize⟩ (submittedOrder env m b.tickSize)) sv')
    (hnd : sv'.uuids.Nodup) : OwnersLive (sv'.acknowledge s (out.state.heap b.nextPtr)) ↔
      Rests b (submittedOrder env m b.tickSize) ∧ sv.OwnedStopsTrade b (submittedOrder env m b.tickSize) := by
  have hnew := submitted_new ha hnd
  obtain ⟨disk, n, heq, -⟩ := saveSubmission_eq sv env ⟨generateUuid env.uuid, s, m, b.tickSize⟩
    (submittedOrder env m b.tickSize)
  have hI₂ := hI.saved hs m b.tickSize hnew
  have hl₂ : ¬ (sv.saveSubmission env ⟨generateUuid env.uuid, s, m, b.tickSize⟩ (submittedOrder env m b.tickSize)).Live
      (generateUuid env.uuid) := fun hl => hnew (hI.live (saveSubmission_live.1 hl))
  have hown : (sv.saveSubmission env ⟨generateUuid env.uuid, s, m, b.tickSize⟩
      (submittedOrder env m b.tickSize)).orderOwners = sv.orderOwners := by rw [heq]
  have h₂ : OwnersLive (sv.saveSubmission env ⟨generateUuid env.uuid, s, m, b.tickSize⟩
      (submittedOrder env m b.tickSize)) := h.step (fun id c hc => ⟨c, hown ▸ hc⟩) fun id hl => saveSubmission_live.2 hl
  have hnone : sv.orderOwners.find? (generateUuid env.uuid) = none := by
    cases hc : sv.orderOwners.find? (generateUuid env.uuid) with
    | none => rfl
    | some c => exact absurd (hI.live (h _ c hc)) hnew
  have hid : (out.state.heap b.nextPtr).id = generateUuid env.uuid := by
    rw [(ha.call.static b.nextPtr).id, alloc_heap_self]; rfl
  have hgone : sv'.orderOwners.find? (out.state.heap b.nextPtr).id = none := by
    rw [hid]
    cases hc : sv'.orderOwners.find? (generateUuid env.uuid) with
    | none => rfl
    | some c =>
      have hc := ha.dispatched.owner_of hc
      have hc : sv.orderOwners.find? (generateUuid env.uuid) = some c := hown ▸ hc
      rw [hnone] at hc
      cases hc
  have hfree : b.ordersById.find? (generateUuid env.uuid) = none := by
    cases hb : b.ordersById.find? (generateUuid env.uuid) with
    | none => rfl
    | some p => exact absurd ⟨_, b, p, ha.book, hb⟩ hl₂
  -- the order is live exactly when the call left it in the book
  have hlive : sv'.Live (generateUuid env.uuid) ↔ out.state.Held b.nextPtr := by
    constructor
    · rintro ⟨name, x, q, hx, hq⟩
      rcases ha.live_cases hx hq with hold | ⟨-, hn, rfl, -⟩
      · exact absurd ⟨name, hold.choose, q, hold.choose_spec⟩ hl₂
      · rw [ha.find?, if_pos hn] at hx
        cases hx
        obtain ⟨-, hheld | hF⟩ := ha.call.inv.index.1 hq
        · exact hheld
        · cases hF
    · exact fun hheld => ⟨_, out.state.toOrderBook, b.nextPtr, by rw [ha.find?, if_pos rfl],
        ha.call.inv.index.2 ⟨hid, .inl hheld⟩⟩
  rw [acknowledge_iff hgone, hid, hlive, ha.add.rests_iff ha.inv ha.invAlloc hfree, h₂.added_iff hI₂ ha hl₂]
  unfold OwnedStopsTrade
  rw [hown]

theorem posted_iff {o : Order ℚ} {rest : List (Order ℚ)} {b : OrderBook ℚ} {out : AddOutcome ℚ} (h : OwnersLive sv)
    (hI : IdInv sv) (hp : sv.posted = o :: rest) (ha : Added env o b out { sv with posted := rest } sv') :
    OwnersLive sv' ↔ sv.OwnedStopsTrade b o := by
  have hpop : OwnersLive { sv with posted := rest } := h
  exact hpop.added_iff (hI.popPosted hp) ha (hI.posted o (by rw [hp]; exact List.mem_cons_self ..)).2

end OwnersLive

theorem Effect.ownersLive {env : Env} {ev : Event} {sv sv' : Server} (he : Effect env ev sv sv') (hI : IdInv sv)
    (hnd : sv'.uuids.Nodup) (h : OwnersLive sv) (hC : sv.Settled (env, ev)) : OwnersLive sv' := by
  cases he with
  | quiet hq => exact h.quiet hq
  | connected | dropped _ => exact h.step (fun _ c hc => ⟨c, hc⟩) fun _ hl => hl
  | closed _ =>
    refine h.step (fun id c hc => ?_) fun _ hl => hl
    unfold removeSession at hc
    dsimp only at hc
    rw [SortedMap.find?_filterMapVals] at hc
    obtain ⟨c', hc', -⟩ := Option.bind_eq_some_iff.1 hc
    exact ⟨c', hc'⟩
  | created h₁ hb h₂ =>
    exact ((h.quiet h₁).setBook fun hy _ => by rw [hb] at hy; cases hy).quiet h₂
  | ticked hb =>
    refine h.setBook fun hy hp => ?_
    cases hb.symm.trans hy
    rwa [setTickSize_getOrder]
  | @submitted _ sv₁ sv₂ s m b out hs hauth h₁ ha =>
    have hb := ha.book
    rw [saveSubmission_orderbooks, h₁.orderbooks] at hb
    refine ((h.quiet h₁).submitted_iff (hI.quiet h₁) (by rw [h₁.nextSession]; exact hasSession_lt hs) ha hnd).2 ?_
    obtain ⟨hr, hd⟩ := hC hs hauth b hb
    refine ⟨hr, ?_⟩
    unfold OwnedStopsTrade at hd ⊢
    rwa [h₁.orderOwners]
  | cancelled _ h₁ _ hc => exact (h.quiet h₁).cancelled hc
  | reported _ h₁ _ _ _ => exact (h.quiet h₁).step (fun _ c hc => ⟨c, hc⟩) fun _ hl => hl
  | generated hg =>
    unfold generate
    rw [hg]
    exact h.step (fun _ c hc => ⟨c, hc⟩) fun _ hl => hl
  | @posted _ _ o rest b out hp ha =>
    exact (h.posted_iff hI hp ha).2 (hC o b (by rw [hp]; rfl) ha.book)
  | generatorCancelled h₁ hc => exact (h.quiet h₁).cancelled hc
  | restarted hb hr hq =>
    -- a new process has recorded no owner
    refine OwnersLive.quiet (fun id c hc => ?_) hq
    have hnone : ∀ id, _ = none := hr.rule (K := fun sv => ∀ id, sv.orderOwners.find? id = none)
      (fun id => by rw [hb.orderOwners]; rfl) fun {o b out sv sv'} ha hK id => by
        cases hc : sv'.orderOwners.find? id with
        | none => rfl
        | some c =>
          have hc : sv.orderOwners.find? id = some c := ha.dispatched.owner_of hc
          rw [hK id] at hc
          cases hc
    rw [hnone id] at hc
    cases hc

/-- One event leaves no owner behind exactly when it is settled. -/
theorem step_ownersLive {env : Env} {ev : Event} {sv sv' : Server} (hs : Sound sv) (hI : IdInv sv) (hnd : sv'.uuids.Nodup)
    (h : OwnersLive sv) (hev : sv.step (env, ev) = some sv') : OwnersLive sv' ↔ sv.Settled (env, ev) := by
  obtain ⟨sv₁, h1, he⟩ := step_effect hs env ev
  cases h1.symm.trans hev
  refine ⟨fun h' => ?_, he.ownersLive hI hnd h⟩
  cases ev with
  | message s m =>
    cases m with
    | orderSubmit m =>
      intro hsess hauth b hb
      have hq := (Quiet.requireAuth sv s "trade").trans (.subscribe _ s m.symbol)
      have hb' : (sv.requireAuth s "trade").2.orderbooks.find? m.symbol = some b := by
        rw [(Quiet.requireAuth sv s "trade").orderbooks]; exact hb
      obtain ⟨out, sv₂, h2, ha⟩ := handleOrderSubmit_added env ((Quiet.requireAuth sv s "trade").sound hs) hb' s
      have hrun : sv.step (env, .message s (.orderSubmit m)) = some (sv₂.acknowledge s (out.state.heap b.nextPtr)) := by
        unfold step
        dsimp only
        rw [if_pos hsess]
        unfold handleMessage
        dsimp only
        rw [if_pos hauth]
        exact h2
      cases hrun.symm.trans hev
      have hiff := (h.quiet hq).submitted_iff (hI.quiet hq) (by rw [hq.nextSession]; exact hasSession_lt hsess) ha hnd
      unfold OwnedStopsTrade at hiff ⊢
      rw [hq.orderOwners] at hiff
      exact hiff.1 h'
    | _ => exact trivial
  | posted =>
    intro o b ho hb
    obtain ⟨rest, hp⟩ : ∃ rest, sv.posted = o :: rest := List.head?_eq_some_iff.1 ho
    obtain ⟨out, sv₂, h2, ha⟩ := handlePosted_added env hs hp hb
    cases h2.symm.trans hev
    exact (h.posted_iff hI hp ha).1 h'
  | _ => exact trivial

/-! ## Whole histories -/

/-- In every history whose ids are pairwise distinct, the ownership map holds live orders only at all times exactly when
every submitted order rests in its book and no call drops an owned stop order. -/
theorem run_owners_iff (config : Config) (env : Env) (evs : List (Env × Event)) :
    ∃ sv, run config env evs = some sv ∧ (sv.uuids.Nodup →
      ((∀ pre, pre <+: evs → ∃ sv', run config env pre = some sv' ∧ OwnersLive sv') ↔
        Machine.Along step Settled (initial config) ((env, .restart) :: evs))) := by
  have hret : ∀ sv a, Sound sv ∧ (sv.uuids.Nodup → IdInv sv) →
      ∃ sv', step sv a = some sv' ∧ Sound sv' ∧ (sv'.uuids.Nodup → IdInv sv') := fun sv a hJ => by
    obtain ⟨sv', h1, he⟩ := step_effect hJ.1 a.1 a.2
    exact ⟨sv', h1, he.sound hJ.1, fun hnd => he.idInv (hJ.2 (he.uuids.sublist.nodup hnd)) hnd⟩
  have hG : ∀ sv a sv', Sound sv ∧ (sv.uuids.Nodup → IdInv sv) → step sv a = some sv' → sv'.uuids.Nodup → sv.uuids.Nodup :=
    fun sv a sv' hJ hstep hnd => by
      obtain ⟨sv₁, h1, he⟩ := step_effect hJ.1 a.1 a.2
      cases h1.symm.trans hstep
      exact he.uuids.sublist.nodup hnd
  have h0 : Sound (initial config) ∧ ((initial config).uuids.Nodup → IdInv (initial config)) :=
    ⟨.initial config, fun _ => .initial config⟩
  have hrun : ∀ pre, ∃ sv, run config env pre = some sv := fun pre => by
    obtain ⟨sv, h, -⟩ := run_rule config env pre (K := fun _ _ => True) trivial fun _ _ _ _ _ _ _ _ _ _ => trivial
    exact ⟨sv, h⟩
  obtain ⟨sv, hsv⟩ := hrun evs
  refine ⟨sv, hsv, fun hnd => ?_⟩
  have hend : ∀ sv', ((env, Event.restart) :: evs).foldlM step (initial config) = some sv' → sv'.uuids.Nodup := fun sv' h => by
    cases hsv.symm.trans h
    exact hnd
  have hinit : OwnersLive (initial config) := fun id c hc => by cases hc
  rw [← Machine.forall_prefix_iff_along hret hG
    (fun sv a sv' hJ hnd hP hstep => step_ownersLive hJ.1 (hJ.2 (hG sv a sv' hJ hstep hnd)) hnd hP hstep) _ _ h0 hend hinit]
  constructor
  · intro h pre hpre sv' hsv'
    cases pre with
    | nil =>
      cases hsv'
      exact hinit
    | cons a pre =>
      obtain ⟨rfl, hpre'⟩ := List.cons_prefix_cons.1 hpre
      obtain ⟨sv'', hrun', hP⟩ := h pre hpre'
      cases hrun'.symm.trans hsv'
      exact hP
  · intro h pre hpre
    obtain ⟨sv', hsv'⟩ := hrun pre
    exact ⟨sv', hsv', h _ (List.cons_prefix_cons.2 ⟨rfl, hpre⟩) sv' hsv'⟩

/-- Two sell orders rest; a buy order takes the first, rests with what it has left, and is cancelled. -/
def restAndCancel : List (Env × Event) :=
  [(sampleEnv false 1, .connect), (sampleEnv false 2, .message 0 (sampleSubmit .sell .limit 100 0 3)),
    (sampleEnv false 3, .message 0 (sampleSubmit .sell .limit 101 0 3)),
    (sampleEnv false 4, .message 0 (sampleSubmit .buy .limit 100 0 5)),
    (sampleEnv false 5, .message 0 (.orderCancel (generateUuid (sampleEnv false 4).uuid) ""))]

theorem run_owners_iff_restAndCancel : ∃ sv, run sampleConfig (sampleEnv false 0) restAndCancel = some sv ∧
    sv.uuids.Nodup ∧ (sv.orderOwners.entries.map (·.1)) = [generateUuid (sampleEnv false 3).uuid] ∧ OwnersLive sv := by
  obtain ⟨sv, hrun, h⟩ := run_owners_iff sampleConfig (sampleEnv false 0) restAndCancel
  have heval : (run sampleConfig (sampleEnv false 0) restAndCancel).map (fun sv => (decide sv.uuids.Nodup,
      sv.orderOwners.entries.map (·.1))) = some (true, [generateUuid (sampleEnv false 3).uuid]) := by decide +kernel
  rw [hrun, Option.map_some, Option.some.injEq, Prod.mk.injEq, decide_eq_true_eq] at heval
  obtain ⟨hnd, hown⟩ := heval
  obtain ⟨sv', hrun', hlive⟩ := (h hnd).2 (by decide +kernel) restAndCancel (List.prefix_refl _)
  cases hrun.symm.trans hrun'
  exact ⟨sv, hrun, hnd, hown, hlive⟩

/-- A market order that finds nothing to trade with is cancelled by its own submission, and its owner stays. -/
theorem run_owners_fails : ∃ sv id, run sampleConfig (sampleEnv false 0) [(sampleEnv false 1, .connect),
      (sampleEnv false 2, .message 0 (sampleSubmit .buy .market 0 0 5))] = some sv ∧ sv.uuids.Nodup ∧
    (sv.orderOwners.find? id).isSome = true ∧ ¬ sv.Live id ∧ ¬ OwnersLive sv := by
  have heval : (run sampleConfig (sampleEnv false 0) [(sampleEnv false 1, .connect),
      (sampleEnv false 2, .message 0 (sampleSubmit .buy .market 0 0 5))]).map (fun sv => (decide sv.uuids.Nodup,
        sv.orderOwners.find? (generateUuid (sampleEnv false 2).uuid),
        sv.orderbooks.entries.map fun e => (e.2.getOrder (generateUuid (sampleEnv false 2).uuid)).isSome)) =
      some (true, some (generateUuid (sampleEnv false 1).uuid), [false]) := by decide +kernel
  obtain ⟨sv, hrun, h⟩ := Option.map_eq_some_iff.1 heval
  simp only [Prod.mk.injEq, decide_eq_true_eq] at h
  obtain ⟨hnd, hown, hbooks⟩ := h
  have hlive : ¬ sv.Live (generateUuid (sampleEnv false 2).uuid) := by
    rintro ⟨name, b, p, hb, hp⟩
    have hmem := List.mem_map_of_mem (f := fun e : String × OrderBook ℚ =>
      (e.2.getOrder (generateUuid (sampleEnv false 2).uuid)).isSome) (SortedMap.find?_eq_some_iff.1 hb)
    rw [hbooks, hp] at hmem
    simp at hmem
  exact ⟨sv, _, hrun, hnd, by rw [hown]; rfl, hlive, fun h => hlive (h _ _ hown)⟩

end Server

end OrderbookGC
