/-
A process that dies while it handles an event has made the first few writes of that event and no other. Nothing ties
the writes of one call together: a trade stored without the rows of its orders is made again by the restore loop
(`run_executes_twice`). As long as no process dies between the first trade an event stores and the last of its writes,
every database it leaves behind is balanced, and no order is executed for more than its quantity (`run_executes_once`).
-/
import OrderbookGC.Server.Durable

namespace OrderbookGC

open Container OrderBook MatchState

/-- The environment of a process that dies once the history has `n` writes. -/
def Env.cut (env : Env) (n : Nat) : Env := { env with writeOk := fun k => decide (k < n) }

/-- The environment in which the process lives on. -/
def Env.whole (env : Env) : Env := { env with writeOk := fun _ => true }

namespace Server

variable {env : Env} {n : Nat}

/-! ## Writes that were all made -/

theorem write_le (sv : Server) (env : Env) (stmt : Bool → Db → Bool × Db) : sv.writes ≤ (sv.write env stmt).2.writes := by
  unfold write
  split_ifs
  · exact Nat.le_succ _
  · exact Nat.le_refl _

theorem write_cut {sv : Server} {stmt : Bool → Db → Bool × Db} (h : (sv.write (env.cut n) stmt).2.writes ≤ n) :
    sv.write (env.cut n) stmt = sv.write env.whole stmt := by
  unfold write at h ⊢
  by_cases ho : sv.storeOpen = true
  · rw [if_pos ho] at h ⊢
    have hok : (env.cut n).writeOk sv.writes = env.whole.writeOk sv.writes := decide_eq_true h
    rw [if_pos ho, hok]
  · rw [if_neg ho, if_neg ho]

theorem onTradeExecuted_writes (env : Env) (sv : Server) (t : Trade ℚ) : (onTradeExecuted env sv t).writes =
    (Server.write { sv with generator := sv.generator.map (Generator.updateLastPrice · t.price), trades := sv.trades ++ [t] }
      env (Db.saveTrade · t env.now)).2.writes := by
  unfold onTradeExecuted
  dsimp only
  generalize (Server.write _ env (Db.saveTrade · t env.now)).2 = sv₁
  obtain ⟨l, hb, -⟩ := broadcast_eq sv₁ t.symbol (.tradeNotification t)
  rw [hb]

theorem onOrderUpdated_writes (env : Env) (sv : Server) (o : Order ℚ) :
    (onOrderUpdated env sv o).writes = (sv.write env (Db.updateOrder · o)).2.writes := by
  unfold onOrderUpdated
  dsimp only
  generalize (sv.write env (Db.updateOrder · o)).2 = sv₁
  cases sv₁.orderOwners.find? o.id with
  | none => rfl
  | some c =>
    dsimp only
    by_cases hc : c.isEmpty = true
    · rw [if_pos hc]
    · rw [if_neg hc]
      cases sv₁.sessions.find? c <;> rfl

theorem onTradeExecuted_cut {sv : Server} {t : Trade ℚ} (h : (onTradeExecuted (env.cut n) sv t).writes ≤ n) :
    onTradeExecuted (env.cut n) sv t = onTradeExecuted env.whole sv t := by
  rw [onTradeExecuted_writes] at h
  unfold onTradeExecuted
  dsimp only
  rw [write_cut h]
  rfl

theorem onOrderUpdated_cut {sv : Server} {o : Order ℚ} (h : (onOrderUpdated (env.cut n) sv o).writes ≤ n) :
    onOrderUpdated (env.cut n) sv o = onOrderUpdated env.whole sv o := by
  rw [onOrderUpdated_writes] at h
  unfold onOrderUpdated
  dsimp only
  rw [write_cut h]

theorem dispatch_le (env : Env) (heap : OrderPtr → Order ℚ) : ∀ (cbs : List (Callback ℚ)) (sv : Server),
    sv.writes ≤ (dispatch env heap cbs sv).writes
  | [], _ => Nat.le_refl _
  | .trade t :: cbs, sv => by
    refine Nat.le_trans ?_ (dispatch_le env heap cbs (onTradeExecuted env sv t))
    rw [onTradeExecuted_writes]
    exact write_le { sv with generator := sv.generator.map (Generator.updateLastPrice · t.price)
                             trades := sv.trades ++ [t] } env _
  | .order p :: cbs, sv => by
    refine Nat.le_trans ?_ (dispatch_le env heap cbs (onOrderUpdated env sv (heap p)))
    rw [onOrderUpdated_writes]
    exact write_le sv env _

/-- Callbacks whose writes were all made did what they do in a process that lives on. -/
theorem dispatch_cut (heap : OrderPtr → Order ℚ) : ∀ (cbs : List (Callback ℚ)) (sv : Server),
    (dispatch (env.cut n) heap cbs sv).writes ≤ n → dispatch (env.cut n) heap cbs sv = dispatch env.whole heap cbs sv
  | [], _, _ => rfl
  | .trade t :: cbs, sv, h => by
    have h1 := Nat.le_trans (dispatch_le (env.cut n) heap cbs (onTradeExecuted (env.cut n) sv t)) h
    refine (dispatch_cut heap cbs (onTradeExecuted (env.cut n) sv t) h).trans ?_
    rw [onTradeExecuted_cut h1]
    rfl
  | .order p :: cbs, sv, h => by
    have h1 := Nat.le_trans (dispatch_le (env.cut n) heap cbs (onOrderUpdated (env.cut n) sv (heap p))) h
    refine (dispatch_cut heap cbs (onOrderUpdated (env.cut n) sv (heap p)) h).trans ?_
    rw [onOrderUpdated_cut h1]
    rfl

section Calls

variable {sv sv' : Server} {o : Order ℚ} {b b' : OrderBook ℚ} {out : AddOutcome ℚ} {symbol id : String} {p : OrderPtr}

theorem Added.whole (ha : Added (env.cut n) o b out sv sv') (hn : sv'.writes ≤ n) : Added env.whole o b out sv sv' := by
  have hres := ha.returned
  rw [hres] at hn
  rw [dispatch_cut out.state.heap out.callbacks _ hn] at hres
  exact ⟨ha.book, ha.inv, ha.result, ha.add, hres ▸ dispatch_dispatched .., hres⟩

theorem Added.writes_le (ha : Added env o b out sv sv') : sv.writes ≤ sv'.writes := by
  rw [ha.returned]
  exact dispatch_le env out.state.heap out.callbacks (sv.setBook o.symbol out.state.toOrderBook)

theorem Cancelled.whole (hc : Cancelled (env.cut n) symbol id b p b' sv sv') (hn : sv'.writes ≤ n) :
    Cancelled env.whole symbol id b p b' sv sv' := by
  have hres := hc.result
  rw [hres] at hn
  rw [onOrderUpdated_cut hn] at hres
  exact ⟨hc.book, hc.inv, hc.cancel, hres⟩

theorem saveSubmission_cut {x : Submission} (h : (sv.saveSubmission (env.cut n) x o).writes ≤ n) :
    sv.saveSubmission (env.cut n) x o = sv.saveSubmission env.whole x o := by
  unfold saveSubmission at h ⊢
  dsimp only at h ⊢
  rw [write_cut h]
  rfl

end Calls

/-- An event whose writes were all made did what it does in a process that lives on. -/
theorem Effect.whole {ev : Event} {sv sv' : Server} (he : Effect (env.cut n) ev sv sv') (hev : ev ≠ .restart)
    (hn : sv'.writes ≤ n) : Effect env.whole ev sv sv' := by
  cases he with
  | quiet h => exact .quiet h hev
  | connected => exact .connected
  | closed hs => exact .closed hs
  | created h₁ hb h₂ => exact .created h₁ hb h₂ hev
  | ticked hb => exact .ticked hb
  | @submitted _ sv₁ sv₂ s m b out hs hauth h₁ ha =>
    have hsave := saveSubmission_cut (Nat.le_trans ha.writes_le hn)
    have ha' := ha.whole hn
    rw [hsave] at ha'
    exact .submitted hs hauth h₁ ha'
  | cancelled hs h₁ ho hc => exact .cancelled hs h₁ ho (hc.whole hn)
  | reported hs h₁ ho hb hp => exact .reported hs h₁ ho hb hp
  | generated hg => exact .generated hg
  | dropped hp => exact .dropped hp
  | posted hp ha => exact .posted hp (ha.whole hn)
  | generatorCancelled h₁ hc => exact .generatorCancelled h₁ (hc.whole hn)
  | restarted _ _ _ => exact absurd rfl hev

/-! ## Events that stored no trade -/

/-- A dead process writes nothing. -/
theorem dispatch_dead (heap : OrderPtr → Order ℚ) : ∀ (cbs : List (Callback ℚ)) (sv : Server), n ≤ sv.writes →
    (dispatch (env.cut n) heap cbs sv).disk = sv.disk
  | [], _, _ => rfl
  | .trade t :: cbs, sv, h => by
    have hle : sv.writes ≤ (onTradeExecuted (env.cut n) sv t).writes := dispatch_le (env.cut n) heap [.trade t] sv
    refine (dispatch_dead heap cbs _ (Nat.le_trans h hle)).trans ?_
    have hfail : (env.cut n).writeOk sv.writes = false := decide_eq_false (Nat.not_lt.2 h)
    rw [onTradeExecuted_disk, hfail]
    exact ite_self _
  | .order p :: cbs, sv, h => by
    have hle : sv.writes ≤ (onOrderUpdated (env.cut n) sv (heap p)).writes := dispatch_le (env.cut n) heap [.order p] sv
    refine (dispatch_dead heap cbs _ (Nat.le_trans h hle)).trans ?_
    have hfail : (env.cut n).writeOk sv.writes = false := decide_eq_false (Nat.not_lt.2 h)
    rw [onOrderUpdated_disk, hfail]
    exact ite_self _

/-- No callback deletes a trade. -/
theorem dispatch_trades_le (env : Env) (heap : OrderPtr → Order ℚ) : ∀ (cbs : List (Callback ℚ)) (sv : Server),
    sv.disk.trades.length ≤ (dispatch env heap cbs sv).disk.trades.length
  | [], _ => Nat.le_refl _
  | .trade t :: cbs, sv => by
    refine Nat.le_trans ?_ (dispatch_trades_le env heap cbs (onTradeExecuted env sv t))
    rw [onTradeExecuted_disk]
    unfold Db.saveTrade
    split_ifs
    · simp
    · exact Nat.le_refl _
    · exact Nat.le_refl _
  | .order p :: cbs, sv => by
    refine Nat.le_trans ?_ (dispatch_trades_le env heap cbs (onOrderUpdated env sv (heap p)))
    rw [onOrderUpdated_disk]
    unfold Db.updateOrder
    split_ifs <;> exact Nat.le_refl _

/-- Rows rewritten from orders that have lost nothing keep their balance. -/
theorem Balanced.rewritten {heap : OrderPtr → Order ℚ} {cbs : List (Callback ℚ)} {sv sv₀ sv' : Server} (h : Balanced sv)
    (hd : Dispatched env heap cbs sv₀ sv') (ho : sv₀.disk.orders = sv.disk.orders) (ht : sv'.disk.trades = sv.disk.trades)
    (hu : sv.uuids ⊆ sv'.uuids)
    (hrow : ∀ p, .order p ∈ cbs → ∀ r ∈ sv.disk.orders, r.id = cStr (heap p).id →
      columnInt r.remainingQuantity = (heap p).remainingQuantity) : Balanced sv' := by
  refine ⟨fun r hr => ?_, fun t htr => ?_⟩
  · obtain ⟨f, hf, hf', -⟩ := hd.rows
    rw [hf, ho] at hr
    obtain ⟨r₀, hr₀, rfl⟩ := List.mem_map.1 hr
    have hbal := h.balance r₀ hr₀
    rw [ht]
    rcases hf' r₀ with heq | ⟨p, hp, hid, heq⟩
    · rw [heq]
      exact hbal
    · rw [heq]
      show (columnInt (bindInt (heap p).remainingQuantity)).toNat + tradedRows r₀.id sv.disk.trades =
        (columnInt r₀.quantity).toNat
      rw [columnInt_bindInt, ← hrow p hp r₀ hr₀ hid]
      exact hbal
  · rw [ht] at htr
    exact (h.drawn t htr).imp (fun h => hu h) fun h => hu h

namespace DurableInv

variable {sv sv' : Server} {o : Order ℚ} {b b' : OrderBook ℚ} {out : AddOutcome ℚ} {symbol id : String} {p : OrderPtr}

/-- A call that stored no trade: it made none, or it died before the first, and the updates come after the trades. -/
theorem untraded (h : DurableInv sv) (hI : IdInv sv) (ha : Added (env.cut n) o b out sv sv') (hk : o.id ∈ sv.uuids)
    (hrow : sv.storeOpen = true → ∀ r ∈ sv.disk.orders, r.id = o.id → columnInt r.remainingQuantity = o.remainingQuantity)
    (ht : sv'.disk.trades = sv.disk.trades) : Balanced sv' := by
  have hcall := ha.call
  have hu : sv.uuids ⊆ sv'.uuids := by rw [ha.dispatched.uuids]; exact List.Subset.refl _
  have hdisk : sv'.disk = sv.disk → Balanced sv' := fun hd => h.toBalanced.of_eq (by rw [hd]) (by rw [hd]) hu
  have hret := ha.returned
  cases ho : sv.storeOpen with
  | false =>
    refine hdisk ?_
    rw [hret]
    exact dispatch_closed _ out.state.heap out.callbacks (sv.setBook o.symbol out.state.toOrderBook) ho
  | true =>
    cases hts : tradesIn out.callbacks with
    | nil =>
      refine h.toBalanced.rewritten ha.dispatched rfl ht hu fun p hp r hr hid => ?_
      have hp' := hcall.announced p hp
      have hsum := ha.add.settles ha.inv ha.invAlloc hp'
      rw [hts, traded_nil, Nat.add_zero] at hsum
      rw [(hcall.static p).id, hI.cStr_eq (hI.known ha hk hp')] at hid
      rw [h.row_before ha ho (hrow ho) hp' hr hid]
      exact UInt32.toNat_inj.1 hsum
    | cons t ts =>
      have hmem : .trade t ∈ out.callbacks := mem_tradesIn.1 (by rw [hts]; exact List.mem_cons_self)
      have hcbs := (ha.add.changes ha.invAlloc (hcall.accepted_of_mem hmem)).callbacks
      -- the first callback is the first trade
      obtain ⟨rest, hrest⟩ : ∃ rest, out.callbacks = .trade t :: rest := by
        rw [hcbs, tradesIn_fireCallbacks] at hts
        rw [hcbs]
        unfold fireCallbacks
        rw [hts]
        exact ⟨_, rfl⟩
      rw [hrest] at hret
      generalize hsv₀ : sv.setBook o.symbol out.state.toOrderBook = sv₀ at hret
      have hd₀ : sv₀.disk = sv.disk := by rw [← hsv₀]; rfl
      have hw₀ : sv₀.writes = sv.writes := by rw [← hsv₀]; rfl
      have ho₀ : sv₀.storeOpen = true := by rw [← hsv₀]; exact ho
      by_cases hlt : sv.writes < n
      · have hle := dispatch_trades_le (env.cut n) out.state.heap rest (onTradeExecuted (env.cut n) sv₀ t)
        have hok : (env.cut n).writeOk sv₀.writes = true := decide_eq_true (hw₀ ▸ hlt)
        have hret : sv' = dispatch (env.cut n) out.state.heap rest (onTradeExecuted (env.cut n) sv₀ t) := hret
        rw [← hret, onTradeExecuted_disk, if_pos ho₀, hok, ht, ← hd₀] at hle
        unfold Db.saveTrade at hle
        simp at hle
      · refine hdisk ?_
        rw [hret, dispatch_dead _ _ _ (hw₀ ▸ Nat.not_lt.1 hlt), hd₀]

theorem uncancelled (h : DurableInv sv) (hI : IdInv sv) (hc : Cancelled env symbol id b p b' sv sv')
    (ht : sv'.disk.trades = sv.disk.trades) : Balanced sv' := by
  have hd := hc.dispatched
  have hu : sv.uuids ⊆ sv'.uuids := by rw [hd.uuids]; exact List.Subset.refl _
  cases ho : sv.storeOpen with
  | false =>
    have hdisk : sv'.disk = sv.disk := by
      rw [hc.result]
      exact dispatch_closed env b'.heap [.order p] (sv.setBook symbol b') ho
    exact h.toBalanced.of_eq (by rw [hdisk]) (by rw [hdisk]) hu
  | true =>
    refine h.toBalanced.rewritten hd rfl ht hu fun q hq r hr hid => ?_
    have hindex : b.getOrder (b.heap p).id = some p := hc.inv.index.2 ⟨rfl, .inl hc.cancel.held⟩
    rw [Callback.order.inj (List.mem_singleton.1 hq)] at hid ⊢
    rw [(hc.cancel.static p).id, hI.cStr_eq (hI.live ⟨symbol, b, p, hc.book, hindex⟩)] at hid
    rw [h.live ho r hr hc.book (hid ▸ hindex), hc.cancel.heap, Function.update_self]

end DurableInv

/-- An event that stored no trade before its process died leaves a balanced database. -/
theorem Effect.untraded {ev : Event} {sv sv' : Server} (he : Effect (env.cut n) ev sv sv') (hev : ev ≠ .restart)
    (hI : IdInv sv) (hnd : sv'.uuids.Nodup) (h : DurableInv sv) (ht : sv'.disk.trades = sv.disk.trades) : Balanced sv' := by
  cases he with
  | quiet hq => exact h.toBalanced.of_eq hq.orders ht hq.uuids.subset
  | connected => exact h.toBalanced.of_eq rfl ht (List.subset_append_left ..)
  | closed _ | dropped _ | ticked _ => exact h.toBalanced.of_eq rfl ht (List.Subset.refl _)
  | created h₁ _ h₂ => exact h.toBalanced.of_eq (h₂.orders.trans h₁.orders) ht (h₁.uuids.trans h₂.uuids).subset
  | @submitted _ sv₁ sv₂ s m b out hs _ h₁ ha =>
    have hI₁ := hI.quiet h₁
    have hs₁ : s < sv₁.nextSession := by rw [h₁.nextSession]; exact hasSession_lt hs
    have hnew := submitted_new ha hnd
    have hsaved : DurableInv (sv₁.saveSubmission (env.cut n) ⟨generateUuid env.uuid, s, m, b.tickSize⟩
        (submittedOrder (env.cut n) m b.tickSize)) := (h.quiet h₁).saved hI₁ (cStr_generateUuid _).symm rfl hnew
    have hI₂ : IdInv (sv₁.saveSubmission (env.cut n) ⟨generateUuid env.uuid, s, m, b.tickSize⟩
        (submittedOrder (env.cut n) m b.tickSize)) := hI₁.saved hs₁ m b.tickSize hnew
    have hbal := hsaved.untraded hI₂ ha (mem_saveSubmission ..).1 (fun _ r hr hid => hI₁.row_of_submission hnew hr hid)
      (ht.trans (h₁.tradeRows.symm.trans (saveSubmission_tradeRows ..).symm))
    exact hbal.of_eq rfl rfl (List.Subset.refl _)
  | cancelled _ h₁ _ hc => exact (h.quiet h₁).uncancelled (hI.quiet h₁) hc (ht.trans h₁.tradeRows.symm)
  | reported _ h₁ _ _ _ => exact h.toBalanced.of_eq h₁.orders ht h₁.uuids.subset
  | generated hg =>
    unfold generate at ht ⊢
    rw [hg] at ht ⊢
    exact h.toBalanced.of_eq rfl ht (List.subset_append_left ..)
  | @posted _ _ o rest b out hp ha =>
    have hmem : o ∈ sv.posted := by rw [hp]; exact List.mem_cons_self ..
    have hpop : DurableInv { sv with posted := rest } := h.of_eq rfl rfl rfl (List.Subset.refl _)
    exact hpop.untraded (hI.popPosted hp) ha (hI.posted o hmem).1
      (fun _ r hr hid => absurd hid (hI.postedRow o hmem r hr)) ht
  | generatorCancelled h₁ hc => exact (h.quiet h₁).uncancelled (hI.quiet h₁) hc (ht.trans h₁.tradeRows.symm)
  | restarted _ _ _ => exact absurd rfl hev

/-! ## Histories with crashes -/

/-- An event that is handled; or one that its process dies of after some writes, and the start of the next process. -/
inductive Round
  | handled (env : Env) (ev : Event)
  | died (env : Env) (ev : Event) (hev : ev ≠ .restart) (writes : Nat) (next : Env)

/-- Only the database outlives a process, so what else it did before it died does not matter. -/
def round (sv : Server) : Round → Option Server
  | .handled env ev => sv.step (env, ev)
  | .died env ev _ writes next => (sv.step (env.cut (sv.writes + writes), ev)).bind fun sv => sv.step (next, .restart)

/-- A history with crashes: the first start, and the rounds after it. -/
def runRounds (config : Config) (env : Env) (rounds : List Round) : Option Server :=
  (.handled env .restart :: rounds).foldlM round (initial config)

/-- The writes of a living process succeed. -/
def Round.Stores : Round → Prop
  | .handled env _ => ∀ n, env.writeOk n = true
  | .died _ _ _ _ next => ∀ n, next.writeOk n = true

/-- The process does not die between the first trade it stores for an event and the last of its writes. -/
def Unbroken (sv : Server) : Round → Prop
  | .handled .. => True
  | .died env ev _ writes _ => ∀ sv', sv.step (env.cut (sv.writes + writes), ev) = some sv' →
    sv'.disk.trades = sv.disk.trades ∨ sv'.writes ≤ sv.writes + writes

instance (sv : Server) : ∀ r, Decidable (sv.Unbroken r)
  | .handled .. => isTrue trivial
  | .died env ev _ writes _ => inferInstanceAs (Decidable (∀ sv' ∈ sv.step (env.cut (sv.writes + writes), ev),
      sv'.disk.trades = sv.disk.trades ∨ sv'.writes ≤ sv.writes + writes))

theorem step_sound {sv sv' : Server} (hs : Sound sv) {ev : Event} (h : sv.step (env, ev) = some sv') :
    Effect env ev sv sv' ∧ Sound sv' := by
  obtain ⟨sv₁, h1, he⟩ := step_effect hs env ev
  cases h1.symm.trans h
  exact ⟨he, he.sound hs⟩

/-- A start on a balanced database. -/
theorem Effect.restart_durableInv {sv sv' : Server} (he : Effect env .restart sv sv') (hI : IdInv sv)
    (hw : ∀ n, env.writeOk n = true) (h : Balanced sv) : DurableInv sv' := by
  cases he with
  | quiet _ hev => exact absurd rfl hev
  | created _ _ _ hev => exact absurd rfl hev
  | restarted hb hr hq => exact h.restarted hI hb hr hq hw

/-- What one round keeps. -/
theorem round_durableInv {sv sv' : Server} {r : Round} (hs : Sound sv) (hst : r.Stores) (hC : sv.Unbroken r)
    (hr : sv.round r = some sv') : Sound sv' ∧ sv.uuids <+: sv'.uuids ∧
      (IdInv sv ∧ DurableInv sv → sv'.uuids.Nodup → IdInv sv' ∧ DurableInv sv') := by
  cases r with
  | handled env ev =>
    obtain ⟨he, hs'⟩ := step_sound hs hr
    exact ⟨hs', he.uuids, fun h hnd => ⟨he.idInv h.1 hnd, he.durableInv h.1 hst hnd h.2⟩⟩
  | died env ev hev writes next =>
    obtain ⟨sv₁, h1, h2⟩ := Option.bind_eq_some_iff.1 hr
    obtain ⟨he₁, hs₁⟩ := step_sound hs h1
    obtain ⟨he₂, hs₂⟩ := step_sound hs₁ h2
    refine ⟨hs₂, he₁.uuids.trans he₂.uuids, fun h hnd => ?_⟩
    have hnd₁ := he₂.uuids.sublist.nodup hnd
    have hI₁ := he₁.idInv h.1 hnd₁
    have hbal : Balanced sv₁ := by
      rcases hC sv₁ h1 with ht | hn
      · exact he₁.untraded hev h.1 hnd₁ h.2 ht
      · exact ((he₁.whole hev hn).durableInv h.1 (fun _ => rfl) hnd₁ h.2).toBalanced
    exact ⟨he₂.idInv hI₁ hnd, he₂.restart_durableInv hI₁ hst hbal⟩

theorem round_returns {sv : Server} (hs : Sound sv) (r : Round) : ∃ sv', sv.round r = some sv' := by
  cases r with
  | handled env ev =>
    obtain ⟨sv', h, -⟩ := step_effect hs env ev
    exact ⟨sv', h⟩
  | died env ev hev writes next =>
    obtain ⟨sv₁, h1, he⟩ := step_effect hs (env.cut (sv.writes + writes)) ev
    obtain ⟨sv', h2, -⟩ := step_effect (he.sound hs) next .restart
    exact ⟨sv', Option.bind_eq_some_iff.2 ⟨sv₁, h1, h2⟩⟩

/-- In every history with any number of crashes, none of them between the first trade an event stores and the last of its
writes, and with no id repeated: the stored trades never name an order with more than the quantity of its row. -/
theorem run_executes_once (config : Config) (env : Env) (rounds : List Round)
    (hw : ∀ r ∈ Round.handled env .restart :: rounds, r.Stores)
    (hC : Machine.Along round Unbroken (initial config) (.handled env .restart :: rounds)) :
    ∃ sv, runRounds config env rounds = some sv ∧ (sv.uuids.Nodup → ∀ r ∈ sv.disk.orders,
      tradedRows r.id sv.disk.trades ≤ (columnInt r.quantity).toNat) := by
  obtain ⟨sv, hrun, -, hK⟩ := Machine.foldlM_along
    (I := fun _ sv => Sound sv ∧ (sv.uuids.Nodup → IdInv sv ∧ DurableInv sv)) hC
    (fun pre r sv sv' hpre _ hI hc hr => by
      have hst := hw _ (hpre.subset (List.mem_append_right _ (List.mem_singleton.2 rfl)))
      obtain ⟨hs', hu, hkeep⟩ := round_durableInv hI.1 hst hc hr
      exact ⟨hs', fun hnd => hkeep (hI.2 (hu.sublist.nodup hnd)) hnd⟩)
    (fun _ r sv hI => round_returns hI.1 r) ⟨.initial config, fun _ => ⟨.initial config, .initial config⟩⟩
  refine ⟨sv, hrun, fun hnd r hr => ?_⟩
  have hbal := (hK hnd).2.balance r hr
  omega

/-- A sell order rests, and the process dies when it has stored a buy order that matches it, and nothing else; the
restore loop makes the trade. -/
def diedBeforeTrade : List Round :=
  [.handled (sampleEnv true 1) .connect, .handled (sampleEnv true 2) (.message 0 (sampleSubmit .sell .limit 100 0 5)),
    .died (sampleEnv true 3) (.message 0 (sampleSubmit .buy .limit 100 0 3)) nofun 1 (sampleEnv true 4)]

theorem run_executes_once_diedBeforeTrade : ∃ sv r, runRounds sampleConfig (sampleEnv true 0) diedBeforeTrade = some sv ∧
    sv.uuids.Nodup ∧ r ∈ sv.disk.orders ∧ r.status = .filled ∧ sv.disk.trades.map (·.quantity) = [3] ∧
    tradedRows r.id sv.disk.trades ≤ (columnInt r.quantity).toNat := by
  obtain ⟨sv, hrun, h⟩ := run_executes_once sampleConfig (sampleEnv true 0) diedBeforeTrade
    (by intro r hr; simp only [diedBeforeTrade, List.mem_cons, List.not_mem_nil, or_false] at hr
        rcases hr with rfl | rfl | rfl | rfl <;> exact fun _ => rfl)
    (by decide +kernel)
  have hstate : (runRounds sampleConfig (sampleEnv true 0) diedBeforeTrade).bind (fun sv => sv.disk.orders[1]?.map fun r =>
      (decide sv.uuids.Nodup, r.status, sv.disk.trades.map (·.quantity))) = some (true, .filled, [3]) := by decide +kernel
  rw [hrun, Option.bind_some] at hstate
  obtain ⟨r, hr, he⟩ := Option.map_eq_some_iff.1 hstate
  simp only [Prod.mk.injEq, decide_eq_true_eq] at he
  obtain ⟨hnd, hst, ht⟩ := he
  have hmem := List.mem_of_getElem? hr
  exact ⟨sv, r, hrun, hnd, hmem, hst, ht, h hnd r hmem⟩

/-- The same, but the process dies when it has stored the trade, and neither order's row: both orders are restored as
they came, and the restore loop makes the trade again. -/
def diedAfterTrade : List Round :=
  [.handled (sampleEnv true 1) .connect, .handled (sampleEnv true 2) (.message 0 (sampleSubmit .sell .limit 100 0 3)),
    .died (sampleEnv true 3) (.message 0 (sampleSubmit .buy .limit 100 0 3)) nofun 2 (sampleEnv true 4)]

theorem run_executes_twice : ∃ sv, runRounds sampleConfig (sampleEnv true 0) diedAfterTrade = some sv ∧ sv.uuids.Nodup ∧
    sv.disk.trades.map (·.quantity) = [3, 3] ∧
    ¬ ∀ r ∈ sv.disk.orders, tradedRows r.id sv.disk.trades ≤ (columnInt r.quantity).toNat := by
  have hstate : (runRounds sampleConfig (sampleEnv true 0) diedAfterTrade).map (fun sv => (decide sv.uuids.Nodup,
      sv.disk.trades.map (·.quantity),
      decide (∀ r ∈ sv.disk.orders, tradedRows r.id sv.disk.trades ≤ (columnInt r.quantity).toNat))) =
      some (true, [3, 3], false) := by decide +kernel
  obtain ⟨sv, hrun, he⟩ := Option.map_eq_some_iff.1 hstate
  simp only [Prod.mk.injEq, decide_eq_true_eq, decide_eq_false_iff_not] at he
  obtain ⟨hnd, ht, hno⟩ := he
  exact ⟨sv, hrun, hnd, ht, hno⟩

end Server

end OrderbookGC
