/-
What a client sees of its orders. A connected session has been told, in the last message about each order it submitted,
how far the order is filled (`run_view`): whatever the other clients do, whoever trades with the order, and in whichever
order the messages of a call go out. The trades of a submission itself are in its reply, and of a resting order every
trade is announced as long as the ownership map knows it.
-/
import OrderbookGC.Server.Fills

namespace OrderbookGC

open Container OrderBook MatchState

namespace Server

/-- The last status message about the order that the session has been sent. -/
def view (sv : Server) (s : SessionPtr) (id : String) : Option OrderStatusMessage :=
  ((sv.statuses.filter fun e => e.1 = s ∧ e.2.orderId = id).map (·.2)).getLast?

/-- The session has been told how far the order is filled. -/
def Informed (sv : Server) (s : SessionPtr) (id : String) : Prop :=
  ∃ e ∈ sv.statuses, e.1 = s ∧ e.2.orderId = id ∧ e.2.filledQuantity.toNat = traded id sv.trades

theorem Informed.mono {sv sv' : Server} {s : SessionPtr} {id : String} (h : sv.Informed s id)
    (hst : sv.statuses <+: sv'.statuses) (ht : traded id sv'.trades = traded id sv.trades) : sv'.Informed s id := by
  obtain ⟨e, he, h1, h2, h3⟩ := h
  exact ⟨e, hst.subset he, h1, h2, h3.trans ht.symm⟩

theorem Added.statuses_prefix {env : Env} {o : Order ℚ} {b : OrderBook ℚ} {out : AddOutcome ℚ} {sv sv' : Server}
    (ha : Added env o b out sv sv') : sv.statuses <+: sv'.statuses := by
  obtain ⟨l, hl, -⟩ := ha.dispatched.statuses
  exact ⟨l, hl.symm⟩

theorem Added.present {env : Env} {o : Order ℚ} {b : OrderBook ℚ} {out : AddOutcome ℚ} {sv sv' : Server}
    (ha : Added env o b out sv sv') {s : SessionPtr} (hp : sv'.Present s) : sv.Present s :=
  hp.congr ha.dispatched.sessions (congrArg Session.clientId (congrFun ha.dispatched.sessionAt s))

/-- An order of a connected session that a call trades with is announced to it as the call leaves it. -/
theorem Added.informed {env : Env} {o : Order ℚ} {b : OrderBook ℚ} {out : AddOutcome ℚ} {sv sv' : Server}
    (ha : Added env o b out sv sv') (hI : IdInv sv) (hO : OwnInv (some o.id) sv) (hS : StreamInv sv) (hF : FilledInv sv)
    {x : Submission} (hx : x ∈ sv.submissions) (hpres : sv.Present x.session) (hne : x.orderId ≠ o.id)
    (htraded : traded x.orderId (tradesIn out.callbacks) ≠ 0) : sv'.Informed x.session x.orderId := by
  -- the objects with the id that are announced were in the book before the call
  have hheld : ∀ {q}, .order q ∈ out.callbacks → (out.state.heap q).id = x.orderId → b.Held q ∧ (b.heap q).id = x.orderId := by
    intro q hq hid
    rw [(ha.call.static q).id] at hid
    have hn : q ≠ b.nextPtr := fun he => hne (by rw [← hid, he, alloc_heap_self])
    rw [alloc_heap_of_ne hn] at hid
    exact ⟨(ha.call.announced q hq).resolve_right hn, hid⟩
  obtain ⟨p, hann, hpid⟩ : ∃ p, .order p ∈ out.callbacks ∧ (out.state.heap p).id = x.orderId := by
    by_contra hno
    exact htraded (ha.add.traded_eq_zero ha.invAlloc fun p hp hid => hno ⟨p, hp, (ha.call.static p).id.trans hid⟩)
  obtain ⟨hh, hbid⟩ := hheld hann hpid
  have hown := hO.complete x hx (fun he => hne (Option.some.inj he).symm) hpres (hbid ▸ live_of_held ha.book ha.inv hh)
  have hclient : sv.clientId x.session ≠ "" := by
    obtain ⟨d, hd⟩ := hI.drawn _ (hI.client _ (hI.submission x hx).2)
    rw [hd]
    exact generateUuid_ne_empty d
  obtain ⟨q, hq, hqid, hmem⟩ := dispatch_told env out.state.heap hclient out.callbacks
    (sv.setBook o.symbol out.state.toOrderBook) hann (by rw [hpid]; exact hown) hpres
  rw [← ha.returned] at hmem
  have hqid := hqid.trans hpid
  obtain ⟨hqh, hqb⟩ := hheld hq hqid
  exact ⟨_, hmem, rfl, hqid, (hF.object hS ha hx (by rw [hown]; rfl) hqh hqb).2⟩

/-- Every connected session has been told of its submissions; the order `i`, if any, is being submitted. -/
def Viewed (i : Option String) (sv : Server) : Prop :=
  ∀ x ∈ sv.submissions, i ≠ some x.orderId → sv.Present x.session → sv.Informed x.session x.orderId

namespace Viewed

variable {env : Env} {i : Option String} {sv sv' : Server}

theorem initial (config : Config) : Viewed none (initial config) := nofun

theorem weaken (h : Viewed none sv) (i : Option String) : Viewed i sv := fun x hx _ => h x hx nofun

/-- A step without trades and submissions. -/
theorem step (h : Viewed i sv) (hs : sv'.submissions = sv.submissions) (ht : sv'.trades = sv.trades)
    (hst : sv.statuses <+: sv'.statuses) (hp : ∀ x ∈ sv.submissions, sv'.Present x.session → sv.Present x.session) :
    Viewed i sv' := by
  intro x hx hi hpres
  have hx : x ∈ sv.submissions := hs ▸ hx
  exact (h x hx hi (hp x hx hpres)).mono hst (by rw [ht])

theorem quiet (h : Viewed i sv) (hq : Quiet sv sv') : Viewed i sv' :=
  h.step hq.submissions hq.trades (hq.statuses ▸ List.prefix_refl _) fun _ _ hp => hp.congr hq.sessions (hq.clientId _)

theorem setBook (h : Viewed i sv) (symbol : String) (b : OrderBook ℚ) : Viewed i (sv.setBook symbol b) :=
  h.step rfl rfl (List.prefix_refl _) fun _ _ hp => hp

theorem connected (h : Viewed none sv) (hI : IdInv sv) (hnew : generateUuid env.uuid ∉ sv.uuids) :
    Viewed none (sv.acceptConnection env) := by
  refine h.step rfl rfl (List.prefix_refl _) fun x hx hp => ?_
  have hlt := (hI.submission x hx).2
  have hcl : (sv.acceptConnection env).clientId x.session = sv.clientId x.session := by
    show (Function.update sv.sessionAt sv.nextSession _ x.session).clientId = _
    rw [Function.update_of_ne (Nat.ne_of_lt hlt)]
    rfl
  have hne : sv.clientId x.session ≠ generateUuid env.uuid := fun he => hnew (he ▸ hI.client _ hlt)
  unfold Present at hp ⊢
  rw [hcl] at hp
  have hp : (sv.sessions.insert (generateUuid env.uuid) sv.nextSession).find? (sv.clientId x.session) = some x.session := hp
  rwa [SortedMap.find?_insert, if_neg hne] at hp

theorem closed (h : Viewed none sv) (s : SessionPtr) :
    Viewed none ((sv.setSession s { sv.sessionAt s with connected := false }).removeSession s) := by
  have hq := Quiet.setSession sv s { sv.sessionAt s with connected := false } rfl
  replace h := h.quiet hq
  generalize sv.setSession s { sv.sessionAt s with connected := false } = sv₁ at h
  refine h.step rfl rfl (List.prefix_refl _) fun x _ hp => ?_
  have hp : (sv₁.sessions.erase (sv₁.clientId s)).find? (sv₁.clientId x.session) = some x.session := hp
  rw [SortedMap.find?_erase] at hp
  split_ifs at hp
  exact hp

theorem saved (h : Viewed none sv) (x : Submission) (o : Order ℚ) : Viewed (some x.orderId) (sv.saveSubmission env x o) := by
  obtain ⟨disk, n, heq, -⟩ := saveSubmission_eq sv env x o
  rw [heq]
  intro y hy hi hpres
  rcases List.mem_append.1 hy with hy | hy
  · exact h y hy nofun hpres
  · rw [List.mem_singleton.1 hy] at hi
    exact absurd rfl hi

/-- A call: either it does not trade with the order, or the session is told. -/
theorem added {o : Order ℚ} {b : OrderBook ℚ} {out : AddOutcome ℚ} (h : Viewed (some o.id) sv) (hI : IdInv sv)
    (hO : OwnInv (some o.id) sv) (hS : StreamInv sv) (hF : FilledInv sv) (ha : Added env o b out sv sv') :
    Viewed (some o.id) sv' := by
  intro x hx hi hpres
  have hx : x ∈ sv.submissions := ha.dispatched.submissions ▸ hx
  have hpres := ha.present hpres
  by_cases hzero : traded x.orderId (tradesIn out.callbacks) = 0
  · refine (h x hx hi hpres).mono ha.statuses_prefix ?_
    rw [ha.trades, traded_append, hzero, Nat.add_zero]
  · exact ha.informed hI hO hS hF hx hpres (fun he => hi (congrArg some he.symm)) hzero

theorem acknowledge {x : Submission} {o : Order ℚ} (h : Viewed (some x.orderId) sv) (hI : IdInv sv) (hx : x ∈ sv.submissions)
    (ho : o.id = x.orderId) (hfilled : o.statusMessage.filledQuantity.toNat = traded x.orderId sv.trades) :
    Viewed none (sv.acknowledge x.session o) := by
  have hst : (sv.acknowledge x.session o).statuses = sv.statuses ++ [(x.session, o.statusMessage)] :=
    statuses_sendMessage ..
  intro y hy _ hpres
  by_cases he : y.orderId = x.orderId
  · -- the reply is the message
    rw [hI.submissionInj y hy x hx he]
    refine ⟨(x.session, o.statusMessage), ?_, rfl, ho, hfilled⟩
    rw [hst]
    exact List.mem_append_right _ (List.mem_singleton.2 rfl)
  · exact (h y hy (fun hi => he (Option.some.inj hi).symm) hpres).mono (hst ▸ List.prefix_append ..) rfl

/-- Without sessions nobody is waiting. -/
theorem of_noSession (hs : ∀ c, sv.sessions.find? c = none) : Viewed i sv := fun x _ _ hp => by
  unfold Present at hp
  rw [hs] at hp
  cases hp

end Viewed

theorem Effect.viewed {env : Env} {ev : Event} {sv sv' : Server} (he : Effect env ev sv sv') (hI : IdInv sv)
    (hO : OwnInv none sv) (hS : StreamInv sv) (hF : FilledInv sv) (h : Viewed none sv) (hnd : sv'.uuids.Nodup) :
    Viewed none sv' := by
  cases he with
  | quiet hq => exact h.quiet hq
  | connected => exact h.connected hI (not_mem_of_append hnd)
  | closed _ => exact h.closed _
  | created h₁ _ h₂ => exact ((h.quiet h₁).setBook _ _).quiet h₂
  | ticked _ => exact h.setBook _ _
  | @submitted _ sv₁ sv₂ s m b out hsess _ h₁ ha =>
    have hI₁ := hI.quiet h₁
    have hs₁ : s < sv₁.nextSession := by rw [h₁.nextSession]; exact hasSession_lt hsess
    have hnew := submitted_new ha hnd
    let x : Submission := ⟨generateUuid env.uuid, s, m, b.tickSize⟩
    let o := submittedOrder env m b.tickSize
    obtain ⟨habout, hfilled⟩ := hI₁.submitted_filled ha hnew
    have hadded : Viewed (some x.orderId) sv₂ :=
      Viewed.added (o := o) ((h.quiet h₁).saved x o) (hI₁.saved hs₁ m b.tickSize hnew) ((hO.quiet h₁).saved x o)
        ((hS.quiet h₁).saved x o) ((hF.quiet h₁).saved hI₁ (hO.quiet h₁) o hnew) ha
    have hx : x ∈ sv₂.submissions := by
      rw [ha.dispatched.submissions]
      exact (mem_saveSubmission ..).2
    exact hadded.acknowledge (hI₁.submitted hs₁ ha hnd) hx habout.orderId hfilled
  | cancelled _ h₁ _ hc | generatorCancelled h₁ hc =>
    have hd := hc.dispatched
    refine (h.quiet h₁).step hd.submissions ?_ ?_ fun x _ hp =>
      hp.congr hd.sessions (congrArg Session.clientId (congrFun hd.sessionAt _))
    · refine hd.trades.trans ?_
      simp only [List.filterMap_cons, List.filterMap_nil, List.append_nil]
      rfl
    · obtain ⟨l, hl, -⟩ := hd.statuses
      exact ⟨l, hl.symm⟩
  | reported _ h₁ _ _ _ =>
    refine (h.quiet h₁).step rfl rfl ?_ fun _ _ hp => hp
    rw [statuses_sendMessage]
    exact List.prefix_append ..
  | generated hg =>
    unfold generate
    rw [hg]
    exact h.step rfl rfl (List.prefix_refl _) fun _ _ hp => hp
  | dropped _ => exact h.step rfl rfl (List.prefix_refl _) fun _ _ hp => hp
  | @posted _ _ o rest b out hp ha =>
    have hmem : o ∈ sv.posted := by rw [hp]; exact List.mem_cons_self ..
    have hpop : Viewed none { sv with posted := rest } := h.step rfl rfl (List.prefix_refl _) fun _ _ hp => hp
    have hOp : OwnInv none { sv with posted := rest } := hO.step rfl rfl rfl (fun _ => rfl) rfl fun _ hl => hl
    have hSp : StreamInv { sv with posted := rest } :=
      hS.of_eq rfl rfl rfl fun o ho => .inl (by rw [hp]; exact List.mem_cons_of_mem _ ho)
    have hFp : FilledInv { sv with posted := rest } :=
      hF.step rfl rfl rfl (fun _ ho => ho) fun hb => fun hp => ⟨_, hb, hp, rfl⟩
    have hadded := (hpop.weaken (some o.id)).added (hI.popPosted hp) (hOp.weaken _) hSp hFp ha
    intro x hx _
    refine hadded x hx fun he => ?_
    rw [ha.dispatched.submissions] at hx
    exact hI.postedSubmission o hmem x hx (Option.some.inj he).symm
  | restarted hb hr hq =>
    have hnone : sv'.sessions = .empty := hq.sessions.trans (hr.rule (K := fun x => x.sessions = .empty) hb.sessions
      fun ha h => ha.dispatched.sessions.trans h)
    refine .of_noSession fun c => ?_
    rw [hnone]
    rfl

/-- What the last message about a submission tells. -/
theorem Viewed.last {sv : Server} (hV : Viewed none sv) (hO : OwnInv none sv) (hS : StreamInv sv) (hF : FilledInv sv)
    {x : Submission} (hx : x ∈ sv.submissions) (hpres : sv.Present x.session) :
    ∃ m, sv.view x.session x.orderId = some m ∧ m.About x ∧ m.filledQuantity.toNat = traded x.orderId sv.trades ∧
      ∀ symbol b p, sv.orderbooks.find? symbol = some b → b.getOrder x.orderId = some p →
        ¬ m.Final ∧ m.quantity = (b.heap p).quantity ∧
          m.filledQuantity = (b.heap p).quantity - (b.heap p).remainingQuantity := by
  obtain ⟨e, he, hes, hid, hfilled⟩ := hV x hx nofun hpres
  -- the messages to the session about the order, and the last of them
  have hsub := List.filter_sublist (l := sv.statuses) (p := fun e => e.1 = x.session ∧ e.2.orderId = x.orderId)
  have hmem : e ∈ sv.statuses.filter fun e => e.1 = x.session ∧ e.2.orderId = x.orderId :=
    List.mem_filter.2 ⟨he, decide_eq_true ⟨hes, hid⟩⟩
  rcases List.eq_nil_or_concat (sv.statuses.filter fun e => e.1 = x.session ∧ e.2.orderId = x.orderId) with
    hnil | ⟨before, last, hlast⟩
  · rw [hnil] at hmem
    cases hmem
  rw [List.concat_eq_append] at hlast
  have hl : last ∈ sv.statuses ∧ last.1 = x.session ∧ last.2.orderId = x.orderId := by
    have : last ∈ sv.statuses.filter fun e => e.1 = x.session ∧ e.2.orderId = x.orderId := by
      rw [hlast]
      exact List.mem_append_right _ (List.mem_singleton.2 rfl)
    exact ⟨hsub.subset this, of_decide_eq_true (List.mem_filter.1 this).2⟩
  obtain ⟨habout, hle⟩ := hF.status last hl.1 x hx hl.2.2.symm
  have hge : e.2.filledQuantity ≤ last.2.filledQuantity := by
    have hpair := hS.stream.sublist hsub
    rw [hlast] at hpair hmem
    rcases List.mem_append.1 hmem with hb | hb
    · exact ((List.pairwise_append.1 hpair).2.2 e hb last (List.mem_singleton.2 rfl)
        (hid.trans hl.2.2.symm)).filledQuantity
    · rw [List.mem_singleton.1 hb]
      exact UInt32.le_refl _
  have heq : last.2.filledQuantity.toNat = traded x.orderId sv.trades := by
    rw [UInt32.le_iff_toNat_le] at hge
    omega
  refine ⟨last.2, ?_, habout, heq, fun symbol b p hb hp => ?_⟩
  · unfold view
    rw [hlast, List.map_append]
    exact List.getLast?_concat
  · have hown : (sv.orderOwners.find? x.orderId).isSome := by
      rw [hO.complete x hx nofun hpres ⟨symbol, b, p, hb, hp⟩]
      rfl
    have hcur := hS.current last hl.1 (by rw [hl.2.2]; exact hown) hb (by rw [hl.2.2]; exact hp)
    refine ⟨hcur.notFinal, hcur.quantity.symm, UInt32.toNat_inj.1 ?_⟩
    rw [heq]
    exact (hF.live x hx hown hb hp).2.2.symm

/-- The server's account of what each connected session has been told, in every history. -/
theorem run_viewed (config : Config) (env : Env) (evs : List (Env × Event)) : ∃ sv, run config env evs = some sv ∧
    (sv.uuids.Nodup → IdInv sv ∧ OwnInv none sv ∧ StreamInv sv ∧ FilledInv sv ∧ Viewed none sv) := by
  obtain ⟨sv, hrun, -, hK⟩ := run_rule config env evs
    (K := fun _ sv => sv.uuids.Nodup → IdInv sv ∧ OwnInv none sv ∧ StreamInv sv ∧ FilledInv sv ∧ Viewed none sv)
    (fun _ => ⟨.initial config, .initial config, .initial config, .initial config, .initial config⟩)
    fun pre e ev sv sv' _ hs hK he _ hnd => by
      obtain ⟨hI, hO, hS, hF, hV⟩ := hK (he.uuids.sublist.nodup hnd)
      exact ⟨he.idInv hI hnd, he.ownInv hs hI hO hnd, he.streamInv hs hI hO hS hnd, he.filledInv hs hI hO hS hF hnd,
        he.viewed hI hO hS hF hV hnd⟩
  exact ⟨sv, hrun, hK⟩

/-- When generated ids do not repeat, then in every history the last message that a connected session has about an order
it submitted tells how much of the order has been traded; and while the order is live, it tells what the book has. -/
theorem run_view (config : Config) (env : Env) (evs : List (Env × Event)) :
    ∃ sv, run config env evs = some sv ∧ (sv.uuids.Nodup → ∀ x ∈ sv.submissions, sv.Present x.session →
      ∃ m, sv.view x.session x.orderId = some m ∧ m.About x ∧ m.filledQuantity.toNat = traded x.orderId sv.trades ∧
        ∀ symbol b p, sv.orderbooks.find? symbol = some b → b.getOrder x.orderId = some p →
          ¬ m.Final ∧ m.quantity = (b.heap p).quantity ∧
            m.filledQuantity = (b.heap p).quantity - (b.heap p).remainingQuantity) := by
  obtain ⟨sv, hrun, hK⟩ := run_viewed config env evs
  refine ⟨sv, hrun, fun hnd x hx hpres => ?_⟩
  obtain ⟨-, hO, hS, hF, hV⟩ := hK hnd
  exact hV.last hO hS hF hx hpres

/-- The submitter of `boughtInParts` ends with the message that says its order is filled. -/
theorem run_view_boughtInParts : ∃ sv x m, run sampleConfig (sampleEnv false 0) boughtInParts = some sv ∧
    x ∈ sv.submissions ∧ sv.view x.session x.orderId = some m ∧ m.filledQuantity.toNat = traded x.orderId sv.trades ∧
    m.filledQuantity = 5 := by
  obtain ⟨sv, hrun, h⟩ := run_view sampleConfig (sampleEnv false 0) boughtInParts
  have hstate : (run sampleConfig (sampleEnv false 0) boughtInParts).bind (fun sv => sv.submissions[0]?.map fun x =>
      (decide sv.uuids.Nodup, decide (sv.sessions.find? (sv.clientId x.session) = some x.session),
        traded x.orderId sv.trades)) = some (true, true, 5) := by decide +kernel
  rw [hrun, Option.bind_some] at hstate
  obtain ⟨x, hx, hvalues⟩ := Option.map_eq_some_iff.1 hstate
  simp only [Prod.mk.injEq] at hvalues
  obtain ⟨hnd, hpres, htraded⟩ := hvalues
  have hpres : sv.sessions.find? (sv.clientId x.session) = some x.session := of_decide_eq_true hpres
  obtain ⟨m, hview, -, hfilled, -⟩ := h (of_decide_eq_true hnd) x (List.mem_of_getElem? hx) hpres
  exact ⟨sv, x, m, hrun, List.mem_of_getElem? hx, hview, hfilled, UInt32.toNat_inj.1 (hfilled.trans htraded)⟩

end Server

end OrderbookGC
