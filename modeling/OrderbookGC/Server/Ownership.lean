/-
Who may cancel an order and who hears about it. The ownership map is written only after the book has
handled a submission, erased from inside the callbacks and when a session is removed, and read by
client id. Over whole histories with distinct ids it never names anyone but the session that
submitted the order, and it never loses a live order of a connected session (`run_ownership`).
-/
import OrderbookGC.Server.Ids

namespace OrderbookGC

open Container OrderBook MatchState

namespace Server

/-- The session has not been removed. -/
def Present (sv : Server) (s : SessionPtr) : Prop := sv.sessions.find? (sv.clientId s) = some s

/-- The ownership map against the submissions; the order `i`, if any, is being submitted. -/
structure OwnInv (i : Option String) (sv : Server) : Prop where
  owner : ∀ {id c}, sv.orderOwners.find? id = some c → ∃ x ∈ sv.submissions, x.orderId = id ∧ sv.clientId x.session = c
  status : ∀ e ∈ sv.statuses, ∃ x ∈ sv.submissions, x.orderId = e.2.orderId ∧ x.session = e.1
  complete : ∀ x ∈ sv.submissions, i ≠ some x.orderId → sv.Present x.session → sv.Live x.orderId →
    sv.orderOwners.find? x.orderId = some (sv.clientId x.session)

theorem Present.congr {sv sv' : Server} {s : SessionPtr} (h : sv'.Present s) (hs : sv'.sessions = sv.sessions)
    (hc : sv'.clientId s = sv.clientId s) : sv.Present s := by
  unfold Present at h ⊢
  rw [← hs, ← hc]; exact h

namespace OwnInv

variable {env : Env} {i : Option String} {sv sv' : Server}

theorem initial (config : Config) : OwnInv none (initial config) :=
  ⟨fun hm => (by cases hm), fun _ he => (by cases he), fun _ hx => (by cases hx)⟩

theorem weaken (h : OwnInv none sv) (i : Option String) : OwnInv i sv :=
  ⟨h.owner, h.status, fun x hx _ => h.complete x hx (by simp)⟩

/-- A step that leaves owners, sessions, submissions and status messages alone, and makes nothing live. -/
theorem step (h : OwnInv i sv) (ho : sv'.orderOwners = sv.orderOwners) (hs : sv'.submissions = sv.submissions)
    (hst : sv'.statuses = sv.statuses) (hc : ∀ s, sv'.clientId s = sv.clientId s) (hse : sv'.sessions = sv.sessions)
    (hl : ∀ id, sv'.Live id → sv.Live id) : OwnInv i sv' := by
  refine ⟨fun {id c} hm => ?_, fun e he => ?_, fun x hx hi hp hlive => ?_⟩
  · obtain ⟨x, h1, h2, h3⟩ := h.owner (ho ▸ hm)
    exact ⟨x, hs ▸ h1, h2, by rw [hc]; exact h3⟩
  · rw [hs]; exact h.status e (hst ▸ he)
  · rw [ho, hc]
    exact h.complete x (hs ▸ hx) hi (hp.congr hse (hc _)) (hl _ hlive)

theorem quiet (h : OwnInv i sv) (hq : Quiet sv sv') : OwnInv i sv' :=
  h.step hq.orderOwners hq.submissions hq.statuses hq.clientId hq.sessions fun _ hl => by
    unfold Live at hl
    rw [hq.orderbooks] at hl
    exact hl

/-- The callbacks of a call: their messages go to the submitting sessions, and an order that is still
live keeps its owner. -/
theorem dispatched {heap : OrderPtr → Order ℚ} {cbs : List (Callback ℚ)} {sv₀ : Server} (h : OwnInv i sv) (hI : IdInv sv)
    (hd : Dispatched env heap cbs sv₀ sv') (hso : sv₀.orderOwners = sv.orderOwners) (hss : sv₀.sessions = sv.sessions)
    (hsu : sv₀.submissions = sv.submissions) (hst : sv₀.statuses = sv.statuses) (hsa : sv₀.sessionAt = sv.sessionAt)
    (hl : ∀ x ∈ sv.submissions, i ≠ some x.orderId → sv'.Live x.orderId → sv.Live x.orderId ∧
      ∀ p, .order p ∈ cbs → (heap p).id = x.orderId → ¬ (heap p).Finished) : OwnInv i sv' := by
  have hc : ∀ s, sv'.clientId s = sv.clientId s := fun s => by unfold clientId; rw [hd.sessionAt, hsa]
  have hsub : sv'.submissions = sv.submissions := hd.submissions.trans hsu
  refine ⟨fun {id c} hm => ?_, fun e he => ?_, fun x hx hi hp hlive => ?_⟩
  · obtain ⟨x, h1, h2, h3⟩ := h.owner (hso ▸ hd.owner_of hm)
    exact ⟨x, hsub ▸ h1, h2, by rw [hc]; exact h3⟩
  · obtain ⟨l, hl, hl'⟩ := hd.statuses
    rw [hl, hst] at he
    rcases List.mem_append.1 he with he | he
    · rw [hsub]; exact h.status e he
    · obtain ⟨p, c, -, h1, h2, h3⟩ := hl' e he
      rw [hso] at h2
      rw [hss] at h3
      obtain ⟨x, hx, hxid, hxc⟩ := h.owner h2
      obtain ⟨-, h4, h5⟩ := hI.sessions h3
      refine ⟨x, hsub ▸ hx, by rw [hxid, h1]; rfl, ?_⟩
      exact hI.clientInj _ (hI.submission x hx).2 _ h4 (hxc.trans h5.symm)
  · rw [hsub] at hx
    obtain ⟨h1, h2⟩ := hl x hx hi hlive
    rw [hd.kept _ h2, hso, hc]
    exact h.complete x hx hi (hp.congr (hd.sessions.trans hss) (hc _)) h1

/-- A call of `addOrder`: an order that is finished by it is live in no book any more. -/
theorem added {o : Order ℚ} {b : OrderBook ℚ} {out : AddOutcome ℚ} (h : OwnInv (some o.id) sv) (hI : IdInv sv)
    (ha : Added env o b out sv sv') : OwnInv (some o.id) sv' := by
  refine h.dispatched hI ha.dispatched rfl rfl rfl rfl rfl fun x hx hi hlive => ?_
  have hne : x.orderId ≠ o.id := fun he => hi (by rw [he])
  refine ⟨(ha.live hlive).resolve_right hne, fun p hp hid hfin => ?_⟩
  have hpid : ((b.alloc o).2.heap p).id = x.orderId := by rw [← hid, (ha.call.static p).id]
  obtain ⟨name, y, q, hy, hq⟩ := hlive
  by_cases hn : name = o.symbol
  · -- in its own book the finished order has left the index
    rw [ha.find?, if_pos hn] at hy
    cases hy
    have hgone := ha.call.finished_gone ha.invAlloc hp hfin
    rw [hpid] at hgone
    unfold getOrder at hq
    rw [hgone] at hq; cases hq
  · -- in another book it cannot be: it was live in this one
    rcases ha.live_cases hy hq with ⟨z, hz, hzq⟩ | ⟨he, -⟩
    · rcases ha.call.announced p hp with hheld | he
      · have hpn : p ≠ b.nextPtr := fun he => Nat.lt_irrefl _ (ha.inv.alloc (.inl (show b.Held b.nextPtr from he ▸ hheld)))
        rw [alloc_heap_of_ne hpn] at hpid
        have hindex : b.getOrder x.orderId = some p := ha.inv.index.2 ⟨hpid, .inl hheld⟩
        exact hn (hI.oneBook hz hzq ha.book hindex)
      · rw [he, alloc_heap_self] at hpid
        exact absurd hpid.symm hne
    · exact hne he

theorem cancelled {symbol id : String} {b b' : OrderBook ℚ} {p : OrderPtr} (h : OwnInv i sv) (hI : IdInv sv)
    (hc : Cancelled env symbol id b p b' sv sv') : OwnInv i sv' := by
  refine h.dispatched hI hc.dispatched rfl rfl rfl rfl rfl fun x hx _ hlive => ⟨hc.live hlive, fun q hq hid _ => ?_⟩
  have hqp : q = p := by simpa using hq
  rw [hqp, (hc.cancel.static p).id, hc.cancel.id] at hid
  obtain ⟨name, y, r, hy, hr⟩ := hlive
  obtain ⟨⟨z, hz, hzr⟩, hno⟩ := hc.live_iff.1 ⟨y, hy, hr⟩
  have hindex : b.getOrder x.orderId = some p := hc.inv.index.2 ⟨hc.cancel.id.trans hid, .inl hc.cancel.held⟩
  exact hno ⟨hI.oneBook hz hzr hc.book hindex, hid.symm⟩

/-- Without sessions there is nothing to complete. -/
theorem of_noSession (h : OwnInv i sv) (hs : ∀ c, sv.sessions.find? c = none) : OwnInv none sv :=
  ⟨h.owner, h.status, fun x _ _ hp => by unfold Present at hp; rw [hs] at hp; cases hp⟩

theorem setBook {symbol : String} {b : OrderBook ℚ} (h : OwnInv i sv)
    (hb : ∀ {id p}, b.getOrder id = some p → ∃ y, sv.orderbooks.find? symbol = some y ∧ y.getOrder id = some p) :
    OwnInv i (sv.setBook symbol b) := by
  refine h.step rfl rfl rfl (fun _ => rfl) rfl fun id hl => ?_
  obtain ⟨name, x, q, hx, hq⟩ := hl
  rw [setBook_find?] at hx
  split_ifs at hx
  · cases hx
    obtain ⟨y, hy, hyq⟩ := hb hq
    exact ⟨symbol, y, q, hy, hyq⟩
  · exact ⟨name, x, q, hx, hq⟩

theorem connected (h : OwnInv none sv) (hI : IdInv sv) (hnew : generateUuid env.uuid ∉ sv.uuids) :
    OwnInv none (sv.acceptConnection env) := by
  have hcl : ∀ x ∈ sv.submissions, (sv.acceptConnection env).clientId x.session = sv.clientId x.session := fun x hx => by
    show (Function.update sv.sessionAt sv.nextSession _ x.session).clientId = _
    rw [Function.update_of_ne (Nat.ne_of_lt (hI.submission x hx).2)]; rfl
  refine ⟨fun hm => ?_, h.status, fun x hx _ hp hlive => ?_⟩
  · obtain ⟨x, h1, h2, h3⟩ := h.owner hm
    exact ⟨x, h1, h2, (hcl x h1).trans h3⟩
  · rw [hcl x hx]
    refine h.complete x hx (by simp) ?_ hlive
    -- the client id of the submission is an older one
    have hne : sv.clientId x.session ≠ generateUuid env.uuid := fun he => hnew (he ▸ hI.client _ (hI.submission x hx).2)
    unfold Present at hp ⊢
    rw [hcl x hx] at hp
    have hp : (sv.sessions.insert (generateUuid env.uuid) sv.nextSession).find? (sv.clientId x.session) = some x.session := hp
    rw [SortedMap.find?_insert, if_neg hne] at hp
    exact hp

/-- Removing a session takes the owners with it, but only its own. -/
theorem closed (h : OwnInv none sv) (s : SessionPtr) :
    OwnInv none ((sv.setSession s { sv.sessionAt s with connected := false }).removeSession s) := by
  have hq := Quiet.setSession sv s { sv.sessionAt s with connected := false } rfl
  replace h := h.quiet hq
  generalize sv.setSession s { sv.sessionAt s with connected := false } = sv₁ at h
  refine ⟨fun {id c} hm => ?_, h.status, fun x hx _ hp hlive => ?_⟩
  · have hm : (sv₁.orderOwners.filterMapVals fun c => if c = sv₁.clientId s then none else some c).find? id = some c := hm
    rw [SortedMap.find?_filterMapVals] at hm
    obtain ⟨c', hc', he⟩ := Option.bind_eq_some_iff.1 hm
    split_ifs at he
    cases he
    exact h.owner hc'
  · have hp : (sv₁.sessions.erase (sv₁.clientId s)).find? (sv₁.clientId x.session) = some x.session := hp
    rw [SortedMap.find?_erase] at hp
    split_ifs at hp with hne
    show (sv₁.orderOwners.filterMapVals fun c => if c = sv₁.clientId s then none else some c).find? x.orderId = _
    rw [SortedMap.find?_filterMapVals, h.complete x hx (by simp) hp hlive, Option.bind_some, if_neg hne]
    rfl

/-- A logged submission has no owner yet. -/
theorem saved (h : OwnInv none sv) (x : Submission) (o : Order ℚ) : OwnInv (some x.orderId) (sv.saveSubmission env x o) := by
  obtain ⟨disk, n, heq, -⟩ := saveSubmission_eq sv env x o
  rw [heq]
  refine ⟨fun hm => ?_, fun e he => ?_, fun y hy hi hp hlive => ?_⟩
  · obtain ⟨y, h1, h2⟩ := h.owner hm
    exact ⟨y, List.mem_append_left _ h1, h2⟩
  · obtain ⟨y, h1, h2⟩ := h.status e he
    exact ⟨y, List.mem_append_left _ h1, h2⟩
  · rcases List.mem_append.1 hy with hy | hy
    · exact h.complete y hy (by simp) hp hlive
    · rw [List.mem_singleton.1 hy] at hi
      exact absurd rfl hi

theorem acknowledge {x : Submission} {o : Order ℚ} (h : OwnInv (some x.orderId) sv) (hI : IdInv sv) (hx : x ∈ sv.submissions)
    (ho : o.id = x.orderId) : OwnInv none (sv.acknowledge x.session o) := by
  unfold Server.acknowledge
  refine ⟨fun {id c} hm => ?_, fun e he => ?_, fun y hy _ hp hlive => ?_⟩
  · have hm : (sv.orderOwners.insert o.id (sv.clientId x.session)).find? id = some c := hm
    rw [SortedMap.find?_insert] at hm
    split_ifs at hm with hid
    · cases hm
      exact ⟨x, hx, ho.symm.trans hid.symm, rfl⟩
    · exact h.owner hm
  · rw [statuses_sendMessage] at he
    rcases List.mem_append.1 he with he | he
    · exact h.status e he
    · rw [List.mem_singleton.1 he]
      exact ⟨x, hx, ho.symm, rfl⟩
  · show (sv.orderOwners.insert o.id (sv.clientId x.session)).find? y.orderId = some (sv.clientId y.session)
    rw [SortedMap.find?_insert]
    split_ifs with hid
    · rw [hI.submissionInj y hy x hx (hid.trans ho)]
    · exact h.complete y hy (fun he => hid ((Option.some.inj he).symm.trans ho.symm)) hp hlive

/-- A report goes to the session the map gives the order to. -/
theorem reported {s : SessionPtr} {id : String} {m : OrderStatusMessage} (h : OwnInv none sv) (hI : IdInv sv)
    (hs : s < sv.nextSession) (ho : sv.owns s id = true) (hm : m.orderId = id) :
    OwnInv none (sv.sendMessage s (.orderStatus m)) := by
  refine ⟨h.owner, fun e he => ?_, h.complete⟩
  rw [statuses_sendMessage] at he
  rcases List.mem_append.1 he with he | he
  · exact h.status e he
  · rw [List.mem_singleton.1 he]
    obtain ⟨x, hx, hxid, hxc⟩ := h.owner (of_decide_eq_true ho)
    exact ⟨x, hx, hxid.trans hm.symm, hI.clientInj _ (hI.submission x hx).2 _ hs hxc⟩

theorem restored {rows : List OrderRow} (hr : Restored env rows sv sv') (hR : Restoring rows sv) (h : OwnInv none sv) :
    OwnInv none sv' := by
  induction hr with
  | nil => exact h
  | skip _ _ ih => exact ih hR.skip h
  | add ha _ ih => exact ih (hR.add ha) (((h.weaken _).added hR.toIdInv ha).of_noSession (hR.add ha).noSession)

theorem booted (h : OwnInv none sv) (hb : Booted env sv sv') : OwnInv none sv' := by
  refine ⟨fun hm => ?_, fun e he => ?_, fun x _ _ hp => ?_⟩
  · rw [hb.orderOwners] at hm; cases hm
  · rw [hb.submissions]
    exact h.status e (hb.statuses ▸ he)
  · unfold Present at hp
    rw [hb.sessions] at hp; cases hp

end OwnInv

theorem Effect.ownInv {env : Env} {ev : Event} {sv sv' : Server} (he : Effect env ev sv sv') (hs : Sound sv)
    (hI : IdInv sv) (h : OwnInv none sv) (hnd : sv'.uuids.Nodup) : OwnInv none sv' := by
  cases he with
  | quiet hq => exact h.quiet hq
  | connected => exact h.connected hI (not_mem_of_append hnd)
  | closed _ => exact h.closed _
  | created h₁ _ h₂ => exact ((h.quiet h₁).setBook fun hp => by cases hp).quiet h₂
  | ticked hb => exact h.setBook fun hp => ⟨_, hb, by rw [setTickSize_getOrder] at hp; exact hp⟩
  | @submitted _ sv₁ sv₂ s m b out hsess _ h₁ ha =>
    have hI₁ := hI.quiet h₁
    have hs₁ : s < sv₁.nextSession := by rw [h₁.nextSession]; exact hasSession_lt hsess
    have hsaved := hI₁.saved hs₁ m b.tickSize (submitted_new ha hnd)
    have hown := ((h.quiet h₁).saved ⟨generateUuid env.uuid, s, m, b.tickSize⟩ (submittedOrder env m b.tickSize)).added hsaved ha
    refine hown.acknowledge (x := ⟨generateUuid env.uuid, s, m, b.tickSize⟩) (hI₁.submitted hs₁ ha hnd) ?_ ?_
    · rw [ha.dispatched.submissions]
      exact (mem_saveSubmission ..).2
    · rw [(ha.call.static b.nextPtr).id, alloc_heap_self]; rfl
  | cancelled _ h₁ _ hc => exact (h.quiet h₁).cancelled (hI.quiet h₁) hc
  | reported hsess h₁ ho hb hp =>
    refine (h.quiet h₁).reported (hI.quiet h₁) (by rw [h₁.nextSession]; exact hasSession_lt hsess) ?_
      ((hs.books hb).index.1 hp).1
    unfold owns at ho ⊢
    rw [h₁.orderOwners, h₁.clientId]
    exact ho
  | generated hg =>
    unfold generate
    rw [hg]
    exact h.step rfl rfl rfl (fun _ => rfl) rfl fun _ hl => hl
  | dropped hp => exact h.step rfl rfl rfl (fun _ => rfl) rfl fun _ hl => hl
  | @posted _ _ o rest b out hp ha =>
    have hpop : OwnInv none { sv with posted := rest } := h.step rfl rfl rfl (fun _ => rfl) rfl fun _ hl => hl
    have hown := (hpop.weaken (some o.id)).added (hI.popPosted hp) ha
    refine ⟨hown.owner, hown.status, fun x hx _ => hown.complete x hx fun he => ?_⟩
    rw [ha.dispatched.submissions] at hx
    exact hI.postedSubmission o (by rw [hp]; exact List.mem_cons_self ..) x hx (Option.some.inj he).symm
  | generatorCancelled h₁ hc => exact (h.quiet h₁).cancelled (hI.quiet h₁) hc
  | restarted hb hr hq => exact (OwnInv.restored hr (hI.booted hb) (h.booted hb)).quiet hq

/-! ## Whole histories -/

/-- The order is in the book of the symbol. -/
def InBook (sv : Server) (symbol id : String) : Prop := ∃ b p, sv.orderbooks.find? symbol = some b ∧ b.getOrder id = some p

/-- The message about an order that has an owner with a session goes there. -/
theorem onOrderUpdated_statuses (env : Env) {sv : Server} {o : Order ℚ} {c : String} {s : SessionPtr}
    (ho : sv.orderOwners.find? o.id = some c) (hc : c ≠ "") (hs : sv.sessions.find? c = some s) :
    (onOrderUpdated env sv o).statuses = sv.statuses ++ [(s, o.statusMessage)] := by
  unfold onOrderUpdated
  obtain ⟨disk, n, hw, -⟩ := write_eq sv env (Db.updateOrder · o)
  rw [hw]
  dsimp only
  rw [ho]
  dsimp only
  rw [if_neg (by simpa using hc), hs]
  exact statuses_sendMessage ..

theorem requireAuth_of_not_required {sv : Server} (h : sv.config.authRequired = false) (s : SessionPtr) (permission : String) :
    (sv.requireAuth s permission).1 = true := by
  unfold requireAuth
  simp only [h, Bool.not_false, if_true]
  split_ifs <;> rfl

/-- An order leaves a book by a cancel message only when the message comes from its owner. -/
theorem cancel_isolated {env : Env} {sv sv' : Server} {s : SessionPtr} {id c : String} (hI : IdInv sv) (h : OwnInv none sv)
    (he : Effect env (.message s (.orderCancel id c)) sv sv') {x : Submission} (hx : x ∈ sv.submissions) {symbol : String}
    (hin : sv.InBook symbol x.orderId) (hout : ¬ sv'.InBook symbol x.orderId) : x.session = s := by
  obtain ⟨b, p, hb, hp⟩ := hin
  cases he with
  | quiet hq => exact absurd ⟨b, p, hq.orderbooks ▸ hb, hp⟩ hout
  | @created _ _ sv₁ _ name tickSize h₁ hnone h₂ =>
    refine absurd ⟨b, p, ?_, hp⟩ hout
    rw [h₂.orderbooks]
    rw [setBook_find?, if_neg, h₁.orderbooks]
    · exact hb
    · rintro rfl
      rw [h₁.orderbooks, hb] at hnone; cases hnone
  | cancelled hs h₁ ho hc =>
    have hid : x.orderId = id := by
      by_contra hne
      refine hout ?_
      obtain ⟨y, hy, hyq⟩ := (hc.live_iff).2 ⟨⟨b, h₁.orderbooks ▸ hb, hp⟩, fun hn => hne hn.2⟩
      exact ⟨y, p, hy, hyq⟩
    obtain ⟨y, hy, hyid, hyc⟩ := h.owner (of_decide_eq_true ho)
    rw [hI.submissionInj x hx y hy (hid.trans hyid.symm)]
    exact hI.clientInj _ (hI.submission y hy).2 _ (hasSession_lt hs) hyc

/-- The owner of a live order can cancel it, and is told. -/
theorem cancel_complete {sv : Server} (hs : Sound sv) (hI : IdInv sv) (h : OwnInv none sv) {x : Submission}
    (hx : x ∈ sv.submissions) (hpres : sv.Present x.session) (hauth : (sv.requireAuth x.session "trade").1 = true)
    (hlive : sv.Live x.orderId) (env : Env) (c : String) :
    ∃ sv', sv.step (env, .message x.session (.orderCancel x.orderId c)) = some sv' ∧ ¬ sv'.Live x.orderId ∧
      ∃ m, sv'.statuses = sv.statuses ++ [(x.session, m)] ∧ m.orderId = x.orderId ∧ m.status = .canceled := by
  have hown := h.complete x hx (by simp) hpres hlive
  obtain ⟨hfirst, hlast, -⟩ := hI.sessions hpres
  have hq := Quiet.requireAuth sv x.session "trade"
  have hI₁ := hI.quiet hq
  -- the handler finds the owner and goes through the books
  have hstep : sv.step (env, .message x.session (.orderCancel x.orderId c)) =
      some ((sv.requireAuth x.session "trade").2.handleOrderCancel env x.orderId x.session) := by
    unfold step
    dsimp only
    rw [if_pos (by simp [hasSession, hfirst, hlast])]
    unfold handleMessage
    dsimp only
    rw [if_pos hauth]
  rw [hstep]
  generalize (sv.requireAuth x.session "trade").2 = sv₁ at hq hI₁ ⊢
  have hown₁ : sv₁.orderOwners.find? x.orderId = some (sv₁.clientId x.session) := by
    rw [hq.orderOwners, hq.clientId]; exact hown
  have hpres₁ : sv₁.sessions.find? (sv₁.clientId x.session) = some x.session := by
    rw [hq.sessions, hq.clientId]; exact hpres
  have howns : sv₁.owns x.session x.orderId = true := decide_eq_true hown₁
  unfold handleOrderCancel
  rw [if_pos howns]
  rcases cancelLoop_effect (hq.sound hs) env x.orderId sv₁.orderbooks.entries fun e he => SortedMap.find?_eq_some_iff.2 he with
    ⟨-, hmiss⟩ | ⟨symbol, b, p, b', sv', h1, hc⟩
  · -- a live order is in one of them
    obtain ⟨name, y, q, hy, hyq⟩ := hlive
    have := hmiss (name, y) (SortedMap.find?_eq_some_iff.1 (hq.orderbooks ▸ hy))
    rw [show y.ordersById.find? x.orderId = some q from hyq] at this
    cases this
  · rw [h1]
    refine ⟨sv', rfl, ?_, (b'.heap p).statusMessage, ?_, ?_, ?_⟩
    · rintro ⟨name, y, q, hy, hyq⟩
      obtain ⟨⟨z, hz, hzq⟩, hno⟩ := hc.live_iff.1 ⟨y, hy, hyq⟩
      have hindex : b.getOrder x.orderId = some p := hc.inv.index.2 ⟨hc.cancel.id, .inl hc.cancel.held⟩
      exact hno ⟨hI₁.oneBook hz hzq hc.book hindex, rfl⟩
    · have hid : (b'.heap p).id = x.orderId := by rw [(hc.cancel.static p).id, hc.cancel.id]
      rw [hc.result, ← hq.statuses]
      refine onOrderUpdated_statuses env ?_ ?_ hpres₁
      · rw [hid]; exact hown₁
      · obtain ⟨d, hd⟩ := hI₁.drawn _ (hI₁.client _ (hI₁.submission x (hq.submissions ▸ hx)).2)
        rw [hd]
        exact generateUuid_ne_empty d
    · show (b'.heap p).id = _
      rw [(hc.cancel.static p).id, hc.cancel.id]
    · show (b'.heap p).status = _
      rw [hc.cancel.heap, Function.update_self]

/-- After every history whose ids are pairwise distinct: an order a client submitted leaves a book by a
cancel message only when that message comes from the session that submitted it; the status messages
about it have only gone there; and while that session has not been removed and may trade, it can cancel
the order as long as it is live. -/
theorem run_ownership (config : Config) (env : Env) (evs : List (Env × Event)) :
    ∃ sv, run config env evs = some sv ∧ (sv.uuids.Nodup →
      (∀ env' s id c sv', sv.step (env', .message s (.orderCancel id c)) = some sv' → ∀ x ∈ sv.submissions, ∀ symbol,
        sv.InBook symbol x.orderId → ¬ sv'.InBook symbol x.orderId → s = x.session) ∧
      (∀ e ∈ sv.statuses, (∃ x ∈ sv.submissions, x.orderId = e.2.orderId) ∧
        ∀ x ∈ sv.submissions, x.orderId = e.2.orderId → e.1 = x.session) ∧
      ∀ x ∈ sv.submissions, sv.Present x.session →
        (config.authRequired = false → (sv.requireAuth x.session "trade").1 = true) ∧
        ((sv.requireAuth x.session "trade").1 = true → sv.Live x.orderId → ∀ env' c, ∃ sv',
          sv.step (env', .message x.session (.orderCancel x.orderId c)) = some sv' ∧ ¬ sv'.Live x.orderId ∧
          ∃ m, sv'.statuses = sv.statuses ++ [(x.session, m)] ∧ m.orderId = x.orderId ∧ m.status = .canceled)) := by
  obtain ⟨sv, hrun, hs, hconfig, hK⟩ := run_rule config env evs
    (K := fun _ sv => sv.config = config ∧ (sv.uuids.Nodup → IdInv sv ∧ OwnInv none sv))
    ⟨rfl, fun _ => ⟨.initial config, .initial config⟩⟩ fun pre e ev sv sv' _ hs hK he _ => by
      refine ⟨he.config.trans hK.1, fun hnd => ?_⟩
      obtain ⟨hI, hO⟩ := hK.2 (he.uuids.sublist.nodup hnd)
      exact ⟨he.idInv hI hnd, he.ownInv hs hI hO hnd⟩
  refine ⟨sv, hrun, fun hnd => ?_⟩
  obtain ⟨hI, hO⟩ := hK hnd
  refine ⟨fun env' s id c sv' hstep x hx symbol hin hout => ?_, fun e he => ?_, fun x hx hpres => ⟨fun ha => ?_, ?_⟩⟩
  · obtain ⟨sv'', h1, he⟩ := step_effect hs env' (.message s (.orderCancel id c))
    cases h1.symm.trans hstep
    exact (cancel_isolated hI hO he hx hin hout).symm
  · obtain ⟨x, hx, hid, hsess⟩ := hO.status e he
    refine ⟨⟨x, hx, hid⟩, fun y hy hyid => ?_⟩
    rw [hI.submissionInj y hy x hx (hyid.trans hid.symm), hsess]
  · exact requireAuth_of_not_required (hconfig ▸ ha) ..
  · intro ha hlive env' c
    exact cancel_complete hs hI hO hx hpres ha hlive env' c

/-- Two clients connect, and the first submits an order that rests. -/
def twoClients : List (Env × Event) :=
  [(sampleEnv false 1, .connect), (sampleEnv false 2, .connect),
    (sampleEnv false 3, .message 0 (sampleSubmit .buy .limit 100 0 5))]

theorem run_ownership_twoClients : ∃ sv x, run sampleConfig (sampleEnv false 0) twoClients = some sv ∧ sv.uuids.Nodup ∧
    x ∈ sv.submissions ∧ x.session = 0 ∧ sv.InBook "SYM" x.orderId ∧
    (∀ env c sv', sv.step (env, .message 1 (.orderCancel x.orderId c)) = some sv' → sv'.InBook "SYM" x.orderId) ∧
    ∀ env c, ∃ sv', sv.step (env, .message 0 (.orderCancel x.orderId c)) = some sv' ∧ ¬ sv'.Live x.orderId := by
  obtain ⟨sv, hrun, h⟩ := run_ownership sampleConfig (sampleEnv false 0) twoClients
  have hstate : (run sampleConfig (sampleEnv false 0) twoClients).map (fun sv =>
      (decide sv.uuids.Nodup, sv.submissions.map (fun x => (x.orderId, x.session)), sv.sessions.find? (sv.clientId 0),
        (sv.orderbooks.find? "SYM").bind (·.getOrder (generateUuid (sampleEnv false 3).uuid)))) =
      some (true, [(generateUuid (sampleEnv false 3).uuid, 0)], some 0, some 0) := by decide +kernel
  rw [hrun, Option.map_some, Option.some.injEq, Prod.mk.injEq, Prod.mk.injEq, Prod.mk.injEq, decide_eq_true_eq] at hstate
  obtain ⟨hnd, hsub, hpres, hbook⟩ := hstate
  obtain ⟨h1, -, h3⟩ := h hnd
  obtain ⟨x, hx, hx'⟩ := List.mem_map.1 (hsub ▸ List.mem_singleton.2 rfl)
  obtain ⟨hid, hs⟩ := Prod.mk.injEq .. ▸ hx'
  obtain ⟨b, hb, hp⟩ := Option.bind_eq_some_iff.1 hbook
  have hin : sv.InBook "SYM" x.orderId := ⟨b, 0, hb, hid ▸ hp⟩
  obtain ⟨hauth, hcancel⟩ := h3 x hx (hs ▸ hpres)
  refine ⟨sv, x, hrun, hnd, hx, hs, hin, fun env c sv' hstep => ?_, fun env c => ?_⟩
  · by_contra hout
    have := h1 env 1 x.orderId c sv' hstep x hx "SYM" hin hout
    rw [hs] at this; cases this
  · obtain ⟨sv', h4, h5, -⟩ := hcancel (hauth rfl) ⟨"SYM", b, 0, hb, hid ▸ hp⟩ env c
    exact ⟨sv', hs ▸ h4, h5⟩

end Server

end OrderbookGC
