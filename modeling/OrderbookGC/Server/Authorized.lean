/-
Authorization over whole histories. A history is observed together with the most recent successful
login of each session and the permissions stored for its user at that moment. With logins required
and the store open, what a message can do to orders, and what it is told, depends on that login.
-/
import OrderbookGC.Server.Accounts

namespace OrderbookGC

open Container OrderBook

/-- A successful login: the user, and the permissions stored for it at that moment. -/
structure Login where
  username : String
  stored : Option String
deriving DecidableEq

/-- The login was for a user with a permission, or for the guest. -/
def Authorized (login : Option Login) (permission : String) : Prop :=
  ∃ x, login = some x ∧ (x.username = "guest" ∨ ∃ p, x.stored = some p ∧ permission.toList <:+: p.toList)

theorem Authorized.ne_none {login : Option Login} {permission : String} (h : Authorized login permission) : login ≠ none := by
  obtain ⟨x, hx, -⟩ := h
  rw [hx]
  exact nofun

namespace Server

/-! ## The observed history -/

/-- The messages sent between two states. -/
def sentSince (sv sv' : Server) : List (SessionPtr × Response) := sv'.sent.drop sv.sent.length

/-- A login between two states was answered with success. -/
def accepted (sv sv' : Server) : Bool :=
  (sentSince sv sv').any fun e =>
    match e.2 with
    | .loginResponse true _ _ _ => true
    | _ => false

/-- The most recent successful login of each session. -/
abbrev Logins := SessionPtr → Option Login

def Logins.after (logins : Logins) (sv : Server) (ev : Event) (sv' : Server) : Logins :=
  match ev with
  | .message s (.login username _) =>
    if accepted sv sv' then Function.update logins s (some ⟨username, (sv.disk.getUser username).map (·.permissions)⟩) else logins
  | _ => logins

/-- One event, observed. -/
def observe (x : Server × Logins) (ev : Env × Event) : Option (Server × Logins) :=
  (x.1.step ev).map fun sv' => (sv', x.2.after x.1 ev.2 sv')

def observedRun (config : Config) (env : Env) (evs : List (Env × Event)) : Option (Server × Logins) :=
  ((env, .restart) :: evs).foldlM observe (initial config, fun _ => none)

/-! ## What a message may do -/

/-- No order comes into a book or into the table, and none is taken out or changed; a book may be created. -/
structure Untraded (sv sv' : Server) : Prop where
  books : ∀ symbol b, sv.orderbooks.find? symbol = some b → sv'.orderbooks.find? symbol = some b
  created : ∀ symbol b, sv'.orderbooks.find? symbol = some b →
    sv.orderbooks.find? symbol = some b ∨ b = .new symbol defaultTickSize
  orders : sv'.disk.orders = sv.disk.orders
  owners : sv'.orderOwners = sv.orderOwners

/-- Not even a book is created. -/
structure Unmoved (sv sv' : Server) : Prop where
  orderbooks : sv'.orderbooks = sv.orderbooks
  orders : sv'.disk.orders = sv.disk.orders
  owners : sv'.orderOwners = sv.orderOwners

theorem Unmoved.untraded {sv sv' : Server} (h : Unmoved sv sv') : Untraded sv sv' :=
  ⟨fun _ _ hb => by rw [h.orderbooks]; exact hb, fun _ _ hb => by rw [h.orderbooks] at hb; exact .inl hb, h.orders, h.owners⟩

theorem Quiet.unmoved {sv sv' : Server} (h : Quiet sv sv') : Unmoved sv sv' := ⟨h.orderbooks, h.orders, h.orderOwners⟩

end Server

/-- A message about orders, books or trades. -/
def Response.isData : Response → Bool
  | .orderStatus _ => true
  | .orderbookSnapshot .. => true
  | .tradeNotification _ => true
  | _ => false

namespace Server

/-- What a message of a session may do, given the session's most recent successful login. -/
structure Guarded (login : Option Login) (sv sv' : Server) : Prop where
  trade : ¬ Authorized login "trade" → Untraded sv sv'
  view : (∃ e ∈ sentSince sv sv', e.2.isData = true) → Authorized login "view"
  nobody : login = none → Unmoved sv sv'

theorem Guarded.refl (login : Option Login) (sv : Server) : Guarded login sv sv :=
  ⟨fun _ => (Quiet.refl sv).unmoved.untraded, fun ⟨e, he, _⟩ => by simp [sentSince] at he, fun _ => (Quiet.refl sv).unmoved⟩

/-- A message that is answered with something else than data. -/
theorem Guarded.of_reply {login : Option Login} {sv sv' : Server} {s : SessionPtr} {r : Response} (h : Unmoved sv sv')
    (hsent : sv'.sent = sv.sent ++ [(s, r)]) (hr : r.isData = false) : Guarded login sv sv' := by
  refine ⟨fun _ => h.untraded, fun ⟨e, he, hdata⟩ => ?_, fun _ => h⟩
  unfold sentSince at he
  rw [hsent, List.drop_left, List.mem_singleton] at he
  rw [he, hr] at hdata
  cases hdata

/-! ## The invariant -/

/-- A session that is authenticated has logged in, and has the permissions of that login. -/
structure AuthInv (sv : Server) (logins : Logins) : Prop where
  required : sv.config.authRequired = true
  table : ∀ u ∈ sv.disk.users, u.permissions ∈ grants
  session : ∀ s, (sv.sessionAt s).authenticated = true → ∃ x, logins s = some x ∧
    (sv.sessionAt s).permissions = x.stored.getD "trade,view" ∧ (x.stored = none → x.username = "guest")
  stored : ∀ s x p, logins s = some x → x.stored = some p → p ∈ grants

namespace AuthInv

variable {sv sv' : Server} {logins : Logins}

theorem same (h : AuthInv sv logins) (hs : SameAccounts sv sv') : AuthInv sv' logins :=
  ⟨by rw [hs.config]; exact h.required, by rw [hs.users]; exact h.table, by rw [hs.sessionAt]; exact h.session, h.stored⟩

/-- A check that a session passes is one its login is authorized for. -/
theorem authorized (h : AuthInv sv logins) {s : SessionPtr} {permission : String} (ha : (sv.sessionAt s).authenticated = true)
    (hp : (sv.sessionAt s).hasPermission permission = true) : Authorized (logins s) permission := by
  obtain ⟨x, hx, hperm, hguest⟩ := h.session s ha
  unfold Session.hasPermission at hp
  rw [decide_eq_true_iff, hperm] at hp
  refine ⟨x, hx, ?_⟩
  cases hs : x.stored with
  | none => exact .inl (hguest hs)
  | some p =>
    rw [hs] at hp
    exact .inr ⟨p, rfl, hp⟩

/-- Every user may view. -/
theorem view (h : AuthInv sv logins) {s : SessionPtr} {permission : String} (ha : Authorized (logins s) permission) :
    Authorized (logins s) "view" := by
  obtain ⟨x, hx, hguest | ⟨p, hp, -⟩⟩ := ha
  · exact ⟨x, hx, .inl hguest⟩
  · have hview : ∀ p ∈ grants, "view".toList <:+: p.toList := by decide +kernel
    exact ⟨x, hx, .inr ⟨p, hp, hview p (h.stored s x p hx hp)⟩⟩

/-- With logins required, a check changes nothing: it passes, or it is answered with an error. -/
theorem requireAuth (h : AuthInv sv logins) (s : SessionPtr) (permission : String) :
    (sv.requireAuth s permission = (true, sv) ∧ Authorized (logins s) permission) ∨
      ∃ code text, sv.requireAuth s permission = (false, sv.sendMessage s (.error code text)) := by
  unfold Server.requireAuth
  dsimp only
  rw [if_neg (by simp [h.required])]
  by_cases ha : (sv.sessionAt s).authenticated = true
  · rw [if_neg (by simp [ha])]
    by_cases hp : (sv.sessionAt s).hasPermission permission = true
    · rw [if_neg (by simp [hp])]
      exact .inl ⟨rfl, h.authorized ha hp⟩
    · rw [if_pos (by simp [hp])]
      exact .inr ⟨_, _, rfl⟩
  · rw [if_pos (by simp [ha])]
    exact .inr ⟨_, _, rfl⟩

/-- A login that succeeds is the session's most recent one; one that fails changes nothing. -/
theorem handleLogin (h : AuthInv sv logins) (env : Env) (hopen : sv.storeOpen = true) (username password : String) (s : SessionPtr) :
    AuthInv (sv.handleLogin env username password s)
      (logins.after sv (.message s (.login username password)) (sv.handleLogin env username password s)) := by
  unfold Logins.after
  dsimp only
  rw [handleLogin_eq env hopen]
  by_cases hok : username = "guest" ∨ sv.disk.authenticateUser username password = true
  · rw [if_pos hok]
    have hacc : accepted sv (sv.login env username (granted sv.disk username) s) = true := by
      have hsent : (sv.login env username (granted sv.disk username) s).sent =
          sv.sent ++ [(s, .loginResponse true (generateUuid env.uuid) username "")] := rfl
      unfold accepted sentSince
      rw [hsent, List.drop_left]
      rfl
    rw [if_pos hacc]
    refine ⟨h.required, h.table, fun t ht => ?_, fun t x p hx hp => ?_⟩
    · by_cases hts : t = s
      · subst hts
        refine ⟨_, Function.update_self .., ?_, fun hnone => ?_⟩
        · show (Function.update sv.sessionAt t _ t).permissions = _
          rw [Function.update_self]
          rfl
        · refine hok.resolve_right fun hauth => ?_
          unfold Db.authenticateUser at hauth
          rw [Option.map_eq_none_iff.1 hnone] at hauth
          cases hauth
      · rw [Function.update_of_ne hts]
        have hother : (sv.login env username (granted sv.disk username) s).sessionAt t = sv.sessionAt t :=
          Function.update_of_ne hts ..
        rw [hother] at ht ⊢
        exact h.session t ht
    · by_cases hts : t = s
      · subst hts
        rw [Function.update_self] at hx
        cases hx
        obtain ⟨u, hu, rfl⟩ := Option.map_eq_some_iff.1 hp
        exact h.table u (List.mem_of_find?_eq_some hu)
      · rw [Function.update_of_ne hts] at hx
        exact h.stored t x p hx hp
  · rw [if_neg hok]
    have hacc : accepted sv (sv.sendMessage s (.loginResponse false "" username "Invalid credentials")) = false := by
      unfold accepted sentSince sendMessage
      rw [List.drop_left]
      rfl
    rw [hacc, if_neg (by simp)]
    exact h.same ⟨rfl, rfl, rfl, rfl⟩

/-- A trading request leaves the accounts as they are. -/
theorem checked (h : AuthInv sv logins) {s : SessionPtr} {permission : String} {f : Server → Option Server}
    (hf : ∀ {sv sv'}, f sv = some sv' → SameAccounts sv sv')
    (hc : (if (sv.requireAuth s permission).1 = true then f (sv.requireAuth s permission).2
      else some (sv.requireAuth s permission).2) = some sv') : AuthInv sv' logins := by
  rcases h.requireAuth s permission with ⟨hreq, -⟩ | ⟨code, text, hreq⟩
  · rw [hreq] at hc
    exact h.same (hf hc)
  · rw [hreq] at hc
    cases hc
    exact h.same ⟨rfl, rfl, rfl, rfl⟩

theorem handleMessage (h : AuthInv sv logins) {env : Env} (hopen : sv.storeOpen = true) {m : Request} {s : SessionPtr}
    (hm : sv.handleMessage env m s = some sv') : AuthInv sv' (logins.after sv (.message s m) sv') := by
  cases m with
  | login username password =>
    cases hm
    exact h.handleLogin env hopen username password s
  | register username password =>
    cases hm
    have hr := handleRegister_cases sv env username password s
    refine ⟨?_, ?_, ?_, h.stored⟩
    · rw [(Quiet.handleRegister sv env s username password).config]; exact h.required
    · rcases hr.users with hu | hu
      · rw [hu]; exact h.table
      · exact (UsersStep.registered env username password hu).grants h.table
    · rw [hr.sessionAt]; exact h.session
  | snapshotRequest symbol =>
    refine h.checked (f := fun sv => some (sv.handleSnapshotRequest symbol s)) (fun h => ?_) hm
    cases h; exact .handleSnapshotRequest _ symbol s
  | orderSubmit m => exact h.checked (f := fun sv => sv.handleOrderSubmit env m s) .handleOrderSubmit hm
  | orderCancel id c =>
    refine h.checked (f := fun sv => some (sv.handleOrderCancel env id s)) (fun h => ?_) hm
    cases h; exact .handleOrderCancel _ env id s
  | orderStatus id c =>
    refine h.checked (f := fun sv => some (sv.handleOrderStatus id s)) (fun h => ?_) hm
    cases h; exact .handleOrderStatus _ id s
  | other => cases hm; exact h.same ⟨rfl, rfl, rfl, rfl⟩

theorem step (h : AuthInv sv logins) {env : Env} {ev : Event} (hopen : ev ≠ .restart → sv.storeOpen = true)
    (hstep : sv.step (env, ev) = some sv') : AuthInv sv' (logins.after sv ev sv') := by
  cases ev with
  | connect =>
    cases hstep
    refine ⟨h.required, h.table, fun s hs => ?_, h.stored⟩
    -- the new session is not authenticated
    by_cases hnew : s = sv.nextSession
    · subst hnew
      have hself : (sv.acceptConnection env).sessionAt sv.nextSession = .new (generateUuid env.uuid) := Function.update_self ..
      rw [hself] at hs
      cases hs
    · have hother : (sv.acceptConnection env).sessionAt s = sv.sessionAt s := Function.update_of_ne hnew ..
      rw [hother] at hs ⊢
      exact h.session s hs
  | close t =>
    cases hstep
    split_ifs
    · unfold close
      split_ifs
      · refine ⟨h.required, h.table, fun s hs => ?_, h.stored⟩
        by_cases hst : s = t
        · subst hst
          have hself : ((sv.setSession s { sv.sessionAt s with connected := false }).removeSession s).sessionAt s =
              { sv.sessionAt s with connected := false } := Function.update_self ..
          rw [hself] at hs ⊢
          exact h.session s hs
        · have hother : ((sv.setSession t { sv.sessionAt t with connected := false }).removeSession t).sessionAt s =
              sv.sessionAt s := Function.update_of_ne hst ..
          rw [hother] at hs ⊢
          exact h.session s hs
      · exact h
    · exact h
  | message s m =>
    replace hstep : (if sv.hasSession s then sv.handleMessage env m s else some sv) = some sv' := hstep
    split_ifs at hstep
    · exact h.handleMessage (hopen nofun) hstep
    · cases hstep
      have hno : accepted sv sv = false := by
        unfold accepted sentSince
        rw [List.drop_length]
        rfl
      unfold Logins.after
      split
      · rw [hno, if_neg (by simp)]; exact h
      · exact h
  | snapshotTimer => cases hstep; exact h.same (.sendOrderbookSnapshots sv)
  | generate d => cases hstep; exact h.same (.generate sv env d)
  | posted => exact h.same (.handlePosted hstep)
  | generatorCancel i => cases hstep; exact h.same (.tryCancel sv env i)
  | createOrderbook symbol tickSize => cases hstep; exact h.same (.createOrderbook sv symbol tickSize)
  | setOrderbookTickSize symbol tickSize =>
    cases hstep
    unfold setOrderbookTickSize
    split_ifs
    · exact h
    · split
      · exact h
      · exact h.same ⟨rfl, rfl, rfl, rfl⟩
  | restart =>
    obtain ⟨hu, hs, hc⟩ := restart_accounts hstep
    exact ⟨by rw [hc]; exact h.required, hu.grants h.table, by rw [hs]; exact h.session, h.stored⟩

end AuthInv

/-! ## One message -/

/-- A request for a book creates at most that book. -/
theorem handleSnapshotRequest_untraded (sv : Server) (symbol : String) (s : SessionPtr) :
    Untraded sv (sv.handleSnapshotRequest symbol s) := by
  have hsub : Unmoved sv (sv.subscribe s symbol) := ⟨rfl, rfl, rfl⟩
  unfold handleSnapshotRequest
  dsimp only
  cases hb : sv.orderbooks.find? symbol with
  | some b =>
    have hb' : (sv.subscribe s symbol).getOrderbook symbol = some b := hb
    simp only [hb', Option.isSome_some, if_true, Bool.not_true, Bool.false_eq_true, if_false]
    exact ⟨hsub.untraded.books, hsub.untraded.created, hsub.orders, hsub.owners⟩
  | none =>
    have hb' : (sv.subscribe s symbol).getOrderbook symbol = none := hb
    have hc : (sv.subscribe s symbol).createOrderbook symbol defaultTickSize =
        (true, (sv.subscribe s symbol).setBook symbol (.new symbol defaultTickSize)) := if_neg (by
      rw [show (sv.subscribe s symbol).orderbooks.find? symbol = none from hb]; simp)
    have hnew : ((sv.subscribe s symbol).setBook symbol (.new symbol defaultTickSize)).getOrderbook symbol =
        some (.new symbol defaultTickSize) := SortedMap.find?_insert_self ..
    simp only [hb', hc, hnew, Option.isSome_none, Bool.not_true, Bool.false_eq_true, if_false]
    refine ⟨fun x b hx => ?_, fun x b hx => ?_, rfl, rfl⟩
    · show (sv.orderbooks.insert symbol _).find? x = some b
      rw [SortedMap.find?_insert, if_neg fun he => by rw [he, hb] at hx; cases hx]
      exact hx
    · replace hx : (sv.orderbooks.insert symbol (.new symbol defaultTickSize)).find? x = some b := hx
      rw [SortedMap.find?_insert] at hx
      split_ifs at hx
      · rename_i he
        exact .inr (by rw [he, ← Option.some.inj hx])
      · exact .inl hx

theorem handleOrderStatus_unmoved (sv : Server) (id : String) (s : SessionPtr) : Unmoved sv (sv.handleOrderStatus id s) := by
  unfold handleOrderStatus
  split_ifs
  · split <;> exact ⟨rfl, rfl, rfl⟩
  · exact ⟨rfl, rfl, rfl⟩

theorem AuthInv.guarded {sv sv' : Server} {logins : Logins} (h : AuthInv sv logins) (hopen : sv.storeOpen = true) {env : Env}
    {s : SessionPtr} {m : Request} (hm : sv.handleMessage env m s = some sv') : Guarded (logins s) sv sv' := by
  -- a refused check is answered with an error
  have hrefused : ∀ code text, Guarded (logins s) sv (sv.sendMessage s (.error code text)) := fun _ _ =>
    .of_reply ⟨rfl, rfl, rfl⟩ rfl rfl
  have htrade : Authorized (logins s) "trade" → Guarded (logins s) sv sv' := fun ha =>
    ⟨fun hno => absurd ha hno, fun _ => h.view ha, fun hnone => absurd hnone ha.ne_none⟩
  have hview : Authorized (logins s) "view" → Untraded sv sv' → Guarded (logins s) sv sv' := fun ha hu =>
    ⟨fun _ => hu, fun _ => ha, fun hnone => absurd hnone ha.ne_none⟩
  cases m with
  | login username password =>
    cases hm
    have hq := (Quiet.handleLogin sv env s username password).unmoved
    rw [handleLogin_eq env hopen] at hq ⊢
    split_ifs at hq ⊢
    · exact .of_reply hq rfl rfl
    · exact .of_reply hq rfl rfl
  | register username password =>
    cases hm
    have hq := (Quiet.handleRegister sv env s username password).unmoved
    cases handleRegister_cases sv env username password s with
    | refused n text heq => rw [heq] at hq ⊢; exact .of_reply hq rfl rfl
    | added n hnew heq => rw [heq] at hq ⊢; exact .of_reply hq rfl rfl
  | snapshotRequest symbol =>
    unfold Server.handleMessage at hm
    dsimp only at hm
    rcases h.requireAuth s "view" with ⟨hreq, ha⟩ | ⟨code, text, hreq⟩
    · rw [hreq, if_pos rfl] at hm
      cases hm
      exact hview ha (handleSnapshotRequest_untraded sv symbol s)
    · rw [hreq, if_neg (by simp)] at hm
      cases hm
      exact hrefused code text
  | orderStatus id c =>
    unfold Server.handleMessage at hm
    dsimp only at hm
    rcases h.requireAuth s "view" with ⟨hreq, ha⟩ | ⟨code, text, hreq⟩
    · rw [hreq, if_pos rfl] at hm
      cases hm
      exact hview ha (handleOrderStatus_unmoved sv id s).untraded
    · rw [hreq, if_neg (by simp)] at hm
      cases hm
      exact hrefused code text
  | orderSubmit m =>
    unfold Server.handleMessage at hm
    dsimp only at hm
    rcases h.requireAuth s "trade" with ⟨hreq, ha⟩ | ⟨code, text, hreq⟩
    · exact htrade ha
    · rw [hreq, if_neg (by simp)] at hm
      cases hm
      exact hrefused code text
  | orderCancel id c =>
    unfold Server.handleMessage at hm
    dsimp only at hm
    rcases h.requireAuth s "trade" with ⟨hreq, ha⟩ | ⟨code, text, hreq⟩
    · exact htrade ha
    · rw [hreq, if_neg (by simp)] at hm
      cases hm
      exact hrefused code text
  | other =>
    cases hm
    exact hrefused _ _

/-! ## Runs -/

/-- A server and its logins, observed after the events of a history. -/
structure Observed (config : Config) (pre : List (Env × Event)) (x : Server × Logins) : Prop where
  run : pre.foldlM Server.step (initial config) = some x.1
  sound : Sound x.1
  storeOpen : pre ≠ [] → x.1.storeOpen = true
  inv : AuthInv x.1 x.2

theorem Observed.step {config : Config} {pre : List (Env × Event)} {x : Server × Logins} (h : Observed config pre x)
    {e : Env} {ev : Event} (hopens : ev = .restart → (e.opens.1 || e.opens.2) = true) (hfirst : ev ≠ .restart → pre ≠ []) :
    ∃ x', observe x (e, ev) = some x' ∧ Observed config (pre ++ [(e, ev)]) x' := by
  obtain ⟨sv', h1, he⟩ := step_effect h.sound e ev
  have ho : ev ≠ .restart → x.1.storeOpen = true := fun hev => h.storeOpen (hfirst hev)
  refine ⟨(sv', x.2.after x.1 ev sv'), ?_, ?_, he.sound h.sound, fun _ => he.storeOpen hopens ho, h.inv.step ho h1⟩
  · unfold observe
    rw [h1]; rfl
  · rw [List.foldlM_append, h.run]
    show ([(e, ev)].foldlM Server.step x.1) = some sv'
    rw [List.foldlM_cons, h1]; rfl

/-- Every history can be observed. -/
theorem observedRun_observed (config : Config) (hauth : config.authRequired = true) (env : Env) (evs : List (Env × Event))
    (hopen : ∀ e ∈ (env, Event.restart) :: evs, e.2 = .restart → (e.1.opens.1 || e.1.opens.2) = true) :
    ∃ x, observedRun config env evs = some x ∧ Observed config ((env, .restart) :: evs) x := by
  refine Machine.foldlM_prefix (fun pre a x hpre hx => ?_) ⟨rfl, .initial config, nofun, hauth, nofun, nofun, nofun⟩
  refine hx.step (hopen a (hpre.subset (List.mem_append_right _ (List.mem_singleton.2 rfl)))) fun hev hnil => ?_
  -- the first event is a restart
  subst hnil
  obtain ⟨t, ht⟩ := hpre
  cases ht
  exact hev rfl

/-- A viewer who fails to log in as a trader, and a guest. -/
def viewerAndGuest : List (Env × Event) :=
  [(sampleEnv true 1, .connect), (sampleEnv true 2, .connect), (sampleEnv true 3, .message 0 (.login "viewer" "viewer")),
    (sampleEnv true 4, .message 0 (.login "trader" "viewer")), (sampleEnv true 5, .message 1 (.login "guest" "")),
    (sampleEnv true 6, .message 1 (sampleSubmit .buy .limit 100 0 5))]

end Server

end OrderbookGC
