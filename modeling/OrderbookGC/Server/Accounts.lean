/-
The accounts: the rows of the users table, and what a session knows of its login. Only `REGISTER`
and the seeding of an empty table write the table, and both only add rows to what is there, so a
row is for good. The hash of a password is written and read back with fixed offsets and a search for
a colon; neither the salt nor the hash holds one.
-/
import OrderbookGC.Server.Ids

namespace OrderbookGC

open Container OrderBook

/-! ## The format of a stored password -/

theorem hexDigit_ne_colon : ∀ n, hexDigit n ≠ ':' := by decide

theorem mem_generateSalt {d : SaltDraws} {c : Char} (h : c ∈ (generateSalt d).toList) : ∃ n, c = hexDigit n := by
  unfold generateSalt at h
  rw [String.toList_ofList] at h
  obtain ⟨i, -, rfl⟩ := List.mem_map.1 h
  exact ⟨_, rfl⟩

theorem mem_sha256 {input : String} {c : Char} (h : c ∈ (sha256 input).toList) : ∃ n, c = hexDigit n := by
  unfold sha256 at h
  dsimp only at h
  rw [String.toList_ofList, List.mem_flatMap] at h
  obtain ⟨w, -, hc⟩ := h
  unfold Sha256.hexWord at hc
  obtain ⟨i, -, rfl⟩ := List.mem_map.1 hc
  exact ⟨_, rfl⟩

theorem hashPassword_toList (password : String) (d : SaltDraws) : (hashPassword password d).toList =
    "sha256:".toList ++ ((generateSalt d).toList ++ ':' :: (sha256 (generateSalt d ++ password)).toList) := by
  unfold hashPassword
  simp only [String.toList_append]
  simp

theorem hashPassword_ne_empty (password : String) (d : SaltDraws) : (hashPassword password d).isEmpty = false := by
  have hne : hashPassword password d ≠ "" := fun h => by
    have hl := hashPassword_toList password d
    rw [h] at hl
    simp at hl
  simpa [String.isEmpty_iff] using hne

/-- A stored password holds no NUL, so the column keeps all of it. -/
theorem cStr_hashPassword (password : String) (d : SaltDraws) : cStr (hashPassword password d) = hashPassword password d := by
  refine cStr_of_free fun h => ?_
  rw [hashPassword_toList, List.mem_append, List.mem_append, List.mem_cons] at h
  rcases h with h | h | h | h
  · revert h; decide
  · obtain ⟨n, hn⟩ := mem_generateSalt h
    exact hexDigit_ne_nul n hn.symm
  · cases h
  · obtain ⟨n, hn⟩ := mem_sha256 h
    exact hexDigit_ne_nul n hn.symm

/-- What was hashed is verified by exactly the passwords that hash to the same with its salt. -/
theorem verifyPassword_hashPassword (password other : String) (d : SaltDraws) :
    verifyPassword other (hashPassword password d) = true ↔
      sha256 (generateSalt d ++ other) = sha256 (generateSalt d ++ password) := by
  have hsalt : ∀ c ∈ (generateSalt d).toList, decide (c ≠ ':') = true := fun c hc => by
    obtain ⟨n, rfl⟩ := mem_generateSalt hc
    exact decide_eq_true (hexDigit_ne_colon n)
  have htail : (hashPassword password d).toList.drop 7 =
      (generateSalt d).toList ++ ':' :: (sha256 (generateSalt d ++ password)).toList := by
    rw [hashPassword_toList]
    exact List.drop_left' rfl
  unfold verifyPassword
  dsimp only
  rw [htail, if_pos (by simp), List.takeWhile_append_of_pos hsalt, List.dropWhile_append_of_pos hsalt]
  simp

namespace Server

/-! ## Steps that leave the accounts alone -/

/-- The users table, the sessions and what is needed to log in stay as they are. -/
structure SameAccounts (sv sv' : Server) : Prop where
  users : sv'.disk.users = sv.disk.users
  sessionAt : sv'.sessionAt = sv.sessionAt
  storeOpen : sv'.storeOpen = sv.storeOpen
  config : sv'.config = sv.config

namespace SameAccounts

variable {sv sv' sv'' : Server}

theorem refl (sv : Server) : SameAccounts sv sv := ⟨rfl, rfl, rfl, rfl⟩

theorem trans (h : SameAccounts sv sv') (h' : SameAccounts sv' sv'') : SameAccounts sv sv'' :=
  ⟨h'.users.trans h.users, h'.sessionAt.trans h.sessionAt, h'.storeOpen.trans h.storeOpen, h'.config.trans h.config⟩

/-- A write of orders or trades. -/
theorem write (sv : Server) (env : Env) {stmt : Bool → Db → Bool × Db} (h : ∀ ok db, (stmt ok db).2.users = db.users) :
    SameAccounts sv (sv.write env stmt).2 := by
  obtain ⟨disk, n, hw, hd⟩ := write_eq sv env stmt
  rw [hw]
  refine ⟨?_, rfl, rfl, rfl⟩
  rcases hd with ⟨-, hd⟩ | ⟨-, hd⟩
  · rw [hd]; exact h ..
  · rw [hd]

theorem broadcast (sv : Server) (symbol : String) (r : Response) : SameAccounts sv (sv.broadcast symbol r) := by
  obtain ⟨l, hl, -⟩ := broadcast_eq sv symbol r
  rw [hl]
  exact ⟨rfl, rfl, rfl, rfl⟩

theorem onTradeExecuted (env : Env) (sv : Server) (t : Trade ℚ) : SameAccounts sv (onTradeExecuted env sv t) := by
  have hlog : SameAccounts sv { sv with generator := sv.generator.map (Generator.updateLastPrice · t.price)
                                        trades := sv.trades ++ [t] } := ⟨rfl, rfl, rfl, rfl⟩
  refine hlog.trans ((write _ env fun ok db => ?_).trans (broadcast ..))
  unfold Db.saveTrade
  split_ifs <;> rfl

theorem onOrderUpdated (env : Env) (sv : Server) (o : Order ℚ) : SameAccounts sv (onOrderUpdated env sv o) := by
  have hw : SameAccounts sv (sv.write env (Db.updateOrder · o)).2 := write _ env fun ok db => by
    unfold Db.updateOrder
    split_ifs <;> rfl
  unfold Server.onOrderUpdated
  dsimp only
  split
  · exact hw
  · generalize (if (o.status = .filled || o.status = .canceled) = true then SortedMap.erase _ o.id else _) = m
    have hm : SameAccounts sv { (sv.write env (Db.updateOrder · o)).2 with orderOwners := m } :=
      ⟨hw.users, hw.sessionAt, hw.storeOpen, hw.config⟩
    split_ifs
    · exact hm
    · split
      · exact hm
      · exact ⟨hm.users, hm.sessionAt, hm.storeOpen, hm.config⟩

theorem dispatch (env : Env) (heap : OrderPtr → Order ℚ) : ∀ (cbs : List (Callback ℚ)) (sv : Server),
    SameAccounts sv (dispatch env heap cbs sv)
  | [], sv => .refl sv
  | .trade t :: cbs, sv => (onTradeExecuted env sv t).trans (dispatch env heap cbs _)
  | .order p :: cbs, sv => (onOrderUpdated env sv (heap p)).trans (dispatch env heap cbs _)

theorem addOrder {env : Env} {b : OrderBook ℚ} {o o' : Order ℚ} (h : sv.addOrder env b o = some (o', sv')) :
    SameAccounts sv sv' := by
  unfold Server.addOrder at h
  obtain ⟨out, -, hout⟩ := Option.map_eq_some_iff.1 h
  cases hout
  have hset : SameAccounts sv (sv.setBook o.symbol out.state.toOrderBook) := ⟨rfl, rfl, rfl, rfl⟩
  exact hset.trans (dispatch ..)

theorem cancelOrder (sv : Server) (env : Env) (symbol : String) (b : OrderBook ℚ) (id : String) :
    SameAccounts sv (sv.cancelOrder env symbol b id).2 := by
  have hset : SameAccounts sv (sv.setBook symbol (b.cancelOrder id).2.1) := ⟨rfl, rfl, rfl, rfl⟩
  exact hset.trans (dispatch ..)

theorem cancelLoop (env : Env) (id : String) : ∀ (l : List (String × OrderBook ℚ)) (sv : Server),
    SameAccounts sv (cancelLoop env id l sv).2
  | [], sv => .refl sv
  | e :: l, sv => by
    unfold Server.cancelLoop
    have h := cancelOrder sv env e.1 e.2 id
    dsimp only
    split_ifs
    · exact h
    · exact h.trans (cancelLoop env id l _)

theorem saveSubmission (sv : Server) (env : Env) (x : Submission) (o : Order ℚ) : SameAccounts sv (sv.saveSubmission env x o) := by
  have hlog : SameAccounts sv { sv.logUuid x.orderId with submissions := sv.submissions ++ [x] } := ⟨rfl, rfl, rfl, rfl⟩
  refine hlog.trans (write _ env fun ok db => ?_)
  unfold Db.saveOrder
  split_ifs <;> rfl

theorem handleOrderSubmit {env : Env} {m : OrderSubmitMessage} {s : SessionPtr} (h : sv.handleOrderSubmit env m s = some sv') :
    SameAccounts sv sv' := by
  unfold Server.handleOrderSubmit at h
  split at h
  · cases h; exact ⟨rfl, rfl, rfl, rfl⟩
  · obtain ⟨r, hr, rfl⟩ := Option.map_eq_some_iff.1 h
    have hsub : SameAccounts sv (sv.subscribe s m.symbol) := ⟨rfl, rfl, rfl, rfl⟩
    exact hsub.trans ((saveSubmission _ env _ _).trans ((addOrder hr).trans ⟨rfl, rfl, rfl, rfl⟩))

theorem handleOrderCancel (sv : Server) (env : Env) (id : String) (s : SessionPtr) :
    SameAccounts sv (sv.handleOrderCancel env id s) := by
  have h := cancelLoop env id sv.orderbooks.entries sv
  unfold Server.handleOrderCancel
  dsimp only
  split_ifs
  · exact h
  · exact h.trans ⟨rfl, rfl, rfl, rfl⟩
  · exact ⟨rfl, rfl, rfl, rfl⟩

theorem createOrderbook (sv : Server) (symbol : String) (tickSize : ℚ) : SameAccounts sv (sv.createOrderbook symbol tickSize).2 := by
  unfold Server.createOrderbook
  split_ifs
  · exact .refl sv
  · exact ⟨rfl, rfl, rfl, rfl⟩

theorem handleSnapshotRequest (sv : Server) (symbol : String) (s : SessionPtr) :
    SameAccounts sv (sv.handleSnapshotRequest symbol s) := by
  have hsub : SameAccounts sv (sv.subscribe s symbol) := ⟨rfl, rfl, rfl, rfl⟩
  have hsend : ∀ (sv : Server) r, SameAccounts sv (sv.sendMessage s r) := fun _ _ => ⟨rfl, rfl, rfl, rfl⟩
  unfold Server.handleSnapshotRequest
  dsimp only
  generalize hc : (if ((sv.subscribe s symbol).getOrderbook symbol).isSome = true then (true, sv.subscribe s symbol)
    else _) = c
  have hcreate : SameAccounts sv c.2 := by
    rw [← hc]
    split_ifs
    · exact hsub
    · exact hsub.trans (createOrderbook ..)
  split_ifs
  · exact hcreate.trans (hsend _ _)
  · split
    · exact hcreate
    · exact hcreate.trans (hsend _ _)

theorem handleOrderStatus (sv : Server) (id : String) (s : SessionPtr) : SameAccounts sv (sv.handleOrderStatus id s) := by
  unfold Server.handleOrderStatus
  split_ifs
  · split <;> exact ⟨rfl, rfl, rfl, rfl⟩
  · exact ⟨rfl, rfl, rfl, rfl⟩

theorem sendOrderbookSnapshots (sv : Server) : SameAccounts sv sv.sendOrderbookSnapshots := by
  unfold Server.sendOrderbookSnapshots
  generalize sv.orderbooks.entries = l
  induction l generalizing sv with
  | nil => exact .refl sv
  | cons e l ih => exact (broadcast sv e.1 _).trans (ih _)

theorem generate (sv : Server) (env : Env) (d : GeneratorDraws) : SameAccounts sv (sv.generate env d) := by
  unfold Server.generate
  split <;> exact ⟨rfl, rfl, rfl, rfl⟩

theorem handlePosted {env : Env} (h : sv.handlePosted env = some sv') : SameAccounts sv sv' := by
  unfold Server.handlePosted at h
  split at h
  · cases h; exact .refl sv
  · dsimp only at h
    split at h
    · cases h; exact ⟨rfl, rfl, rfl, rfl⟩
    · obtain ⟨r, hr, rfl⟩ := Option.map_eq_some_iff.1 h
      have := addOrder hr
      exact ⟨this.users, this.sessionAt, this.storeOpen, this.config⟩

theorem tryCancel (sv : Server) (env : Env) (i : Nat) : SameAccounts sv (sv.tryCancel env i) := by
  unfold Server.tryCancel
  split
  · exact .refl sv
  · rename_i g _
    split
    · exact .refl sv
    · have huntrack : SameAccounts sv { sv with generator := some { g with tracked := g.tracked.eraseIdx i } } := ⟨rfl, rfl, rfl, rfl⟩
      dsimp only
      split
      · exact huntrack
      · exact huntrack.trans (cancelOrder ..)

theorem restore {env : Env} {o : Order ℚ} (h : Server.restore env sv o = some sv') : SameAccounts sv sv' := by
  unfold Server.restore at h
  split at h
  · cases h; exact .refl sv
  · obtain ⟨r, hr, rfl⟩ := Option.map_eq_some_iff.1 h
    exact addOrder hr

theorem foldlM_restore {env : Env} : ∀ {l : List (Order ℚ)} {sv sv' : Server},
    l.foldlM (Server.restore env) sv = some sv' → SameAccounts sv sv'
  | [], _, _, h => by cases h; exact .refl _
  | o :: l, sv, sv', h => by
    rw [List.foldlM_cons] at h
    obtain ⟨sv₁, h1, h2⟩ := Option.bind_eq_some_iff.1 h
    exact (restore h1).trans (foldlM_restore h2)

end SameAccounts

/-! ## Registering -/

/-- The row a registration writes. -/
def registeredRow (env : Env) (username password : String) : UserRecord :=
  ⟨cStr username, hashPassword password (env.salts 0), "trade,view"⟩

/-- The reply to an accepted registration. -/
def Registers (sv sv' : Server) (s : SessionPtr) (username : String) : Prop :=
  sv'.sent = sv.sent ++ [(s, .registerResponse true username "")]

/-- A new name gets one new row; everything else is refused. -/
inductive Registering (env : Env) (username password : String) (s : SessionPtr) (sv sv' : Server) : Prop
  | refused (n : Nat) (text : String)
      (heq : sv' = { sv with writes := n }.sendMessage s (.registerResponse false username text)) : Registering env username password s sv sv'
  | added (n : Nat) (hnew : sv.disk.getUser username = none)
      (heq : sv' = { sv with writes := n, disk := { sv.disk with users := sv.disk.users ++ [registeredRow env username password] } }.sendMessage
        s (.registerResponse true username "")) : Registering env username password s sv sv'

theorem getUser_eq_none {db : Db} {username : String} (h : db.getUser username = none) :
    db.users.filter (fun u => decide (u.username ≠ cStr username)) = db.users := by
  unfold Db.getUser at h
  rw [List.find?_eq_none] at h
  exact List.filter_eq_self.2 fun u hu => by simpa using h u hu

/-- Saving a user with a new name adds one row, or nothing. -/
theorem write_saveUser {sv : Server} (env : Env) {username password : String} (hopen : sv.storeOpen = true)
    (hnew : sv.disk.getUser username = none) (hpw : password.isEmpty = false) :
    let r := sv.write env (Db.saveUser · ⟨username, password, "trade,view"⟩ (env.salts 0))
    r = (true, { sv with writes := sv.writes + 1,
                         disk := { sv.disk with users := sv.disk.users ++ [registeredRow env username password] } }) ∨
      r = (false, { sv with writes := sv.writes + 1 }) := by
  dsimp only
  unfold write Db.saveUser
  rw [if_pos hopen]
  cases env.writeOk sv.writes with
  | true =>
    left
    simp only [if_true, hpw, getUser_eq_none hnew, Bool.false_eq_true, if_false, cStr_hashPassword]
    rw [show cStr "trade,view" = "trade,view" by decide]
    rfl
  | false => exact .inr rfl

theorem handleRegister_cases (sv : Server) (env : Env) (username password : String) (s : SessionPtr) :
    Registering env username password s sv (sv.handleRegister env username password s) := by
  unfold handleRegister
  dsimp only
  by_cases hname : username.isEmpty = true
  · rw [if_pos hname]; exact .refused sv.writes _ rfl
  rw [if_neg hname]
  by_cases hpw : password.isEmpty = true
  · rw [if_pos hpw]; exact .refused sv.writes _ rfl
  rw [if_neg hpw]
  by_cases hlong : (decide (64 < username.utf8ByteSize) || decide (128 < password.utf8ByteSize)) = true
  · rw [if_pos hlong]; exact .refused sv.writes _ rfl
  rw [if_neg hlong]
  by_cases hopen : (!sv.storeOpen) = true
  · rw [if_pos hopen]; exact .refused sv.writes _ rfl
  rw [if_neg hopen]
  by_cases htaken : (sv.disk.getUser username).isSome = true
  · rw [if_pos htaken]; exact .refused sv.writes _ rfl
  rw [if_neg htaken]
  have hnew : sv.disk.getUser username = none := by simpa using htaken
  rcases write_saveUser env (by simpa using hopen) hnew (by simpa using hpw) with hw | hw
  · rw [hw]; exact .added (sv.writes + 1) hnew rfl
  · rw [hw]; exact .refused (sv.writes + 1) _ rfl

namespace Registering

variable {env : Env} {username password : String} {s : SessionPtr} {sv sv' : Server}

theorem users (h : Registering env username password s sv sv') : sv'.disk.users = sv.disk.users ∨
    sv'.disk.users = sv.disk.users ++ [registeredRow env username password] := by
  cases h with
  | refused n text heq => subst heq; exact .inl rfl
  | added n hnew heq => subst heq; exact .inr rfl

theorem sessionAt (h : Registering env username password s sv sv') : sv'.sessionAt = sv.sessionAt := by
  cases h with
  | refused n text heq => subst heq; rfl
  | added n hnew heq => subst heq; rfl

/-- An accepted registration has written the row, which is the user's. -/
theorem getUser (h : Registering env username password s sv sv') (hr : Registers sv sv' s username) :
    sv'.disk.getUser username = some (registeredRow env username password) := by
  cases h with
  | refused n text heq =>
    subst heq
    have := List.append_cancel_left hr
    simp at this
  | added n hnew heq =>
    subst heq
    have hnew' : sv.disk.users.find? (fun u => decide (u.username = cStr username)) = none := hnew
    show (sv.disk.users ++ [registeredRow env username password]).find? _ = _
    rw [List.find?_append, hnew', Option.none_or, List.find?_cons_of_pos (by simp [registeredRow])]

theorem taken (h : Registering env username password s sv sv') (ht : (sv.disk.getUser username).isSome = true) :
    sv'.disk.users = sv.disk.users ∧ ∃ text, sv'.sent = sv.sent ++ [(s, .registerResponse false username text)] := by
  cases h with
  | refused n text heq => subst heq; exact ⟨rfl, text, rfl⟩
  | added n hnew heq => rw [hnew] at ht; cases ht

end Registering

/-! ## Logging in -/

/-- An accepted login: the session has the name, and the reply says so. -/
def LogsIn (sv sv' : Server) (s : SessionPtr) (username : String) : Prop :=
  (sv'.sessionAt s).authenticated = true ∧ (sv'.sessionAt s).username = username ∧
    ∃ token, sv'.sent = sv.sent ++ [(s, .loginResponse true token username "")]

/-- The permissions a login gives a session. -/
def granted (db : Db) (username : String) : String := ((db.getUser username).map (·.permissions)).getD "trade,view"

/-- What a login does with the store open. -/
theorem handleLogin_eq {sv : Server} (env : Env) (hopen : sv.storeOpen = true) (username password : String) (s : SessionPtr) :
    sv.handleLogin env username password s =
      if username = "guest" ∨ sv.disk.authenticateUser username password = true then
        sv.login env username (granted sv.disk username) s
      else sv.sendMessage s (.loginResponse false "" username "Invalid credentials") := by
  unfold handleLogin granted
  rw [if_neg (by simp [hopen])]
  by_cases h : username = "guest" ∨ sv.disk.authenticateUser username password = true
  · rw [if_pos (by simpa using h), if_pos h]
    cases sv.disk.getUser username <;> rfl
  · rw [if_neg (by simpa using h), if_neg h]

theorem logsIn_login (sv : Server) (env : Env) (username permissions : String) (s : SessionPtr) :
    LogsIn sv (sv.login env username permissions s) s username := by
  unfold login
  have hself : ∀ x : Session, Function.update sv.sessionAt s x s = x := fun x => Function.update_self ..
  exact ⟨congrArg Session.authenticated (hself _), congrArg Session.username (hself _), generateUuid env.uuid, rfl⟩

theorem logsIn_iff {sv : Server} (env : Env) (hopen : sv.storeOpen = true) (username password : String) (s : SessionPtr) :
    LogsIn sv (sv.handleLogin env username password s) s username ↔
      username = "guest" ∨ sv.disk.authenticateUser username password = true := by
  rw [handleLogin_eq env hopen]
  constructor
  · intro h
    by_contra hno
    rw [if_neg hno] at h
    obtain ⟨-, -, token, hsent⟩ := h
    have := List.append_cancel_left hsent
    simp at this
  · intro h
    rw [if_pos h]
    exact logsIn_login ..

/-! ## The users table over a step -/

/-- The permissions the program ever stores. -/
def grants : List String := ["trade,view,admin", "trade,view", "view"]

/-- What a step may do to the users table. -/
inductive UsersStep (sv sv' : Server) : Prop
  | same (h : sv'.disk.users = sv.disk.users) : UsersStep sv sv'
  | registered (env : Env) (username password : String)
      (h : sv'.disk.users = sv.disk.users ++ [registeredRow env username password]) : UsersStep sv sv'
  | seeded (hempty : sv.disk.users = []) (h : ∀ u ∈ sv'.disk.users, u.permissions ∈ grants) : UsersStep sv sv'

namespace UsersStep

variable {sv sv' : Server}

theorem isPrefix (h : UsersStep sv sv') : sv.disk.users <+: sv'.disk.users := by
  cases h with
  | same h => exact h ▸ List.prefix_refl _
  | registered env u p h => rw [h]; exact List.prefix_append ..
  | seeded hempty h => rw [hempty]; exact List.nil_prefix

theorem grants (h : UsersStep sv sv') (hg : ∀ u ∈ sv.disk.users, u.permissions ∈ grants) :
    ∀ u ∈ sv'.disk.users, u.permissions ∈ Server.grants := by
  intro u hu
  cases h with
  | same h => rw [h] at hu; exact hg u hu
  | registered env n p h =>
    rw [h] at hu
    rcases List.mem_append.1 hu with hu | hu
    · exact hg u hu
    · rw [List.mem_singleton.1 hu]
      simp [registeredRow, Server.grants]
  | seeded hempty h => exact h u hu

end UsersStep

theorem getUser_of_prefix {db db' : Db} (h : db.users <+: db'.users) {username : String} {u : UserRecord}
    (hu : db.getUser username = some u) : db'.getUser username = some u := by
  obtain ⟨t, ht⟩ := h
  unfold Db.getUser at hu ⊢
  rw [← ht, List.find?_append, hu, Option.some_or]

theorem saveUser_users {ok : Bool} {user u : UserRecord} {salt : SaltDraws} {db : Db}
    (hu : u ∈ (db.saveUser ok user salt).2.users) : u ∈ db.users ∨ u.permissions = cStr user.permissions := by
  unfold Db.saveUser at hu
  cases ok with
  | false => exact .inl hu
  | true =>
    rcases List.mem_append.1 hu with hu | hu
    · exact .inl (List.mem_filter.1 hu).1
    · rw [List.mem_singleton.1 hu]
      exact .inr rfl

/-- Users saved one after the other. -/
theorem foldl_saveUser (env : Env) : ∀ (l : List (UserRecord × Nat)) (sv : Server), (∀ x ∈ l, cStr x.1.permissions ∈ grants) →
    (∀ u ∈ sv.disk.users, u.permissions ∈ grants) →
    ∃ disk n, l.foldl (fun sv u => (sv.write env (Db.saveUser · u.1 (env.salts u.2))).2) sv = { sv with disk, writes := n } ∧
      ∀ u ∈ disk.users, u.permissions ∈ grants
  | [], sv, _, hsv => ⟨sv.disk, sv.writes, rfl, hsv⟩
  | x :: l, sv, hl, hsv => by
    obtain ⟨disk, n, hw, hd⟩ := write_eq sv env (Db.saveUser · x.1 (env.salts x.2))
    have hdisk : ∀ u ∈ disk.users, u.permissions ∈ grants := fun u hu => by
      rcases hd with ⟨-, hd⟩ | ⟨-, hd⟩
      · rw [hd] at hu
        rcases saveUser_users hu with hu | hu
        · exact hsv u hu
        · rw [hu]; exact hl x (List.mem_cons_self ..)
      · rw [hd] at hu
        exact hsv u hu
    rw [List.foldl_cons, hw]
    exact foldl_saveUser env l _ (fun u hu => hl u (List.mem_cons_of_mem _ hu)) hdisk

/-- Seeding an empty table stores the default users, as far as the writes succeed. -/
theorem seedDefaultUsers_step (sv : Server) (env : Env) : ∃ disk n, sv.seedDefaultUsers env = { sv with disk, writes := n } ∧
    UsersStep sv { sv with disk, writes := n } := by
  unfold seedDefaultUsers
  split_ifs with hempty
  · have hnil : sv.disk.users = [] := by simpa using hempty
    obtain ⟨disk, n, heq, hg⟩ := foldl_saveUser env Db.defaultUsers.zipIdx sv (by decide) (by rw [hnil]; nofun)
    exact ⟨disk, n, heq, .seeded hnil hg⟩
  · exact ⟨sv.disk, sv.writes, rfl, .same rfl⟩

/-- What `initPersistence` does to the accounts. -/
theorem initPersistence_accounts {sv sv' : Server} {env : Env} {opens : Bool} (h : sv.initPersistence env opens = some sv') :
    UsersStep sv sv' ∧ sv'.sessionAt = sv.sessionAt ∧ sv'.config = sv.config ∧ sv'.storeOpen = (sv.storeOpen || opens) := by
  unfold initPersistence at h
  cases opens with
  | false =>
    cases h
    exact ⟨.same rfl, rfl, rfl, (Bool.or_false _).symm⟩
  | true =>
    rw [if_pos rfl] at h
    obtain ⟨disk, n, heq, hu⟩ := seedDefaultUsers_step { sv with storeOpen := true } env
    rw [heq] at h
    have hr := SameAccounts.foldlM_restore h
    refine ⟨?_, hr.sessionAt, hr.config, hr.storeOpen.trans (Bool.or_true _).symm⟩
    cases hu with
    | same h => exact .same (hr.users.trans h)
    | registered e u p h => exact .registered e u p (hr.users.trans h)
    | seeded hempty h => exact .seeded hempty (by rw [hr.users]; exact h)

theorem boot_accounts (sv : Server) : SameAccounts sv.newProcess sv.boot := by
  obtain ⟨m, hm, -⟩ := boot_eq sv
  rw [hm]
  exact ⟨rfl, rfl, rfl, rfl⟩

theorem configureOrderGenerator_accounts (sv : Server) : SameAccounts sv sv.configureOrderGenerator := by
  unfold configureOrderGenerator
  split
  · split
    · exact .refl sv
    · exact ⟨rfl, rfl, rfl, rfl⟩
  · exact .refl sv

/-- A restart keeps the table but for the seeding; the sessions are those of the past. -/
theorem restart_accounts {sv sv' : Server} {env : Env} (h : sv.restart env = some sv') :
    UsersStep sv sv' ∧ sv'.sessionAt = sv.sessionAt ∧ sv'.config = sv.config := by
  have hb := boot_accounts sv
  unfold restart at h
  obtain ⟨sv₁, h1, h2⟩ := Option.bind_eq_some_iff.1 h
  obtain ⟨hu, hs, hc, ho⟩ := initPersistence_accounts h1
  have hg := configureOrderGenerator_accounts sv₁
  have hu₁ : UsersStep sv sv₁.configureOrderGenerator := by
    cases hu with
    | same h => exact .same (hg.users.trans (h.trans hb.users))
    | registered e u p h => exact .registered e u p (hg.users.trans (h.trans (by rw [hb.users]; rfl)))
    | seeded hempty h => exact .seeded (hb.users.symm.trans hempty) (by rw [hg.users]; exact h)
  have hs₁ : sv₁.configureOrderGenerator.sessionAt = sv.sessionAt := hg.sessionAt.trans (hs.trans hb.sessionAt)
  have hc₁ : sv₁.configureOrderGenerator.config = sv.config := hg.config.trans (hc.trans hb.config)
  dsimp only at h2
  split_ifs at h2 with hopen
  · cases h2
    exact ⟨hu₁, hs₁, hc₁⟩
  · -- the first attempt has not opened the store, so it has not touched the table either
    have hfirst : env.opens.1 = false := by
      rw [hg.storeOpen, ho, Bool.or_eq_true, not_or, Bool.not_eq_true] at hopen
      simpa using hopen.2
    rw [hfirst] at h1
    cases h1
    obtain ⟨hu₂, hs₂, hc₂, -⟩ := initPersistence_accounts h2
    refine ⟨?_, hs₂.trans hs₁, hc₂.trans hc₁⟩
    have heq : sv.boot.configureOrderGenerator.disk.users = sv.disk.users := hg.users.trans hb.users
    cases hu₂ with
    | same h => exact .same (h.trans heq)
    | registered e u p h => exact .registered e u p (by rw [h, heq])
    | seeded hempty h => exact .seeded (heq.symm.trans hempty) h

/-! ## One step -/

theorem requireAuth_users (sv : Server) (s : SessionPtr) (permission : String) :
    (sv.requireAuth s permission).2.disk = sv.disk := by
  unfold requireAuth
  dsimp only
  split_ifs <;> rfl

theorem handleMessage_users {sv sv' : Server} {env : Env} {m : Request} {s : SessionPtr}
    (h : sv.handleMessage env m s = some sv') : UsersStep sv sv' := by
  -- the trading requests are checked first, which touches the session only
  have hcheck : ∀ {permission : String} {f : Server → Option Server},
      (∀ {sv sv'}, f sv = some sv' → SameAccounts sv sv') →
      (if (sv.requireAuth s permission).1 = true then f (sv.requireAuth s permission).2
        else some (sv.requireAuth s permission).2) = some sv' → UsersStep sv sv' := fun {permission f} hf h => by
    have hreq := congrArg Db.users (requireAuth_users sv s permission)
    split_ifs at h
    · exact .same ((hf h).users.trans hreq)
    · cases h; exact .same hreq
  cases m with
  | login username password =>
    cases h
    unfold handleLogin
    split_ifs
    · exact .same rfl
    · split <;> exact .same rfl
    · exact .same rfl
  | register username password =>
    cases h
    rcases (handleRegister_cases sv env username password s).users with h | h
    · exact .same h
    · exact .registered env username password h
  | snapshotRequest symbol =>
    refine hcheck (f := fun sv => some (sv.handleSnapshotRequest symbol s)) (fun h => ?_) h
    cases h; exact .handleSnapshotRequest _ symbol s
  | orderSubmit m => exact hcheck (f := fun sv => sv.handleOrderSubmit env m s) .handleOrderSubmit h
  | orderCancel id c =>
    refine hcheck (f := fun sv => some (sv.handleOrderCancel env id s)) (fun h => ?_) h
    cases h; exact .handleOrderCancel _ env id s
  | orderStatus id c =>
    refine hcheck (f := fun sv => some (sv.handleOrderStatus id s)) (fun h => ?_) h
    cases h; exact .handleOrderStatus _ id s
  | other => cases h; exact .same rfl

/-- Only a registration and a seeding write the users table. -/
theorem step_users {sv sv' : Server} {env : Env} {ev : Event} (h : sv.step (env, ev) = some sv') : UsersStep sv sv' := by
  have hsame : ∀ {sv sv' : Server}, SameAccounts sv sv' → UsersStep sv sv' := fun h => .same h.users
  cases ev with
  | connect => cases h; exact .same rfl
  | close s =>
    cases h
    unfold close
    split_ifs <;> exact .same rfl
  | message s m =>
    replace h : (if sv.hasSession s then sv.handleMessage env m s else some sv) = some sv' := h
    split_ifs at h
    · exact handleMessage_users h
    · cases h; exact .same rfl
  | snapshotTimer => cases h; exact hsame (.sendOrderbookSnapshots sv)
  | generate d => cases h; exact hsame (.generate sv env d)
  | posted => exact hsame (.handlePosted h)
  | generatorCancel i => cases h; exact hsame (.tryCancel sv env i)
  | createOrderbook symbol tickSize => cases h; exact hsame (.createOrderbook sv symbol tickSize)
  | setOrderbookTickSize symbol tickSize =>
    cases h
    unfold setOrderbookTickSize
    split_ifs
    · exact .same rfl
    · split <;> exact .same rfl
  | restart => exact (restart_accounts h).1

theorem foldlM_users : ∀ {evs : List (Env × Event)} {sv sv' : Server}, evs.foldlM step sv = some sv' →
    sv.disk.users <+: sv'.disk.users
  | [], _, _, h => by cases h; exact List.prefix_refl _
  | (env, ev) :: evs, sv, sv', h => by
    rw [List.foldlM_cons] at h
    obtain ⟨sv₁, h1, h2⟩ := Option.bind_eq_some_iff.1 h
    exact (step_users h1).isPrefix.trans (foldlM_users h2)

/-! ## Runs -/

/-- What holds of the accounts of a server from here on, whatever happens. -/
structure AccountsSafe (sv : Server) : Prop where
  /-- No row is changed or removed, and a user keeps the row it has. -/
  kept : ∀ (evs : List (Env × Event)) (sv' : Server), evs.foldlM step sv = some sv' → sv.disk.users <+: sv'.disk.users ∧
    ∀ username u, sv.disk.getUser username = some u → sv'.disk.getUser username = some u
  /-- A taken name is refused. -/
  taken : ∀ env s username password sv', sv.hasSession s = true → (sv.disk.getUser username).isSome = true →
    sv.step (env, .message s (.register username password)) = some sv' →
    sv'.disk.users = sv.disk.users ∧ ∃ text, sv'.sent = sv.sent ++ [(s, .registerResponse false username text)]
  /-- A registration is good for exactly the passwords with its hash, in every later login with the store open. -/
  usable : ∀ env s username password sv₁ (evs : List (Env × Event)) (sv' : Server), username ≠ "guest" →
    sv.step (env, .message s (.register username password)) = some sv₁ → Registers sv sv₁ s username →
    evs.foldlM step sv₁ = some sv' → sv'.storeOpen = true →
    ∀ env' t other, sv'.hasSession t = true → ∃ sv'', sv'.step (env', .message t (.login username other)) = some sv'' ∧
      (LogsIn sv' sv'' t username ↔
        sha256 (generateSalt (env.salts 0) ++ other) = sha256 (generateSalt (env.salts 0) ++ password))

theorem accountsSafe (sv : Server) : AccountsSafe sv := by
  constructor
  · intro evs sv' h
    exact ⟨foldlM_users h, fun username u hu => getUser_of_prefix (foldlM_users h) hu⟩
  · intro env s username password sv' hs ht h
    unfold step at h
    dsimp only at h
    rw [if_pos hs] at h
    cases h
    exact (handleRegister_cases sv env username password s).taken ht
  · intro env s username password sv₁ evs sv' hguest h hr hevs hopen env' t other ht
    -- the registration has written the row, and the row stays
    have hs : sv.hasSession s = true := by
      by_contra hs
      unfold step at h
      dsimp only at h
      rw [if_neg hs] at h
      cases h
      have := congrArg List.length (show sv.sent = _ from hr)
      simp at this
    unfold step at h
    dsimp only at h
    rw [if_pos hs] at h
    cases h
    have hrow := getUser_of_prefix (foldlM_users hevs) ((handleRegister_cases sv env username password s).getUser hr)
    have hauth : sv'.disk.authenticateUser username other = verifyPassword other (hashPassword password (env.salts 0)) := by
      unfold Db.authenticateUser
      rw [hrow]
      show (if (hashPassword password (env.salts 0)).isEmpty = true then _ else _) = _
      rw [hashPassword_ne_empty, if_neg (by simp)]
      rfl
    refine ⟨sv'.handleLogin env' username other t, ?_, ?_⟩
    · unfold step
      dsimp only
      rw [if_pos ht]
      rfl
    · rw [logsIn_iff env' hopen, hauth, verifyPassword_hashPassword]
      exact or_iff_right hguest

/-- In every history, which returns with whatever follows it, accounts cannot be taken over and registrations can be used. -/
theorem run_accountsSafe (config : Config) (env : Env) (evs : List (Env × Event)) :
    ∃ sv, run config env evs = some sv ∧ (∀ evs' : List (Env × Event), (evs'.foldlM step sv).isSome = true) ∧ AccountsSafe sv := by
  have hrun : ∀ evs, ∃ sv, run config env evs = some sv := fun evs => by
    obtain ⟨sv, h, -⟩ := run_rule config env evs (K := fun _ _ => True) trivial fun _ _ _ _ _ _ _ _ _ _ => trivial
    exact ⟨sv, h⟩
  obtain ⟨sv, hsv⟩ := hrun evs
  refine ⟨sv, hsv, fun evs' => ?_, accountsSafe sv⟩
  obtain ⟨sv', hsv'⟩ := hrun (evs ++ evs')
  unfold run at hsv hsv'
  rw [← List.cons_append] at hsv'
  obtain ⟨t, h1, h2⟩ := Machine.foldlM_append_some.1 hsv'
  cases hsv.symm.trans h1
  rw [h2]; rfl

/-- A client that registers and logs in, with the right password and with another one. -/
def registersAndLogsIn : List (Env × Event) :=
  [(sampleEnv true 1, .connect), (sampleEnv true 2, .message 0 (.register "bob" "a:b")),
    (sampleEnv true 3, .message 0 (.login "bob" "a:b")), (sampleEnv true 4, .message 0 (.login "bob" "a"))]

theorem run_accountsSafe_registersAndLogsIn : ∃ sv, run sampleConfig (sampleEnv true 0) registersAndLogsIn = some sv ∧
    AccountsSafe sv ∧ sv.sent.map (·.2) = [.registerResponse true "bob" "",
      .loginResponse true (generateUuid (sampleEnv true 3).uuid) "bob" "", .loginResponse false "" "bob" "Invalid credentials"] := by
  obtain ⟨sv, hrun, -, h⟩ := run_accountsSafe sampleConfig (sampleEnv true 0) registersAndLogsIn
  have hsent : (run sampleConfig (sampleEnv true 0) registersAndLogsIn).map (fun sv => sv.sent.map (·.2)) =
      some [.registerResponse true "bob" "", .loginResponse true (generateUuid (sampleEnv true 3).uuid) "bob" "",
        .loginResponse false "" "bob" "Invalid credentials"] := by decide +kernel
  rw [hrun, Option.map_some, Option.some.injEq] at hsent
  exact ⟨sv, hrun, h, hsent⟩

end Server

end OrderbookGC
