/-
Identity over whole histories. Orders and clients are named by the ids `generateUuid` returns, and
nothing else keeps them apart: not the books, not the ownership map, not the order table. `IdInv` is
what distinct ids give: a live order is in one book, a row belongs to one submission, a client id to
one session. It holds after every history whose ids are pairwise distinct.
-/
import OrderbookGC.Server.Effect

namespace OrderbookGC

open Container OrderBook MatchState

namespace Server

structure IdInv (sv : Server) : Prop where
  drawn : ∀ u ∈ sv.uuids, ∃ d, u = generateUuid d
  live : ∀ {id}, sv.Live id → id ∈ sv.uuids
  oneBook : ∀ {id symbol symbol' b b' p p'}, sv.orderbooks.find? symbol = some b → b.getOrder id = some p →
    sv.orderbooks.find? symbol' = some b' → b'.getOrder id = some p' → symbol = symbol'
  rows : ∀ r ∈ sv.disk.orders, r.id ∈ sv.uuids
  rowsNodup : (sv.disk.orders.map (·.id)).Nodup
  posted : ∀ o ∈ sv.posted, o.id ∈ sv.uuids ∧ ¬ sv.Live o.id
  postedNodup : (sv.posted.map (·.id)).Nodup
  postedRow : ∀ o ∈ sv.posted, ∀ r ∈ sv.disk.orders, r.id ≠ o.id
  postedSubmission : ∀ o ∈ sv.posted, ∀ x ∈ sv.submissions, x.orderId ≠ o.id
  submission : ∀ x ∈ sv.submissions, x.orderId ∈ sv.uuids ∧ x.session < sv.nextSession
  submissionInj : ∀ x ∈ sv.submissions, ∀ y ∈ sv.submissions, x.orderId = y.orderId → x = y
  trade : ∀ t ∈ sv.trades, t.buyOrderId ∈ sv.uuids ∧ t.sellOrderId ∈ sv.uuids
  client : ∀ s < sv.nextSession, sv.clientId s ∈ sv.uuids
  clientInj : ∀ s < sv.nextSession, ∀ t < sv.nextSession, sv.clientId s = sv.clientId t → s = t
  order : sv.firstSession ≤ sv.nextSession
  sessions : ∀ {c s}, sv.sessions.find? c = some s → sv.firstSession ≤ s ∧ s < sv.nextSession ∧ sv.clientId s = c

theorem IdInv.initial (config : Config) : IdInv (initial config) where
  drawn _ h := by cases h
  live h := by obtain ⟨_, _, _, h, -⟩ := h; cases h
  oneBook h := by cases h
  rows _ h := by cases h
  rowsNodup := .nil
  posted _ h := by cases h
  postedNodup := .nil
  postedRow _ h := by cases h
  postedSubmission _ h := by cases h
  submission _ h := by cases h
  submissionInj _ h := by cases h
  trade _ h := by cases h
  client _ h := absurd h (Nat.not_lt_zero _)
  clientInj _ h := absurd h (Nat.not_lt_zero _)
  order := Nat.le_refl _
  sessions h := by cases h

/-! ## Live orders -/

section Calls

variable {env : Env} {o : Order ℚ} {b b' x : OrderBook ℚ} {out : AddOutcome ℚ} {sv sv' : Server} {symbol id name : String}
  {p q : OrderPtr}

@[simp] theorem alloc_heap_self : (b.alloc o).2.heap b.nextPtr = o := Function.update_self ..

theorem alloc_heap_of_ne (hp : p ≠ b.nextPtr) : (b.alloc o).2.heap p = b.heap p := Function.update_of_ne hp ..

/-- A call makes at most its own order live, in its book. -/
theorem Added.live_cases (h : Added env o b out sv sv') (hx : sv'.orderbooks.find? name = some x)
    (hq : x.getOrder id = some q) :
    (∃ y, sv.orderbooks.find? name = some y ∧ y.getOrder id = some q) ∨
      id = o.id ∧ name = o.symbol ∧ q = b.nextPtr ∧ out.accepted = true := by
  rw [h.find?] at hx
  split_ifs at hx with hn
  · cases hx
    rcases h.call.index h.invAlloc hq with hold | ⟨rfl, hid, hacc⟩
    · exact .inl ⟨b, by rw [hn]; exact h.book, hold⟩
    · rw [alloc_heap_self] at hid
      exact .inr ⟨hid.symm, hn, rfl, hacc⟩
  · exact .inl ⟨x, hx, hq⟩

theorem Added.live (h : Added env o b out sv sv') (hl : sv'.Live id) : sv.Live id ∨ id = o.id := by
  obtain ⟨name, x, q, hx, hq⟩ := hl
  rcases h.live_cases hx hq with ⟨y, hy, hyq⟩ | ⟨h1, -⟩
  · exact .inl ⟨name, y, q, hy, hyq⟩
  · exact .inr h1

/-- A cancel takes its order out of the book, and nothing else. -/
theorem Cancelled.live_iff (h : Cancelled env symbol id b p b' sv sv') {i : String} :
    (∃ x, sv'.orderbooks.find? name = some x ∧ x.getOrder i = some q) ↔
      (∃ y, sv.orderbooks.find? name = some y ∧ y.getOrder i = some q) ∧ ¬ (name = symbol ∧ i = id) := by
  rw [h.find?]
  by_cases hn : name = symbol
  · subst hn
    rw [if_pos rfl, h.book]
    simp only [Option.some.injEq, exists_eq_left']
    unfold getOrder
    rw [h.cancel.index, SortedMap.find?_erase]
    split_ifs with hi
    · simp [hi]
    · simp [hi]
  · simp [hn]

theorem Cancelled.live (h : Cancelled env symbol id b p b' sv sv') {i : String} (hl : sv'.Live i) : sv.Live i := by
  obtain ⟨name, x, q, hx, hq⟩ := hl
  obtain ⟨⟨y, hy, hyq⟩, -⟩ := h.live_iff.1 ⟨x, hx, hq⟩
  exact ⟨name, y, q, hy, hyq⟩

/-- An object of a book is a live order of the server. -/
theorem live_of_held (hb : sv.orderbooks.find? symbol = some b) (hI : Inv [] b) (hp : b.Held p) : sv.Live (b.heap p).id :=
  ⟨symbol, b, p, hb, hI.index.2 ⟨rfl, .inl hp⟩⟩

end Calls

/-! ## The effects keep it -/

/-- Rows are rewritten in place, under their ids. -/
theorem Dispatched.row_ids {env : Env} {heap : OrderPtr → Order ℚ} {cbs : List (Callback ℚ)} {sv sv' : Server}
    (h : Dispatched env heap cbs sv sv') : sv'.disk.orders.map (·.id) = sv.disk.orders.map (·.id) := by
  obtain ⟨f, hf, hf', -⟩ := h.rows
  rw [hf, List.map_map]
  refine List.map_congr_left fun r _ => ?_
  rcases hf' r with heq | ⟨p, -, -, heq⟩ <;> rw [Function.comp_apply, heq]
  rfl

namespace IdInv

variable {env : Env} {sv sv' : Server}

theorem row_of_ids (hr : sv'.disk.orders.map (·.id) = sv.disk.orders.map (·.id)) {r : OrderRow}
    (h : r ∈ sv'.disk.orders) : ∃ r' ∈ sv.disk.orders, r'.id = r.id :=
  List.mem_map.1 (hr ▸ List.mem_map_of_mem h)

/-- A step that submits nothing and connects nobody. Only in the book `n` can an order become live, and
then one that was known, not live and not waiting to be added. -/
theorem step (h : IdInv sv) (n : String) (hu : sv.uuids ⊆ sv'.uuids)
    (hd : ∀ u ∈ sv'.uuids, u ∈ sv.uuids ∨ ∃ d, u = generateUuid d)
    (hl : ∀ {name x id q}, sv'.orderbooks.find? name = some x → x.getOrder id = some q →
      (∃ y, sv.orderbooks.find? name = some y ∧ y.getOrder id = some q) ∨
        id ∈ sv.uuids ∧ ¬ sv.Live id ∧ name = n ∧ ∀ o ∈ sv'.posted, o.id ≠ id)
    (hr : sv'.disk.orders.map (·.id) = sv.disk.orders.map (·.id)) (hp : sv'.posted.Sublist sv.posted)
    (hs : sv'.submissions = sv.submissions)
    (ht : ∀ t ∈ sv'.trades, t ∈ sv.trades ∨ t.buyOrderId ∈ sv.uuids ∧ t.sellOrderId ∈ sv.uuids)
    (hc : ∀ s, sv'.clientId s = sv.clientId s) (hn : sv'.nextSession = sv.nextSession)
    (ho : sv'.firstSession ≤ sv'.nextSession)
    (hse : ∀ {c s}, sv'.sessions.find? c = some s → sv.sessions.find? c = some s ∧ sv'.firstSession = sv.firstSession) :
    IdInv sv' where
  drawn u hm := (hd u hm).elim (h.drawn u) id
  live hm := by
    obtain ⟨name, x, q, hx, hq⟩ := hm
    rcases hl hx hq with ⟨y, hy, hyq⟩ | ⟨hk, -⟩
    · exact hu (h.live ⟨name, y, q, hy, hyq⟩)
    · exact hu hk
  oneBook hx hq hx' hq' := by
    rcases hl hx hq with ⟨y, hy, hyq⟩ | ⟨-, hno, h1, -⟩
    · rcases hl hx' hq' with ⟨z, hz, hzq⟩ | ⟨-, hno, -⟩
      · exact h.oneBook hy hyq hz hzq
      · exact absurd ⟨_, y, _, hy, hyq⟩ hno
    · rcases hl hx' hq' with ⟨z, hz, hzq⟩ | ⟨-, -, h2, -⟩
      · exact absurd ⟨_, z, _, hz, hzq⟩ hno
      · rw [h1, h2]
  rows r hm := by
    obtain ⟨r', hr', he⟩ := row_of_ids hr hm
    rw [← he]; exact hu (h.rows r' hr')
  rowsNodup := hr ▸ h.rowsNodup
  posted o hm := by
    obtain ⟨h1, h2⟩ := h.posted o (hp.subset hm)
    refine ⟨hu h1, fun hlive => ?_⟩
    obtain ⟨name, x, q, hx, hq⟩ := hlive
    rcases hl hx hq with ⟨y, hy, hyq⟩ | ⟨-, -, -, hno⟩
    · exact h2 ⟨name, y, q, hy, hyq⟩
    · exact hno o hm rfl
  postedNodup := h.postedNodup.sublist (hp.map _)
  postedRow o hm r hr' := by
    obtain ⟨r', h1, h2⟩ := row_of_ids hr hr'
    rw [← h2]; exact h.postedRow o (hp.subset hm) r' h1
  postedSubmission o hm x hx := h.postedSubmission o (hp.subset hm) x (hs ▸ hx)
  submission x hx := by
    obtain ⟨h1, h2⟩ := h.submission x (hs ▸ hx)
    exact ⟨hu h1, hn ▸ h2⟩
  submissionInj x hx y hy := h.submissionInj x (hs ▸ hx) y (hs ▸ hy)
  trade t hm := (ht t hm).elim (fun hm => ⟨hu (h.trade t hm).1, hu (h.trade t hm).2⟩) fun hm => ⟨hu hm.1, hu hm.2⟩
  client s hs' := by rw [hc]; exact hu (h.client s (hn ▸ hs'))
  clientInj s h1 t h2 he := h.clientInj s (hn ▸ h1) t (hn ▸ h2) (by rw [hc, hc] at he; exact he)
  order := ho
  sessions hm := by
    obtain ⟨h1, h2⟩ := hse hm
    obtain ⟨h3, h4, h5⟩ := h.sessions h1
    exact ⟨h2 ▸ h3, hn ▸ h4, by rw [hc]; exact h5⟩

theorem quiet (h : IdInv sv) (hq : Quiet sv sv') : IdInv sv' :=
  h.step "" hq.uuids.subset hq.drawn (fun hx hp => .inl ⟨_, hq.orderbooks ▸ hx, hp⟩) (by rw [hq.orders])
    (hq.posted ▸ List.Sublist.refl _) hq.submissions (fun t ht => .inl (hq.trades ▸ ht)) hq.clientId hq.nextSession
    (by rw [hq.firstSession, hq.nextSession]; exact h.order) fun hc => ⟨hq.sessions ▸ hc, hq.firstSession⟩

theorem cancelled {symbol id : String} {b b' : OrderBook ℚ} {p : OrderPtr} (h : IdInv sv)
    (hc : Cancelled env symbol id b p b' sv sv') : IdInv sv' := by
  have hd := hc.dispatched
  refine h.step "" (hd.uuids ▸ List.Subset.refl _) (fun u hu => .inl (hd.uuids ▸ hu)) (fun {name x i q} hx hq => .inl ?_)
    hd.row_ids (hd.posted ▸ List.Sublist.refl _) hd.submissions (fun t ht => .inl ?_) (fun s => ?_) hd.nextSession
    (by rw [hd.firstSession, hd.nextSession]; exact h.order) fun hm => ⟨hd.sessions ▸ hm, hd.firstSession⟩
  · exact (hc.live_iff.1 ⟨x, hx, hq⟩).1
  · rw [hd.trades] at ht
    simp only [List.filterMap_cons, List.filterMap_nil, List.append_nil] at ht
    exact ht
  · unfold clientId; rw [hd.sessionAt]; rfl

/-- A drawn id is stored as it is. -/
theorem cStr_eq (h : IdInv sv) {u : String} (hu : u ∈ sv.uuids) : cStr u = u := by
  obtain ⟨d, rfl⟩ := h.drawn u hu
  exact cStr_generateUuid d

/-- The objects a call is about: its own order, and orders that were live before it. -/
theorem known {o : Order ℚ} {b : OrderBook ℚ} {out : AddOutcome ℚ} (h : IdInv sv) (ha : Added env o b out sv sv')
    (ho : o.id ∈ sv.uuids) {p : OrderPtr} (hp : (b.alloc o).2.Held p ∨ p = b.nextPtr) :
    ((b.alloc o).2.heap p).id ∈ sv.uuids := by
  by_cases he : p = b.nextPtr
  · rw [he, alloc_heap_self]; exact ho
  · rw [alloc_heap_of_ne he]
    exact h.live (live_of_held ha.book ha.inv (hp.resolve_right he))

theorem added {o : Order ℚ} {b : OrderBook ℚ} {out : AddOutcome ℚ} (h : IdInv sv) (ha : Added env o b out sv sv')
    (hk : o.id ∈ sv.uuids) (hl : ¬ sv.Live o.id) (hp : ∀ q ∈ sv.posted, q.id ≠ o.id) : IdInv sv' := by
  have hd := ha.dispatched
  refine h.step o.symbol (hd.uuids ▸ List.Subset.refl _) (fun u hu => .inl (hd.uuids ▸ hu)) (fun {name x i q} hx hq => ?_)
    hd.row_ids (hd.posted ▸ List.Sublist.refl _) hd.submissions (fun t ht => ?_) (fun s => ?_) hd.nextSession
    (by rw [hd.firstSession, hd.nextSession]; exact h.order) fun hm => ⟨hd.sessions ▸ hm, hd.firstSession⟩
  · rcases ha.live_cases hx hq with hold | ⟨hi, hn, -⟩
    · exact .inl hold
    · rw [hi]
      exact .inr ⟨hk, hl, hn, fun q hq => hp q (by rw [hd.posted] at hq; exact hq)⟩
  · rw [hd.trades] at ht
    rcases List.mem_append.1 ht with ht | ht
    · exact .inl ht
    · obtain ⟨c, hc, hct⟩ := List.mem_filterMap.1 ht
      cases c with
      | order p => cases hct
      | trade t' =>
        cases hct
        obtain ⟨-, ⟨p, hp⟩, ⟨q, hq⟩⟩ := ha.call.trades t hc
        exact .inr ⟨by rw [← hp.id]; exact h.known ha hk hp.known, by rw [← hq.id]; exact h.known ha hk hq.known⟩
  · unfold clientId; rw [hd.sessionAt]; rfl

/-! ### New ids -/

theorem connected (h : IdInv sv) (hnd : (sv.acceptConnection env).uuids.Nodup) : IdInv (sv.acceptConnection env) := by
  have hnew : generateUuid env.uuid ∉ sv.uuids := fun hm =>
    (List.nodup_append.1 hnd).2.2 _ hm _ (List.mem_singleton.2 rfl) rfl
  have hcl : ∀ s, (sv.acceptConnection env).clientId s = if s = sv.nextSession then generateUuid env.uuid else sv.clientId s := by
    intro s
    show (Function.update sv.sessionAt sv.nextSession _ s).clientId = _
    split_ifs with hs
    · rw [hs, Function.update_self]; rfl
    · rw [Function.update_of_ne hs]; rfl
  have hold : ∀ s < sv.nextSession, (sv.acceptConnection env).clientId s = sv.clientId s := fun s hs => by
    rw [hcl, if_neg (Nat.ne_of_lt hs)]
  have hlt : ∀ {s}, s < sv.nextSession + 1 → s ≠ sv.nextSession → s < sv.nextSession := fun h1 h2 =>
    Nat.lt_of_le_of_ne (Nat.le_of_lt_succ h1) h2
  refine ⟨fun u hu => ?_, fun hl => List.mem_append_left _ (h.live hl), h.oneBook,
    fun r hr => List.mem_append_left _ (h.rows r hr), h.rowsNodup,
    fun o ho => ⟨List.mem_append_left _ (h.posted o ho).1, (h.posted o ho).2⟩, h.postedNodup, h.postedRow, h.postedSubmission,
    fun x hx => ⟨List.mem_append_left _ (h.submission x hx).1, Nat.lt_succ_of_lt (h.submission x hx).2⟩, h.submissionInj,
    fun t ht => ⟨List.mem_append_left _ (h.trade t ht).1, List.mem_append_left _ (h.trade t ht).2⟩, fun s hs => ?_,
    fun s hs t ht he => ?_, Nat.le_succ_of_le h.order, fun {c s} hc => ?_⟩
  · rcases List.mem_append.1 hu with hu | hu
    · exact h.drawn u hu
    · exact ⟨env.uuid, List.mem_singleton.1 hu⟩
  · rw [hcl]
    split_ifs with he
    · exact List.mem_append_right _ (List.mem_singleton.2 rfl)
    · exact List.mem_append_left _ (h.client s (hlt hs he))
  · rw [hcl, hcl] at he
    split_ifs at he with h1 h2 h2
    · rw [h1, h2]
    · exact absurd (he ▸ h.client t (hlt ht h2)) hnew
    · exact absurd (he ▸ h.client s (hlt hs h1)) hnew
    · exact h.clientInj s (hlt hs h1) t (hlt ht h2) he
  · have hf : (sv.sessions.insert (generateUuid env.uuid) sv.nextSession).find? c = some s := hc
    rw [SortedMap.find?_insert] at hf
    split_ifs at hf with he
    · cases hf
      refine ⟨?_, Nat.lt_succ_self _, by rw [hcl, if_pos rfl, he]⟩
      show sv.firstSession ≤ sv.nextSession
      exact h.order
    · obtain ⟨h1, h2, h3⟩ := h.sessions hf
      exact ⟨h1, Nat.lt_succ_of_lt h2, by rw [hold s h2]; exact h3⟩

/-- An order persisted under a new id. -/
theorem saved (h : IdInv sv) {s : SessionPtr} (hs : s < sv.nextSession) (m : OrderSubmitMessage) (tickSize : ℚ)
    (hnew : generateUuid env.uuid ∉ sv.uuids) :
    IdInv (sv.saveSubmission env ⟨generateUuid env.uuid, s, m, tickSize⟩ (submittedOrder env m tickSize)) := by
  obtain ⟨disk, n, heq, hd⟩ := saveSubmission_eq sv env ⟨generateUuid env.uuid, s, m, tickSize⟩
    (submittedOrder env m tickSize)
  rw [heq]
  have hself : generateUuid env.uuid ∈ sv.uuids ++ [generateUuid env.uuid] :=
    List.mem_append_right _ (List.mem_singleton.2 rfl)
  have hid : (submittedOrder env m tickSize).id = generateUuid env.uuid := rfl
  -- the table holds the old rows, and at most the new one
  have hrows : ∀ r ∈ disk.orders, r ∈ sv.disk.orders ∨ r.id = generateUuid env.uuid := fun r hr => by
    rcases hd with ⟨hd, -⟩ | ⟨-, hd⟩
    · exact .inl (hd ▸ hr)
    · rw [hd] at hr
      rcases List.mem_append.1 hr with hr | hr
      · exact .inl (List.mem_of_mem_filter hr)
      · rw [List.mem_singleton.1 hr]
        refine .inr ?_
        show cStr _ = _
        rw [hid, cStr_generateUuid]
  refine ⟨fun u hu => ?_, fun hl => List.mem_append_left _ (h.live hl), h.oneBook, fun r hr => ?_, ?_,
    fun o ho => ⟨List.mem_append_left _ (h.posted o ho).1, (h.posted o ho).2⟩, h.postedNodup, fun o ho r hr => ?_,
    fun o ho x hx => ?_, fun x hx => ?_, fun x hx y hy he => ?_,
    fun t ht => ⟨List.mem_append_left _ (h.trade t ht).1, List.mem_append_left _ (h.trade t ht).2⟩,
    fun s hs => List.mem_append_left _ (h.client s hs), h.clientInj, h.order, h.sessions⟩
  · rcases List.mem_append.1 hu with hu | hu
    · exact h.drawn u hu
    · exact ⟨env.uuid, List.mem_singleton.1 hu⟩
  · rcases hrows r hr with hr | hr
    · exact List.mem_append_left _ (h.rows r hr)
    · rw [hr]; exact hself
  · rcases hd with ⟨hd, -⟩ | ⟨-, hd⟩
    · show (disk.orders.map _).Nodup
      rw [hd]; exact h.rowsNodup
    · show (disk.orders.map _).Nodup
      rw [hd, List.map_append, List.nodup_append]
      refine ⟨h.rowsNodup.sublist (List.filter_sublist.map _), List.nodup_singleton _, ?_⟩
      rintro i hi j hj rfl
      obtain ⟨r, hr, rfl⟩ := List.mem_map.1 hi
      have hne := (List.mem_filter.1 hr).2
      rw [List.map_singleton, List.mem_singleton] at hj
      simp only [decide_eq_true_eq] at hne
      exact hne hj
  · rcases hrows r hr with hr | hr
    · exact h.postedRow o ho r hr
    · intro he
      rw [hr] at he
      exact hnew (he ▸ (h.posted o ho).1)
  · rcases List.mem_append.1 hx with hx | hx
    · exact h.postedSubmission o ho x hx
    · rw [List.mem_singleton.1 hx]
      intro he
      have he : generateUuid env.uuid = o.id := he
      exact hnew (he ▸ (h.posted o ho).1)
  · rcases List.mem_append.1 hx with hx | hx
    · exact ⟨List.mem_append_left _ (h.submission x hx).1, (h.submission x hx).2⟩
    · rw [List.mem_singleton.1 hx]; exact ⟨hself, hs⟩
  · rcases List.mem_append.1 hx with hx | hx <;> rcases List.mem_append.1 hy with hy | hy
    · exact h.submissionInj x hx y hy he
    · rw [List.mem_singleton.1 hy] at he
      have he : x.orderId = generateUuid env.uuid := he
      exact absurd (he ▸ (h.submission x hx).1) hnew
    · rw [List.mem_singleton.1 hx] at he
      have he : generateUuid env.uuid = y.orderId := he
      exact absurd (he ▸ (h.submission y hy).1) hnew
    · rw [List.mem_singleton.1 hx, List.mem_singleton.1 hy]

theorem generated (h : IdInv sv) (d : GeneratorDraws) {g : Generator} (hg : sv.generator = some g)
    (hnew : generateUuid env.uuid ∉ sv.uuids) : IdInv (sv.generate env d) := by
  unfold generate
  rw [hg]
  have hself : generateUuid env.uuid ∈ sv.uuids ++ [generateUuid env.uuid] :=
    List.mem_append_right _ (List.mem_singleton.2 rfl)
  have hcases : ∀ {Q : Order ℚ → Prop}, (∀ o ∈ sv.posted, Q o) → Q (g.generateOrder d (generateUuid env.uuid) env.now) →
      ∀ o ∈ sv.posted ++ [g.generateOrder d (generateUuid env.uuid) env.now], Q o := by
    intro Q h1 h2 o ho
    rcases List.mem_append.1 ho with ho | ho
    · exact h1 o ho
    · rw [List.mem_singleton.1 ho]; exact h2
  refine ⟨fun u hu => ?_, fun hl => List.mem_append_left _ (h.live hl), h.oneBook,
    fun r hr => List.mem_append_left _ (h.rows r hr), h.rowsNodup,
    hcases (fun o ho => ⟨List.mem_append_left _ (h.posted o ho).1, (h.posted o ho).2⟩) ⟨hself, fun hl => hnew (h.live hl)⟩,
    ?_, hcases h.postedRow fun r hr he => hnew ((show r.id = generateUuid env.uuid from he) ▸ h.rows r hr),
    hcases h.postedSubmission fun x hx he =>
      hnew ((show x.orderId = generateUuid env.uuid from he) ▸ (h.submission x hx).1),
    fun x hx => ⟨List.mem_append_left _ (h.submission x hx).1, (h.submission x hx).2⟩, h.submissionInj,
    fun t ht => ⟨List.mem_append_left _ (h.trade t ht).1, List.mem_append_left _ (h.trade t ht).2⟩,
    fun s hs => List.mem_append_left _ (h.client s hs), h.clientInj, h.order, h.sessions⟩
  · rcases List.mem_append.1 hu with hu | hu
    · exact h.drawn u hu
    · exact ⟨env.uuid, List.mem_singleton.1 hu⟩
  · show ((sv.posted ++ [_]).map _).Nodup
    rw [List.map_append, List.nodup_append]
    refine ⟨h.postedNodup, List.nodup_singleton _, ?_⟩
    rintro i hi j hj rfl
    obtain ⟨o, ho, rfl⟩ := List.mem_map.1 hi
    rw [List.map_singleton, List.mem_singleton] at hj
    exact hnew ((show o.id = generateUuid env.uuid from hj) ▸ (h.posted o ho).1)

end IdInv

/-! ## Restoring -/

theorem mem_activeRows {db : Db} {r : OrderRow} : r ∈ db.activeRows ↔ r ∈ db.orders ∧ Db.isActive r = true := by
  unfold Db.activeRows
  rw [List.mem_insertionSort, List.mem_filter]

/-- The restore loop before the given rows: their orders are not live yet, and nobody is connected. -/
structure Restoring (l : List OrderRow) (sv : Server) : Prop extends IdInv sv where
  todo : ∀ r ∈ l, r.id ∈ sv.uuids ∧ ¬ sv.Live r.id
  todoNodup : (l.map (·.id)).Nodup
  noPosted : sv.posted = []
  noOwner : ∀ id, sv.orderOwners.find? id = none
  noSession : ∀ c, sv.sessions.find? c = none

theorem Booted.not_live {env : Env} {sv sv' : Server} (h : Booted env sv sv') (id : String) : ¬ sv'.Live id := by
  rintro ⟨symbol, b, p, hb, hp⟩
  rw [h.orderbooks] at hb
  split_ifs at hb
  cases hb
  cases hp

theorem IdInv.booted {env : Env} {sv sv' : Server} (h : IdInv sv) (hb : Booted env sv sv') :
    Restoring (if sv'.storeOpen then sv'.disk.activeRows else []) sv' := by
  have hid : IdInv sv' := by
    refine h.step "" (hb.uuids ▸ List.Subset.refl _) (fun u hu => .inl (hb.uuids ▸ hu))
      (fun hx hq => absurd ⟨_, _, _, hx, hq⟩ (hb.not_live _)) (by rw [hb.orders]) ?_ hb.submissions
      (fun t ht => .inl (hb.trades ▸ ht)) hb.clientId hb.nextSession ?_ fun hc => ?_
    · rw [hb.posted]; exact List.nil_sublist _
    · rw [hb.firstSession, hb.nextSession]
    · rw [hb.sessions] at hc; cases hc
  refine ⟨hid, fun r hr => ?_, ?_, hb.posted, fun id => by rw [hb.orderOwners]; rfl, fun c => by rw [hb.sessions]; rfl⟩
  · refine ⟨?_, hb.not_live r.id⟩
    split_ifs at hr
    · exact hid.rows r (mem_activeRows.1 hr).1
    · cases hr
  · split_ifs
    · unfold Db.activeRows
      refine (((List.perm_insertionSort _ _).map _).nodup_iff).2 (hid.rowsNodup.sublist (List.filter_sublist.map _))
    · exact .nil

namespace Restoring

variable {env : Env} {r : OrderRow} {rows : List OrderRow} {sv sv' : Server}

theorem skip (h : Restoring (r :: rows) sv) : Restoring rows sv :=
  ⟨h.toIdInv, fun x hx => h.todo x (List.mem_cons_of_mem _ hx), (List.nodup_cons.1 h.todoNodup).2, h.noPosted, h.noOwner,
    h.noSession⟩

theorem add {b : OrderBook ℚ} {out : AddOutcome ℚ} (h : Restoring (r :: rows) sv)
    (ha : Added env (Db.restoreOrder env.now r) b out sv sv') : Restoring rows sv' := by
  obtain ⟨hk, hl⟩ := h.todo r (List.mem_cons_self ..)
  have hd := ha.dispatched
  have hid := restoreOrder_id env.now r
  refine ⟨h.toIdInv.added ha (hid ▸ hk) (hid ▸ hl) (by rw [h.noPosted]; exact fun _ hq => (by cases hq)), fun x hx => ?_,
    (List.nodup_cons.1 h.todoNodup).2, by rw [hd.posted]; exact h.noPosted, fun id => ?_, fun c => by rw [hd.sessions]; exact h.noSession c⟩
  · obtain ⟨h1, h2⟩ := h.todo x (List.mem_cons_of_mem _ hx)
    refine ⟨by rw [hd.uuids]; exact h1, fun hlive => ?_⟩
    rcases ha.live hlive with hlive | he
    · exact h2 hlive
    · rw [hid] at he
      exact (List.nodup_cons.1 h.todoNodup).1 (List.mem_map.2 ⟨x, hx, he⟩)
  · cases ho : sv'.orderOwners.find? id with
    | none => rfl
    | some c =>
      have := hd.owner_of ho
      rw [show (sv.setBook _ _).orderOwners.find? id = none from h.noOwner id] at this
      cases this

end Restoring

theorem Restored.restoring {env : Env} {rows : List OrderRow} {sv sv' : Server} (h : Restored env rows sv sv')
    (hR : Restoring rows sv) : Restoring [] sv' := by
  induction h with
  | nil => exact hR
  | skip _ _ ih => exact ih hR.skip
  | add ha _ ih => exact ih (hR.add ha)

/-! ## Whole histories -/

/-- The ids drawn so far stay drawn. -/
theorem Effect.uuids {env : Env} {ev : Event} {sv sv' : Server} (h : Effect env ev sv sv') : sv.uuids <+: sv'.uuids := by
  cases h with
  | quiet h => exact h.uuids
  | connected => exact List.prefix_append ..
  | closed _ => exact List.prefix_refl _
  | created h₁ _ h₂ => exact h₁.uuids.trans h₂.uuids
  | ticked _ => exact List.prefix_refl _
  | submitted _ _ h₁ ha =>
    obtain ⟨disk, n, heq, -⟩ := saveSubmission_eq _ env _ _
    rw [heq] at ha
    have : sv.uuids <+: _ := h₁.uuids.trans (List.prefix_append _ [generateUuid env.uuid])
    exact ha.dispatched.uuids.symm ▸ this
  | cancelled _ h₁ _ hc => exact hc.dispatched.uuids.symm ▸ h₁.uuids
  | reported _ h₁ _ _ _ => exact h₁.uuids
  | generated hg => unfold generate; rw [hg]; exact List.prefix_append ..
  | dropped _ => exact List.prefix_refl _
  | posted _ ha => rw [ha.dispatched.uuids]; exact List.prefix_refl _
  | generatorCancelled h₁ hc => exact hc.dispatched.uuids.symm ▸ h₁.uuids
  | restarted hb hr hq =>
    have hrestored := hr.rule (K := fun x => x.uuids = sv.uuids) hb.uuids fun ha h => ha.dispatched.uuids.trans h
    exact hrestored ▸ hq.uuids

theorem not_mem_of_append {u : String} {l : List String} (h : (l ++ [u]).Nodup) : u ∉ l := fun hm =>
  (List.nodup_append.1 h).2.2 u hm u (List.mem_singleton.2 rfl) rfl

section Submitted

variable {env : Env} {sv sv' : Server} {s : SessionPtr} {m : OrderSubmitMessage} {b : OrderBook ℚ} {out : AddOutcome ℚ}

/-- The id of a submission is new when no id repeats. -/
theorem submitted_new (ha : Added env (submittedOrder env m b.tickSize) b out
      (sv.saveSubmission env ⟨generateUuid env.uuid, s, m, b.tickSize⟩ (submittedOrder env m b.tickSize)) sv')
    (hnd : sv'.uuids.Nodup) : generateUuid env.uuid ∉ sv.uuids := by
  obtain ⟨disk, n, heq, -⟩ := saveSubmission_eq sv env ⟨generateUuid env.uuid, s, m, b.tickSize⟩
    (submittedOrder env m b.tickSize)
  rw [heq] at ha
  rw [ha.dispatched.uuids] at hnd
  exact not_mem_of_append hnd

theorem saveSubmission_live {x : Submission} {o : Order ℚ} {id : String} :
    (sv.saveSubmission env x o).Live id ↔ sv.Live id := by
  unfold Live
  rw [saveSubmission_orderbooks]

theorem IdInv.submitted (h : IdInv sv) (hs : s < sv.nextSession)
    (ha : Added env (submittedOrder env m b.tickSize) b out
      (sv.saveSubmission env ⟨generateUuid env.uuid, s, m, b.tickSize⟩ (submittedOrder env m b.tickSize)) sv')
    (hnd : sv'.uuids.Nodup) : IdInv sv' := by
  have hnew := submitted_new ha hnd
  refine (h.saved hs m b.tickSize hnew).added ha (mem_saveSubmission ..).1
    (fun hl => hnew (h.live (saveSubmission_live.1 hl))) fun q hq he => ?_
  · obtain ⟨disk, n, heq, -⟩ := saveSubmission_eq sv env ⟨generateUuid env.uuid, s, m, b.tickSize⟩
      (submittedOrder env m b.tickSize)
    rw [heq] at hq
    have he : q.id = generateUuid env.uuid := he
    exact hnew (he ▸ (h.posted q hq).1)

end Submitted

theorem hasSession_lt {sv : Server} {s : SessionPtr} (h : sv.hasSession s = true) : s < sv.nextSession := by
  unfold hasSession at h
  simp only [Bool.and_eq_true, decide_eq_true_eq] at h
  exact h.2

theorem setTickSize_getOrder (b : OrderBook ℚ) (tickSize : ℚ) (id : String) :
    (b.setTickSize tickSize).getOrder id = b.getOrder id := by
  unfold OrderBook.setTickSize
  split_ifs <;> rfl

theorem setTickSize_heap (b : OrderBook ℚ) (tickSize : ℚ) : (b.setTickSize tickSize).heap = b.heap := by
  unfold OrderBook.setTickSize
  split_ifs <;> rfl

/-- Sending status messages and recording owners changes no identity. -/
theorem IdInv.acknowledge {sv : Server} (h : IdInv sv) (s : SessionPtr) (o : Order ℚ) : IdInv (sv.acknowledge s o) :=
  ⟨h.drawn, h.live, h.oneBook, h.rows, h.rowsNodup, h.posted, h.postedNodup, h.postedRow, h.postedSubmission, h.submission,
    h.submissionInj, h.trade, h.client, h.clientInj, h.order, h.sessions⟩

theorem IdInv.sendMessage {sv : Server} (h : IdInv sv) (s : SessionPtr) (r : Response) : IdInv (sv.sendMessage s r) :=
  ⟨h.drawn, h.live, h.oneBook, h.rows, h.rowsNodup, h.posted, h.postedNodup, h.postedRow, h.postedSubmission, h.submission,
    h.submissionInj, h.trade, h.client, h.clientInj, h.order, h.sessions⟩

theorem IdInv.popPosted {sv : Server} {o : Order ℚ} {rest : List (Order ℚ)} (h : IdInv sv) (hp : sv.posted = o :: rest) :
    IdInv { sv with posted := rest } :=
  h.step "" (List.Subset.refl _) (fun _ hu => .inl hu) (fun hx hq => .inl ⟨_, hx, hq⟩) rfl
    (by rw [hp]; exact List.sublist_cons_self ..) rfl (fun _ ht => .inl ht) (fun _ => rfl) rfl h.order fun hc => ⟨hc, rfl⟩

theorem IdInv.setBook {sv : Server} {symbol : String} {b : OrderBook ℚ} (h : IdInv sv)
    (hb : ∀ {id p}, b.getOrder id = some p → ∃ y, sv.orderbooks.find? symbol = some y ∧ y.getOrder id = some p) :
    IdInv (sv.setBook symbol b) := by
  refine h.step "" (List.Subset.refl _) (fun _ hu => .inl hu) (fun {name x id q} hx hq => .inl ?_) rfl (List.Sublist.refl _)
    rfl (fun _ ht => .inl ht) (fun _ => rfl) rfl h.order fun hc => ⟨hc, rfl⟩
  rw [setBook_find?] at hx
  split_ifs at hx with hn
  · cases hx
    rw [hn]; exact hb hq
  · exact ⟨x, hx, hq⟩

theorem IdInv.closed {sv : Server} (h : IdInv sv) (s : SessionPtr) :
    IdInv ((sv.setSession s { sv.sessionAt s with connected := false }).removeSession s) := by
  refine h.step "" (List.Subset.refl _) (fun _ hu => .inl hu) (fun hx hq => .inl ⟨_, hx, hq⟩) rfl (List.Sublist.refl _) rfl
    (fun _ ht => .inl ht) (Quiet.setSession sv s { sv.sessionAt s with connected := false } rfl).clientId rfl h.order
    fun {c t} hc => ⟨?_, rfl⟩
  have hf : (sv.sessions.erase _).find? c = some t := hc
  rw [SortedMap.find?_erase] at hf
  split_ifs at hf
  exact hf

theorem Effect.idInv {env : Env} {ev : Event} {sv sv' : Server} (he : Effect env ev sv sv') (h : IdInv sv)
    (hnd : sv'.uuids.Nodup) : IdInv sv' := by
  cases he with
  | quiet hq => exact h.quiet hq
  | connected => exact h.connected hnd
  | closed _ => exact h.closed _
  | created h₁ _ h₂ => exact ((h.quiet h₁).setBook fun hp => by cases hp).quiet h₂
  | ticked hb => exact h.setBook fun hp => ⟨_, hb, by rw [setTickSize_getOrder] at hp; exact hp⟩
  | submitted hs _ h₁ ha =>
    exact ((h.quiet h₁).submitted (by rw [h₁.nextSession]; exact hasSession_lt hs) ha hnd).acknowledge _ _
  | cancelled _ h₁ _ hc => exact (h.quiet h₁).cancelled hc
  | reported _ h₁ _ _ _ => exact (h.quiet h₁).sendMessage _ _
  | generated hg =>
    refine h.generated _ hg ?_
    unfold generate at hnd
    rw [hg] at hnd
    exact not_mem_of_append hnd
  | dropped hp => exact h.popPosted hp
  | @posted _ _ o rest b out hp ha =>
    have hmem : o ∈ sv.posted := by rw [hp]; exact List.mem_cons_self ..
    refine (h.popPosted hp).added ha (h.posted o hmem).1 (h.posted o hmem).2 fun q hq he => ?_
    have hn := h.postedNodup
    rw [hp, List.map_cons, List.nodup_cons] at hn
    exact hn.1 (List.mem_map.2 ⟨q, hq, he⟩)
  | generatorCancelled h₁ hc => exact (h.quiet h₁).cancelled hc
  | restarted hb hr hq => exact (hr.restoring (h.booted hb)).toIdInv.quiet hq

/-! ## Sample environments -/

/-- An environment in which the id and the clock are given by a number, and all writes succeed. -/
def sampleEnv (opens : Bool) (n : Nat) : Env :=
  { uuid := ⟨fun _ => Fin.ofNat 16 n, 0⟩, now := n * 10 ^ 9, salts := fun _ _ => 0, writeOk := fun _ => true, opens := (opens, opens) }

/-- A server with one book, without logins and without the generator. -/
def sampleConfig : Config := ⟨["SYM"], false, false, by decide⟩

def sampleSubmit (side : OrderSide) (orderType : OrderType) (price stopPrice : ℚ) (quantity : UInt32) : Request :=
  .orderSubmit ⟨"", "SYM", side, orderType, price, stopPrice, quantity⟩

end Server

end OrderbookGC
