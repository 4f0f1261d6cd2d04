/-
What a restart can bring back. The store learns of an order only when the order is announced, so an
order that a call changes without announcing it comes back from a row that is out of date: a stop order
that was triggered and cancelled is pending again. When every call of a history announces what it
changes, no order that was finished is ever live again, and no stop order that was triggered is back in
a stop map (`run_no_resurrection`).
-/
import OrderbookGC.Server.Milestone

namespace OrderbookGC

open Container OrderBook MatchState

/-- The store opens and every write succeeds. -/
structure Env.Persists (env : Env) : Prop where
  opens : (env.opens.1 || env.opens.2) = true
  writes : ∀ n, env.writeOk n = true

namespace Server

variable {Q : Order ℚ → Prop} {R : OrderRow → Prop}

/-! ## The rows -/

/-- All rows of the order table can be restored. -/
def Restorable (sv : Server) : Prop := ∀ r ∈ sv.disk.orders, r.Restorable

theorem update_restorable {o : Order ℚ} (h : o.Live ∨ o.Finished) (r : OrderRow) : (Db.OrderRow.update r o).Restorable := by
  intro ha h0
  rcases h with h | h
  · refine absurd ?_ (UInt32.pos_iff_ne_zero.1 h.remaining)
    rw [← columnInt_bindInt o.remainingQuantity]
    exact h0
  · unfold Db.isActive Db.OrderRow.update at ha
    rcases h with h | h <;> simp [h] at ha

theorem Restorable.dispatched {env : Env} {heap : OrderPtr → Order ℚ} {cbs : List (Callback ℚ)} {sv sv₀ sv' : Server}
    (h : sv.Restorable) (hd : Dispatched env heap cbs sv₀ sv') (hs : sv₀.disk.orders = sv.disk.orders)
    (ho : ∀ p, .order p ∈ cbs → (heap p).Live ∨ (heap p).Finished) : sv'.Restorable := by
  intro r hr
  obtain ⟨f, hf, hf', -⟩ := hd.rows
  rw [hf, hs] at hr
  obtain ⟨r₀, hr₀, rfl⟩ := List.mem_map.1 hr
  rcases hf' r₀ with heq | ⟨p, hp, -, heq⟩
  · rw [heq]; exact h r₀ hr₀
  · rw [heq]; exact update_restorable (ho p hp) r₀

theorem Restorable.added {env : Env} {o : Order ℚ} {b : OrderBook ℚ} {out : AddOutcome ℚ} {sv sv' : Server}
    (h : sv.Restorable) (ha : Added env o b out sv sv') : sv'.Restorable := by
  refine h.dispatched ha.dispatched rfl fun p hp => ?_
  have hcall := ha.call
  exact (hcall.fate (hcall.accepted_of_mem hp) p (hcall.announced p hp)).imp_left hcall.inv.live

theorem Restorable.cancelled {env : Env} {symbol id : String} {b b' : OrderBook ℚ} {p : OrderPtr} {sv sv' : Server}
    (h : sv.Restorable) (hc : Cancelled env symbol id b p b' sv sv') : sv'.Restorable := by
  refine h.dispatched hc.dispatched rfl fun q hq => .inr (.inr ?_)
  have hqp : q = p := by simpa using hq
  rw [hqp, hc.cancel.heap, Function.update_self]

theorem Restorable.saved {env : Env} {x : Submission} {o : Order ℚ} {sv : Server} (h : sv.Restorable)
    (ho : o.remainingQuantity = o.quantity) : (sv.saveSubmission env x o).Restorable := by
  obtain ⟨disk, n, heq, hd⟩ := saveSubmission_eq sv env x o
  rw [heq]
  intro r hr
  rcases hd with ⟨hd, -⟩ | ⟨-, hd⟩
  · exact h r (hd ▸ hr)
  · have hr : r ∈ sv.disk.orders.filter _ ++ [_] := hd ▸ hr
    rcases List.mem_append.1 hr with hr | hr
    · exact h r (List.mem_of_mem_filter hr)
    · rw [List.mem_singleton.1 hr]
      intro _ h0
      have h0 : columnInt (bindInt o.remainingQuantity) = 0 := h0
      rw [ho] at h0
      exact h0

/-! ## The restore loop -/

/-- The restore loop before the given rows: they are still in the table as they were read. -/
structure Replaying (l : List OrderRow) (sv : Server) : Prop extends Restoring l sv where
  present : ∀ r ∈ l, r ∈ sv.disk.orders ∧ Db.isActive r = true

namespace Replaying

variable {env : Env} {r : OrderRow} {rows : List OrderRow} {sv sv' : Server}

theorem skip (h : Replaying (r :: rows) sv) : Replaying rows sv :=
  ⟨h.toRestoring.skip, fun x hx => h.present x (List.mem_cons_of_mem _ hx)⟩

theorem add {b : OrderBook ℚ} {out : AddOutcome ℚ} (h : Replaying (r :: rows) sv)
    (ha : Added env (Db.restoreOrder env.now r) b out sv sv') : Replaying rows sv' := by
  refine ⟨h.toRestoring.add ha, fun x hx => ?_⟩
  obtain ⟨hmem, hact⟩ := h.present x (List.mem_cons_of_mem _ hx)
  refine ⟨?_, hact⟩
  obtain ⟨f, hf, hf', -⟩ := ha.dispatched.rows
  rw [hf]
  refine List.mem_map.2 ⟨x, hmem, (hf' x).resolve_right ?_⟩
  -- the call announces only live orders and its own, and these rows are of neither
  rintro ⟨p, hp, hid, -⟩
  have hk : (Db.restoreOrder env.now r).id ∈ sv.uuids := by
    rw [restoreOrder_id]; exact (h.todo r (List.mem_cons_self ..)).1
  have hp' := ha.call.announced p hp
  rw [(ha.call.static p).id, h.cStr_eq (h.known ha hk hp')] at hid
  by_cases he : p = b.nextPtr
  · rw [he, alloc_heap_self, restoreOrder_id] at hid
    exact (List.nodup_cons.1 h.todoNodup).1 (List.mem_map.2 ⟨x, hx, hid⟩)
  · rw [alloc_heap_of_ne he] at hid
    exact (h.todo x (List.mem_cons_of_mem _ hx)).2 (hid ▸ live_of_held ha.book ha.inv (hp'.resolve_right he))

end Replaying

theorem Replaying.booted {env : Env} {sv sv' : Server} (h : IdInv sv) (hb : Booted env sv sv') :
    Replaying (if sv'.storeOpen then sv'.disk.activeRows else []) sv' := by
  refine ⟨h.booted hb, fun r hr => ?_⟩
  split_ifs at hr
  · exact mem_activeRows.1 hr
  · cases hr

/-- The rule for the restore loop: what holds of the rows left and the server, row by row. -/
theorem Restored.replay {env : Env} {K : List OrderRow → Server → Prop} {rows : List OrderRow} {sv sv' : Server}
    (h : Restored env rows sv sv') (hR : Replaying rows sv) (hK : K rows sv)
    (hskip : ∀ {r rows sv}, Replaying (r :: rows) sv → sv.orderbooks.find? r.symbol = none → K (r :: rows) sv → K rows sv)
    (hadd : ∀ {r rows sv sv' b out}, Replaying (r :: rows) sv → Added env (Db.restoreOrder env.now r) b out sv sv' →
      K (r :: rows) sv → K rows sv') : K [] sv' := by
  induction h with
  | nil => exact hK
  | skip hb _ ih => exact ih hR.skip (hskip hR hb hK)
  | add ha _ ih => exact ih (hR.add ha) (hadd hR ha hK)

/-! ## Announcing histories -/

/-- Every call of the restore loop on these books announces what it changes. -/
def ReplayAnnounces : List (Order ℚ) → SortedMap String (OrderBook ℚ) → Prop
  | [], _ => True
  | o :: rest, books =>
    match books.find? o.symbol with
    | none => ReplayAnnounces rest books
    | some b => ActivationsTrade b.nextPtr (b.alloc o).2 ∧
      ∀ out, OrderBook.addOrder (some b.nextPtr) (b.alloc o).2 = some out →
        ReplayAnnounces rest (books.insert o.symbol out.state.toOrderBook)

instance ReplayAnnounces.decidable : ∀ (l : List (Order ℚ)) (books : SortedMap String (OrderBook ℚ)),
    Decidable (ReplayAnnounces l books)
  | [], _ => isTrue trivial
  | o :: rest, books =>
    match h : books.find? o.symbol with
    | none =>
      have := ReplayAnnounces.decidable rest books
      decidable_of_iff (ReplayAnnounces rest books) (by rw [ReplayAnnounces, h])
    | some b =>
      match h' : OrderBook.addOrder (some b.nextPtr) (b.alloc o).2 with
      | none => decidable_of_iff (ActivationsTrade b.nextPtr (b.alloc o).2) (by rw [ReplayAnnounces, h]; simp [h'])
      | some out =>
        have := ReplayAnnounces.decidable rest (books.insert o.symbol out.state.toOrderBook)
        decidable_of_iff (ActivationsTrade b.nextPtr (b.alloc o).2 ∧
          ReplayAnnounces rest (books.insert o.symbol out.state.toOrderBook)) (by rw [ReplayAnnounces, h]; simp [h'])

/-- The event makes no call that activates a stop order without letting it trade. -/
def Announces (sv : Server) : Env × Event → Prop
  | (env, .message s (.orderSubmit m)) => sv.hasSession s = true → (sv.requireAuth s "trade").1 = true →
    ∀ b, sv.getOrderbook m.symbol = some b → ActivationsTrade b.nextPtr (b.alloc (submittedOrder env m b.tickSize)).2
  | (_, .posted) => ∀ o b, sv.posted.head? = some o → sv.getOrderbook o.symbol = some b →
    ActivationsTrade b.nextPtr (b.alloc o).2
  | (env, .restart) => ReplayAnnounces (sv.disk.loadAllActiveOrders env.now) sv.boot.orderbooks
  | _ => True

instance (sv : Server) : ∀ ev, Decidable (sv.Announces ev)
  | (env, .message s (.orderSubmit m)) => inferInstanceAs (Decidable (sv.hasSession s = true →
    (sv.requireAuth s "trade").1 = true → ∀ b ∈ sv.getOrderbook m.symbol,
      ActivationsTrade b.nextPtr (b.alloc (submittedOrder env m b.tickSize)).2))
  | (_, .posted) => decidable_of_iff (∀ o ∈ sv.posted.head?, ∀ b ∈ sv.getOrderbook o.symbol,
      ActivationsTrade b.nextPtr (b.alloc o).2) ⟨fun h o b ho => h o ho b, fun h o ho b => h o b ho⟩
  | (env, .restart) => inferInstanceAs (Decidable (ReplayAnnounces (sv.disk.loadAllActiveOrders env.now) sv.boot.orderbooks))
  | (_, .connect) | (_, .close _) | (_, .snapshotTimer) | (_, .generate _) | (_, .generatorCancel _)
  | (_, .createOrderbook ..) | (_, .setOrderbookTickSize ..) => isTrue trivial
  | (_, .message _ (.login ..)) | (_, .message _ (.register ..)) | (_, .message _ (.snapshotRequest _))
  | (_, .message _ (.orderCancel ..)) | (_, .message _ (.orderStatus ..)) | (_, .message _ .other) => isTrue trivial

section Effects

variable {env : Env} {ev : Event} {sv sv' : Server}

theorem Effect.restorable (he : Effect env ev sv sv') (h : sv.Restorable) : sv'.Restorable := by
  cases he with
  | quiet hq => intro r hr; exact h r (hq.orders ▸ hr)
  | connected | closed _ | ticked _ | dropped _ => exact h
  | created h₁ _ h₂ => intro r hr; exact h r (h₁.orders ▸ h₂.orders ▸ hr)
  | @submitted _ sv₁ _ _ _ _ _ _ _ h₁ ha =>
    have h' : sv₁.Restorable := fun r hr => h r (h₁.orders ▸ hr)
    have h'' := (h'.saved rfl).added ha
    exact h''
  | cancelled _ h₁ _ hc => exact Restorable.cancelled (fun r hr => h r (h₁.orders ▸ hr)) hc
  | reported _ h₁ _ _ _ => exact fun r hr => h r (h₁.orders ▸ hr)
  | generated hg => unfold generate; rw [hg]; exact h
  | @posted _ _ _ rest _ _ _ ha =>
    have h' : Restorable { sv with posted := rest } := h
    exact h'.added ha
  | generatorCancelled h₁ hc => exact Restorable.cancelled (fun r hr => h r (h₁.orders ▸ hr)) hc
  | restarted hb hr hq =>
    have hboot : Restorable _ := fun r hr => h r (hb.orders ▸ hr)
    have hres := hr.rule hboot fun ha h => h.added ha
    exact fun r hr => hres r (hq.orders ▸ hr)

/-- An order that has passed the milestone is restored, if at all, as one that has. -/
theorem Replaying.passed (M : Milestone Q R) {now : Int} {r : OrderRow} {rows : List OrderRow} (hR : Replaying (r :: rows) sv)
    (hres : sv.Restorable) (hP : Passed Q R sv r.id) : Q (Db.restoreOrder now r) := by
  obtain ⟨hmem, hact⟩ := hR.present r (List.mem_cons_self ..)
  exact (M.restored now hact (hres r hmem)).2 (hP.rows r hmem rfl)

theorem Replaying.known {r : OrderRow} {rows : List OrderRow} (hR : Replaying (r :: rows) sv) (now : Int) :
    (Db.restoreOrder now r).id ∈ sv.uuids ∧ ¬ sv.Live (Db.restoreOrder now r).id := by
  rw [restoreOrder_id]
  exact hR.todo r (List.mem_cons_self ..)

theorem Effect.passed (M : Milestone Q R) (he : Effect env ev sv sv') (hI : IdInv sv) (hres : sv.Restorable)
    (hnd : sv'.uuids.Nodup) {id : String} (h : Passed Q R sv id) : Passed Q R sv' id := by
  have hkeep : ∀ {sv' : Server}, sv.uuids ⊆ sv'.uuids → sv'.disk.orders = sv.disk.orders → sv'.orderbooks = sv.orderbooks →
      (∀ o ∈ sv'.posted, o ∈ sv.posted ∨ o.id ∉ sv.uuids) → Passed Q R sv' id := fun hu hd hb hp =>
    h.step hu hd (fun hx hq => ⟨_, hb ▸ hx, hq, rfl⟩) hp
  cases he with
  | quiet hq => exact h.quiet hq
  | connected => exact hkeep (List.subset_append_left ..) rfl rfl fun _ ho => .inl ho
  | closed _ => exact hkeep (List.Subset.refl _) rfl rfl fun _ ho => .inl ho
  | created h₁ hnone h₂ =>
    have h' := h.quiet h₁
    exact (h'.setBook fun hp => by cases hp).quiet h₂
  | @ticked _ _ b tickSize hb =>
    refine h.setBook fun {p} hp => ⟨b, hb, by rw [setTickSize_getOrder] at hp; exact hp, ?_⟩
    rw [setTickSize_heap]
  | @submitted _ sv₁ sv₂ s m b out hsess _ h₁ ha =>
    have hI₁ := hI.quiet h₁
    have hs₁ : s < sv₁.nextSession := by rw [h₁.nextSession]; exact hasSession_lt hsess
    have hnew := submitted_new ha hnd
    have h' : Passed Q R (sv₁.saveSubmission env ⟨generateUuid env.uuid, s, m, b.tickSize⟩ (submittedOrder env m b.tickSize)) id :=
      (h.quiet h₁).saved (cStr_generateUuid _).symm hnew
    have h'' := h'.added M (hI₁.saved hs₁ m b.tickSize hnew) ha (mem_saveSubmission ..).1 fun heq =>
      absurd ((show generateUuid env.uuid = id from heq) ▸ (h.quiet h₁).known) hnew
    exact h''.step (List.Subset.refl _) rfl (fun hx hq => ⟨_, hx, hq, rfl⟩) fun _ ho => .inl ho
  | cancelled _ h₁ _ hc => exact (h.quiet h₁).cancelled M (hI.quiet h₁) hc
  | reported _ h₁ _ _ _ =>
    have h' := h.quiet h₁
    exact h'.step (List.Subset.refl _) rfl (fun hx hq => ⟨_, hx, hq, rfl⟩) fun _ ho => .inl ho
  | generated hg =>
    unfold generate at hnd ⊢
    rw [hg] at hnd ⊢
    refine hkeep (List.subset_append_left ..) rfl rfl fun o ho => ?_
    rcases List.mem_append.1 ho with ho | ho
    · exact .inl ho
    · rw [List.mem_singleton.1 ho]
      exact .inr (not_mem_of_append hnd)
  | dropped hp => exact hkeep (List.Subset.refl _) rfl rfl fun o ho => .inl (by rw [hp]; exact List.mem_cons_of_mem _ ho)
  | @posted _ _ o rest b out hp ha =>
    have hmem : o ∈ sv.posted := by rw [hp]; exact List.mem_cons_self ..
    have h' : Passed Q R { sv with posted := rest } id := hkeep (List.Subset.refl _) rfl rfl fun q hq =>
      .inl (by rw [hp]; exact List.mem_cons_of_mem _ hq)
    exact h'.added M (hI.popPosted hp) ha (hI.posted o hmem).1 fun heq => absurd heq (h.posted o hmem)
  | generatorCancelled h₁ hc => exact (h.quiet h₁).cancelled M (hI.quiet h₁) hc
  | restarted hb hr hq =>
    refine Passed.quiet ?_ hq
    have hboot : Restorable _ := fun r hr => hres r (hb.orders ▸ hr)
    refine (hr.replay (K := fun _ sv => sv.Restorable ∧ Passed Q R sv id) (Replaying.booted hI hb) ⟨hboot, h.booted hb⟩
      (fun _ _ hK => hK) fun {r rows sv sv' b out} hR ha hK => ⟨hK.1.added ha, ?_⟩).2
    refine hK.2.added M hR.toIdInv ha (hR.known env.now).1 fun heq => ?_
    rw [restoreOrder_id] at heq
    exact hR.passed M hK.1 (heq ▸ hK.2)

theorem Added.notified {o : Order ℚ} {b : OrderBook ℚ} {out : AddOutcome ℚ} (ha : Added env o b out sv sv')
    (h : ActivationsTrade b.nextPtr (b.alloc o).2) : out.accepted = true → Notified b.nextPtr (b.alloc o).2 out :=
  fun hacc => (ha.add.notified_iff ha.invAlloc hacc).2 h

theorem Effect.milestoneInv (M : Milestone Q R) (he : Effect env ev sv sv') (hI : IdInv sv) (hres : sv.Restorable)
    (hC : sv.Announces (env, ev)) (hw : env.Persists) (ho : ev ≠ .restart → sv.storeOpen = true) (hnd : sv'.uuids.Nodup)
    (h : MilestoneInv Q R sv) : MilestoneInv Q R sv' := by
  have hP : ∀ {id}, Passed Q R sv id → Passed Q R sv' id := fun hP => he.passed M hI hres hnd hP
  cases he with
  | quiet hq => exact h.quiet hq
  | connected | closed _ | dropped _ => exact h.step hP fun hx hp => ⟨_, hx, hp, rfl⟩
  | created h₁ hnone h₂ =>
    exact ((h.quiet h₁).setBook (fun hp => by cases hp) fun hp => absurd hp (Nat.not_lt_zero _)).quiet h₂
  | @ticked _ _ b tickSize hb =>
    refine h.setBook (fun hp => ⟨b, hb, by rw [setTickSize_getOrder] at hp; exact hp, by rw [setTickSize_heap]⟩) fun hp => ?_
    refine ⟨b, hb, ?_, by rw [setTickSize_heap]⟩
    unfold OrderBook.setTickSize at hp
    split_ifs at hp <;> exact hp
  | @submitted _ sv₁ sv₂ s m b out hsess hauth h₁ ha =>
    have hI₁ := hI.quiet h₁
    have hs₁ : s < sv₁.nextSession := by rw [h₁.nextSession]; exact hasSession_lt hsess
    have hnew := submitted_new ha hnd
    have hI₂ := hI₁.saved hs₁ m b.tickSize hnew
    have hact : ActivationsTrade b.nextPtr (b.alloc (submittedOrder env m b.tickSize)).2 := by
      refine hC hsess hauth b ?_
      have hb := ha.book
      rw [saveSubmission_orderbooks, h₁.orderbooks] at hb
      exact hb
    obtain ⟨disk, n, heq, hd⟩ := saveSubmission_eq sv₁ env ⟨generateUuid env.uuid, s, m, b.tickSize⟩
      (submittedOrder env m b.tickSize)
    have hM : MilestoneInv Q R (sv₁.saveSubmission env ⟨generateUuid env.uuid, s, m, b.tickSize⟩
        (submittedOrder env m b.tickSize)) := (h.quiet h₁).saved (cStr_generateUuid _).symm hnew
    have hadd := hM.added M hI₂ ha (ha.notified hact) (mem_saveSubmission ..).1
      (fun hl => hnew (hI₁.live (saveSubmission_live.1 hl))) (fun q hq hid => ?_) ?_ hw.writes (fun hx hp hQ hid => ?_)
      fun hQ r hr hid => ?_
    · exact hadd.step (fun hP => hP.step (List.Subset.refl _) rfl (fun hx hq => ⟨_, hx, hq, rfl⟩) fun _ ho => .inl ho)
        fun hx hp => ⟨_, hx, hp, rfl⟩
    · rw [heq] at hq
      exact hnew ((show q.id = generateUuid env.uuid from hid) ▸ (hI₁.posted q hq).1)
    · rw [heq]
      exact h₁.storeOpen.trans (ho nofun)
    · rw [saveSubmission_orderbooks] at hx
      have hP := (h.quiet h₁).passed hx hp hQ
      rw [hid] at hP
      exact absurd hP.known hnew
    · rw [heq] at hr
      rcases hd with ⟨-, hno⟩ | ⟨-, hd⟩
      · exact absurd ⟨h₁.storeOpen.trans (ho nofun), hw.writes⟩ hno
      · have hr : r ∈ sv₁.disk.orders.filter _ ++ [_] := hd ▸ hr
        rcases List.mem_append.1 hr with hr | hr
        · exact absurd ((show r.id = generateUuid env.uuid from hid) ▸ hI₁.rows r (List.mem_of_mem_filter hr)) hnew
        · rw [List.mem_singleton.1 hr]
          exact M.saved env.now hQ
  | cancelled _ h₁ _ hc => exact (h.quiet h₁).cancelled M (hI.quiet h₁) hc (h₁.storeOpen.trans (ho nofun)) hw.writes
  | reported _ h₁ _ _ _ => exact h.step hP fun hx hp => ⟨_, h₁.orderbooks ▸ hx, hp, rfl⟩
  | generated hg =>
    refine h.step hP fun hx hp => ?_
    unfold generate at hx
    rw [hg] at hx
    exact ⟨_, hx, hp, rfl⟩
  | @posted _ _ o rest b out hp ha =>
    have hmem : o ∈ sv.posted := by rw [hp]; exact List.mem_cons_self ..
    have hpop : MilestoneInv Q R { sv with posted := rest } := h.step
      (fun hP => hP.step (List.Subset.refl _) rfl (fun hx hq => ⟨_, hx, hq, rfl⟩) fun q hq =>
        .inl (by rw [hp]; exact List.mem_cons_of_mem _ hq)) fun hx hp => ⟨_, hx, hp, rfl⟩
    have hact := hC o b (by rw [hp]; rfl) ha.book
    refine hpop.added M (hI.popPosted hp) ha (ha.notified hact) (hI.posted o hmem).1 (hI.posted o hmem).2 (fun q hq hid => ?_)
      (ho nofun) hw.writes (fun hx hp hQ hid => absurd hid.symm ((h.passed hx hp hQ).posted o hmem)) fun _ r hr hid => ?_
    · have hn := hI.postedNodup
      rw [hp, List.map_cons, List.nodup_cons] at hn
      exact hn.1 (List.mem_map.2 ⟨q, hq, hid⟩)
    · exact absurd hid (hI.postedRow o hmem r hr)
  | generatorCancelled h₁ hc => exact (h.quiet h₁).cancelled M (hI.quiet h₁) hc (h₁.storeOpen.trans (ho nofun)) hw.writes
  | @restarted _ sv₁ sv₂ _ hb hr hq =>
    have hopen : sv₁.storeOpen = true := hb.storeOpen.trans hw.opens
    have hloop := hr.replay (K := fun rows sv => sv.Restorable ∧ sv.storeOpen = true ∧
        ReplayAnnounces (rows.map (Db.restoreOrder env.now)) sv.orderbooks ∧ MilestoneInv Q R sv)
      (Replaying.booted hI hb) ⟨fun r hr => hres r (hb.orders ▸ hr), hopen, ?_, .booted hb⟩ (fun {r rows sv} _ hnone hK => ?_)
      fun {r rows sv sv' b out} hR ha hK => ?_
    · exact hloop.2.2.2.quiet hq
    · rw [if_pos hopen, hb.orderbooks_eq]
      unfold Db.activeRows
      rw [hb.orders]
      exact hC
    · obtain ⟨h1, h2, h3, h4⟩ := hK
      rw [List.map_cons] at h3
      unfold ReplayAnnounces at h3
      rw [restoreOrder_symbol, hnone] at h3
      exact ⟨h1, h2, h3, h4⟩
    · obtain ⟨h1, h2, h3, h4⟩ := hK
      rw [List.map_cons] at h3
      unfold ReplayAnnounces at h3
      rw [ha.book] at h3
      obtain ⟨hact, hnext⟩ := h3
      refine ⟨h1.added ha, ha.dispatched.storeOpen.trans h2, ?_, ?_⟩
      · rw [ha.dispatched.orderbooks]
        exact hnext out ha.result
      · refine h4.added M hR.toIdInv ha (ha.notified hact) (hR.known env.now).1 (hR.known env.now).2
          (by rw [hR.noPosted]; exact fun _ hq => (by cases hq)) h2 hw.writes (fun hx hp hQ hid => ?_) fun hQ x hx hid => ?_
        · have hP := h4.passed hx hp hQ
          rw [hid, restoreOrder_id] at hP
          exact hR.passed M h1 hP
        · -- the table has one row with the id
          obtain ⟨hmem, hactive⟩ := hR.present r (List.mem_cons_self ..)
          rw [restoreOrder_id] at hid
          rw [List.inj_on_of_nodup_map hR.rowsNodup hx hmem hid]
          exact (M.restored env.now hactive (h1 r hmem)).1 hQ

end Effects

/-! ## Whole histories -/

/-- An object of the running process with the id has reached the stage. -/
def Reached (Q : Order ℚ → Prop) (sv : Server) (id : String) : Prop :=
  ∃ symbol b p, sv.orderbooks.find? symbol = some b ∧ p < b.nextPtr ∧ (b.heap p).id = id ∧ Q (b.heap p)

/-- An order submitted as a stop order that is none any more. -/
def Triggered (sv : Server) (id : String) : Prop :=
  (∃ x ∈ sv.submissions, x.orderId = id ∧ (x.message.orderType = .stop ∨ x.message.orderType = .stopLimit)) ∧
    sv.Reached (fun o => o.isStopOrder = false) id

/-- The order waits in a stop map. -/
def InStopMap (sv : Server) (id : String) : Prop :=
  ∃ symbol b d k p, sv.orderbooks.find? symbol = some b ∧ p ∈ b.stopQueue d k ∧ (b.heap p).id = id

/-- In a history that announces its changes, an order that has reached a milestone in some state has
passed it in every later state. -/
theorem run_passed (M : Milestone Q R) (config : Config) (env : Env) (evs : List (Env × Event))
    (hw : ∀ e ∈ (env, Event.restart) :: evs, e.1.Persists)
    (hA : Machine.Along step Announces (initial config) ((env, .restart) :: evs)) :
    ∃ sv, run config env evs = some sv ∧ Sound sv ∧ (sv.uuids.Nodup → ∀ pre, pre <+: evs → ∀ sv₀,
      run config env pre = some sv₀ → ∀ id, sv₀.Reached Q id → Passed Q R sv id) := by
  -- in the initial state nothing has been reached
  have h0 : ∀ pre₀, pre₀ <+: [] → ∀ sv₀, pre₀.foldlM step (initial config) = some sv₀ →
      ∀ id, sv₀.Reached Q id → Passed Q R (initial config) id := by
    rintro pre₀ hpre₀ sv₀ hrun₀ id ⟨symbol, b, p, hb, -⟩
    rw [List.prefix_nil.1 hpre₀] at hrun₀
    cases hrun₀
    cases hb
  obtain ⟨sv, hrun, hs, -, hK⟩ := run_rule_along config env evs hA
    (K := fun pre sv => (pre ≠ [] → sv.storeOpen = true) ∧ (sv.uuids.Nodup → IdInv sv ∧ sv.Restorable ∧ MilestoneInv Q R sv ∧
      ∀ pre₀, pre₀ <+: pre → ∀ sv₀, pre₀.foldlM step (initial config) = some sv₀ →
        ∀ id, sv₀.Reached Q id → Passed Q R sv id))
    ⟨fun h => absurd rfl h, fun _ => ⟨.initial config, fun _ hr => (by cases hr), ⟨fun hx => (by cases hx)⟩, h0⟩⟩
    fun pre e ev sv sv' hpre hrun hs hK hC he hs' => by
      obtain ⟨hopen, hK⟩ := hK
      have hper := hw _ (hpre.subset (List.mem_append_right _ (List.mem_singleton.2 rfl)))
      -- the first event is the first start
      have ho : ev ≠ .restart → sv.storeOpen = true := fun hev => hopen fun hnil => hev <| by
        rw [hnil, List.nil_append] at hpre
        exact congrArg Prod.snd (List.cons_prefix_cons.1 hpre).1
      refine ⟨fun _ => he.storeOpen (fun _ => hper.opens) ho, fun hnd => ?_⟩
      obtain ⟨hI, hres, hM, hpast⟩ := hK (he.uuids.sublist.nodup hnd)
      have hM' := he.milestoneInv M hI hres hC hper ho hnd hM
      refine ⟨he.idInv hI hnd, he.restorable hres, hM', fun pre₀ hpre₀ sv₀ hrun₀ id hreach => ?_⟩
      rcases List.prefix_concat_iff.1 hpre₀ with heq | hpre₀
      · rw [heq] at hrun₀
        cases hrun₀.symm.trans hrun
        obtain ⟨symbol, b, p, hb, hp, rfl, hQ⟩ := hreach
        exact hM'.passed hb hp hQ
      · exact he.passed M hI hres hnd (hpast pre₀ hpre₀ sv₀ hrun₀ id hreach)
  refine ⟨sv, hrun, hs, fun hnd pre hpre sv₀ hrun₀ => ?_⟩
  exact (hK hnd).2.2.2 _ (List.cons_prefix_cons.2 ⟨rfl, hpre⟩) sv₀ hrun₀

/-- In every history in which the store is open, every write succeeds, no id repeats, and every call
that activates stop orders lets them trade: an order that is filled or cancelled in some state is live
in no later state, and a triggered stop order is in no later state back in a stop map, restarts
included. -/
theorem run_no_resurrection (config : Config) (env : Env) (evs : List (Env × Event))
    (hw : ∀ e ∈ (env, Event.restart) :: evs, e.1.Persists)
    (hA : Machine.Along step Announces (initial config) ((env, .restart) :: evs)) :
    ∃ sv, run config env evs = some sv ∧ (sv.uuids.Nodup → ∀ pre, pre <+: evs → ∃ sv₀, run config env pre = some sv₀ ∧
      (∀ id, sv₀.Reached Order.Finished id → ¬ sv.Live id) ∧ ∀ id, sv₀.Triggered id → ¬ sv.InStopMap id) := by
  obtain ⟨sv, hrun, hs, hfin⟩ := run_passed finished_milestone config env evs hw hA
  obtain ⟨sv', hrun', -, htyp⟩ := run_passed untyped_milestone config env evs hw hA
  cases hrun.symm.trans hrun'
  refine ⟨sv, hrun, fun hnd pre hpre => ?_⟩
  obtain ⟨sv₀, hrun₀, -⟩ := run_rule config env pre (K := fun _ _ => True) trivial fun _ _ _ _ _ _ _ _ _ _ => trivial
  refine ⟨sv₀, hrun₀, fun id hreach hlive => ?_, fun id htrig hstop => ?_⟩
  · obtain ⟨symbol, b, p, hb, hp⟩ := hlive
    have hQ := (hfin hnd pre hpre sv₀ hrun₀ id hreach).live hb hp
    obtain ⟨-, hheld | hF⟩ := (hs.books hb).index.1 hp
    · exact ((hs.books hb).live hheld).not_finished hQ
    · cases hF
  · obtain ⟨symbol, b, d, k, p, hb, hp, rfl⟩ := hstop
    have hindex := (hs.books hb).index.2 ⟨rfl, .inl (.inr ⟨d, k, hp⟩)⟩
    have hQ := (htyp hnd pre hpre sv₀ hrun₀ _ htrig.2).live hb hindex
    have hstop := ((hs.books hb).stop hp).2.2
    rw [show (b.heap p).isStopOrder = false from hQ] at hstop
    cases hstop

theorem sampleEnv_persists (n : Nat) : (sampleEnv true n).Persists := ⟨rfl, fun _ => rfl⟩

/-- Two sell orders rest, a buy stop waits at the price of the first, and a buy order takes that one: the
stop is triggered and filled from the second. -/
def filledStop : List (Env × Event) :=
  [(sampleEnv true 1, .connect), (sampleEnv true 2, .message 0 (sampleSubmit .sell .limit 100 0 5)),
    (sampleEnv true 3, .message 0 (sampleSubmit .sell .limit 101 0 5)),
    (sampleEnv true 4, .message 0 (sampleSubmit .buy .stop 0 100 3)),
    (sampleEnv true 5, .message 0 (sampleSubmit .buy .limit 100 0 5))]

theorem run_no_resurrection_filledStop : ∃ sv₀ sv, run sampleConfig (sampleEnv true 0) filledStop = some sv₀ ∧
    run sampleConfig (sampleEnv true 0) (filledStop ++ [(sampleEnv true 6, .restart)]) = some sv ∧ sv.uuids.Nodup ∧
    sv₀.Reached Order.Finished (generateUuid (sampleEnv true 4).uuid) ∧ ¬ sv.Live (generateUuid (sampleEnv true 4).uuid) ∧
    ¬ sv.InStopMap (generateUuid (sampleEnv true 4).uuid) := by
  obtain ⟨sv, hrun, h⟩ := run_no_resurrection sampleConfig (sampleEnv true 0) (filledStop ++ [(sampleEnv true 6, .restart)])
    (by intro e he; simp only [filledStop, List.cons_append, List.nil_append, List.mem_cons, List.not_mem_nil, or_false] at he
        rcases he with rfl | rfl | rfl | rfl | rfl | rfl | rfl <;> exact sampleEnv_persists _)
    (by decide +kernel)
  have hnd : (run sampleConfig (sampleEnv true 0) (filledStop ++ [(sampleEnv true 6, .restart)])).map
      (fun sv => decide sv.uuids.Nodup) = some true := by decide +kernel
  rw [hrun, Option.map_some, Option.some.injEq, decide_eq_true_eq] at hnd
  obtain ⟨sv₀, hrun₀, h1, h2⟩ := h hnd filledStop (List.prefix_append ..)
  have hstate : (run sampleConfig (sampleEnv true 0) filledStop).bind (fun sv => (sv.orderbooks.find? "SYM").bind fun b =>
      sv.submissions[2]?.map fun x => (decide (2 < b.nextPtr), (b.heap 2).id, (b.heap 2).status, (b.heap 2).orderType,
        x.orderId, x.message.orderType)) =
      some (true, generateUuid (sampleEnv true 4).uuid, .filled, .market, generateUuid (sampleEnv true 4).uuid, .stop) := by
    decide +kernel
  rw [hrun₀, Option.bind_some] at hstate
  obtain ⟨b, hb, hbe⟩ := Option.bind_eq_some_iff.1 hstate
  obtain ⟨x, hx, hxe⟩ := Option.map_eq_some_iff.1 hbe
  simp only [Prod.mk.injEq, decide_eq_true_eq] at hxe
  obtain ⟨hp, hid, hst, hty, hxid, hxty⟩ := hxe
  have hreach : sv₀.Reached Order.Finished (generateUuid (sampleEnv true 4).uuid) := ⟨"SYM", b, 2, hb, hp, hid, .inl hst⟩
  refine ⟨sv₀, sv, hrun₀, hrun, hnd, hreach, h1 _ hreach, h2 _ ⟨⟨x, List.mem_of_getElem? hx, hxid, .inl hxty⟩, "SYM", b, 2, hb, hp, hid, ?_⟩⟩
  simp [Order.isStopOrder, hty]

/-- A sell order rests, a buy stop waits at its price, and a buy order takes all of it: the stop is
triggered, finds nothing to buy and is cancelled, and nobody is told. -/
def silentStop : List (Env × Event) :=
  [(sampleEnv true 1, .connect), (sampleEnv true 2, .message 0 (sampleSubmit .sell .limit 100 0 5)),
    (sampleEnv true 3, .message 0 (sampleSubmit .buy .stop 0 100 3)),
    (sampleEnv true 4, .message 0 (sampleSubmit .buy .limit 100 0 5))]

/-- After a restart that stop order is pending again, and back in the stop map. -/
theorem run_resurrects : ∃ sv₀ sv, run sampleConfig (sampleEnv true 0) silentStop = some sv₀ ∧
    run sampleConfig (sampleEnv true 0) (silentStop ++ [(sampleEnv true 5, .restart)]) = some sv ∧ sv.uuids.Nodup ∧
    sv₀.Reached (fun o => o.status = .canceled ∧ o.orderType = .market) (generateUuid (sampleEnv true 3).uuid) ∧
    sv.Live (generateUuid (sampleEnv true 3).uuid) ∧ sv.InStopMap (generateUuid (sampleEnv true 3).uuid) := by
  have hbefore : (run sampleConfig (sampleEnv true 0) silentStop).bind (fun sv => (sv.orderbooks.find? "SYM").map fun b =>
      (decide (1 < b.nextPtr), (b.heap 1).id, (b.heap 1).status, (b.heap 1).orderType)) =
      some (true, generateUuid (sampleEnv true 3).uuid, .canceled, .market) := by decide +kernel
  have hafter : (run sampleConfig (sampleEnv true 0) (silentStop ++ [(sampleEnv true 5, .restart)])).bind (fun sv =>
      (sv.orderbooks.find? "SYM").map fun b => (decide sv.uuids.Nodup, b.getOrder (generateUuid (sampleEnv true 3).uuid),
        b.stopQueue .buy 100, (b.heap 0).id)) = some (true, some 0, [0], generateUuid (sampleEnv true 3).uuid) := by decide +kernel
  obtain ⟨sv₀, hrun₀, h⟩ := Option.bind_eq_some_iff.1 hbefore
  obtain ⟨b₀, hb₀, he₀⟩ := Option.map_eq_some_iff.1 h
  obtain ⟨sv, hrun, h⟩ := Option.bind_eq_some_iff.1 hafter
  obtain ⟨b, hb, he⟩ := Option.map_eq_some_iff.1 h
  simp only [Prod.mk.injEq, decide_eq_true_eq] at he₀ he
  obtain ⟨hp, hid₀, hst, hty⟩ := he₀
  obtain ⟨hnd, hget, hq, hid⟩ := he
  refine ⟨sv₀, sv, hrun₀, hrun, hnd, ⟨"SYM", b₀, 1, hb₀, hp, hid₀, hst, hty⟩, ⟨"SYM", b, 0, hb, hget⟩, "SYM", b, .buy, 100, 0,
    hb, ?_, hid⟩
  rw [hq]; exact List.mem_singleton.2 rfl

end Server

end OrderbookGC
