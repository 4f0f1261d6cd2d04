/-
Events about another symbol. What keeps a symbol apart from the others is that no order of another book has a row under
it: a call of another book then writes to none of its rows, and its callbacks name none of its orders.
-/
import OrderbookGC.Server.Lockstep

namespace OrderbookGC

open Container OrderBook MatchState

namespace Server

variable {symbol : String} {Q : Prop} {env : Env} {sv sv' : Server} {s : SessionPtr}

/-! ## The rows of a symbol and the orders of the other books -/

/-- No order in another book has a row under the symbol. -/
def RowsApart (symbol : String) (sv : Server) : Prop :=
  ∀ name, name ≠ symbol → ∀ id, sv.InBook name id → ∀ r ∈ symbolRows symbol sv.disk.orders, r.id ≠ id

/-- A call rewrites the rows of a symbol in place. -/
theorem Dispatched.symbolRow {heap : OrderPtr → Order ℚ} {cbs : List (Callback ℚ)} (hd : Dispatched env heap cbs sv sv')
    {r : OrderRow} (hr : r ∈ symbolRows symbol sv'.disk.orders) : ∃ r' ∈ symbolRows symbol sv.disk.orders, r'.id = r.id := by
  obtain ⟨f, hf, hf', -⟩ := hd.rows
  rw [mem_symbolRows, hf] at hr
  obtain ⟨⟨r', hr', rfl⟩, hsym⟩ := (And.imp_left List.mem_map.1 hr)
  refine ⟨r', mem_symbolRows.2 ⟨hr', ?_⟩, ?_⟩
  · rw [← hsym]
    rcases hf' r' with heq | ⟨p, -, -, heq⟩ <;> rw [heq]
    rfl
  · rcases hf' r' with heq | ⟨p, -, -, heq⟩ <;> rw [heq]
    rfl

namespace RowsApart

theorem initial (config : Config) : RowsApart symbol (initial config) := fun _ _ _ ⟨_, _, h, _⟩ => by cases h

theorem of_eq (h : RowsApart symbol sv) (hb : ∀ {name id}, sv'.InBook name id → sv.InBook name id)
    (ho : sv'.disk.orders = sv.disk.orders) : RowsApart symbol sv' := fun name hn id hin r hr =>
  h name hn id (hb hin) r (ho ▸ hr)

theorem quiet (h : RowsApart symbol sv) (hq : Quiet sv sv') : RowsApart symbol sv' :=
  h.of_eq (fun hin => hin.congr (by rw [hq.orderbooks])) hq.orders

theorem setBook (h : RowsApart symbol sv) {name : String} {b : OrderBook ℚ}
    (hb : ∀ id p, b.getOrder id = some p → sv.InBook name id) : RowsApart symbol (sv.setBook name b) := by
  refine h.of_eq (fun {x id} hin => ?_) rfl
  obtain ⟨y, p, hy, hp⟩ := hin
  rw [setBook_find?] at hy
  split_ifs at hy with hx
  · cases hy
    exact hx ▸ hb id p hp
  · exact ⟨y, p, hy, hp⟩

/-- An order that has no row of the symbol is added to another book, or any to the symbol's book. -/
theorem added (h : RowsApart symbol sv) {o : Order ℚ} {b : OrderBook ℚ} {out : AddOutcome ℚ} (ha : Added env o b out sv sv')
    (hnew : o.symbol ≠ symbol → ∀ r ∈ symbolRows symbol sv.disk.orders, r.id ≠ o.id) : RowsApart symbol sv' := by
  rintro name hn id ⟨x, p, hx, hp⟩ r hr
  obtain ⟨r', hr', hid⟩ := ha.dispatched.symbolRow hr
  rw [← hid]
  rcases ha.live_cases hx hp with ⟨y, hy, hyp⟩ | ⟨rfl, rfl, -⟩
  · exact h name hn id ⟨y, p, hy, hyp⟩ r' hr'
  · exact hnew hn r' hr'

theorem cancelled (h : RowsApart symbol sv) {name id : String} {b b' : OrderBook ℚ} {p : OrderPtr}
    (hc : Cancelled env name id b p b' sv sv') : RowsApart symbol sv' := by
  rintro x hn i ⟨y, q, hy, hq⟩ r hr
  obtain ⟨r', hr', hid⟩ := hc.dispatched.symbolRow hr
  rw [← hid]
  obtain ⟨⟨z, hz, hzq⟩, -⟩ := hc.live_iff.1 ⟨y, hy, hq⟩
  exact h x hn i ⟨z, q, hz, hzq⟩ r' hr'

/-- The row a submission adds is under what the store makes of its symbol. -/
theorem saved_row {x : Submission} {m : OrderSubmitMessage} {tickSize : ℚ} {r : OrderRow}
    (hr : r ∈ symbolRows symbol (sv.saveSubmission env x (submittedOrder env m tickSize)).disk.orders) :
    r ∈ symbolRows symbol sv.disk.orders ∨ r.id = generateUuid env.uuid ∧ cStr m.symbol = symbol := by
  obtain ⟨disk, n, heq, hd⟩ := saveSubmission_eq sv env x (submittedOrder env m tickSize)
  rw [heq] at hr
  obtain ⟨hr, hsym⟩ := mem_symbolRows.1 hr
  have hr : r ∈ disk.orders := hr
  rcases hd with ⟨hd, -⟩ | ⟨-, hd⟩
  · exact .inl (mem_symbolRows.2 ⟨hd ▸ hr, hsym⟩)
  · rw [hd] at hr
    rcases List.mem_append.1 hr with hr | hr
    · exact .inl (mem_symbolRows.2 ⟨List.mem_of_mem_filter hr, hsym⟩)
    · rw [List.mem_singleton.1 hr] at hsym ⊢
      exact .inr ⟨cStr_generateUuid _, hsym⟩

/-- A new row is of no order in any book. -/
theorem saved (h : RowsApart symbol sv) (hI : IdInv sv) (x : Submission) (m : OrderSubmitMessage) (tickSize : ℚ)
    (hnew : generateUuid env.uuid ∉ sv.uuids) :
    RowsApart symbol (sv.saveSubmission env x (submittedOrder env m tickSize)) := by
  intro name hn id hin r hr
  have hin : sv.InBook name id := hin.congr (by rw [saveSubmission_orderbooks])
  rcases saved_row hr with hr | ⟨hid, -⟩
  · exact h name hn id hin r hr
  · obtain ⟨b, p, hb, hp⟩ := hin
    rintro rfl
    exact hnew (hid ▸ hI.live ⟨name, b, p, hb, hp⟩)

end RowsApart

/-- The restore loop before the given rows: their orders are of the symbol, or have no row under it. -/
structure RestoringApart (symbol : String) (l : List OrderRow) (sv : Server) : Prop extends Restoring l sv where
  apart : RowsApart symbol sv
  todoApart : ∀ r ∈ l, r.symbol ≠ symbol → ∀ r' ∈ symbolRows symbol sv.disk.orders, r'.id ≠ r.id

namespace RestoringApart

variable {r : OrderRow} {rows : List OrderRow}

theorem booted (h : IdInv sv) (hb : Booted env sv sv') :
    RestoringApart symbol (if sv'.storeOpen then sv'.disk.activeRows else []) sv' := by
  have hR := h.booted hb
  refine ⟨hR, fun name hn id ⟨b, p, hx, hp⟩ => absurd ⟨name, b, p, hx, hp⟩ (hb.not_live id), fun r hr hn r' hr' he => hn ?_⟩
  split_ifs at hr
  · obtain ⟨hm, hsym⟩ := mem_symbolRows.1 hr'
    rw [← List.inj_on_of_nodup_map hR.rowsNodup hm (mem_activeRows.1 hr).1 he]
    exact hsym
  · cases hr

theorem skip (h : RestoringApart symbol (r :: rows) sv) : RestoringApart symbol rows sv :=
  ⟨h.toRestoring.skip, h.apart, fun x hx => h.todoApart x (List.mem_cons_of_mem _ hx)⟩

theorem add {b : OrderBook ℚ} {out : AddOutcome ℚ} (h : RestoringApart symbol (r :: rows) sv)
    (ha : Added env (Db.restoreOrder env.now r) b out sv sv') : RestoringApart symbol rows sv' := by
  refine ⟨h.toRestoring.add ha, h.apart.added ha fun hn r' hr' => ?_, fun x hx hn r' hr' => ?_⟩
  · rw [restoreOrder_id]
    rw [restoreOrder_symbol] at hn
    exact h.todoApart r List.mem_cons_self hn r' hr'
  · obtain ⟨r₀, hr₀, hid⟩ := ha.dispatched.symbolRow hr'
    rw [← hid]
    exact h.todoApart x (List.mem_cons_of_mem _ hx) hn r₀ hr₀

end RestoringApart

theorem Restored.rowsApart {rows : List OrderRow} (h : Restored env rows sv sv') (hR : RestoringApart symbol rows sv) :
    RowsApart symbol sv' := by
  induction h with
  | nil => exact hR.apart
  | skip _ _ ih => exact ih hR.skip
  | add ha _ ih => exact ih (hR.add ha)

/-- No symbol a client has ordered in but the symbol itself is stored as the symbol. -/
def Untruncated (symbol : String) (sv : Server) : Prop :=
  ∀ x ∈ sv.submissions, x.message.symbol ≠ symbol → cStr x.message.symbol ≠ symbol

theorem Effect.rowsApart {ev : Event} (he : Effect env ev sv sv') (h : RowsApart symbol sv) (hI : IdInv sv)
    (hnd : sv'.uuids.Nodup) (hu : Untruncated symbol sv') : RowsApart symbol sv' := by
  cases he with
  | quiet hq => exact h.quiet hq
  | connected | closed _ | dropped _ => exact h.of_eq (fun hin => hin) rfl
  | created h₁ _ h₂ => exact ((h.quiet h₁).setBook fun id p hp => by cases hp).quiet h₂
  | @ticked _ name b _ hb =>
    refine h.setBook fun id p hp => ⟨b, p, hb, ?_⟩
    rw [setTickSize_getOrder] at hp
    exact hp
  | @submitted _ sv₁ sv₂ s m b out hs _ h₁ ha =>
    have hI₁ := hI.quiet h₁
    have hnew := submitted_new ha hnd
    have hsubs : sv₂.submissions = sv₁.submissions ++ [⟨generateUuid env.uuid, s, m, b.tickSize⟩] := by
      rw [ha.dispatched.submissions]
      obtain ⟨disk, n, heq, -⟩ := saveSubmission_eq sv₁ env ⟨generateUuid env.uuid, s, m, b.tickSize⟩
        (submittedOrder env m b.tickSize)
      rw [heq]; rfl
    have hadded : RowsApart symbol sv₂ := by
      refine ((h.quiet h₁).saved hI₁ _ m b.tickSize hnew).added ha fun hn r hr he => ?_
      have he : r.id = generateUuid env.uuid := he
      rcases RowsApart.saved_row hr with hr | ⟨-, hsym⟩
      · exact hnew (he ▸ hI₁.rows r (mem_symbolRows.1 hr).1)
      · refine hu ⟨generateUuid env.uuid, s, m, b.tickSize⟩ ?_ hn hsym
        show _ ∈ sv₂.submissions
        rw [hsubs]
        exact List.mem_append_right _ (List.mem_singleton.2 rfl)
    exact hadded.of_eq (fun hin => hin) rfl
  | cancelled _ h₁ _ hc => exact (h.quiet h₁).cancelled hc
  | reported _ h₁ _ _ _ => exact (h.quiet h₁).of_eq (fun hin => hin) rfl
  | generated hg =>
    refine h.of_eq (fun hin => ?_) ?_
    · unfold generate at hin
      rw [hg] at hin
      exact hin
    · unfold generate
      rw [hg]
      rfl
  | @posted _ _ o rest b out hp ha =>
    have hmem : o ∈ sv.posted := by rw [hp]; exact List.mem_cons_self
    have hpop : RowsApart symbol { sv with posted := rest } := h.of_eq (fun hin => hin) rfl
    exact hpop.added ha fun _ r hr => hI.postedRow o hmem r (mem_symbolRows.1 hr).1
  | generatorCancelled h₁ hc => exact (h.quiet h₁).cancelled hc
  | restarted hb hr hq => exact (hr.rowsApart (.booted hI hb)).quiet hq

/-! ## Events about another symbol -/

/-- The message names another symbol, or an order in another book. -/
def concernsOther (symbol : String) (sv : Server) (e : Env × Event) : Bool :=
  match e.2 with
  | .message _ (.orderSubmit m) => m.symbol ≠ symbol
  | .message _ (.snapshotRequest name) => name ≠ symbol
  | .message _ (.orderCancel id _) => sv.orderbooks.entries.any fun e => e.1 ≠ symbol && (e.2.getOrder id).isSome
  | .message _ (.orderStatus id _) => sv.orderbooks.entries.any fun e => e.1 ≠ symbol && (e.2.getOrder id).isSome
  | _ => false

theorem any_otherBook {id : String} : (sv.orderbooks.entries.any fun e => e.1 ≠ symbol && (e.2.getOrder id).isSome) = true ↔
    ∃ name, name ≠ symbol ∧ sv.InBook name id := by
  simp only [List.any_eq_true, Bool.and_eq_true, decide_eq_true_eq]
  constructor
  · rintro ⟨e, he, hn, hp⟩
    obtain ⟨p, hp⟩ := Option.isSome_iff_exists.1 hp
    exact ⟨e.1, hn, e.2, p, SortedMap.find?_eq_some_iff.2 he, hp⟩
  · rintro ⟨name, hn, b, p, hb, hp⟩
    exact ⟨(name, b), SortedMap.find?_eq_some_iff.1 hb, hn, by rw [hp]; rfl⟩

/-- What a history keeps of the symbol's separation. -/
structure IsolationInv (symbol : String) (sv : Server) : Prop where
  sound : Sound sv
  ids : IdInv sv
  own : OwnInv none sv
  apart : RowsApart symbol sv

namespace IsolationInv

theorem initial (config : Config) : IsolationInv symbol (initial config) := ⟨.initial config, .initial config, .initial config, .initial config⟩

theorem quiet (h : IsolationInv symbol sv) (hq : Quiet sv sv') : IsolationInv symbol sv' :=
  ⟨hq.sound h.sound, h.ids.quiet hq, h.own.quiet hq, h.apart.quiet hq⟩

theorem noOwner (h : IsolationInv symbol sv) (id : String) (hid : id ∉ sv.uuids) : sv.orderOwners.find? id = none := by
  cases ho : sv.orderOwners.find? id with
  | none => rfl
  | some c =>
    obtain ⟨x, hx, rfl, -⟩ := h.own.owner ho
    exact absurd (h.ids.submission x hx).1 hid

theorem postedNoOwner (h : IsolationInv symbol sv) {o : Order ℚ} (hm : o ∈ sv.posted) : sv.orderOwners.find? o.id = none := by
  cases ho : sv.orderOwners.find? o.id with
  | none => rfl
  | some c =>
    obtain ⟨x, hx, hid, -⟩ := h.own.owner ho
    exact absurd hid (h.ids.postedSubmission o hm x hx)

end IsolationInv

theorem Effect.isolationInv {ev : Event} (he : Effect env ev sv sv') (h : IsolationInv symbol sv) (hnd : sv'.uuids.Nodup)
    (hu : Untruncated symbol sv') : IsolationInv symbol sv' :=
  ⟨he.sound h.sound, he.idInv h.ids hnd, he.ownInv h.sound h.ids h.own hnd, he.rowsApart h.apart h.ids hnd hu⟩

/-- An order in another book is apart from the symbol. -/
theorem RowsApart.other (h : RowsApart symbol sv) (hI : IdInv sv) {name id : String} (hn : name ≠ symbol)
    (hin : sv.InBook name id) : sv.Apart symbol id := by
  obtain ⟨b, p, hb, hp⟩ := hin
  refine ⟨fun ⟨x, q, hx, hq⟩ => hn (hI.oneBook hb hp hx hq), fun r hr => ?_⟩
  rw [hI.cStr_eq (hI.live ⟨name, b, p, hb, hp⟩)]
  exact h name hn id ⟨b, p, hb, hp⟩ r hr

namespace Alike

/-- A known order that is in no book and in no row of the symbol is added to another book. -/
theorem added_other {o : Order ℚ} {b : OrderBook ℚ} {out : AddOutcome ℚ} (hS : Sound sv) (hI : IdInv sv)
    (hA : RowsApart symbol sv) (ha : Added env o b out sv sv') (hn : o.symbol ≠ symbol)
    (hQ : Q → ∀ t ∈ sv'.trades, t.symbol = symbol) (hk : o.id ∈ sv.uuids) (hl : ¬ sv.Live o.id)
    (hrow : ∀ r ∈ symbolRows symbol sv.disk.orders, r.id ≠ o.id) : Alike symbol Q sv sv' := by
  refine .added hS ha hn hQ fun id hid => ?_
  rcases hid with rfl | hin
  · refine ⟨fun ⟨x, q, hx, hq⟩ => hl ⟨symbol, x, q, hx, hq⟩, fun r hr => ?_⟩
    rw [hI.cStr_eq hk]
    exact hrow r hr
  · exact hA.other hI hn hin

theorem cancelled_other {name id : String} {b b' : OrderBook ℚ} {p : OrderPtr} (hI : IdInv sv) (hA : RowsApart symbol sv)
    (hc : Cancelled env name id b p b' sv sv') (hn : name ≠ symbol) : Alike symbol Q sv sv' :=
  .cancelled hc hn (hA.other hI hn ⟨b, p, hc.book, hc.inv.index.2 ⟨hc.cancel.id, .inl hc.cancel.held⟩⟩)

/-- A submission to another book. -/
theorem handleOrderSubmit_other (h : IsolationInv symbol sv) {m : OrderSubmitMessage} (hm : m.symbol ≠ symbol)
    (hsess : s < sv.nextSession) (hr : sv.handleOrderSubmit env m s = some sv') (hnd : sv'.uuids.Nodup)
    (hQ : Q → ∀ t ∈ sv'.trades, t.symbol = symbol) (hu : Untruncated symbol sv') : Alike symbol Q sv sv' := by
  cases hb : sv.orderbooks.find? m.symbol with
  | none =>
    unfold handleOrderSubmit getOrderbook at hr
    rw [hb] at hr
    cases hr
    exact .sendMessage ..
  | some b =>
    obtain ⟨out, sv₁, h1, ha⟩ := handleOrderSubmit_added env h.sound hb s
    cases hr.symm.trans h1
    have hsub := h.quiet (.subscribe sv s m.symbol)
    have hnew : generateUuid env.uuid ∉ (sv.subscribe s m.symbol).uuids := submitted_new ha (show sv₁.uuids.Nodup from hnd)
    have hcut : cStr m.symbol ≠ symbol := by
      refine hu ⟨generateUuid env.uuid, s, m, b.tickSize⟩ ?_ hm
      show _ ∈ sv₁.submissions
      rw [ha.dispatched.submissions]
      exact (mem_saveSubmission ..).2
    have hrow : ∀ r ∈ symbolRows symbol (sv.subscribe s m.symbol).disk.orders, r.id ≠ generateUuid env.uuid := fun r hr he =>
      hnew (he ▸ hsub.ids.rows r (mem_symbolRows.1 hr).1)
    have hsaved : Alike symbol Q (sv.subscribe s m.symbol) ((sv.subscribe s m.symbol).saveSubmission env
        ⟨generateUuid env.uuid, s, m, b.tickSize⟩ (submittedOrder env m b.tickSize)) :=
      .saved hcut fun r hr => by
        show r.id ≠ cStr (generateUuid env.uuid)
        rw [cStr_generateUuid]
        exact hrow r hr
    have hlive : ∀ {sv' : Server}, sv'.orderbooks = (sv.subscribe s m.symbol).orderbooks →
        ¬ sv'.Live (generateUuid env.uuid) := fun heq hl => by
      unfold Live at hl
      rw [heq] at hl
      exact hnew (hsub.ids.live hl)
    have hadded := Alike.added_other (Q := Q) (by
        rw [saveSubmission_disk]
        exact ⟨hsub.sound.books, hsub.sound.symbol, hsub.sound.posted⟩) (hsub.ids.saved hsess m b.tickSize hnew)
      (hsub.apart.saved hsub.ids _ m b.tickSize hnew) ha hm hQ (mem_saveSubmission ..).1
      (hlive (saveSubmission_orderbooks ..)) fun r hr => hrow r (hsaved.rows ▸ hr)
    refine ((Alike.subscribe s m.symbol).trans hsaved).trans (hadded.trans (.acknowledge ?_ s))
    rintro ⟨x, q, hx, hq⟩
    have hid : (out.state.heap b.nextPtr).id = generateUuid env.uuid := by
      rw [(ha.call.static b.nextPtr).id, alloc_heap_self]
      rfl
    rw [hid] at hq
    rcases ha.live_cases hx hq with ⟨y, hy, hyq⟩ | ⟨-, hsym, -⟩
    · exact hlive (saveSubmission_orderbooks ..) ⟨symbol, y, q, hy, hyq⟩
    · exact hm hsym.symm

/-- A cancel of an order in another book. -/
theorem handleOrderCancel_other (h : IsolationInv symbol sv) {name id : String} (hn : name ≠ symbol)
    (hin : sv.InBook name id) : Alike symbol Q sv (sv.handleOrderCancel env id s) := by
  obtain ⟨y, q, hy, hq⟩ := hin
  unfold handleOrderCancel
  split_ifs
  · rcases cancelLoop_effect h.sound env id sv.orderbooks.entries fun e he => SortedMap.find?_eq_some_iff.2 he with
      ⟨h1, -⟩ | ⟨name', b, p, b', sv', h1, hc⟩
    · rw [h1]
      exact .sendMessage ..
    · rw [h1]
      have hp : b.getOrder id = some p := hc.inv.index.2 ⟨hc.cancel.id, .inl hc.cancel.held⟩
      exact .cancelled_other h.ids h.apart hc (h.ids.oneBook hy hq hc.book hp ▸ hn)
  · exact .sendMessage ..

/-- A message about another symbol leads to a server alike in this one. -/
theorem hidden (h : IsolationInv symbol sv) {e : Env × Event} (hid : concernsOther symbol sv e = true)
    (hstep : sv.step e = some sv') (hnd : sv'.uuids.Nodup) (hQ : Q → ∀ t ∈ sv'.trades, t.symbol = symbol)
    (hu : Untruncated symbol sv') : Alike symbol Q sv sv' := by
  obtain ⟨env, ev⟩ := e
  cases ev with
  | message s m =>
    unfold step at hstep
    dsimp only at hstep
    split_ifs at hstep with hsess
    · have hlt := hasSession_lt hsess
      cases m with
      | login _ _ | register _ _ | other => cases hid
      | orderSubmit m =>
        have hauth : Alike symbol Q sv (sv.requireAuth s "trade").2 := .requireAuth ..
        have hq := Quiet.requireAuth sv s "trade"
        unfold handleMessage at hstep
        dsimp only at hstep
        split_ifs at hstep
        · exact hauth.trans (handleOrderSubmit_other (h.quiet hq) (of_decide_eq_true hid) (by rw [hq.nextSession]; exact hlt) hstep
            hnd hQ hu)
        · cases hstep
          exact hauth
      | snapshotRequest name =>
        have hauth : Alike symbol Q sv (sv.requireAuth s "view").2 := .requireAuth ..
        unfold handleMessage at hstep
        dsimp only at hstep
        split_ifs at hstep
        · cases hstep
          exact hauth.trans (handleSnapshotRequest_other (of_decide_eq_true hid) s)
        · cases hstep
          exact hauth
      | orderCancel id c =>
        have hauth : Alike symbol Q sv (sv.requireAuth s "trade").2 := .requireAuth ..
        have hq := Quiet.requireAuth sv s "trade"
        obtain ⟨name, hn, hin⟩ := any_otherBook.1 hid
        unfold handleMessage at hstep
        dsimp only at hstep
        split_ifs at hstep
        · cases hstep
          exact hauth.trans (handleOrderCancel_other (h.quiet hq) hn (hin.congr (by rw [hq.orderbooks])))
        · cases hstep
          exact hauth
      | orderStatus id c =>
        have hauth : Alike symbol Q sv (sv.requireAuth s "view").2 := .requireAuth ..
        unfold handleMessage at hstep
        dsimp only at hstep
        split_ifs at hstep
        · cases hstep
          exact hauth.trans (handleOrderStatus id)
        · cases hstep
          exact hauth
    · cases hstep
      exact refl sv
  | _ => cases hid

end Alike

end Server

end OrderbookGC
