/-
Symbol isolation. All books share one trade callback, one order callback, one ownership map, one order table and one
order generator, and a cancel is tried on every book. Two histories that agree on the messages that do not concern other
symbols leave the same book and the same trades of a symbol, whatever the rest did (`run_isolated`); the reference price
of the generator is the exception, every trade moves it, of whatever symbol.
-/
import OrderbookGC.Server.Apart

namespace OrderbookGC

open Container OrderBook MatchState

namespace Server

variable {symbol : String} {Q : Prop} {env : Env} {sv sv' : Server} {s : SessionPtr}

namespace Alike

/-! ## Events on both sides -/

/-- The order a posted event adds to another book. -/
theorem handlePosted_other (h : IsolationInv symbol sv) {o : Order ℚ} {rest : List (Order ℚ)} (hp : sv.posted = o :: rest)
    (hn : o.symbol ≠ symbol) (hr : sv.handlePosted env = some sv') (hQ : Q → ∀ t ∈ sv'.trades, t.symbol = symbol) :
    Alike symbol Q { sv with posted := rest } sv' := by
  have hmem : o ∈ sv.posted := by rw [hp]; exact List.mem_cons_self
  cases hb : sv.orderbooks.find? o.symbol with
  | none =>
    unfold handlePosted getOrderbook at hr
    rw [hp] at hr
    dsimp only at hr
    rw [hb] at hr
    cases hr
    exact refl _
  | some b =>
    obtain ⟨out, sv₁, h1, ha⟩ := handlePosted_added env h.sound hp hb
    cases hr.symm.trans h1
    have hS : Sound { sv with posted := rest } :=
      ⟨h.sound.books, h.sound.symbol, fun q hq => h.sound.posted q (by rw [hp]; exact List.mem_cons_of_mem _ hq)⟩
    have hA : RowsApart symbol { sv with posted := rest } := h.apart.of_eq (fun hin => hin) rfl
    exact .added_other hS (h.ids.popPosted hp) hA ha hn hQ (h.ids.posted o hmem).1 (h.ids.posted o hmem).2
      fun r hr => h.ids.postedRow o hmem r (mem_symbolRows.1 hr).1

theorem handlePosted_both (hst : env.Steady) (h : Alike symbol Q sv sv') (hI : IsolationInv symbol sv)
    (hI' : IsolationInv symbol sv') {r r' : Server} (hr : sv.handlePosted env = some r) (hr' : sv'.handlePosted env = some r')
    (hQ : Q → ∀ t ∈ r.trades, t.symbol = symbol) (hQ' : Q → ∀ t ∈ r'.trades, t.symbol = symbol) : Alike symbol Q r r' := by
  cases hp : sv.posted with
  | nil =>
    have hp' : sv'.posted = [] := h.posted.trans hp
    unfold handlePosted at hr hr'
    rw [hp] at hr
    rw [hp'] at hr'
    cases hr
    cases hr'
    exact h
  | cons o rest =>
    have hp' : sv'.posted = o :: rest := h.posted.trans hp
    have hpop : Alike symbol Q { sv with posted := rest } { sv' with posted := rest } := { h with posted := rfl }
    by_cases hn : o.symbol = symbol
    · cases hb : sv.orderbooks.find? o.symbol with
      | none =>
        have hb' : sv'.orderbooks.find? o.symbol = none := by rw [hn, h.book, ← hn, hb]
        unfold handlePosted getOrderbook at hr hr'
        rw [hp] at hr
        rw [hp'] at hr'
        dsimp only at hr hr'
        rw [hb] at hr
        rw [hb'] at hr'
        cases hr
        cases hr'
        exact hpop
      | some b =>
        have hb' : sv'.orderbooks.find? o.symbol = some b := by rw [hn, h.book, ← hn, hb]
        obtain ⟨out, sv₁, h1, ha⟩ := handlePosted_added env hI.sound hp hb
        obtain ⟨out', sv₂, h2, ha'⟩ := handlePosted_added env hI'.sound hp' hb'
        cases hr.symm.trans h1
        cases hr'.symm.trans h2
        exact (hpop.added_both hst ha ha' hn (hI.postedNoOwner (by rw [hp]; exact List.mem_cons_self))
          (hI'.postedNoOwner (by rw [hp']; exact List.mem_cons_self))).2.2
    · exact ((handlePosted_other hI hp hn hr hQ).symm.trans hpop).trans (handlePosted_other hI' hp' hn hr' hQ')

/-- A cancel by the generator on another book. -/
theorem cancelOrder_other (hS : Sound sv) (hI : IdInv sv) (hA : RowsApart symbol sv) {name id : String} {b : OrderBook ℚ}
    (hb : sv.orderbooks.find? name = some b) (hn : name ≠ symbol) : Alike symbol Q sv (sv.cancelOrder env name b id).2 := by
  cases hx : b.ordersById.find? id with
  | none =>
    rw [cancelOrder_miss hb hx]
    exact refl sv
  | some p =>
    obtain ⟨b', sv', h1, hc⟩ := cancelOrder_hit hS env hb hx
    rw [h1]
    exact .cancelled_other hI hA hc hn

theorem tryCancel_both (hst : env.Steady) (h : Alike symbol Q sv sv') (hI : IsolationInv symbol sv)
    (hI' : IsolationInv symbol sv') (i : Nat) : Alike symbol Q (sv.tryCancel env i) (sv'.tryCancel env i) := by
  unfold tryCancel
  rcases h.generator_cases with ⟨h1, h2⟩ | ⟨g, g', h1, h2, hsym, htick, hmax, htr, hp⟩
  · rw [h1, h2]
    exact h
  · rw [h1, h2]
    dsimp only
    rw [htr, hsym]
    cases g.tracked[i]? with
    | none => exact h
    | some id =>
      have hset : Alike symbol Q { sv with generator := some { g with tracked := g.tracked.eraseIdx i } }
          { sv' with generator := some { g' with tracked := g.tracked.eraseIdx i, symbol := g.symbol } } :=
        h.setGenerator_both _ _ (unpriced_eq.2 ⟨rfl, htick, hmax, rfl⟩) hp
      have hq : ∀ (sv : Server) g, Quiet sv { sv with generator := some g } := fun sv g => { Quiet.refl sv with }
      have hS := hI.quiet (hq sv { g with tracked := g.tracked.eraseIdx i })
      have hS' := hI'.quiet (hq sv' { g' with tracked := g.tracked.eraseIdx i, symbol := g.symbol })
      dsimp only
      generalize ({ sv with generator := some { g with tracked := g.tracked.eraseIdx i } } : Server) = sv₁ at hset hS ⊢
      generalize ({ sv' with generator := some { g' with tracked := g.tracked.eraseIdx i, symbol := g.symbol } } : Server) = sv₂
        at hset hS' ⊢
      unfold getOrderbook
      by_cases hn : g.symbol = symbol
      · rw [hn, hset.book]
        cases hb : sv₁.orderbooks.find? symbol with
        | none => exact hset
        | some b => exact (hset.cancelOrder_both hst hS.sound hb id).2
      · -- another book, on either side
        have hother : ∀ {sv : Server} {b : OrderBook ℚ}, IsolationInv symbol sv → sv.orderbooks.find? g.symbol = some b →
            Alike symbol Q sv (sv.cancelOrder env g.symbol b id).2 := fun hI hb =>
          cancelOrder_other hI.sound hI.ids hI.apart hb hn
        cases hb : sv₁.orderbooks.find? g.symbol with
        | none =>
          cases hb' : sv₂.orderbooks.find? g.symbol with
          | none => exact hset
          | some b' => exact hset.trans (hother hS' hb')
        | some b =>
          cases hb' : sv₂.orderbooks.find? g.symbol with
          | none => exact (hother hS hb).symm.trans hset
          | some b' => exact ((hother hS hb).symm.trans hset).trans (hother hS' hb')

end Alike

/-! ## A restart on both sides -/

/-- A stable sort of a part of a list is that part of the sorted list. -/
theorem filter_orderedInsert {α β : Type} [LinearOrder β] (f : α → β) (p : α → Bool) (a : α) : ∀ {l : List α},
    l.Pairwise (fun x y => f x ≤ f y) → (l.orderedInsert (fun x y => f x ≤ f y) a).filter p =
      if p a then (l.filter p).orderedInsert (fun x y => f x ≤ f y) a else l.filter p
  | [], _ => by cases h : p a <;> simp [h]
  | b :: l, hl => by
    obtain ⟨hb, hl⟩ := List.pairwise_cons.1 hl
    by_cases hab : f a ≤ f b
    · rw [List.orderedInsert_cons_of_le _ l hab, List.filter_cons]
      split_ifs
      · -- everything that is left comes after the new element
        have hall : ∀ c ∈ (b :: l).filter p, f a ≤ f c := fun c hc => by
          rcases List.mem_cons.1 (List.mem_of_mem_filter hc) with rfl | hc
          · exact hab
          · exact hab.trans (hb c hc)
        cases hf : (b :: l).filter p with
        | nil => rfl
        | cons c m => exact (List.orderedInsert_cons_of_le _ m (hall c (by rw [hf]; exact List.mem_cons_self))).symm
      · rfl
    · rw [List.orderedInsert_of_not_le _ l hab, List.filter_cons, filter_orderedInsert f p a hl, List.filter_cons]
      split_ifs with hpb hpa
      · exact (List.orderedInsert_of_not_le (fun x y => f x ≤ f y) _ hab).symm
      · rfl
      · rfl
      · rfl

theorem filter_insertionSort {α β : Type} [LinearOrder β] (f : α → β) (p : α → Bool) : ∀ l : List α,
    (l.insertionSort fun x y => f x ≤ f y).filter p = (l.filter p).insertionSort fun x y => f x ≤ f y
  | [] => rfl
  | a :: l => by
    have : Std.Total fun x y : α => f x ≤ f y := ⟨fun x y => le_total (f x) (f y)⟩
    have : IsTrans α fun x y => f x ≤ f y := ⟨fun _ _ _ h h' => le_trans h h'⟩
    rw [List.insertionSort_cons, filter_orderedInsert f p a (List.pairwise_insertionSort _ l), filter_insertionSort f p l,
      List.filter_cons]
    split_ifs <;> rfl

/-- The active rows of a symbol are loaded in the same order on both sides. -/
theorem loadAllActiveOrders_symbol (symbol : String) (now : Int) (db : Db) :
    (db.loadAllActiveOrders now).filter (·.symbol = symbol) =
      (((symbolRows symbol db.orders).filter Db.isActive).insertionSort (fun a b => a.createdAt ≤ b.createdAt)).map
        (Db.restoreOrder now) := by
  unfold Db.loadAllActiveOrders Db.activeRows symbolRows
  rw [List.filter_map, List.filter_filter]
  have hsym : (fun o : Order ℚ => decide (o.symbol = symbol)) ∘ Db.restoreOrder now = fun r => decide (r.symbol = symbol) :=
    funext fun r => by rw [Function.comp_apply, restoreOrder_symbol]
  rw [hsym, filter_insertionSort, List.filter_filter]
  congr 2
  exact List.filter_congr fun r _ => Bool.and_comm ..

namespace Alike

theorem boot_both (h : Alike symbol Q sv sv') : Alike symbol Q sv.boot sv'.boot := by
  obtain ⟨m, hm, hfind⟩ := boot_eq sv
  obtain ⟨m', hm', hfind'⟩ := boot_eq sv'
  rw [hm, hm']
  refine { h with
    book := ?_, firstSession := h.nextSession, sessions := rfl, owner := fun _ _ => rfl, generator := rfl
    price := fun _ => rfl, posted := rfl, storeOpen := rfl }
  show m'.find? symbol = m.find? symbol
  rw [hfind, hfind', h.config]

theorem seedDefaultUsers_both (hst : env.Steady) (h : Alike symbol Q sv sv') :
    Alike symbol Q (sv.seedDefaultUsers env) (sv'.seedDefaultUsers env) := by
  unfold Server.seedDefaultUsers
  rw [h.users]
  split_ifs with he
  · clear he
    generalize Db.defaultUsers.zipIdx = l
    induction l generalizing sv sv' with
    | nil => exact h
    | cons u l ih => exact ih (h.saveUser_both hst u.1 (env.salts u.2)).2
  · exact h

end Alike

/-- One order of the restore loop: it is skipped, or added to its book. -/
theorem restore_cases (hS : Sound sv) {r : OrderRow} (h : restore env sv (Db.restoreOrder env.now r) = some sv') :
    sv.orderbooks.find? r.symbol = none ∧ sv' = sv ∨ ∃ b out, Added env (Db.restoreOrder env.now r) b out sv sv' := by
  unfold restore getOrderbook at h
  rw [restoreOrder_symbol] at h
  cases hb : sv.orderbooks.find? r.symbol with
  | none =>
    rw [hb] at h
    cases h
    exact .inl ⟨rfl, rfl⟩
  | some b =>
    rw [hb] at h
    obtain ⟨out, sv₁, h1, ha⟩ := addOrder_added (o := Db.restoreOrder env.now r) hS env (by rw [restoreOrder_symbol]; exact hb)
      (restoreOrder_fresh env.now r)
    simp only [h1, Option.map_some, Option.some.injEq] at h
    exact .inr ⟨b, out, h ▸ ha⟩

/-- The loop only adds trades. -/
theorem restoreLoop_trades (hS : Sound sv) {rows : List OrderRow}
    (h : (rows.map (Db.restoreOrder env.now)).foldlM (restore env) sv = some sv') : sv.trades ⊆ sv'.trades := by
  obtain ⟨sv₁, h1, h2, -⟩ := restore_effect env rows sv hS
  cases h.symm.trans h1
  exact h2.rule (K := fun x => sv.trades ⊆ x.trades) (List.Subset.refl _) fun ha hx t ht => by
    rw [ha.trades]
    exact List.mem_append_left _ (hx ht)

/-- The restore loop before the given orders, when under `Q` none of its trades is of another symbol. -/
def Looping (symbol : String) (Q : Prop) (env : Env) (l : List (Order ℚ)) (sv : Server) : Prop :=
  ∃ rows : List OrderRow, l = rows.map (Db.restoreOrder env.now) ∧ RestoringApart symbol rows sv ∧ Sound sv ∧
    (Q → ∀ sv', l.foldlM (restore env) sv = some sv' → ∀ t ∈ sv'.trades, t.symbol = symbol)

namespace Looping

variable {o : Order ℚ} {l : List (Order ℚ)}

theorem next (h : Looping symbol Q env (o :: l) sv) (hstep : restore env sv o = some sv') : Looping symbol Q env l sv' := by
  obtain ⟨rows, hl, hR, hS, hQ⟩ := h
  cases rows with
  | nil => cases hl
  | cons r rows =>
    obtain ⟨rfl, rfl⟩ := List.cons.inj hl
    have hQ' : Q → ∀ sv'', (rows.map (Db.restoreOrder env.now)).foldlM (restore env) sv' = some sv'' →
        ∀ t ∈ sv''.trades, t.symbol = symbol := fun hq sv'' h => hQ hq sv'' (by rw [List.foldlM_cons, hstep]; exact h)
    rcases restore_cases hS hstep with ⟨-, rfl⟩ | ⟨b, out, ha⟩
    · exact ⟨rows, rfl, hR.skip, hS, hQ'⟩
    · exact ⟨rows, rfl, hR.add ha, ha.sound hS, hQ'⟩

/-- A row of another symbol leads to a server alike in this one. -/
theorem other (h : Looping symbol Q env (o :: l) sv) (hn : o.symbol ≠ symbol) (hstep : restore env sv o = some sv') :
    Alike symbol Q sv sv' := by
  have hnext := h.next hstep
  obtain ⟨rows, hl, hR, hS, hQ⟩ := h
  obtain ⟨rows', rfl, -, hS', hQ'⟩ := hnext
  cases rows with
  | nil => cases hl
  | cons r rows =>
    obtain ⟨rfl, -⟩ := List.cons.inj hl
    rcases restore_cases hS hstep with ⟨-, rfl⟩ | ⟨b, out, ha⟩
    · exact .refl _
    · obtain ⟨hk, hl⟩ := hR.todo r List.mem_cons_self
      obtain ⟨sv'', hrun, -⟩ := restore_effect env rows' sv' hS'
      refine .added_other hS hR.toIdInv hR.apart ha hn (fun hq t ht => hQ' hq sv'' hrun t (restoreLoop_trades hS' hrun ht))
        ?_ ?_ fun r' hr' => ?_
      · rw [restoreOrder_id]; exact hk
      · rw [restoreOrder_id]; exact hl
      · rw [restoreOrder_id]
        rw [restoreOrder_symbol] at hn
        exact hR.todoApart r List.mem_cons_self hn r' hr'

/-- A row of the symbol is restored on both sides. -/
theorem both {l' : List (Order ℚ)} {sv₁ sv₁' : Server} (hst : env.Steady) (h : Looping symbol Q env (o :: l) sv)
    (h' : Looping symbol Q env (o :: l') sv') (hA : Alike symbol Q sv sv') (hn : o.symbol = symbol)
    (hstep : restore env sv o = some sv₁) (hstep' : restore env sv' o = some sv₁') : Alike symbol Q sv₁ sv₁' := by
  obtain ⟨rows, hl, hR, hS, -⟩ := h
  obtain ⟨rows', hl', hR', hS', -⟩ := h'
  cases rows with
  | nil => cases hl
  | cons r rows =>
    obtain ⟨rfl, -⟩ := List.cons.inj hl
    unfold restore getOrderbook at hstep hstep'
    cases hb : sv.orderbooks.find? (Db.restoreOrder env.now r).symbol with
    | none =>
      have hb' : sv'.orderbooks.find? (Db.restoreOrder env.now r).symbol = none := by rw [hn, hA.book, ← hn, hb]
      rw [hb] at hstep
      rw [hb'] at hstep'
      cases hstep
      cases hstep'
      exact hA
    | some b =>
      have hb' : sv'.orderbooks.find? (Db.restoreOrder env.now r).symbol = some b := by rw [hn, hA.book, ← hn, hb]
      obtain ⟨out, x, h1, ha⟩ := addOrder_added hS env hb (restoreOrder_fresh env.now r)
      obtain ⟨out', x', h2, ha'⟩ := addOrder_added hS' env hb' (restoreOrder_fresh env.now r)
      simp only [hb, h1, Option.map_some, Option.some.injEq] at hstep
      simp only [hb', h2, Option.map_some, Option.some.injEq] at hstep'
      subst hstep
      subst hstep'
      exact (hA.added_both hst ha ha' hn (hR.noOwner _) (hR'.noOwner _)).2.2

end Looping

/-- Two restore loops that agree on the rows of the symbol. -/
theorem Alike.restoreLoop_both (hst : env.Steady) {l l' : List (Order ℚ)} {r r' : Server} (h : Alike symbol Q sv sv')
    (hL : Looping symbol Q env l sv) (hL' : Looping symbol Q env l' sv')
    (heq : l.filter (·.symbol = symbol) = l'.filter (·.symbol = symbol)) (hr : l.foldlM (restore env) sv = some r)
    (hr' : l'.foldlM (restore env) sv' = some r') : Alike symbol Q r r' := by
  have hpurge : Machine.purge (restore env) (fun _ o => !decide (o.symbol = symbol)) sv l =
      Machine.purge (restore env) (fun _ o => !decide (o.symbol = symbol)) sv' l' := by
    rw [Machine.purge_eq_filter hr, Machine.purge_eq_filter hr', heq]
  refine Machine.unwind (fun o l s s' hI hs => hI.next hs) (fun o l s s' hI hid hs => hI.other (by simpa using hid) hs) ?_
    Alike.refl Alike.symm Alike.trans hL hL' h hpurge hr hr'
  intro o l l' s t s' t' hI hI' hR hid _ hs ht
  exact hI.both hst hI' hR (by simpa using hid) hs ht

/-- The configured books are there, with the tick size they were created with. -/
def Configured (sv : Server) : Prop := ∀ x ∈ sv.config.symbols, ∃ b, sv.orderbooks.find? x = some b ∧
  b.tickSize = (OrderBook.new x defaultTickSize).tickSize

theorem Booted.configured (h : Booted env sv sv') : Configured sv' := fun x hx => by
  rw [h.config] at hx
  exact ⟨_, by rw [h.orderbooks, if_pos hx], rfl⟩

theorem Configured.added (h : Configured sv) {o : Order ℚ} {b : OrderBook ℚ} {out : AddOutcome ℚ}
    (ha : Added env o b out sv sv') : Configured sv' := fun x hx => by
  rw [ha.dispatched.config] at hx
  obtain ⟨y, hy, ht⟩ := h x hx
  rw [ha.find?]
  split_ifs with hn
  · have hyb : y = b := Option.some.inj (hy.symm.trans (hn ▸ ha.book))
    exact ⟨_, rfl, ha.call.tickSize.trans (hyb ▸ ht)⟩
  · exact ⟨y, hy, ht⟩

/-- A process that opens its store runs the restore loop on the books `main` has created. -/
theorem initPersistence_looping (symbol : String) (Q : Prop) {r : Server} (hI : IdInv sv) (g : Option Generator) (ho : (env.opens.1 || env.opens.2) = true)
    (hr : initPersistence { sv.boot with generator := g } env true = some r) :
    (r.storeOpen = true ∧ Configured r) ∧ ∃ sv₁, sv₁ = seedDefaultUsers { sv.boot with storeOpen := true, generator := g } env ∧
      (sv₁.disk.loadAllActiveOrders env.now).foldlM (restore env) sv₁ = some r ∧
      ((Q → ∀ t ∈ r.trades, t.symbol = symbol) → Looping symbol Q env (sv₁.disk.loadAllActiveOrders env.now) sv₁) := by
  have hdisk : sv.boot.disk = sv.disk := by
    obtain ⟨m, hm, -⟩ := boot_eq sv
    rw [hm]; rfl
  obtain ⟨disk, n, h1, h2, h3⟩ := seedDefaultUsers_eq { sv.boot with storeOpen := true, generator := g } env
  have hb := boot_booted sv env disk n g (h2.trans (congrArg Db.orders hdisk)) (h3.trans (congrArg Db.trades hdisk))
  rw [ho, ← h1] at hb
  unfold initPersistence at hr
  simp only [if_true] at hr
  generalize hsv₁ : seedDefaultUsers { sv.boot with storeOpen := true, generator := g } env = sv₁ at h1 hb hr
  have hopen : sv₁.storeOpen = true := by rw [h1]
  obtain ⟨r₁, h4, h5, -⟩ := restore_effect env sv₁.disk.activeRows sv₁ hb.sound
  cases hr.symm.trans h4
  refine ⟨⟨?_, ?_⟩, sv₁, rfl, hr, fun hQ => ⟨sv₁.disk.activeRows, rfl, ?_, hb.sound, fun hq sv' hsv' => ?_⟩⟩
  · exact h5.rule (K := fun sv => sv.storeOpen = true) hopen fun ha h => by rw [ha.dispatched.storeOpen]; exact h
  · exact h5.rule hb.configured fun ha h => h.added ha
  · rw [← if_pos (c := sv₁.storeOpen = true) (t := sv₁.disk.activeRows) (e := []) hopen]
    exact .booted hI hb
  · cases hr.symm.trans hsv'
    exact hQ hq

namespace Alike

theorem initPersistence_both (hst : env.Steady) (hI : IdInv sv) (hI' : IdInv sv') (g g' : Option Generator) {r r' : Server}
    (h : Alike symbol Q { sv.boot with generator := g } { sv'.boot with generator := g' })
    (ho : (env.opens.1 || env.opens.2) = true) (hr : initPersistence { sv.boot with generator := g } env true = some r)
    (hr' : initPersistence { sv'.boot with generator := g' } env true = some r')
    (hQ : Q → ∀ t ∈ r.trades, t.symbol = symbol) (hQ' : Q → ∀ t ∈ r'.trades, t.symbol = symbol) : Alike symbol Q r r' := by
  obtain ⟨-, sv₁, h1, hrun, hL⟩ := initPersistence_looping symbol Q hI g ho hr
  obtain ⟨-, sv₁', h1', hrun', hL'⟩ := initPersistence_looping symbol Q hI' g' ho hr'
  have hopen : Alike symbol Q { sv.boot with storeOpen := true, generator := g }
      { sv'.boot with storeOpen := true, generator := g' } := { h with storeOpen := rfl }
  have hseed := hopen.seedDefaultUsers_both hst
  rw [← h1, ← h1'] at hseed
  refine hseed.restoreLoop_both hst (hL hQ) (hL' hQ') ?_ hrun hrun'
  rw [loadAllActiveOrders_symbol, loadAllActiveOrders_symbol, hseed.rows]

theorem configureOrderGenerator_both (h : Alike symbol Q sv sv') (hc : Configured sv) (hc' : Configured sv') :
    Alike symbol Q sv.configureOrderGenerator sv'.configureOrderGenerator := by
  unfold Server.configureOrderGenerator
  rw [congrArg Config.generator h.config, congrArg Config.symbols h.config]
  unfold Configured at hc'
  rw [h.config] at hc'
  unfold Configured at hc
  cases sv.config.generator with
  | false => exact h
  | true =>
    cases hs : sv.config.symbols with
    | nil => exact h
    | cons x xs =>
      rw [hs] at hc hc'
      obtain ⟨b, hb, ht⟩ := hc x List.mem_cons_self
      obtain ⟨b', hb', ht'⟩ := hc' x List.mem_cons_self
      unfold getOrderbook
      simp only [hb, hb', ht, ht']
      exact h.setGenerator_both _ _ rfl fun _ _ => rfl

/-- A process on the databases of two servers that are alike in a symbol. -/
theorem restart_both (hst : env.Steady) (h : Alike symbol Q sv sv') (hI : IdInv sv) (hI' : IdInv sv') {r r' : Server}
    (hr : sv.restart env = some r) (hr' : sv'.restart env = some r') (hQ : Q → ∀ t ∈ r.trades, t.symbol = symbol)
    (hQ' : Q → ∀ t ∈ r'.trades, t.symbol = symbol) : Alike symbol Q r r' := by
  unfold restart at hr hr'
  cases h1 : env.opens.1 with
  | true =>
    have hany : (env.opens.1 || env.opens.2) = true := by rw [h1]; rfl
    rw [h1] at hr hr'
    obtain ⟨x, hx, hr⟩ := Option.bind_eq_some_iff.1 hr
    obtain ⟨x', hx', hr'⟩ := Option.bind_eq_some_iff.1 hr'
    obtain ⟨⟨ho, hc⟩, -⟩ := initPersistence_looping symbol Q hI sv.boot.generator hany hx
    obtain ⟨⟨ho', hc'⟩, -⟩ := initPersistence_looping symbol Q hI' sv'.boot.generator hany hx'
    have hq := Quiet.configureOrderGenerator x
    have hq' := Quiet.configureOrderGenerator x'
    dsimp only at hr hr'
    rw [hq.storeOpen, if_pos ho] at hr
    rw [hq'.storeOpen, if_pos ho'] at hr'
    cases hr
    cases hr'
    have hx : Alike symbol Q x x' := initPersistence_both hst hI hI' sv.boot.generator sv'.boot.generator
      h.boot_both hany hx hx' (fun h t ht => hQ h t (hq.trades ▸ ht)) fun h t ht => hQ' h t (hq'.trades ▸ ht)
    exact hx.configureOrderGenerator_both hc hc'
  | false =>
    have hb : ∀ sv : Server, Configured sv.boot ∧ sv.boot.storeOpen = false := fun sv => by
      obtain ⟨m, hm, hfind⟩ := boot_eq sv
      rw [hm]
      exact ⟨fun x hx => ⟨_, (hfind x).trans (if_pos hx), rfl⟩, rfl⟩
    have hconf := h.boot_both.configureOrderGenerator_both (hb sv).1 (hb sv').1
    obtain ⟨g, hg⟩ := configureOrderGenerator_eq sv.boot
    obtain ⟨g', hg'⟩ := configureOrderGenerator_eq sv'.boot
    have hfirst : ∀ sv : Server, sv.boot.initPersistence env false = some sv.boot := fun _ => rfl
    rw [h1, hfirst, Option.bind_some, hg] at hr
    rw [h1, hfirst, Option.bind_some, hg'] at hr'
    dsimp only at hr hr'
    rw [if_neg (by rw [(hb sv).2]; simp)] at hr
    rw [if_neg (by rw [(hb sv').2]; simp)] at hr'
    rw [hg, hg'] at hconf
    cases h2 : env.opens.2 with
    | true =>
      rw [h2] at hr hr'
      exact initPersistence_both hst hI hI' g g' hconf (by rw [h1, h2]; rfl) hr hr' hQ hQ'
    | false =>
      rw [h2] at hr hr'
      cases hr
      cases hr'
      exact hconf

/-- A message that is not about another symbol, on both sides. -/
theorem handleMessage_both (hst : env.Steady) (h : Alike symbol Q sv sv') (hI : IsolationInv symbol sv)
    (hI' : IsolationInv symbol sv') {m : Request} {r r' : Server}
    (hv : concernsOther symbol sv (env, .message s m) = false) (hv' : concernsOther symbol sv' (env, .message s m) = false)
    (hr : sv.handleMessage env m s = some r) (hr' : sv'.handleMessage env m s = some r') (hnd : r.uuids.Nodup)
    (hnd' : r'.uuids.Nodup) : Alike symbol Q r r' := by
  cases m with
  | login username password =>
    cases hr
    cases hr'
    exact h.handleLogin_both ..
  | register username password =>
    cases hr
    cases hr'
    exact h.handleRegister_both hst ..
  | other =>
    cases hr
    cases hr'
    exact h.send_both s _ _
  | snapshotRequest name =>
    have hA := h.requireAuth_both s "view"
    obtain rfl : name = symbol := by simpa [concernsOther] using hv
    unfold handleMessage at hr hr'
    dsimp only at hr hr'
    rw [h.requireAuth_fst] at hr'
    split_ifs at hr hr'
    · cases hr
      cases hr'
      exact hA.handleSnapshotRequest_both s
    · cases hr
      cases hr'
      exact hA
  | orderSubmit m =>
    have hA := h.requireAuth_both s "trade"
    have hI₁ := hI.quiet (Quiet.requireAuth sv s "trade")
    have hI₁' := hI'.quiet (Quiet.requireAuth sv' s "trade")
    have hm : m.symbol = symbol := by simpa [concernsOther] using hv
    unfold handleMessage at hr hr'
    dsimp only at hr hr'
    rw [h.requireAuth_fst] at hr'
    split_ifs at hr hr'
    · exact hA.handleOrderSubmit_both hst hI₁.sound hI₁'.sound hm hI₁.noOwner hI₁'.noOwner hr hr' hnd hnd'
    · cases hr
      cases hr'
      exact hA
  | orderCancel id c =>
    have hA := h.requireAuth_both s "trade"
    have hq := Quiet.requireAuth sv s "trade"
    have hq' := Quiet.requireAuth sv' s "trade"
    have hin : ∀ {sv x : Server}, concernsOther symbol sv (env, .message s (.orderCancel id c)) = false → Quiet sv x →
        ∀ name, x.InBook name id → name = symbol := fun {sv x} hv hq name hin => by
      by_contra hn
      have hother : concernsOther symbol sv (env, .message s (.orderCancel id c)) = true :=
        any_otherBook.2 ⟨name, hn, hin.congr (by rw [hq.orderbooks])⟩
      rw [hother] at hv
      cases hv
    unfold handleMessage at hr hr'
    dsimp only at hr hr'
    rw [h.requireAuth_fst] at hr'
    split_ifs at hr hr'
    · cases hr
      cases hr'
      exact hA.handleOrderCancel_both hst (hI.quiet hq).sound (hI'.quiet hq').sound (hin hv hq) (hin hv' hq')
    · cases hr
      cases hr'
      exact hA
  | orderStatus id c =>
    have hA := h.requireAuth_both s "view"
    unfold handleMessage at hr hr'
    dsimp only at hr hr'
    rw [h.requireAuth_fst] at hr'
    split_ifs at hr hr'
    · cases hr
      cases hr'
      exact ((handleOrderStatus id).symm.trans hA).trans (handleOrderStatus id)
    · cases hr
      cases hr'
      exact hA

/-- An event that is not about another symbol leaves alike servers alike. -/
theorem visible {e : Env × Event} (hst : e.1.Steady) (h : Alike symbol Q sv sv') (hI : IsolationInv symbol sv)
    (hI' : IsolationInv symbol sv') (hv : concernsOther symbol sv e = false) (hv' : concernsOther symbol sv' e = false)
    {r r' : Server} (hr : sv.step e = some r) (hr' : sv'.step e = some r') (hnd : r.uuids.Nodup) (hnd' : r'.uuids.Nodup)
    (hQ : Q → ∀ t ∈ r.trades, t.symbol = symbol) (hQ' : Q → ∀ t ∈ r'.trades, t.symbol = symbol) : Alike symbol Q r r' := by
  have hsess : ∀ s, sv'.hasSession s = sv.hasSession s := fun s => by
    unfold hasSession
    rw [h.firstSession, h.nextSession]
  obtain ⟨env, ev⟩ := e
  unfold step at hr hr'
  cases ev with
  | connect =>
    cases hr
    cases hr'
    exact h.acceptConnection_both
  | close s =>
    dsimp only at hr hr'
    rw [hsess] at hr'
    cases hr
    cases hr'
    split_ifs
    · exact h.close_both s
    · exact h
  | message s m =>
    dsimp only at hr hr'
    rw [hsess] at hr'
    split_ifs at hr hr'
    · exact h.handleMessage_both hst hI hI' hv hv' hr hr' hnd hnd'
    · cases hr
      cases hr'
      exact h
  | snapshotTimer =>
    cases hr
    cases hr'
    exact ((sendOrderbookSnapshots sv).symm.trans h).trans (sendOrderbookSnapshots sv')
  | generate d =>
    cases hr
    cases hr'
    exact h.generate_both d
  | posted => exact h.handlePosted_both hst hI hI' hr hr' hQ hQ'
  | generatorCancel i =>
    cases hr
    cases hr'
    exact h.tryCancel_both hst hI hI' i
  | createOrderbook name tickSize =>
    cases hr
    cases hr'
    exact h.createOrderbook_both name tickSize
  | setOrderbookTickSize name tickSize =>
    cases hr
    cases hr'
    exact h.setOrderbookTickSize_both name tickSize
  | restart => exact h.restart_both hst hI.ids hI'.ids hr hr' hQ hQ'

end Alike

/-! ## Whole histories -/

/-- Trades and submissions stay logged. -/
theorem Effect.logged {ev : Event} (he : Effect env ev sv sv') : sv.trades ⊆ sv'.trades ∧ sv.submissions ⊆ sv'.submissions := by
  have hadd : ∀ {o b out} {sv sv' : Server}, Added env o b out sv sv' → sv.trades ⊆ sv'.trades ∧ sv.submissions ⊆ sv'.submissions :=
    fun ha => ⟨fun t ht => by rw [ha.trades]; exact List.mem_append_left _ ht, fun x hx => by rw [ha.dispatched.submissions]; exact hx⟩
  have hquiet : ∀ {sv sv' : Server}, Quiet sv sv' → sv.trades ⊆ sv'.trades ∧ sv.submissions ⊆ sv'.submissions :=
    fun hq => ⟨fun t ht => hq.trades ▸ ht, fun x hx => hq.submissions ▸ hx⟩
  have hcancel : ∀ {name id b p b'} {sv sv' : Server}, Cancelled env name id b p b' sv sv' →
      sv.trades ⊆ sv'.trades ∧ sv.submissions ⊆ sv'.submissions := fun hc =>
    ⟨fun t ht => by rw [hc.dispatched.trades]; exact List.mem_append_left _ ht,
      fun x hx => by rw [hc.dispatched.submissions]; exact hx⟩
  have htrans : ∀ {sv sv' sv'' : Server}, sv.trades ⊆ sv'.trades ∧ sv.submissions ⊆ sv'.submissions →
      sv'.trades ⊆ sv''.trades ∧ sv'.submissions ⊆ sv''.submissions → sv.trades ⊆ sv''.trades ∧ sv.submissions ⊆ sv''.submissions :=
    fun h h' => ⟨List.Subset.trans h.1 h'.1, List.Subset.trans h.2 h'.2⟩
  cases he with
  | quiet h => exact hquiet h
  | connected | closed _ | ticked _ | dropped _ => exact ⟨List.Subset.refl _, List.Subset.refl _⟩
  | created h₁ _ h₂ =>
    have hlog := hquiet h₂
    exact htrans (hquiet h₁) ⟨hlog.1, hlog.2⟩
  | submitted _ _ h₁ ha =>
    have hlog := hadd ha
    refine htrans (hquiet h₁) (htrans ?_ ⟨hlog.1, hlog.2⟩)
    rw [saveSubmission_disk]
    exact ⟨List.Subset.refl _, List.subset_append_left ..⟩
  | cancelled _ h₁ _ hc => exact htrans (hquiet h₁) (hcancel hc)
  | reported _ h₁ _ _ _ =>
    have hlog := hquiet h₁
    exact ⟨hlog.1, hlog.2⟩
  | generated hg =>
    unfold generate
    rw [hg]
    exact ⟨List.Subset.refl _, List.Subset.refl _⟩
  | posted _ ha =>
    have hlog := hadd ha
    exact ⟨hlog.1, hlog.2⟩
  | generatorCancelled h₁ hc => exact htrans (hquiet h₁) (hcancel hc)
  | restarted hb hr hq =>
    refine htrans (hr.rule (K := fun x => sv.trades ⊆ x.trades ∧ sv.submissions ⊆ x.submissions) ?_ fun ha h =>
      htrans h (hadd ha)) (hquiet hq)
    exact ⟨fun t ht => hb.trades ▸ ht, fun x hx => hb.submissions ▸ hx⟩

/-- What a history has drawn, traded and logged so far is in its end. -/
theorem run_logged : ∀ {l : List (Env × Event)} {sv sv' : Server}, Sound sv → l.foldlM step sv = some sv' →
    sv.uuids <+: sv'.uuids ∧ sv.trades ⊆ sv'.trades ∧ sv.submissions ⊆ sv'.submissions
  | [], _, _, _, h => by
    cases h
    exact ⟨List.prefix_refl _, List.Subset.refl _, List.Subset.refl _⟩
  | (env, ev) :: l, sv, sv', hS, h => by
    obtain ⟨sv₁, h1, h⟩ := Machine.foldlM_cons_some h
    obtain ⟨sv₂, h2, he⟩ := step_effect hS env ev
    cases h1.symm.trans h2
    obtain ⟨hu, ht, hs⟩ := run_logged (he.sound hS) h
    exact ⟨he.uuids.trans hu, List.Subset.trans he.logged.1 ht, List.Subset.trans he.logged.2 hs⟩

/-- The server before the given events of a history whose end is as described. -/
structure Isolating (symbol : String) (Q : Prop) (l : List (Env × Event)) (sv : Server) : Prop extends
    IsolationInv symbol sv where
  steady : ∀ e ∈ l, e.1.Steady
  nodup : ∀ sv', l.foldlM step sv = some sv' → sv'.uuids.Nodup
  untruncated : ∀ sv', l.foldlM step sv = some sv' → Untruncated symbol sv'
  ownTrades : Q → ∀ sv', l.foldlM step sv = some sv' → ∀ t ∈ sv'.trades, t.symbol = symbol

namespace Isolating

variable {l : List (Env × Event)} {e : Env × Event}

/-- What the end of the history says about the state after its first event. -/
theorem now (h : Isolating symbol Q (e :: l) sv) (hs : sv.step e = some sv') :
    sv'.uuids.Nodup ∧ Untruncated symbol sv' ∧ (Q → ∀ t ∈ sv'.trades, t.symbol = symbol) := by
  obtain ⟨env, ev⟩ := e
  obtain ⟨sv₁, h1, he⟩ := step_effect h.sound env ev
  cases hs.symm.trans h1
  obtain ⟨r, hr, -⟩ := Machine.foldlM_prefix (l := l) (I := fun _ sv => Sound sv) (fun _ e sv _ hS => by
    obtain ⟨sv', h, he⟩ := step_effect hS e.1 e.2
    exact ⟨sv', h, he.sound hS⟩) (he.sound h.sound)
  have hrun : ((env, ev) :: l).foldlM step sv = some r := by rw [List.foldlM_cons, hs]; exact hr
  obtain ⟨hu, ht, hx⟩ := run_logged (he.sound h.sound) hr
  exact ⟨(h.nodup r hrun).sublist hu.sublist, fun x hm => h.untruncated r hrun x (hx hm),
    fun hq t hm => h.ownTrades hq r hrun t (ht hm)⟩

theorem next (h : Isolating symbol Q (e :: l) sv) (hs : sv.step e = some sv') : Isolating symbol Q l sv' := by
  obtain ⟨hnd, hu, -⟩ := h.now hs
  have hrest : ∀ {r}, l.foldlM step sv' = some r → (e :: l).foldlM step sv = some r := fun hr => by
    rw [List.foldlM_cons, hs]
    exact hr
  obtain ⟨env, ev⟩ := e
  obtain ⟨sv₁, h1, he⟩ := step_effect h.sound env ev
  cases hs.symm.trans h1
  exact ⟨he.isolationInv h.toIsolationInv hnd hu, fun e he => h.steady e (List.mem_cons_of_mem _ he),
    fun r hr => h.nodup r (hrest hr), fun r hr => h.untruncated r (hrest hr), fun hq r hr => h.ownTrades hq r (hrest hr)⟩

end Isolating

/-- Two histories that agree on the messages that are not about other symbols end alike. -/
theorem isolating_alike {l l' : List (Env × Event)} {r r' : Server} (hI : Isolating symbol Q l sv)
    (hI' : Isolating symbol Q l' sv') (h : Alike symbol Q sv sv')
    (hpurge : Machine.purge step (concernsOther symbol) sv l = Machine.purge step (concernsOther symbol) sv' l')
    (hr : l.foldlM step sv = some r) (hr' : l'.foldlM step sv' = some r') : Alike symbol Q r r' := by
  refine Machine.unwind (fun e l s s' hI hs => hI.next hs) (fun e l s s' hI hid hs => ?_) ?_ Alike.refl Alike.symm Alike.trans
    hI hI' h hpurge hr hr'
  · obtain ⟨hnd, hu, hQ⟩ := hI.now hs
    exact .hidden hI.toIsolationInv hid hs hnd hQ hu
  · intro e l l' s t s' t' hI hI' hR hv hv' hs ht
    obtain ⟨hnd, -, hQ⟩ := hI.now hs
    obtain ⟨hnd', -, hQ'⟩ := hI'.now ht
    exact hR.visible (hI.steady e List.mem_cons_self) hI.toIsolationInv hI'.toIsolationInv hv hv' hs ht hnd hnd' hQ hQ'

/-- Two books, and the generator on the first. -/
def twoBooks : Config := ⟨["SYM", "OTHER"], false, true, by decide⟩

/-- A client connects. -/
def quietHistory : List (Env × Event) := [(sampleEnv true 1, .connect)]

/-- The same client trades the other symbol with itself. -/
def otherTrades : List (Env × Event) :=
  [(sampleEnv true 2, .message 0 (.orderSubmit ⟨"", "OTHER", .sell, .limit, 50, 0, 5⟩)),
    (sampleEnv true 3, .message 0 (.orderSubmit ⟨"", "OTHER", .buy, .limit, 50, 0, 5⟩))]

theorem otherTrades_hidden (sv : Server) : ∀ e ∈ otherTrades, concernsOther "SYM" sv e = true := by
  intro e he
  simp only [otherTrades, List.mem_cons, List.not_mem_nil, or_false] at he
  rcases he with rfl | rfl <;> rfl

theorem purge_otherTrades :
    Machine.purge step (concernsOther "SYM") (initial twoBooks) ((sampleEnv true 0, .restart) :: quietHistory) =
      Machine.purge step (concernsOther "SYM") (initial twoBooks)
        ((sampleEnv true 0, .restart) :: (quietHistory ++ otherTrades)) := by
  obtain ⟨sv, hrun, -⟩ := run_rule twoBooks (sampleEnv true 0) quietHistory (K := fun _ _ => True) trivial
    fun _ _ _ _ _ _ _ _ _ _ => trivial
  rw [← List.cons_append, Machine.purge_append hrun, Machine.purge_eq_nil otherTrades_hidden, List.append_nil]

/-- A symbol that holds a NUL is stored up to it: after a restart the order is in the book of what is left. -/
theorem truncatedSymbol_restored : (run sampleConfig (sampleEnv true 0)
    [(sampleEnv true 1, .connect), (sampleEnv true 2, .message 0 (.snapshotRequest "SYM\x00B")),
      (sampleEnv true 3, .message 0 (.orderSubmit ⟨"", "SYM\x00B", .sell, .limit, 50, 0, 5⟩)), (sampleEnv true 4, .restart)]).map
      (fun sv => (sv.getOrderbook "SYM").map fun b => b.asks.entries.map (·.1)) = some (some [50]) := by decide +kernel

end Server

end OrderbookGC
