/-
An order that never trades leaves no trace. Two runs are compared, one with the calls that name an id and one without
them. As long as no trade of the first names the id, both make the same trades, and their books are the same apart from
the orders of that id. The comparison is made on the reference engine, whose state without the orders of an id is again
a state: only the stamps differ, and stamps are compared, never read.
-/
import OrderbookGC.Book.Priority

namespace OrderbookGC

open Container OrderBook MatchState

variable {P : Type}

/-- The trades are not of an order with the id. -/
def Untraded (id : String) (trades : List (RefTrade P)) : Prop :=
  ∀ t ∈ trades, t.buyOrderId ≠ id ∧ t.sellOrderId ≠ id

theorem Untraded.of_prefix {id : String} {l l' : List (RefTrade P)} (h : Untraded id l') (hp : l <+: l') :
    Untraded id l := fun t ht => h t (hp.subset ht)

/-- The same order, come to rest at another stamp. -/
def Resting.restamp (f : Nat → Nat) (r : Resting P) : Resting P := { r with stamp := f r.stamp }

variable [LinearOrder P]

theorem Resting.precedes_total {side : OrderSide} {a b : Resting P} (h : a.precedes side b = false)
    (hne : a.stamp ≠ b.stamp) : b.precedes side a = true := by
  unfold precedes at *
  cases side <;> simp only [Bool.or_eq_false_iff, Bool.and_eq_false_iff, decide_eq_false_iff_not, not_lt, Bool.or_eq_true,
    Bool.and_eq_true, decide_eq_true_eq] at h ⊢
  · rcases h.1.lt_or_eq with hlt | heq
    · exact .inl hlt
    · exact .inr ⟨heq, lt_of_le_of_ne (h.2.resolve_left (not_not_intro heq.symm)) hne.symm⟩
  · rcases h.1.lt_or_eq with hlt | heq
    · exact .inl hlt
    · exact .inr ⟨heq.symm, lt_of_le_of_ne (h.2.resolve_left (not_not_intro heq)) hne.symm⟩

theorem Resting.precedes_restamp {f : Nat → Nat} {side : OrderSide} {a b : Resting P}
    (h : f a.stamp < f b.stamp ↔ a.stamp < b.stamp) :
    (a.restamp f).precedes side (b.restamp f) = a.precedes side b := by
  unfold precedes restamp
  cases side <;> simp only [h]

namespace RefEngine

/-! ## Fuel and the growth of the trades -/

theorem sweep_unique : ∀ {fuel fuel' : Nat} {o : RefOrder P} {e : RefEngine P} {r r' : RefOrder P × RefEngine P},
    sweep fuel o e = some r → sweep fuel' o e = some r' → r = r'
  | 0, _, _, _, _, _, h, _ => by cases h
  | _ + 1, 0, _, _, _, _, _, h => by cases h
  | fuel + 1, fuel' + 1, o, e, r, r', h, h' => by
    unfold sweep at h h'
    split_ifs at h h' with h0
    · rw [← Option.some.inj h, ← Option.some.inj h']
    · cases hc : e.choose o with
      | none =>
        simp only [hc] at h h'
        rw [← Option.some.inj h, ← Option.some.inj h']
      | some c =>
        simp only [hc] at h h'
        exact sweep_unique h h'

theorem processStops_unique : ∀ {fuel fuel' n : Nat} {e e₁ e₂ : RefEngine P},
    processStops fuel n e = some e₁ → processStops fuel' n e = some e₂ → e₁ = e₂
  | 0, _, _, _, _, _, h, _ => by cases h
  | _ + 1, 0, _, _, _, _, _, h => by cases h
  | fuel + 1, fuel' + 1, n, e, e₁, e₂, h, h' => by
    unfold processStops at h h'
    obtain ⟨e₃, hact, h⟩ := Option.bind_eq_some_iff.1 h
    obtain ⟨e₄, hact', h'⟩ := Option.bind_eq_some_iff.1 h'
    obtain rfl := Option.some.inj (hact.symm.trans hact')
    split_ifs at h h'
    · exact processStops_unique h h'
    · rw [← Option.some.inj h, ← Option.some.inj h']

theorem place_trades (o : RefOrder P) (e : RefEngine P) : (e.place o).trades = e.trades := by
  unfold place
  split_ifs <;> rfl

theorem sweep_grows : ∀ {fuel : Nat} {o : RefOrder P} {e : RefEngine P} {r : RefOrder P × RefEngine P},
    sweep fuel o e = some r → e.trades <+: r.2.trades
  | 0, _, _, _, h => by cases h
  | fuel + 1, o, e, r, h => by
    unfold sweep at h
    split_ifs at h
    · rw [← Option.some.inj h]
    · cases hc : e.choose o with
      | none =>
        simp only [hc] at h
        rw [← Option.some.inj h]
      | some c =>
        simp only [hc] at h
        exact (List.prefix_append _ _).trans (sweep_grows h)

theorem activate_grows {o : RefOrder P} {e e' : RefEngine P} (h : e.activate o = some e') : e.trades <+: e'.trades := by
  obtain ⟨r, hr, rfl⟩ := Option.map_eq_some_iff.1 h
  rw [place_trades]
  exact sweep_grows hr

theorem activateAll_grows : ∀ {l : List (RefOrder P)} {e e' : RefEngine P}, l.foldlM activate e = some e' →
    e.trades <+: e'.trades
  | [], e, e', h => by
    cases h
    exact List.prefix_rfl
  | o :: l, e, e', h => by
    rw [List.foldlM_cons] at h
    obtain ⟨e₁, h1, h⟩ := Option.bind_eq_some_iff.1 h
    exact (activate_grows h1).trans (activateAll_grows h)

theorem processStops_grows : ∀ {fuel n : Nat} {e e' : RefEngine P}, processStops fuel n e = some e' →
    e.trades <+: e'.trades
  | 0, _, _, _, h => by cases h
  | fuel + 1, n, e, e', h => by
    unfold processStops at h
    obtain ⟨e₁, h1, h⟩ := Option.bind_eq_some_iff.1 h
    have hg := activateAll_grows h1
    split_ifs at h
    · exact hg.trans (processStops_grows h)
    · rw [← Option.some.inj h]
      exact hg

theorem addStop_trades (o : RefOrder P) (e : RefEngine P) : (e.addStop o).trades = e.trades := by
  unfold addStop
  cases o.side <;> rfl

theorem addOrder_grows {o : RefOrder P} {e e' : RefEngine P} (h : e.addOrder o = some e') : e.trades <+: e'.trades := by
  unfold addOrder at h
  split_ifs at h
  · rw [← Option.some.inj h]
  · rw [← Option.some.inj h, addStop_trades]
  · obtain ⟨e₁, h1, h⟩ := Option.bind_eq_some_iff.1 h
    have hg := activate_grows h1
    split_ifs at h
    · exact hg.trans (processStops_grows h)
    · rw [← Option.some.inj h]
      exact hg

theorem exec_grows {op : BookOp P} {e e' : RefEngine P} (h : e.exec op = some e') : e.trades <+: e'.trades := by
  cases op with
  | addOrder o => exact addOrder_grows h
  | cancelOrder id =>
    cases h
    exact List.prefix_rfl

/-! ## A state without the orders of an id -/

/-- `e'` is `e` without the orders of the id, each resting order at the stamp that `f` gives it. -/
structure Without (id : String) (f : Nat → Nat) (e e' : RefEngine P) : Prop where
  resting : e'.resting = (e.resting.filter fun r => decide (r.order.id ≠ id)).map (Resting.restamp f)
  stamps : e.resting.Pairwise fun a b => a.stamp < b.stamp
  stamps' : e'.resting.Pairwise fun a b => a.stamp < b.stamp
  stampsLt : ∀ r ∈ e.resting, r.stamp < e.nextStamp
  stampsLt' : ∀ r ∈ e'.resting, r.stamp < e'.nextStamp
  stopBuys : e'.stopBuys = e.stopBuys.filterMapVals (dropId id)
  stopSells : e'.stopSells = e.stopSells.filterMapVals (dropId id)
  trades : e'.trades = e.trades

namespace Without

variable {id : String} {f : Nat → Nat} {e e' : RefEngine P} {a b r : Resting P} {o : RefOrder P}

theorem restamp_lt (h : Without id f e e') (ha : a ∈ e.resting) (hai : a.order.id ≠ id) (hb : b ∈ e.resting)
    (hbi : b.order.id ≠ id) : f a.stamp < f b.stamp ↔ a.stamp < b.stamp := by
  have hs' := h.stamps'
  rw [h.resting, List.pairwise_map] at hs'
  have hboth := (h.stamps.filter fun r => decide (r.order.id ≠ id)).and hs'
  have hall := List.Pairwise.forall_of_forall_of_flip
    (R := fun a b : Resting P => f a.stamp < f b.stamp ↔ a.stamp < b.stamp) (fun _ _ => by simp)
    (hboth.imp fun hab => iff_of_true hab.2 hab.1) (hboth.imp fun hab => iff_of_false hab.2.le.not_gt hab.1.le.not_gt)
  exact hall (List.mem_filter.2 ⟨ha, decide_eq_true hai⟩) (List.mem_filter.2 ⟨hb, decide_eq_true hbi⟩)

theorem eq_of_stamp (h : Without id f e e') (ha : a ∈ e.resting) (hb : b ∈ e.resting) (hst : a.stamp = b.stamp) :
    a = b := by
  have hnd : (e.resting.map (·.stamp)).Nodup := List.pairwise_map.2 (h.stamps.imp fun hlt => ne_of_lt hlt)
  exact List.inj_on_of_nodup_map hnd ha hb hst

theorem restamp_eq (h : Without id f e e') (ha : a ∈ e.resting) (hai : a.order.id ≠ id) (hb : b ∈ e.resting)
    (hbi : b.order.id ≠ id) : f a.stamp = f b.stamp ↔ a.stamp = b.stamp := by
  have h1 := h.restamp_lt ha hai hb hbi
  have h2 := h.restamp_lt hb hbi ha hai
  omega

theorem mem_resting (h : Without id f e e') {c : Resting P} : c ∈ e'.resting ↔
    ∃ r ∈ e.resting, r.order.id ≠ id ∧ r.restamp f = c := by
  rw [h.resting]
  simp only [List.mem_map, List.mem_filter, decide_eq_true_eq, and_assoc]

/-- What is chosen where the orders of the id are is chosen where they are not, unless it is one of them. -/
theorem choose_some (h : Without id f e e') (hc : e.choose o = some r) (hid : r.order.id ≠ id) :
    e'.choose o = some (r.restamp f) := by
  obtain ⟨hr, hcand, hmin⟩ := choose_spec hc
  refine choose_eq_some (h.mem_resting.2 ⟨r, hr, hid, rfl⟩) hcand fun c hc hcc hne => ?_
  obtain ⟨c, hcr, hci, rfl⟩ := h.mem_resting.1 hc
  rw [Resting.precedes_restamp (h.restamp_lt hr hid hcr hci)]
  exact Resting.precedes_total (hmin c hcr hcc) fun hst => hne (by rw [h.eq_of_stamp hcr hr hst])

theorem choose_none (h : Without id f e e') (hc : e.choose o = none) : e'.choose o = none := by
  refine choose_eq_none fun c hc' => ?_
  obtain ⟨r, hr, -, rfl⟩ := h.mem_resting.1 hc'
  by_contra hcand
  have hne : e.resting.filter o.candidate ≠ [] :=
    List.ne_nil_of_mem (List.mem_filter.2 ⟨hr, Bool.eq_true_of_not_eq_false hcand⟩)
  unfold choose at hc
  obtain ⟨x, l, hl⟩ := List.exists_cons_of_ne_nil hne
  rw [hl, List.foldr_cons] at hc
  split at hc
  · cases hc
  · split_ifs at hc

omit [LinearOrder P] in
/-- Reducing one order of a list, the orders of the id in it or not. -/
theorem filterMap_reduce {stamp q : Nat} {g : Nat → Nat} : ∀ {l : List (Resting P)},
    (∀ c ∈ l, c.order.id ≠ id → (g c.stamp = g stamp ↔ c.stamp = stamp)) →
    ((l.filterMap (·.reduce stamp q)).filter fun r => decide (r.order.id ≠ id)).map (Resting.restamp g) =
      ((l.filter fun r => decide (r.order.id ≠ id)).map (Resting.restamp g)).filterMap (·.reduce (g stamp) q)
  | [], _ => rfl
  | c :: l, hg => by
    have ih := filterMap_reduce (q := q) fun c hc => hg c (List.mem_cons_of_mem _ hc)
    have hc := hg c List.mem_cons_self
    by_cases hid : c.order.id = id
    · rw [List.filter_cons_of_neg (by simpa using hid), ← ih]
      cases hr : c.reduce stamp q with
      | none => rw [List.filterMap_cons_none hr]
      | some c' =>
        have hid' : c'.order.id = id := by
          unfold Resting.reduce at hr
          split_ifs at hr
          all_goals
            rw [← Option.some.inj hr]
            exact hid
        rw [List.filterMap_cons_some hr, List.filter_cons_of_neg (by simpa using hid')]
    · rw [List.filter_cons_of_pos (by simpa using hid), List.map_cons]
      have hiff := hc hid
      by_cases hst : c.stamp = stamp
      · have hst' : (c.restamp g).stamp = g stamp := hiff.2 hst
        by_cases hq : c.order.remaining = q
        · rw [List.filterMap_cons_none (by unfold Resting.reduce; rw [if_pos hst, if_pos hq]),
            List.filterMap_cons_none (by
              unfold Resting.reduce
              rw [if_pos hst', if_pos (show (c.restamp g).order.remaining = q from hq)]), ih]
        · rw [List.filterMap_cons_some (by unfold Resting.reduce; rw [if_pos hst, if_neg hq]),
            List.filterMap_cons_some (by
              unfold Resting.reduce
              rw [if_pos hst', if_neg (show ¬ (c.restamp g).order.remaining = q from hq)]),
            List.filter_cons_of_pos (by simpa using hid), List.map_cons, ih]
          rfl
      · have hst' : ¬ (c.restamp g).stamp = g stamp := fun heq => hst (hiff.1 heq)
        rw [List.filterMap_cons_some (by unfold Resting.reduce; rw [if_neg hst]),
          List.filterMap_cons_some (by unfold Resting.reduce; rw [if_neg hst']),
          List.filter_cons_of_pos (by simpa using hid), List.map_cons, ih]

theorem trade (h : Without id f e e') (hr : r ∈ e.resting) (hid : r.order.id ≠ id) :
    (RefEngine.trade o (r.restamp f) e').1 = (RefEngine.trade o r e).1 ∧
      Without id f (RefEngine.trade o r e).2 (RefEngine.trade o (r.restamp f) e').2 := by
  have hresting : (RefEngine.trade o (r.restamp f) e').2.resting =
      ((RefEngine.trade o r e).2.resting.filter fun r => decide (r.order.id ≠ id)).map (Resting.restamp f) := by
    show e'.resting.filterMap _ = ((e.resting.filterMap _).filter _).map _
    rw [h.resting, filterMap_reduce fun c hc hci => h.restamp_eq hc hci hr hid]
    rfl
  have hstamp : ∀ {stamp q : Nat} {c c' : Resting P}, c.reduce stamp q = some c' → c'.stamp = c.stamp := fun hc => by
    unfold Resting.reduce at hc
    split_ifs at hc
    all_goals rw [← Option.some.inj hc]
  have hsorted : ∀ {l : List (Resting P)} {stamp q : Nat}, (l.Pairwise fun a b => a.stamp < b.stamp) →
      (l.filterMap (·.reduce stamp q)).Pairwise fun a b => a.stamp < b.stamp := fun hl =>
    List.pairwise_filterMap.2 (hl.imp fun hab a' ha' b' hb' => by rw [hstamp ha', hstamp hb']; exact hab)
  refine ⟨rfl, hresting, hsorted h.stamps, hsorted h.stamps', fun c hc => ?_, fun c hc => ?_, h.stopBuys, h.stopSells,
    congrArg (· ++ _) h.trades⟩
  · obtain ⟨c₀, hc₀, hred⟩ := List.mem_filterMap.1 hc
    rw [hstamp hred]
    exact h.stampsLt c₀ hc₀
  · obtain ⟨c₀, hc₀, hred⟩ := List.mem_filterMap.1 hc
    rw [hstamp hred]
    exact h.stampsLt' c₀ hc₀

omit [LinearOrder P] in
/-- A trade names both of its orders. -/
theorem names_of_untraded {trades : List (RefTrade P)} {taker maker : RefOrder P} {q : Nat}
    (hu : Untraded id (trades ++ [tradeOf taker maker q])) : taker.id ≠ id ∧ maker.id ≠ id := by
  have h := hu (tradeOf taker maker q) (List.mem_append_right _ (List.mem_singleton_self _))
  unfold tradeOf at h
  cases hside : taker.side <;> rw [hside] at h
  · exact h
  · exact h.symm

/-- A sweep of another order, in both states. -/
theorem sweep : ∀ {fuel : Nat} {o : RefOrder P} {e e' : RefEngine P} {r : RefOrder P × RefEngine P},
    Without id f e e' → o.id ≠ id → RefEngine.sweep fuel o e = some r → Untraded id r.2.trades →
    ∃ e₁, RefEngine.sweep fuel o e' = some (r.1, e₁) ∧ Without id f r.2 e₁
  | 0, _, _, _, _, _, _, hs, _ => by cases hs
  | fuel + 1, o, e, e', r, h, ho, hs, hu => by
    unfold RefEngine.sweep at hs ⊢
    split_ifs at hs ⊢ with h0
    · rw [← Option.some.inj hs]
      exact ⟨e', rfl, h⟩
    · cases hc : e.choose o with
      | none =>
        simp only [hc] at hs
        rw [h.choose_none hc, ← Option.some.inj hs]
        exact ⟨e', rfl, h⟩
      | some c =>
        simp only [hc] at hs
        have hgrow : e.trades ++ [tradeOf o c.order (min o.remaining c.order.remaining)] <+: r.2.trades := sweep_grows hs
        have hid : c.order.id ≠ id := (names_of_untraded (hu.of_prefix hgrow)).2
        rw [h.choose_some hc hid]
        obtain ⟨ho', hW⟩ := h.trade (o := o) (choose_spec hc).1 hid
        simp only [ho']
        exact sweep hW ho hs hu

/-- An order that is not to trade does not sweep. -/
theorem sweep_untraded {fuel : Nat} {r : RefOrder P × RefEngine P} (ho : o.id = id)
    (hs : RefEngine.sweep fuel o e = some r) (hu : Untraded id r.2.trades) : r = (o, e) := by
  cases fuel with
  | zero => cases hs
  | succ fuel =>
    unfold RefEngine.sweep at hs
    split_ifs at hs with h0
    · exact (Option.some.inj hs).symm
    · cases hc : e.choose o with
      | none =>
        simp only [hc] at hs
        exact (Option.some.inj hs).symm
      | some c =>
        simp only [hc] at hs
        have hgrow : e.trades ++ [tradeOf o c.order (min o.remaining c.order.remaining)] <+: r.2.trades := sweep_grows hs
        exact absurd ho (names_of_untraded (hu.of_prefix hgrow)).1

omit [LinearOrder P] in
/-- An order that comes to rest has the highest stamp. -/
theorem rest_sorted {l : List (Resting P)} {n : Nat} (hs : l.Pairwise fun a b => a.stamp < b.stamp)
    (hlt : ∀ r ∈ l, r.stamp < n) (o : RefOrder P) :
    ((l ++ [(⟨o, n⟩ : Resting P)]).Pairwise fun a b => a.stamp < b.stamp) ∧
      ∀ r ∈ l ++ [(⟨o, n⟩ : Resting P)], r.stamp < n + 1 := by
  refine ⟨List.pairwise_append.2 ⟨hs, List.pairwise_singleton _ _, fun a ha b hb => ?_⟩, fun a ha => ?_⟩
  · rw [List.mem_singleton.1 hb]
    exact hlt a ha
  · rcases List.mem_append.1 ha with ha | ha
    · exact (hlt a ha).trans (Nat.lt_succ_self _)
    · rw [List.mem_singleton.1 ha]
      exact Nat.lt_succ_self _

/-- An order of the id comes to rest, in the one state only. -/
theorem place_self (h : Without id f e e') (ho : o.id = id) : Without id f (e.place o) e' := by
  unfold RefEngine.place
  split_ifs with hn
  · exact h
  · obtain ⟨hs, hlt⟩ := rest_sorted h.stamps h.stampsLt o
    refine { h with resting := ?_, stamps := hs, stampsLt := hlt }
    show _ = ((e.resting ++ [(⟨o, e.nextStamp⟩ : Resting P)]).filter _).map _
    rw [List.filter_append, List.filter_cons_of_neg (by simpa using ho), List.filter_nil, List.append_nil, h.resting]

/-- Another order comes to rest, in both states. -/
theorem place (h : Without id f e e') (ho : o.id ≠ id) : ∃ g, Without id g (e.place o) (e'.place o) := by
  unfold RefEngine.place
  split_ifs with hn
  · exact ⟨f, h⟩
  obtain ⟨hs, hlt⟩ := rest_sorted h.stamps h.stampsLt o
  obtain ⟨hs', hlt'⟩ := rest_sorted h.stamps' h.stampsLt' o
  refine ⟨Function.update f e.nextStamp e'.nextStamp, ?_, hs, hs', hlt, hlt', h.stopBuys, h.stopSells, h.trades⟩
  -- the new stamps correspond, the others are below them
  have hold : ∀ r ∈ e.resting, r.restamp (Function.update f e.nextStamp e'.nextStamp) = r.restamp f := fun r hr => by
    unfold Resting.restamp
    rw [Function.update_of_ne (h.stampsLt r hr).ne]
  show e'.resting ++ [(⟨o, e'.nextStamp⟩ : Resting P)] =
    ((e.resting ++ [(⟨o, e.nextStamp⟩ : Resting P)]).filter _).map _
  rw [List.filter_append, List.filter_cons_of_pos (by simpa using ho), List.filter_nil, List.map_append, h.resting]
  congr 1
  · exact List.map_congr_left fun r hr => (hold r (List.mem_filter.1 hr).1).symm
  · simp [Resting.restamp]

theorem sweep_id : ∀ {fuel : Nat} {o : RefOrder P} {e : RefEngine P} {r : RefOrder P × RefEngine P},
    RefEngine.sweep fuel o e = some r → r.1.id = o.id
  | 0, _, _, _, hs => by cases hs
  | fuel + 1, o, e, r, hs => by
    unfold RefEngine.sweep at hs
    split_ifs at hs
    · rw [← Option.some.inj hs]
    · cases hc : e.choose o with
      | none =>
        simp only [hc] at hs
        rw [← Option.some.inj hs]
      | some c =>
        simp only [hc] at hs
        exact (sweep_id hs).trans rfl

theorem activate_self {e₁ : RefEngine P} (h : Without id f e e') (ho : o.id = id) (hact : e.activate o = some e₁)
    (hu : Untraded id e₁.trades) : Without id f e₁ e' := by
  obtain ⟨r, hr, rfl⟩ := Option.map_eq_some_iff.1 hact
  rw [place_trades] at hu
  rw [sweep_untraded ho hr hu]
  exact h.place_self ho

theorem activate {e₁ e₁' : RefEngine P} (h : Without id f e e') (ho : o.id ≠ id) (hact : e.activate o = some e₁)
    (hact' : e'.activate o = some e₁') (hu : Untraded id e₁.trades) : ∃ g, Without id g e₁ e₁' := by
  obtain ⟨r, hr, rfl⟩ := Option.map_eq_some_iff.1 hact
  obtain ⟨r', hr', rfl⟩ := Option.map_eq_some_iff.1 hact'
  rw [place_trades] at hu
  obtain ⟨e₂, hr₂, hW⟩ := h.sweep ho hr hu
  rw [sweep_unique hr' hr₂]
  exact hW.place (by rw [sweep_id hr]; exact ho)

/-- The activation of a batch, with the orders of the id in it and without. -/
theorem activateAll : ∀ {l : List (RefOrder P)} {f : Nat → Nat} {e e' e₁ e₁' : RefEngine P}, Without id f e e' →
    l.foldlM RefEngine.activate e = some e₁ →
    (l.filter fun o => decide (o.id ≠ id)).foldlM RefEngine.activate e' = some e₁' → Untraded id e₁.trades →
    ∃ g, Without id g e₁ e₁'
  | [], f, _, _, _, _, h, hact, hact', _ => by
    cases hact
    cases hact'
    exact ⟨f, h⟩
  | o :: l, f, e, e', e₁, e₁', h, hact, hact', hu => by
    rw [List.foldlM_cons] at hact
    obtain ⟨e₂, h2, hact⟩ := Option.bind_eq_some_iff.1 hact
    have hu₂ := hu.of_prefix (activateAll_grows hact)
    by_cases ho : o.id = id
    · rw [List.filter_cons_of_neg (by simpa using ho)] at hact'
      exact activateAll (h.activate_self ho h2 hu₂) hact hact' hu
    · rw [List.filter_cons_of_pos (by simpa using ho), List.foldlM_cons] at hact'
      obtain ⟨e₂', h2', hact'⟩ := Option.bind_eq_some_iff.1 hact'
      obtain ⟨g, hg⟩ := h.activate ho h2 h2' hu₂
      exact activateAll hg hact hact' hu

/-! ## Stop orders -/

omit [LinearOrder P] in
theorem flatMap_dropId (l : List (P × List (RefOrder P))) :
    (l.filterMap fun x => (dropId id x.2).map (x.1, ·)).flatMap (·.2) =
      (l.flatMap (·.2)).filter fun o => decide (o.id ≠ id) := by
  induction l with
  | nil => rfl
  | cons x l ih =>
    rw [List.flatMap_cons, List.filter_append, ← ih]
    unfold dropId
    by_cases hempty : (x.2.filter fun o => decide (o.id ≠ id)).isEmpty
    · rw [List.filterMap_cons_none (by rw [if_pos hempty]; rfl), List.isEmpty_iff.1 hempty, List.nil_append]
    · rw [List.filterMap_cons_some (by rw [if_neg hempty]; rfl), List.flatMap_cons]

theorem takeTriggered_dropId (price : P) (sb ss : SortedMap P (List (RefOrder P))) :
    takeTriggered price (sb.filterMapVals (dropId id), ss.filterMapVals (dropId id)) =
      ((takeTriggered price (sb, ss)).1.filter (fun o => decide (o.id ≠ id)),
        (takeTriggered price (sb, ss)).2.1.filterMapVals (dropId id),
        (takeTriggered price (sb, ss)).2.2.filterMapVals (dropId id)) := by
  unfold takeTriggered
  rw [SortedMap.popMinWhile_filterMapVals _ _ fun a b hab hb => decide_eq_true (hab.trans (of_decide_eq_true hb)),
    SortedMap.popMaxWhile_filterMapVals _ _ fun a b hab ha => by
      rw [Bool.not_eq_true', decide_eq_false_iff_not, not_lt] at ha ⊢
      exact ha.trans hab]
  simp only [flatMap_dropId, List.filter_append]

theorem takeAllTriggered_dropId : ∀ (prices : List P) (sb ss : SortedMap P (List (RefOrder P))),
    takeAllTriggered prices (sb.filterMapVals (dropId id), ss.filterMapVals (dropId id)) =
      ((takeAllTriggered prices (sb, ss)).1.filter (fun o => decide (o.id ≠ id)),
        (takeAllTriggered prices (sb, ss)).2.1.filterMapVals (dropId id),
        (takeAllTriggered prices (sb, ss)).2.2.filterMapVals (dropId id))
  | [], sb, ss => rfl
  | price :: prices, sb, ss => by
    rw [takeAllTriggered, takeTriggered_dropId, takeAllTriggered]
    simp only [takeAllTriggered_dropId prices, List.filter_append]

omit [LinearOrder P] in
theorem trigger_filter (l : List (RefOrder P)) : (l.filter fun o => decide (o.id ≠ id)).map RefOrder.trigger =
    (l.map RefOrder.trigger).filter fun o => decide (o.id ≠ id) := by
  rw [List.filter_map]
  congr 1
  refine List.filter_congr fun o _ => ?_
  have hid : o.trigger.id = o.id := by
    unfold RefOrder.trigger
    split <;> rfl
  simp only [Function.comp_apply, hid]

theorem newPrices (h : Without id f e e') (n : Nat) : e'.newPrices n = e.newPrices n := by
  unfold RefEngine.newPrices
  rw [h.trades]

theorem processStops : ∀ {fuel fuel' n : Nat} {f : Nat → Nat} {e e' e₁ e₁' : RefEngine P}, Without id f e e' →
    RefEngine.processStops fuel n e = some e₁ → RefEngine.processStops fuel' n e' = some e₁' →
    Untraded id e₁.trades → ∃ g, Without id g e₁ e₁'
  | 0, _, _, _, _, _, _, _, _, hs, _, _ => by cases hs
  | _ + 1, 0, _, _, _, _, _, _, _, _, hs', _ => by cases hs'
  | fuel + 1, fuel' + 1, n, f, e, e', e₁, e₁', h, hs, hs', hu => by
    unfold RefEngine.processStops at hs hs'
    rw [h.newPrices, h.stopBuys, h.stopSells, takeAllTriggered_dropId] at hs'
    dsimp only at hs hs'
    obtain ⟨e₂, h2, hs⟩ := Option.bind_eq_some_iff.1 hs
    obtain ⟨e₂', h2', hs'⟩ := Option.bind_eq_some_iff.1 hs'
    have hu₂ : Untraded id e₂.trades := by
      split_ifs at hs
      · exact hu.of_prefix (processStops_grows hs)
      · rwa [Option.some.inj hs]
    rw [trigger_filter] at h2'
    have hW : Without id f
        { e with
          stopBuys := (takeAllTriggered (e.newPrices n) (e.stopBuys, e.stopSells)).2.1
          stopSells := (takeAllTriggered (e.newPrices n) (e.stopBuys, e.stopSells)).2.2 }
        { e' with
          stopBuys := (takeAllTriggered (e.newPrices n) (e.stopBuys, e.stopSells)).2.1.filterMapVals (dropId id)
          stopSells := (takeAllTriggered (e.newPrices n) (e.stopBuys, e.stopSells)).2.2.filterMapVals (dropId id) } :=
      ⟨h.resting, h.stamps, h.stamps', h.stampsLt, h.stampsLt', rfl, rfl, h.trades⟩
    obtain ⟨g, hg⟩ := activateAll hW h2 h2' hu₂
    rw [h.trades, hg.trades] at hs'
    split_ifs at hs hs'
    · exact processStops hg hs hs' hu
    · rw [← Option.some.inj hs, ← Option.some.inj hs']
      exact ⟨g, hg⟩

/-! ## Calls -/

omit [LinearOrder P] in
theorem dropId_append_self {q : List (RefOrder P)} (ho : o.id = id) : dropId id (q ++ [o]) = dropId id q := by
  unfold dropId
  rw [List.filter_append, List.filter_cons_of_neg (by simpa using ho), List.filter_nil, List.append_nil]

omit [LinearOrder P] in
theorem dropId_append {q : List (RefOrder P)} (ho : o.id ≠ id) :
    dropId id (q ++ [o]) = some ((dropId id q).getD [] ++ [o]) := by
  unfold dropId
  rw [List.filter_append, List.filter_cons_of_pos (by simpa using ho), List.filter_nil, if_neg (by simp)]
  by_cases hempty : (q.filter fun o => decide (o.id ≠ id)).isEmpty
  · rw [if_pos hempty, List.isEmpty_iff.1 hempty]
    rfl
  · rw [if_neg hempty]
    rfl

theorem push_self (m : SortedMap P (List (RefOrder P))) (k : P) (ho : o.id = id) :
    (m.insert k ((m.find? k).getD [] ++ [o])).filterMapVals (dropId id) = m.filterMapVals (dropId id) := by
  apply SortedMap.ext_find?
  intro k'
  rw [SortedMap.find?_filterMapVals, SortedMap.find?_filterMapVals, SortedMap.find?_insert]
  split_ifs with hk
  · rw [Option.bind_some, dropId_append_self ho, hk]
    cases m.find? k <;> rfl
  · rfl

theorem push (m : SortedMap P (List (RefOrder P))) (k : P) (ho : o.id ≠ id) :
    (m.insert k ((m.find? k).getD [] ++ [o])).filterMapVals (dropId id) =
      (m.filterMapVals (dropId id)).insert k (((m.filterMapVals (dropId id)).find? k).getD [] ++ [o]) := by
  apply SortedMap.ext_find?
  intro k'
  rw [SortedMap.find?_filterMapVals, SortedMap.find?_insert, SortedMap.find?_insert, SortedMap.find?_filterMapVals,
    SortedMap.find?_filterMapVals]
  split_ifs with hk
  · rw [Option.bind_some, dropId_append ho]
    cases m.find? k <;> rfl
  · rfl

theorem addStop_self (h : Without id f e e') (ho : o.id = id) : Without id f (e.addStop o) e' := by
  unfold RefEngine.addStop
  cases o.side
  · exact { h with stopBuys := h.stopBuys.trans (push_self _ _ ho).symm }
  · exact { h with stopSells := h.stopSells.trans (push_self _ _ ho).symm }

theorem addStop (h : Without id f e e') (ho : o.id ≠ id) : Without id f (e.addStop o) (e'.addStop o) := by
  unfold RefEngine.addStop
  rw [h.stopBuys, h.stopSells]
  cases o.side
  · exact ⟨h.resting, h.stamps, h.stamps', h.stampsLt, h.stampsLt', (push _ _ ho).symm, rfl, h.trades⟩
  · exact ⟨h.resting, h.stamps, h.stamps', h.stampsLt, h.stampsLt', rfl, (push _ _ ho).symm, h.trades⟩

theorem any_dropId {m : SortedMap P (List (RefOrder P))} {j : String} (hj : j ≠ id) :
    ((m.filterMapVals (dropId id)).entries.any fun x => x.2.any fun o => decide (o.id = j)) =
      m.entries.any fun x => x.2.any fun o => decide (o.id = j) := by
  rw [Bool.eq_iff_iff]
  simp only [SortedMap.filterMapVals, List.any_eq_true, List.mem_filterMap, Option.map_eq_some_iff, decide_eq_true_eq]
  constructor
  · rintro ⟨_, ⟨x, hx, q, hq, rfl⟩, o, ho, hid⟩
    unfold dropId at hq
    split_ifs at hq
    rw [← Option.some.inj hq] at ho
    exact ⟨x, hx, o, (List.mem_filter.1 ho).1, hid⟩
  · rintro ⟨x, hx, o, ho, hid⟩
    have hmem : o ∈ x.2.filter fun o => decide (o.id ≠ id) := List.mem_filter.2 ⟨ho, decide_eq_true (hid ▸ hj)⟩
    refine ⟨_, ⟨x, hx, _, ?_, rfl⟩, o, hmem, hid⟩
    unfold dropId
    rw [if_neg]
    intro hempty
    rw [List.isEmpty_iff.1 hempty] at hmem
    cases hmem

theorem holds (h : Without id f e e') {j : String} (hj : j ≠ id) : e'.holds j = e.holds j := by
  have hresting : (e'.resting.any fun r => decide (r.order.id = j)) = e.resting.any fun r => decide (r.order.id = j) := by
    rw [Bool.eq_iff_iff]
    simp only [List.any_eq_true, decide_eq_true_eq]
    constructor
    · rintro ⟨c, hc, hid⟩
      obtain ⟨r, hr, -, rfl⟩ := h.mem_resting.1 hc
      exact ⟨r, hr, hid⟩
    · rintro ⟨r, hr, hid⟩
      exact ⟨_, h.mem_resting.2 ⟨r, hr, hid ▸ hj, rfl⟩, hid⟩
  unfold RefEngine.holds
  rw [hresting, h.stopBuys, h.stopSells, any_dropId hj, any_dropId hj]

theorem addOrder_self {e₁ : RefEngine P} (h : Without id f e e') (ho : o.id = id) (hadd : e.addOrder o = some e₁)
    (hu : Untraded id e₁.trades) : Without id f e₁ e' := by
  unfold RefEngine.addOrder at hadd
  split_ifs at hadd
  · rw [← Option.some.inj hadd]
    exact h
  · rw [← Option.some.inj hadd]
    exact h.addStop_self ho
  · obtain ⟨e₂, h2, hadd⟩ := Option.bind_eq_some_iff.1 hadd
    have hu₂ : Untraded id e₂.trades := by
      split_ifs at hadd
      · exact hu.of_prefix (processStops_grows hadd)
      · rwa [Option.some.inj hadd]
    -- nothing is traded, so no stop order is reached
    have hW := h.activate_self ho h2 hu₂
    rw [if_neg (by rw [← hW.trades, h.trades]; exact lt_irrefl _)] at hadd
    rw [← Option.some.inj hadd]
    exact hW

theorem addOrder {e₁ e₁' : RefEngine P} (h : Without id f e e') (ho : o.id ≠ id) (hadd : e.addOrder o = some e₁)
    (hadd' : e'.addOrder o = some e₁') (hu : Untraded id e₁.trades) : ∃ g, Without id g e₁ e₁' := by
  unfold RefEngine.addOrder at hadd hadd'
  rw [h.holds ho] at hadd'
  split_ifs at hadd hadd'
  · rw [← Option.some.inj hadd, ← Option.some.inj hadd']
    exact ⟨f, h⟩
  · rw [← Option.some.inj hadd, ← Option.some.inj hadd']
    exact ⟨f, h.addStop ho⟩
  · obtain ⟨e₂, h2, hadd⟩ := Option.bind_eq_some_iff.1 hadd
    obtain ⟨e₂', h2', hadd'⟩ := Option.bind_eq_some_iff.1 hadd'
    have hu₂ : Untraded id e₂.trades := by
      split_ifs at hadd
      · exact hu.of_prefix (processStops_grows hadd)
      · rwa [Option.some.inj hadd]
    obtain ⟨g, hg⟩ := h.activate ho h2 h2' hu₂
    rw [h.trades, hg.trades] at hadd'
    split_ifs at hadd hadd'
    · exact hg.processStops hadd hadd' hu
    · rw [← Option.some.inj hadd, ← Option.some.inj hadd']
      exact ⟨g, hg⟩

omit [LinearOrder P] in
theorem dropId_bind (j k : String) (q : List (RefOrder P)) : (dropId j q).bind (dropId k) =
    dropId k (q.filter fun o => decide (o.id ≠ j)) := by
  unfold dropId
  by_cases hempty : (q.filter fun o => decide (o.id ≠ j)).isEmpty
  · rw [if_pos hempty, List.isEmpty_iff.1 hempty]
    rfl
  · rw [if_neg hempty]
    rfl

omit [LinearOrder P] in
theorem dropId_comm (j k : String) (q : List (RefOrder P)) : (dropId j q).bind (dropId k) = (dropId k q).bind (dropId j) := by
  rw [dropId_bind, dropId_bind]
  unfold dropId
  rw [List.filter_comm]

theorem filterMapVals_comm (j k : String) (m : SortedMap P (List (RefOrder P))) :
    (m.filterMapVals (dropId j)).filterMapVals (dropId k) = (m.filterMapVals (dropId k)).filterMapVals (dropId j) := by
  apply SortedMap.ext_find?
  intro x
  simp only [SortedMap.find?_filterMapVals, Option.bind_assoc, dropId_comm j k]

theorem filterMapVals_self (m : SortedMap P (List (RefOrder P))) :
    (m.filterMapVals (dropId id)).filterMapVals (dropId id) = m.filterMapVals (dropId id) := by
  apply SortedMap.ext_find?
  intro x
  simp only [SortedMap.find?_filterMapVals, Option.bind_assoc, dropId_bind]
  congr 1
  funext q
  unfold dropId
  rw [List.filter_filter, List.filter_congr fun o _ => Bool.and_self _]

theorem cancelOrder_self (h : Without id f e e') : Without id f (e.cancelOrder id) e' where
  resting := by
    show _ = ((e.resting.filter _).filter _).map _
    rw [h.resting, List.filter_filter, List.filter_congr fun r _ => Bool.and_self _]
  stamps := h.stamps.filter _
  stamps' := h.stamps'
  stampsLt r hr := h.stampsLt r (List.mem_filter.1 hr).1
  stampsLt' := h.stampsLt'
  stopBuys := h.stopBuys.trans (filterMapVals_self _).symm
  stopSells := h.stopSells.trans (filterMapVals_self _).symm
  trades := h.trades

theorem cancelOrder (h : Without id f e e') (j : String) : Without id f (e.cancelOrder j) (e'.cancelOrder j) where
  resting := by
    show e'.resting.filter _ = ((e.resting.filter _).filter _).map _
    rw [h.resting, List.filter_map, List.filter_comm]
    rfl
  stamps := h.stamps.filter _
  stamps' := h.stamps'.filter _
  stampsLt r hr := h.stampsLt r (List.mem_filter.1 hr).1
  stampsLt' r hr := h.stampsLt' r (List.mem_filter.1 hr).1
  stopBuys := (congrArg (·.filterMapVals (dropId j)) h.stopBuys).trans (filterMapVals_comm id j _)
  stopSells := (congrArg (·.filterMapVals (dropId j)) h.stopSells).trans (filterMapVals_comm id j _)
  trades := h.trades

end Without

end RefEngine

/-! ## Runs -/

/-- The call names the id. -/
def BookOp.Names (id : String) : BookOp P → Prop
  | .addOrder o => o.id = id
  | .cancelOrder j => j = id

instance (id : String) : DecidablePred (BookOp.Names (P := P) id)
  | .addOrder o => inferInstanceAs (Decidable (o.id = id))
  | .cancelOrder j => inferInstanceAs (Decidable (j = id))

/-- The calls that do not name the id. -/
def callsWithout (id : String) (ops : List (BookOp P)) : List (BookOp P) := ops.filter fun op => decide (¬ op.Names id)

namespace RefEngine

variable {id : String}

theorem refRun_grows {op : BookOp P} {ops : List (BookOp P)} {e e₁ : RefEngine P} (h : refRun ops = some e)
    (h₁ : refRun (ops ++ [op]) = some e₁) : e.exec op = some e₁ := by
  obtain ⟨e₂, h2, hop⟩ := Machine.foldlM_append_some.1 h₁
  obtain rfl := Option.some.inj (h.symm.trans h2)
  rw [List.foldlM_cons] at hop
  obtain ⟨e₃, h3, hop⟩ := Option.bind_eq_some_iff.1 hop
  cases hop
  exact h3

/-- The reference engine, over a run and over what is left of it without the calls that name an id. -/
theorem refRun_without : ∀ (ops : List (BookOp P)) {e e' : RefEngine P}, refRun ops = some e →
    refRun (callsWithout id ops) = some e' → Untraded id e.trades → ∃ f, Without id f e e' := by
  intro ops
  induction ops using List.reverseRecOn with
  | nil =>
    intro e e' he he' _
    cases he
    cases he'
    refine ⟨fun n => n, rfl, .nil, .nil, fun _ hr => ?_, fun _ hr => ?_, rfl, rfl, rfl⟩ <;> cases hr
  | append_singleton ops op ih =>
    intro e₁ e₁' he₁ he₁' hu
    obtain ⟨e, he, -⟩ := Machine.foldlM_append_some.1 he₁
    have hop := refRun_grows he he₁
    have hu₀ := hu.of_prefix (exec_grows hop)
    unfold callsWithout at he₁'
    rw [List.filter_append] at he₁'
    by_cases hn : op.Names id
    · rw [List.filter_cons_of_neg (by simpa using hn), List.filter_nil, List.append_nil] at he₁'
      obtain ⟨f, hf⟩ := ih he he₁' hu₀
      cases op with
      | addOrder o => exact ⟨f, hf.addOrder_self (o := o.ref) hn hop hu⟩
      | cancelOrder j =>
        cases hop
        obtain rfl : j = id := hn
        exact ⟨f, hf.cancelOrder_self⟩
    · rw [List.filter_cons_of_pos (by simpa using hn), List.filter_nil] at he₁'
      obtain ⟨e', he', -⟩ := Machine.foldlM_append_some.1 he₁'
      have hop' := refRun_grows he' he₁'
      obtain ⟨f, hf⟩ := ih he he' hu₀
      cases op with
      | addOrder o => exact hf.addOrder (o := o.ref) hn hop hop' hu
      | cancelOrder j =>
        cases hop
        cases hop'
        exact ⟨f, hf.cancelOrder j⟩

end RefEngine

/-- A run of the book, beside the run of the reference engine that it refines. -/
theorem run_sim (symbol : String) (tickSize : P) (ops : List (BookOp P)) (hfresh : ∀ op ∈ ops, op.Fresh) :
    ∃ r flat e, run symbol tickSize ops = some r ∧ Inv [] r.book ∧ refRun ops = some e ∧
      Sim (r.trades.map Trade.ref) flat (start r.book) e := by
  obtain ⟨r, hr, hI, flat, e, he, hS⟩ := run_induction symbol tickSize (K := fun pre r => ∃ flat e, refRun pre = some e ∧
      Sim (r.trades.map Trade.ref) flat (start r.book) e) hfresh ⟨[], _, rfl, .empty symbol tickSize⟩
    (by
      rintro pre o r out - hI ⟨flat, e, hre, hS⟩ hf hI' he
      obtain ⟨flat', e', h1, h2⟩ := (hS.allocate hI o).addOrder hI' he
      have hself : (r.book.alloc o).2.heap (r.book.alloc o).1 = o := Function.update_self ..
      rw [hself] at h1
      refine ⟨flat', e', Machine.foldlM_append_some.2 ⟨e, hre, ?_⟩, ?_⟩
      · rw [List.foldlM_cons]
        exact Option.bind_eq_some_iff.2 ⟨e', h1, rfl⟩
      · rw [List.map_append]
        exact h2.restart)
    (by
      rintro pre id p r b' hI ⟨flat, e, hre, hS⟩ he
      exact ⟨_, _, Machine.foldlM_append_some.2 ⟨e, hre, rfl⟩, hS.cancel hI he⟩)
    (by
      rintro pre id r hI ⟨flat, e, hre, hS⟩ hid
      refine ⟨flat, e, Machine.foldlM_append_some.2 ⟨e, hre, ?_⟩, hS⟩
      exact congrArg some (hS.cancel_none hI hid))
  exact ⟨r, flat, e, hr, hI, he, hS⟩

/-- The orders of a queue, as the reference engine sees them. -/
theorem Sim.queue_ref {T : List (RefTrade P)} {flat : List (OrderPtr × Nat)} {b : OrderBook P} {e : RefEngine P}
    (h : Sim T flat (start b) e) (d : OrderSide) (k : P) : (b.queue d k).map (fun p => (b.heap p).ref) =
      (e.resting.filter fun x => decide (x.order.side = d ∧ x.order.price = k)).map (·.order) := by
  have hq : b.queue d k = _ := h.queue d k
  rw [hq, h.resting, List.filter_map, List.map_map, List.map_map]
  rfl

/-- The stop map of a side. -/
def RefEngine.stops (e : RefEngine P) : OrderSide → SortedMap P (List (RefOrder P))
  | .buy => e.stopBuys
  | .sell => e.stopSells

theorem Sim.stopQueue_ref {T : List (RefTrade P)} {flat : List (OrderPtr × Nat)} {b : OrderBook P} {e : RefEngine P}
    (h : Sim T flat (start b) e) (d : OrderSide) (k : P) : (b.stopQueue d k).map (fun p => (b.heap p).ref) =
      ((e.stops d).find? k).getD [] := by
  have hfind : ∀ m : SortedMap P (List OrderPtr), ((refStops b.heap m).find? k).getD [] =
      ((m.find? k).getD []).map fun p => (b.heap p).ref := fun m => by
    unfold refStops
    rw [SortedMap.find?_mapVals]
    cases m.find? k <;> rfl
  cases d
  · exact ((congrArg (fun m => (SortedMap.find? m k).getD []) h.stopBuys).trans (hfind b.stopBuyOrders)).symm
  · exact ((congrArg (fun m => (SortedMap.find? m k).getD []) h.stopSells).trans (hfind b.stopSellOrders)).symm

/-- An order that never trades leaves no trace. When no trade of a run names the id, the run without the calls that name
it makes the same trades, in the same order, and at every side and price its book holds the same orders in the same
order, those of the id apart. -/
theorem run_untraded (symbol : String) (tickSize : P) (ops : List (BookOp P)) (hfresh : ∀ op ∈ ops, op.Fresh)
    (id : String) :
    ∃ r r', run symbol tickSize ops = some r ∧ run symbol tickSize (callsWithout id ops) = some r' ∧
      ((∀ t ∈ r.trades, t.buyOrderId ≠ id ∧ t.sellOrderId ≠ id) →
        r'.trades.map Trade.ref = r.trades.map Trade.ref ∧
        ∀ d k, (r'.book.queue d k).map (fun p => (r'.book.heap p).ref) =
            ((r.book.queue d k).map fun p => (r.book.heap p).ref).filter (fun o => decide (o.id ≠ id)) ∧
          (r'.book.stopQueue d k).map (fun p => (r'.book.heap p).ref) =
            ((r.book.stopQueue d k).map fun p => (r.book.heap p).ref).filter fun o => decide (o.id ≠ id)) := by
  obtain ⟨r, flat, e, hr, -, he, hS⟩ := run_sim symbol tickSize ops hfresh
  obtain ⟨r', flat', e', hr', -, he', hS'⟩ := run_sim symbol tickSize (callsWithout id ops)
    fun op hop => hfresh op (List.mem_filter.1 hop).1
  refine ⟨r, r', hr, hr', fun hno => ?_⟩
  have htrades : e.trades = r.trades.map Trade.ref := hS.trades.trans (List.append_nil _)
  have htrades' : e'.trades = r'.trades.map Trade.ref := hS'.trades.trans (List.append_nil _)
  have hu : Untraded id e.trades := by
    rw [htrades]
    intro t ht
    obtain ⟨t₀, ht₀, rfl⟩ := List.mem_map.1 ht
    exact hno t₀ ht₀
  obtain ⟨f, hW⟩ := RefEngine.refRun_without ops he he' hu
  refine ⟨by rw [← htrades', hW.trades, htrades], fun d k => ⟨?_, ?_⟩⟩
  · rw [hS'.queue_ref, hS.queue_ref, hW.resting, List.filter_map, List.map_map, List.filter_map, List.filter_comm]
    rfl
  · have hdrop : ∀ m : SortedMap P (List (RefOrder P)), ((m.filterMapVals (RefEngine.dropId id)).find? k).getD [] =
        ((m.find? k).getD []).filter fun o => decide (o.id ≠ id) := fun m => by
      rw [SortedMap.find?_filterMapVals]
      cases m.find? k with
      | none => rfl
      | some q =>
        show ((RefEngine.dropId id q).getD []) = q.filter _
        unfold RefEngine.dropId
        split_ifs with hempty
        · exact (List.isEmpty_iff.1 hempty).symm
        · rfl
    rw [hS'.stopQueue_ref, hS.stopQueue_ref]
    cases d
    · show (e'.stopBuys.find? k).getD [] = _
      rw [hW.stopBuys, hdrop]
      rfl
    · show (e'.stopSells.find? k).getD [] = _
      rw [hW.stopSells, hdrop]
      rfl

/-- The run with the cascade, with a third sell order, behind the others, that is cancelled in the end. -/
def passiveOps : List (BookOp Nat) :=
  .addOrder (.new "z" .sell 103 9 "S" "m" .limit 0 0) :: (cascadeOps ++ [.cancelOrder "z"])

theorem run_untraded_passiveOps : ∃ r', run "S" 1 cascadeOps = some r' ∧
    (run "S" 1 passiveOps).map (fun r => r.trades.map Trade.ref) = some (r'.trades.map Trade.ref) := by
  have hfresh : ∀ op ∈ passiveOps, op.Fresh := by simp [passiveOps, cascadeOps, BookOp.Fresh, Order.Fresh, Order.new]
  obtain ⟨r, r', hr, hr', h⟩ := run_untraded "S" 1 passiveOps hfresh "z"
  have hno : (run "S" 1 passiveOps).map (fun r => r.trades.all fun t => t.buyOrderId ≠ "z" && t.sellOrderId ≠ "z") =
      some true := by decide +kernel
  rw [hr, Option.map_some, Option.some.injEq, List.all_eq_true] at hno
  refine ⟨r', hr', ?_⟩
  rw [hr, Option.map_some, (h fun t ht => by simpa using hno t ht).1]

end OrderbookGC
