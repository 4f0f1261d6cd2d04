/-
What the reply to a submission says. `handleOrderSubmit` reports the object it has given to the book, whatever the book
answered: the report of an order the book took says what became of it, in the book and in the trades of the call. The
book refuses an order of quantity 0, and with fresh ids nothing else; that order is reported `PENDING`.
-/
import OrderbookGC.Server.Fills

namespace OrderbookGC

open Container

/-- A report of an order that can still trade. -/
def OrderStatusMessage.Open (x : OrderStatusMessage) : Prop := x.status = .pending ∨ x.status = .partialFill

/-- An error, or a report of status `REJECTED`. -/
def Response.Refusal : Response → Prop
  | .orderStatus x => x.status = .rejected
  | .error _ _ => True
  | _ => False

namespace Server

/-- The book answers `false` to the order of a submission. -/
def Refused (env : Env) (m : OrderSubmitMessage) (b : OrderBook ℚ) : Prop :=
  (OrderBook.addOrder (some b.nextPtr) (b.alloc (submittedOrder env m b.tickSize)).2).map (·.accepted) = some false

instance (env : Env) (m : OrderSubmitMessage) (b : OrderBook ℚ) : Decidable (Refused env m b) :=
  inferInstanceAs (Decidable (_ = _))

/-- The reply to a submission, against the state before the call and the state after it. -/
structure TrueReply (env : Env) (m : OrderSubmitMessage) (b : OrderBook ℚ) (sv sv' : Server) (r : Response) : Prop where
  orderId : ∀ x, r = .orderStatus x → x.orderId = generateUuid env.uuid
  live : ∀ x, r = .orderStatus x → (x.Open ↔ sv'.InBook m.symbol (generateUuid env.uuid))
  filled : ∀ x, r = .orderStatus x →
    x.filledQuantity.toNat = traded (generateUuid env.uuid) (sv'.trades.drop sv.trades.length)
  refused : Refused env m b → r.Refusal ∧ ∀ row ∈ sv'.disk.orders, row.id = generateUuid env.uuid → Db.isActive row = false

/-! ## The book's answer -/

section Submitted

variable {env : Env} {sv sv' : Server} {s : SessionPtr} {m : OrderSubmitMessage} {b : OrderBook ℚ} {out : AddOutcome ℚ}

/-- The book takes the order of a submission unless the quantity is 0. -/
theorem IdInv.submitted_accepted (hI : IdInv sv)
    (ha : Added env (submittedOrder env m b.tickSize) b out
      (sv.saveSubmission env ⟨generateUuid env.uuid, s, m, b.tickSize⟩ (submittedOrder env m b.tickSize)) sv')
    (hnew : generateUuid env.uuid ∉ sv.uuids) : out.accepted = true ↔ m.quantity ≠ 0 := by
  have hself : (b.alloc (submittedOrder env m b.tickSize)).2.heap b.nextPtr = submittedOrder env m b.tickSize :=
    alloc_heap_self
  constructor
  · intro hacc h0
    have hl := ha.call.live hacc
    rw [hself] at hl
    exact absurd (show 0 < m.quantity from hl.remaining) (by rw [h0]; decide)
  · intro h0
    cases ha.add with
    | stopped _ _ _ => rfl
    | matched _ _ _ _ => rfl
    | refused h =>
      rw [hself] at h
      rcases h with h | ⟨p, hp⟩
      · exact absurd h h0
      · have hb := ha.book
        rw [saveSubmission_orderbooks] at hb
        exact absurd (hI.live ⟨m.symbol, b, p, hb, hp⟩) hnew

/-- The order of a submission is reported open exactly if it is in the book after the call, where the book took it. -/
theorem IdInv.submitted_open (hI : IdInv sv)
    (ha : Added env (submittedOrder env m b.tickSize) b out
      (sv.saveSubmission env ⟨generateUuid env.uuid, s, m, b.tickSize⟩ (submittedOrder env m b.tickSize)) sv')
    (hnew : generateUuid env.uuid ∉ sv.uuids) (hacc : out.accepted = true) :
    (out.state.heap b.nextPtr).statusMessage.Open ↔ sv'.InBook m.symbol (generateUuid env.uuid) := by
  have hbook : sv'.orderbooks.find? m.symbol = some out.state.toOrderBook := by
    rw [ha.find?]
    exact if_pos rfl
  have hid : (out.state.heap b.nextPtr).id = generateUuid env.uuid := by
    rw [(ha.call.static b.nextPtr).id, alloc_heap_self]
    rfl
  constructor
  · intro hopen
    rcases ha.call.fate hacc b.nextPtr (.inr rfl) with hheld | hfin
    · exact ⟨_, b.nextPtr, hbook, ha.call.inv.index.2 ⟨hid, .inl hheld⟩⟩
    · -- a finished order is reported `FILLED` or `CANCELED`
      rcases hopen with h1 | h1 <;> rcases hfin with h2 | h2 <;> exact absurd (h1.symm.trans h2) (by decide)
  · rintro ⟨y, p, hy, hp⟩
    obtain ⟨-, hheap⟩ := Added.submitted_live hI ha hnew hy hp
    rw [hbook] at hy
    cases hy
    have hheld := (ha.call.inv.index.1 hp).2.resolve_right List.not_mem_nil
    exact hheap ▸ (ha.call.inv.live hheld).status

/-- An order of quantity 0 is reported as it was created, and is in no book. -/
theorem IdInv.submitted_refused (hI : IdInv sv)
    (ha : Added env (submittedOrder env m b.tickSize) b out
      (sv.saveSubmission env ⟨generateUuid env.uuid, s, m, b.tickSize⟩ (submittedOrder env m b.tickSize)) sv')
    (hnew : generateUuid env.uuid ∉ sv.uuids) (hacc : out.accepted = false) :
    (out.state.heap b.nextPtr).statusMessage.Open ∧ ¬ sv'.InBook m.symbol (generateUuid env.uuid) := by
  refine ⟨.inl ?_, fun ⟨y, p, hy, hp⟩ => ?_⟩
  · show (out.state.toOrderBook.heap b.nextPtr).status = .pending
    rw [(ha.call.refused hacc).1, alloc_heap_self]
    rfl
  · rcases ha.live_cases hy hp with ⟨z, hz, hzp⟩ | ⟨-, -, -, h⟩
    · exact hnew (hI.live (saveSubmission_live.1 ⟨m.symbol, z, p, hz, hzp⟩))
    · rw [hacc] at h
      exact Bool.noConfusion h

/-- The report of a submission is true exactly if the book takes the order. -/
theorem IdInv.submitted_trueReply (hI : IdInv sv)
    (ha : Added env (submittedOrder env m b.tickSize) b out
      (sv.saveSubmission env ⟨generateUuid env.uuid, s, m, b.tickSize⟩ (submittedOrder env m b.tickSize)) sv')
    (hnew : generateUuid env.uuid ∉ sv.uuids) {sv₀ : Server} (h₀ : sv.trades = sv₀.trades) :
    TrueReply env m b sv₀ (sv'.acknowledge s (out.state.heap b.nextPtr)) (.orderStatus (out.state.heap b.nextPtr).statusMessage) ↔
      m.quantity ≠ 0 := by
  obtain ⟨habout, hfilled⟩ := hI.submitted_filled ha hnew
  rw [← IdInv.submitted_accepted hI ha hnew]
  constructor
  · intro h
    by_contra hacc
    obtain ⟨hopen, hout⟩ := IdInv.submitted_refused hI ha hnew (Bool.eq_false_iff.2 hacc)
    exact hout ((h.live _ rfl).1 hopen)
  · intro hacc
    refine ⟨fun x hx => ?_, fun x hx => ?_, fun x hx => ?_, fun href => ?_⟩
    · cases hx
      exact habout.orderId
    · cases hx
      show _ ↔ sv'.InBook m.symbol (generateUuid env.uuid)
      exact IdInv.submitted_open hI ha hnew hacc
    · cases hx
      rw [hfilled]
      obtain ⟨disk, n, heq, -⟩ := saveSubmission_eq sv env ⟨generateUuid env.uuid, s, m, b.tickSize⟩
        (submittedOrder env m b.tickSize)
      have htrades := ha.trades
      rw [heq] at htrades
      show traded _ sv'.trades = traded _ (sv'.trades.drop sv₀.trades.length)
      rw [htrades, ← h₀, List.drop_left, traded_append, hI.traded_eq_zero hnew, Nat.zero_add]
    · unfold Refused at href
      rw [ha.result, Option.map_some, hacc] at href
      cases href

end Submitted

/-! ## The handler -/

/-- A seller of 5, then a buyer of 7 whose order rests with 2. -/
def sampleTaken : List (Env × Event) :=
  [(sampleEnv true 1, .connect), (sampleEnv true 2, .message 0 (sampleSubmit .sell .limit 100 0 5))]

/-- An order of no shares. -/
def noShares : OrderSubmitMessage := ⟨"", "SYM", .buy, .limit, 100, 0, 0⟩

end Server

end OrderbookGC
