/-
What the book refuses. `addOrder` answers `false` to a null pointer, an order with nothing left and an id that is taken;
`cancelOrder` to an id that is not live. Live is said of the history: an accepted order of the run carries the id and has
been neither filled nor cancelled. Between the index, which decides, and the history stands `Fated`: an order once
accepted is in a queue or finished. A refused call leaves the book as it was.
-/
import OrderbookGC.Book.Call

namespace OrderbookGC

open Container OrderBook MatchState

variable {P : Type} [LinearOrder P]

/-- An accepted order of the run with this id that can still trade. -/
def BookRun.LiveId (r : BookRun P) (id : String) : Prop :=
  ∃ p o, (p, o) ∈ r.accepted ∧ o.id = id ∧ (r.book.heap p).Live

/-! ## Accepted orders are in the book or finished -/

structure Fated (accepted : List (OrderPtr × Order P)) (b : OrderBook P) : Prop where
  alloc : ∀ e ∈ accepted, e.1 < b.nextPtr
  id : ∀ e ∈ accepted, (b.heap e.1).id = e.2.id
  fate : ∀ e ∈ accepted, b.Held e.1 ∨ (b.heap e.1).Finished
  known : ∀ p, b.Held p → ∃ o, (p, o) ∈ accepted

namespace Fated

variable {accepted : List (OrderPtr × Order P)} {b b' : OrderBook P}

theorem allocate (h : Fated accepted b) (o : Order P) : Fated accepted (b.alloc o).2 := by
  have hheap : ∀ e ∈ accepted, (b.alloc o).2.heap e.1 = b.heap e.1 := fun e he =>
    Function.update_of_ne (Nat.ne_of_lt (h.alloc e he)) ..
  refine ⟨fun e he => Nat.lt_succ_of_lt (h.alloc e he), fun e he => ?_, fun e he => ?_,
    fun p hp => h.known p hp⟩
  · rw [hheap e he]; exact h.id e he
  · rw [hheap e he]; exact h.fate e he

theorem refused (h : Fated accepted b) {order : OrderPtr} {out : AddOutcome P} (hc : CallEffect order b out)
    (hacc : out.accepted = false) : Fated accepted out.state.toOrderBook := by
  rw [(hc.refused hacc).1]
  exact h

theorem submit (h : Fated accepted b) {order : OrderPtr} {out : AddOutcome P} (hc : CallEffect order b out)
    (hacc : out.accepted = true) (hn : order < b.nextPtr) :
    Fated (accepted ++ [(order, b.heap order)]) out.state.toOrderBook := by
  refine ⟨fun e he => ?_, fun e he => ?_, fun e he => ?_, fun p hp => ?_⟩
  · rw [hc.nextPtr]
    rcases List.mem_append.1 he with he | he
    · exact h.alloc e he
    · rw [List.mem_singleton.1 he]; exact hn
  · rw [(hc.static e.1).id]
    rcases List.mem_append.1 he with he | he
    · exact h.id e he
    · rw [List.mem_singleton.1 he]
  · by_cases hp : b.Held e.1 ∨ e.1 = order
    · exact hc.fate hacc e.1 hp
    · rw [hc.frame e.1 hp]
      rcases List.mem_append.1 he with he | he
      · exact .inr ((h.fate e he).resolve_left fun hh => hp (.inl hh))
      · exact absurd (.inr (by rw [List.mem_singleton.1 he])) hp
  · rcases hc.held p hp with hb | rfl
    · obtain ⟨o, ho⟩ := h.known p hb
      exact ⟨o, List.mem_append_left _ ho⟩
    · exact ⟨_, List.mem_append_right _ (List.mem_singleton.2 rfl)⟩

theorem cancel (h : Fated accepted b) (hI : Inv [] b) {id : String} {p : OrderPtr} (hc : CancelEffect id p b b') :
    Fated accepted b' := by
  refine ⟨fun e he => by rw [hc.nextPtr]; exact h.alloc e he, fun e he => by rw [(hc.static e.1).id]; exact h.id e he,
    fun e he => ?_, fun q hq => h.known q ((hc.held_iff hI.toBookInv).1 hq).1⟩
  by_cases hp : e.1 = p
  · rw [hc.heap, hp, Function.update_self]
    exact .inr (.inr rfl)
  · rw [hc.heapOther hp]
    exact (h.fate e he).imp_left fun hh => (hc.held_iff hI.toBookInv).2 ⟨hh, hp⟩

theorem empty (symbol : String) (tickSize : P) : Fated [] (OrderBook.empty symbol tickSize) := by
  refine ⟨fun e he => (by cases he), fun e he => (by cases he), fun e he => (by cases he), fun p hp => ?_⟩
  exact absurd ((empty_inv symbol tickSize).alloc (.inl hp)) (Nat.not_lt_zero p)

end Fated

theorem run_fated (symbol : String) (tickSize : P) {ops : List (BookOp P)} (hfresh : ∀ op ∈ ops, op.Fresh) :
    ∃ r, run symbol tickSize ops = some r ∧ Inv [] r.book ∧ Fated r.accepted r.book := by
  refine run_induction symbol tickSize (K := fun _ r => Fated r.accepted r.book) hfresh (.empty symbol tickSize) ?_
    (fun _ _ _ _ _ hI hK he => hK.cancel hI he) (fun _ _ _ _ hK _ => hK)
  intro pre o r out _ _ hK _ hI' he
  have hcall := he.call hI'
  have hK' := hK.allocate o
  cases hacc : out.accepted with
  | false => exact hK'.refused hcall hacc
  | true =>
    have hself : (r.book.alloc o).2.heap (r.book.alloc o).1 = o := Function.update_self ..
    have := hK'.submit hcall hacc (Nat.lt_succ_self _)
    rw [hself] at this
    exact this

/-- The index knows exactly the live ids. -/
theorem run_live (symbol : String) (tickSize : P) {ops : List (BookOp P)} (hfresh : ∀ op ∈ ops, op.Fresh) :
    ∃ r, run symbol tickSize ops = some r ∧ Inv [] r.book ∧
      ∀ id, r.LiveId id ↔ ∃ p, r.book.ordersById.find? id = some p := by
  obtain ⟨r, hr, hI, hF⟩ := run_fated symbol tickSize hfresh
  refine ⟨r, hr, hI, fun id => ⟨?_, ?_⟩⟩
  · rintro ⟨p, o, hmem, hid, hl⟩
    have hheld : r.book.Held p := (hF.fate (p, o) hmem).resolve_right hl.not_finished
    exact ⟨p, hI.index.2 ⟨(hF.id (p, o) hmem).trans hid, .inl hheld⟩⟩
  · rintro ⟨p, hp⟩
    obtain ⟨hid, hheld | hmem⟩ := hI.index.1 hp
    · obtain ⟨o, ho⟩ := hF.known p hheld
      exact ⟨p, o, ho, (hF.id (p, o) ho).symm.trans hid, hI.live hheld⟩
    · cases hmem

/-! ## Refused calls -/

/-- When a call answers `false`, and that such a call does nothing. -/
structure Refusals (live : String → Prop) (b : OrderBook P) : Prop where
  add : ∀ order, (∃ out, addOrder order b = some out ∧ out.accepted = false) ↔
    order = none ∨ ∃ p, order = some p ∧ ((b.heap p).remainingQuantity = 0 ∨ live (b.heap p).id)
  addUnchanged : ∀ order out, addOrder order b = some out → out.accepted = false →
    out.state.toOrderBook = b ∧ out.callbacks = [] ∧ addOrder order out.state.toOrderBook = some out
  cancel : ∀ id, (b.cancelOrder id).1 = false ↔ ¬ live id
  cancelUnchanged : ∀ id, (b.cancelOrder id).1 = false →
    (b.cancelOrder id).2 = (b, []) ∧ (b.cancelOrder id).2.1.cancelOrder id = b.cancelOrder id

theorem addOrder_refuses (b : OrderBook P) (order : Option OrderPtr) :
    (addOrder order b = some ⟨false, start b, []⟩ ∧
      (order = none ∨ ∃ p, order = some p ∧
        ((b.heap p).remainingQuantity = 0 ∨ ∃ q, b.ordersById.find? (b.heap p).id = some q))) ∨
    ∃ p, order = some p ∧ addOrder order b = (insertOrder p b).map (fun s => ⟨true, s, fireCallbacks p s⟩) ∧
      ¬ ((b.heap p).remainingQuantity = 0 ∨ ∃ q, b.ordersById.find? (b.heap p).id = some q) := by
  cases order with
  | none => exact .inl ⟨rfl, .inl rfl⟩
  | some p =>
    unfold addOrder
    by_cases h0 : (b.heap p).remainingQuantity = 0
    · exact .inl ⟨by simp only [if_pos h0], .inr ⟨p, rfl, .inl h0⟩⟩
    · cases hid : b.ordersById.find? (b.heap p).id with
      | some q => exact .inl ⟨by simp [h0, hid], .inr ⟨p, rfl, .inr ⟨q, hid⟩⟩⟩
      | none => exact .inr ⟨p, rfl, by simp [h0, hid], by simp [h0, hid]⟩

theorem refusals {b : OrderBook P} (hI : Inv [] b) {live : String → Prop}
    (hlive : ∀ id, live id ↔ ∃ p, b.ordersById.find? id = some p) : Refusals live b := by
  have hcancel : ∀ id, ¬ live id → b.cancelOrder id = (false, b, []) := fun id hn =>
    cancelOrder_none (Option.eq_none_iff_forall_ne_some.2 fun p hp => hn ((hlive id).2 ⟨p, hp⟩))
  have hiff : ∀ id, (b.cancelOrder id).1 = false ↔ ¬ live id := by
    intro id
    constructor
    · intro hfalse hl
      -- a live order is `PENDING` or `PARTIAL`, so its cancellation is not refused
      obtain ⟨p, hp⟩ := (hlive id).1 hl
      obtain ⟨b', hb', -⟩ := cancelOrder_effect hI.toBookInv hp
      rw [hb'] at hfalse
      cases hfalse
    · intro hn
      rw [hcancel id hn]
  refine ⟨fun order => ?_, fun order out hout hacc => ?_, hiff, fun id hfalse => ?_⟩
  · simp only [hlive]
    constructor
    · rintro ⟨out, hout, hacc⟩
      rcases addOrder_refuses b order with ⟨-, h⟩ | ⟨p, -, hins, -⟩
      · exact h
      · rw [hins] at hout
        obtain ⟨s, -, rfl⟩ := Option.map_eq_some_iff.1 hout
        cases hacc
    · intro h
      rcases addOrder_refuses b order with ⟨hout, -⟩ | ⟨p, rfl, -, hn⟩
      · exact ⟨_, hout, rfl⟩
      · obtain ⟨q, hq, h⟩ := h.resolve_left (Option.some_ne_none p)
        cases hq
        exact absurd h hn
  · rcases addOrder_refuses b order with ⟨heq, -⟩ | ⟨p, -, hins, -⟩
    · rw [heq] at hout
      cases hout
      exact ⟨rfl, rfl, heq⟩
    · rw [hins] at hout
      obtain ⟨s, -, rfl⟩ := Option.map_eq_some_iff.1 hout
      cases hacc
  · have h := hcancel id ((hiff id).1 hfalse)
    rw [h]
    exact ⟨rfl, h⟩

/-- In every reachable book the calls that answer `false` are those with nothing to do, on any argument: no pointer, an
object the book has seen, or a new one. -/
theorem run_refusals (symbol : String) (tickSize : P) (ops : List (BookOp P)) (hfresh : ∀ op ∈ ops, op.Fresh) :
    ∃ r, run symbol tickSize ops = some r ∧ Refusals r.LiveId r.book ∧
      ∀ o, Refusals r.LiveId (r.book.alloc o).2 ∧
        (o.Fresh → ∃ out, addOrder (some (r.book.alloc o).1) (r.book.alloc o).2 = some out) := by
  obtain ⟨r, hr, hI, hlive⟩ := run_live symbol tickSize hfresh
  refine ⟨r, hr, refusals hI hlive, fun o => ⟨refusals ⟨hI.toBookInv.allocate o, fun _ h => by cases h⟩ hlive, ?_⟩⟩
  intro hf
  obtain ⟨-, out, hout, -⟩ := alloc_addOrder hI hf
  exact ⟨out, hout⟩

theorem run_refusals_cascadeOps : ∃ r, run "S" 1 cascadeOps = some r ∧ Refusals r.LiveId r.book ∧
    ∀ o, Refusals r.LiveId (r.book.alloc o).2 ∧
      (o.Fresh → ∃ out, addOrder (some (r.book.alloc o).1) (r.book.alloc o).2 = some out) :=
  run_refusals "S" 1 cascadeOps cascadeOps_fresh

end OrderbookGC
