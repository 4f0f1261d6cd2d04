/-
What a page shows. After any sequence of events its panes are functions of what has come: the latest trades, the last
status of every order, the levels of the last snapshot, the last answer to a login; no notification stands twice
(`run_shows`).
-/
import Mathlib.Data.List.Induction
import Mathlib.Data.List.Pairwise
import OrderbookGC.Container.Recent
import OrderbookGC.Frontend.Store

namespace OrderbookGC.Frontend

open Container

/-! ## What an event brings -/

def Trade.pricePoint (t : Trade) : PricePoint := ⟨t.price, t.quantity, t.receivedAt⟩

def tradeOf : Clock × Page.Event → Option Trade
  | (clock, .message (.tradeNotification buyOrderId sellOrderId symbol price quantity timestamp _)) =>
    some ⟨buyOrderId, sellOrderId, symbol, price, quantity, timestamp, clock.received⟩
  | _ => none

def orderOf : Clock × Page.Event → Option OrderInfo
  | (_, .message (.orderStatus orderId clientId symbol side orderType price stopPrice quantity filledQuantity status ts)) =>
    some ⟨orderId, clientId, symbol, side, orderType.getD "LIMIT", price, stopPrice.getD 0, quantity, filledQuantity, status, ts⟩
  | _ => none

def snapshotOf : Clock × Page.Event → Option (List PriceLevel × List PriceLevel)
  | (_, .message (.orderbookSnapshot bids asks)) => some (bids.getD [], asks.getD [])
  | _ => none

def connectionOf : Clock × Page.Event → Option Bool
  | (_, .opened) => some true
  | (_, .closed) => some false
  | _ => none

/-- Whether the user is logged in, under which name and token, and the error. -/
def authOf : Clock × Page.Event → Option (Bool × String × String × String)
  | (_, .message (.loginResponse success username sessionToken errorMessage)) =>
    some (isSuccess success, if isSuccess success then username.getD "" else "",
      if isSuccess success then sessionToken.getD "" else "", errorMessage.getD "")
  | (_, .logout) => some (false, "", "", "")
  | _ => none

/-- What an event does to the store, apart from the notification it adds. -/
def paneUpdate : Clock × Page.Event → OrderbookState → OrderbookState
  | (_, .opened) => .setConnected true
  | (_, .closed) => .setConnected false
  | (_, .message (.orderbookSnapshot bids asks)) => .setSnapshot (bids.getD []) (asks.getD [])
  | (clock, .message (.tradeNotification buyOrderId sellOrderId symbol price quantity timestamp _)) =>
    .addTrade ⟨buyOrderId, sellOrderId, symbol, price, quantity, timestamp, clock.received⟩
  | (_, .message (.orderStatus orderId clientId symbol side orderType price stopPrice quantity filledQuantity status ts)) =>
    .updateOrder ⟨orderId, clientId, symbol, side, orderType.getD "LIMIT", price, stopPrice.getD 0, quantity, filledQuantity,
      status, ts⟩
  | (_, .message (.loginResponse success username sessionToken errorMessage)) =>
    .setAuth (isSuccess success) (username.getD "") (sessionToken.getD "") (errorMessage.getD "")
  | (_, .message _) => id
  | (_, .dismiss id) => .removeNotification id
  | (_, .logout) => .logout

/-- An event changes the store and adds at most one notification. -/
inductive Page.Changed (page : Page) (f : OrderbookState → OrderbookState) : Page → Prop
  | silent : page.Changed f (page.update f)
  | notified (clock : Clock) (message : String) (type : NotificationType) (requests : Nat) :
    page.Changed f { (page.update f).notify clock message type with snapshotRequests := requests }

theorem handleMessage_changed (page : Page) (clock : Clock) (msg : Message) :
    page.Changed (paneUpdate (clock, .message msg)) (page.handleMessage clock msg) := by
  cases msg with
  | tradeNotification buyOrderId sellOrderId symbol price quantity timestamp notify =>
    unfold Page.handleMessage
    dsimp only
    split_ifs
    · exact .notified clock _ _ page.snapshotRequests
    · exact .silent
  | loginResponse success username sessionToken errorMessage =>
    unfold Page.handleMessage
    dsimp only [paneUpdate]
    cases isSuccess success with
    | true => exact .notified clock _ _ (page.snapshotRequests + 1)
    | false => exact .notified clock _ _ page.snapshotRequests
  | orderStatus | error | registerResponse => exact .notified clock _ _ page.snapshotRequests
  | orderbookSnapshot | pnlUpdate | other => exact .silent

theorem step_changed (page : Page) (e : Clock × Page.Event) : page.Changed (paneUpdate e) (page.step e) := by
  obtain ⟨clock, event⟩ := e
  cases event with
  | opened | closed => exact .notified clock _ _ page.snapshotRequests
  | message msg => exact handleMessage_changed page clock msg
  | dismiss | logout => exact .silent

/-! ## The notifications -/

/-- The counter of a notification can be read off its id. -/
theorem nextId_injective {now now' : Int} {k k' : Nat} (h : Page.nextId now k = Page.nextId now' k') : k = k' := by
  have hdigits : ∀ n : Nat, ∀ c ∈ n.repr.toList, c ≠ '-' := by
    intro n c hc he
    rw [Nat.toList_repr] at hc
    have := Nat.isDigit_of_mem_toDigits (by decide) (by decide) hc
    rw [he] at this
    exact absurd this (by decide)
  have hlast : ∀ (now : Int) (k : Nat),
      (Page.nextId now k).toList.reverse.takeWhile (· ≠ '-') = k.repr.toList.reverse := by
    intro now k
    unfold Page.nextId
    rw [String.toList_append, String.toList_append, List.reverse_append, List.reverse_append, List.takeWhile_append_of_pos]
    · rw [show ("-" : String).toList.reverse = ['-'] from rfl, List.singleton_append, List.takeWhile_cons_of_neg (by decide),
        List.append_nil]
      rfl
    · intro c hc
      exact decide_eq_true (hdigits k c (List.mem_reverse.1 hc))
  have hk : k.repr.toList = k'.repr.toList := List.reverse_injective (by rw [← hlast now k, ← hlast now' k', h])
  rw [Nat.toList_repr, Nat.toList_repr] at hk
  rw [← Nat.ofDigitChars_ten_toDigits (n := k), hk, Nat.ofDigitChars_ten_toDigits]

/-- The notifications were made by `nextId`, each at another count. -/
structure Numbered (page : Page) : Prop where
  id : ∀ n ∈ page.store.notifications, ∃ now, ∃ k < page.idCounter, n.id = Page.nextId now k
  nodup : (page.store.notifications.map (·.id)).Nodup
  length : page.store.notifications.length ≤ maxNotifications

namespace Numbered

variable {page : Page}

/-- Notifications may be removed. -/
theorem update (h : Numbered page) {f : OrderbookState → OrderbookState}
    (hf : ∀ s, (f s).notifications.Sublist s.notifications) : Numbered (page.update f) :=
  ⟨fun n hn => h.id n ((hf _).subset hn), ((hf _).map _).nodup h.nodup, (hf _).length_le.trans h.length⟩

theorem notify (h : Numbered page) (clock : Clock) (message : String) (type : NotificationType) :
    Numbered (page.notify clock message type) := by
  have hsub : ∀ {l : List Notification}, (l.take maxNotifications).Sublist l := List.take_sublist _ _
  refine ⟨fun n hn => ?_, ?_, List.length_take_le _ _⟩
  · rcases List.mem_cons.1 (hsub.subset hn) with rfl | hn
    · exact ⟨clock.id, page.idCounter, Nat.lt_succ_self _, rfl⟩
    · obtain ⟨now, k, hk, hid⟩ := h.id n hn
      exact ⟨now, k, hk.trans (Nat.lt_succ_self _), hid⟩
  · refine (hsub.map _).nodup (List.nodup_cons.2 ⟨fun hm => ?_, h.nodup⟩)
    -- the counter of the new notification is above those of the others
    obtain ⟨n, hn, he⟩ := List.mem_map.1 hm
    obtain ⟨now, k, hk, hid⟩ := h.id n hn
    have := nextId_injective (hid.symm.trans he)
    omega

theorem step (h : Numbered page) (e : Clock × Page.Event) : Numbered (page.step e) := by
  have hu : Numbered (page.update (paneUpdate e)) := by
    refine h.update fun s => ?_
    obtain ⟨clock, event⟩ := e
    cases event with
    | message msg => cases msg <;> exact .refl _
    | dismiss id => exact List.filter_sublist
    | _ => exact .refl _
  have hc := step_changed page e
  generalize page.step e = page' at hc ⊢
  cases hc with
  | silent => exact hu
  | notified clock message type requests =>
    have hn := hu.notify clock message type
    exact ⟨hn.id, hn.nodup, hn.length⟩

end Numbered

/-! ## The panes -/

/-- The page shows what the events have brought. -/
structure Page.Shows (events : List (Clock × Page.Event)) (page : Page) : Prop where
  trades : page.store.trades = (events.filterMap tradeOf).reverse.take maxTrades
  priceHistory : page.store.priceHistory = ((events.filterMap tradeOf).map Trade.pricePoint).rtake maxPriceHistory
  order : ∀ id, page.store.orders.find? id = ((events.filterMap orderOf).filter (·.orderId = id)).getLast?
  levels : (page.store.bids, page.store.asks) = (events.filterMap snapshotOf).getLastD ([], [])
  connected : page.store.connected = (events.filterMap connectionOf).getLastD false
  auth : (page.store.isAuthenticated, page.store.username, page.store.sessionToken, page.store.authError) =
    (events.filterMap authOf).getLastD (false, "", "", "")
  notifications : (page.store.notifications.map (·.id)).Nodup ∧ page.store.notifications.length ≤ maxNotifications

/-- A pane without notifications, after a run: what the events bring to it, one after the other. -/
theorem pane_run {γ δ : Type} (g : OrderbookState → γ) (sel : Clock × Page.Event → Option δ) (u : γ → δ → γ)
    (hnotify : ∀ n s, g (.addNotification n s) = g s) (h : ∀ e s, g (paneUpdate e s) = (sel e).elim (g s) (u (g s)))
    (events : List (Clock × Page.Event)) : g (Page.run events).store = (events.filterMap sel).foldl u (g .initial) := by
  refine foldl_component (g := fun page : Page => g page.store) (fun page e => ?_) events .loaded
  have hc := step_changed page e
  generalize page.step e = page' at hc ⊢
  cases hc with
  | silent => exact h e page.store
  | notified => exact (hnotify _ _).trans (h e page.store)

/-- The last status of an order. -/
theorem find?_orders (events : List (Clock × Page.Event)) (id : String) :
    (Page.run events).store.orders.find? id = ((events.filterMap orderOf).filter (·.orderId = id)).getLast? := by
  rw [pane_run (·.orders) orderOf (fun m o => m.set o.orderId o) (fun _ _ => rfl) ?_ events]
  · exact (InsertionMap.find?_foldl_set OrderInfo.orderId (fun o => o) _ id).trans Option.map_id'
  · rintro ⟨clock, event⟩ s
    cases event with
    | message msg => cases msg <;> rfl
    | _ => rfl

/-- After every sequence of events, a page shows the hundred latest trades, the latest first, and has the two thousand
latest for its chart; it has for every order the last status that came; the levels of the last snapshot; whether its
connection is open; the last answer to a login, until the user logs out; and no notification twice. -/
theorem run_shows (events : List (Clock × Page.Event)) : (Page.run events).Shows events where
  trades := by
    refine (pane_run (·.trades) tradeOf (fun r t => (t :: r).take maxTrades) (fun _ _ => rfl) ?_ events).trans (foldl_take _ _)
    rintro ⟨clock, event⟩ s
    cases event with
    | message msg => cases msg <;> rfl
    | _ => rfl
  priceHistory := by
    rw [List.map_filterMap, ← foldl_rtake]
    refine pane_run (·.priceHistory) _ (fun r t => (r ++ [t]).rtake maxPriceHistory) (fun _ _ => rfl) ?_ events
    rintro ⟨clock, event⟩ s
    cases event with
    | message msg =>
      cases msg with
      | tradeNotification =>
        simp only [paneUpdate, OrderbookState.addTrade, tradeOf, Option.map_some, Option.elim_some, Trade.pricePoint]
      | _ => rfl
    | _ => rfl
  order := find?_orders events
  levels := by
    refine (pane_run (fun s => (s.bids, s.asks)) snapshotOf (fun _ l => l) (fun _ _ => rfl) ?_ events).trans (foldl_last _ _)
    rintro ⟨clock, event⟩ s
    cases event with
    | message msg => cases msg <;> rfl
    | _ => rfl
  connected := by
    refine (pane_run (·.connected) connectionOf (fun _ b => b) (fun _ _ => rfl) ?_ events).trans (foldl_last _ _)
    rintro ⟨clock, event⟩ s
    cases event with
    | message msg => cases msg <;> rfl
    | _ => rfl
  auth := by
    refine (pane_run (fun s => (s.isAuthenticated, s.username, s.sessionToken, s.authError)) authOf (fun _ a => a)
      (fun _ _ => rfl) ?_ events).trans (foldl_last _ _)
    rintro ⟨clock, event⟩ s
    cases event with
    | message msg => cases msg <;> rfl
    | _ => rfl
  notifications := by
    have h : Numbered (Page.run events) := by
      unfold Page.run
      induction events using List.reverseRecOn with
      | nil => exact ⟨fun n hn => (List.not_mem_nil hn).elim, .nil, Nat.zero_le _⟩
      | append_singleton events e ih => rw [List.foldl_append]; exact ih.step e
    exact ⟨h.nodup, h.length⟩

end OrderbookGC.Frontend
