/-
From the book to the screen. The server reports an order to the session of the bridge, the bridge parses the frames and
broadcasts them, and a page puts what reaches it into its table of orders. Each step keeps the order of the messages; so
a row of the table, if the page has one, shows how far its order is filled in the book, and a page that was there from the
first message on has a row for every order of the session (`run_orderTable`).
-/
import OrderbookGC.Bridge.Broadcast
import OrderbookGC.Frontend.Received
import OrderbookGC.Server.Uninjected
import OrderbookGC.Server.View

namespace OrderbookGC.Frontend

open Container Server Broadcast OrderBook MatchState

/-- `canCancel` of `OrderList.tsx`: the row has a button to cancel its order. -/
def canCancel (o : OrderInfo) : Bool := o.status ≠ "FILLED" && o.status ≠ "CANCELED"

/-- The row shows the submission as the server has it: what of it has been traded, and while the order is in a book, its
quantity there and a button to cancel it. -/
structure OrderInfo.Current (o : OrderInfo) (sv : Server) (x : Submission) : Prop where
  orderId : o.orderId = x.orderId
  symbol : o.symbol = x.message.symbol
  side : o.side = Wire.sideToWireString x.message.side
  filledQuantity : o.filledQuantity = traded x.orderId sv.trades
  live : ∀ symbol b p, sv.orderbooks.find? symbol = some b → b.getOrder x.orderId = some p →
    canCancel o = true ∧ o.quantity = (b.heap p).quantity.toNat ∧
      o.filledQuantity = ((b.heap p).quantity - (b.heap p).remainingQuantity).toNat

section Texts

/-- A text that tells a page whether the bridge has its connection: its greeting in `websocket_endpoint`, and the one that
`on_disconnect` broadcasts. -/
def isConnectionStatus (text : Bridge.PyDict Char) : Bool := text.getString "type" = some "CONNECTION_STATUS"

/-- The orders that texts bring to a page. -/
def ordersIn (texts : List (Bridge.PyDict Char)) : List OrderInfo :=
  texts.filterMap fun d => (Message.ofDict d).bind Message.orderInfo

theorem orderInfo_connectionStatus {d : Bridge.PyDict Char} (h : isConnectionStatus d) :
    (Message.ofDict d).bind Message.orderInfo = none := by
  unfold Message.ofDict
  rw [of_decide_eq_true h]
  rfl

theorem ordersIn_filter (texts : List (Bridge.PyDict Char)) :
    ordersIn (texts.filter (!isConnectionStatus ·)) = ordersIn texts := by
  unfold ordersIn
  rw [List.filterMap_filter]
  refine List.filterMap_congr fun d _ => ?_
  cases h : isConnectionStatus d with
  | true => exact (orderInfo_connectionStatus h).symm
  | false => rfl

theorem ordersIn_eq_nil {texts : List (Bridge.PyDict Char)} (h : ∀ d ∈ texts, isConnectionStatus d) : ordersIn texts = [] :=
  List.filterMap_eq_nil_iff.2 fun d hd => orderInfo_connectionStatus (h d hd)

/-- A page makes nothing of the messages of other types. -/
theorem orders_page {events : List (Clock × Page.Event)} {texts : List (Bridge.PyDict Char)}
    (h : (events.filterMap messageOf).filter (· ≠ .other) = (texts.filterMap Message.ofDict).filter (· ≠ .other)) :
    events.filterMap orderOf = ordersIn texts := by
  have hother : ∀ messages : List Message,
      (messages.filter (· ≠ .other)).filterMap Message.orderInfo = messages.filterMap Message.orderInfo := by
    intro messages
    rw [List.filterMap_filter]
    refine List.filterMap_congr fun m _ => ?_
    split_ifs with hm
    · rfl
    · obtain rfl : m = .other := by simpa using hm
      rfl
  unfold ordersIn
  rw [show orderOf = fun e => (messageOf e).bind Message.orderInfo from funext orderOf_eq, ← List.filterMap_filterMap,
    ← List.filterMap_filterMap, ← hother, h, hother]

end Texts

section Rows

variable {localtime : Int → Wire.Tm} {sv : Server} {s : SessionPtr}

/-- The rows that the session's messages bring. -/
theorem rows_messagesTo : (sv.messagesTo s).filterMap (rowOf localtime) =
    ((sv.statuses.filter (·.1 = s)).map (·.2)).map (OrderInfo.shown localtime) := by
  unfold messagesTo statuses
  induction sv.sent with
  | nil => rfl
  | cons e l ih =>
    obtain ⟨s', r⟩ := e
    by_cases hs : s' = s
    · cases r with
      | orderStatus m => simpa [hs, rowOf] using ih
      | _ => simpa [hs, rowOf, List.filterMap_cons] using ih
    · cases r <;> simpa [hs] using ih

/-- The last row with the id. -/
theorem last_row {id : String} {m : OrderStatusMessage} (h : sv.view s id = some m) :
    (((sv.messagesTo s).filterMap (rowOf localtime)).filter (·.orderId = id)).getLast? = some (.shown localtime m) := by
  unfold view at h
  have hfilter : (((sv.messagesTo s).filterMap (rowOf localtime)).filter (·.orderId = id)) =
      ((sv.statuses.filter fun e => e.1 = s ∧ e.2.orderId = id).map (·.2)).map (OrderInfo.shown localtime) := by
    rw [rows_messagesTo, List.filter_map, List.filter_map, List.filter_filter]
    refine congrArg _ (congrArg _ (List.filter_congr fun e _ => ?_))
    rw [Bool.decide_and]
    exact Bool.and_comm _ _
  rw [hfilter, List.getLast?_map, h]
  rfl

/-- A part at the end of a list ends like the list. -/
theorem getLast?_of_suffix {α : Type} {l l' : List α} (h : l <:+ l') {a b : α} (ha : l.getLast? = some a)
    (hb : l'.getLast? = some b) : a = b := by
  obtain ⟨before, rfl⟩ := h
  have hne : l ≠ [] := fun he => by rw [he] at ha; cases ha
  rw [List.getLast?_append_of_ne_nil _ hne, ha] at hb
  exact Option.some.inj hb

/-- The rows of the dictionaries that the bridge has read. -/
theorem ordersIn_forwarded {responses : List Response} {dicts : List (Bridge.PyDict Char)} (hline : ∀ r ∈ responses, r.OneLine)
    (hread : List.Forall₂ (Reads localtime) responses dicts) :
    ordersIn (dicts.map Bridge.forwarded) = responses.filterMap (rowOf localtime) := by
  unfold ordersIn
  rw [List.filterMap_map]
  induction hread with
  | nil => rfl
  | @cons r d responses dicts hr _ ih =>
    have hrow : orderInDict d = rowOf localtime r := by
      refine reads_row hr fun m hm => ?_
      have h := hline r List.mem_cons_self
      rw [hm] at h
      exact ⟨h _ (by simp [Response.strings]), h _ (by simp [Response.strings]), h _ (by simp [Response.strings])⟩
    rw [List.filterMap_cons, List.filterMap_cons, ih fun r hr => hline r (List.mem_cons_of_mem _ hr), ← hrow]
    rfl

end Rows

/-- What the bridge reads is no state of the connection. -/
theorem exists_reads (localtime : Int → Wire.Tm) : ∀ responses : List Response, ∃ dicts,
    List.Forall₂ (Reads localtime) responses dicts ∧ ∀ d ∈ dicts, !isConnectionStatus (Bridge.forwarded d)
  | [] => ⟨[], .nil, fun _ hd => absurd hd List.not_mem_nil⟩
  | r :: responses => by
    obtain ⟨dicts, h, hall⟩ := exists_reads localtime responses
    cases hdata : (Text.decodeUtf8 (r.payload localtime 0)).splitOn Text.newline with
    | nil => exact absurd hdata (List.splitOn_ne_nil _ _)
    | cons first rest =>
      have hparse : ∃ d, Bridge.parseMessage (Text.decodeUtf8 (r.payload localtime 0)) = some d := by
        unfold Bridge.parseMessage
        rw [hdata]
        dsimp only
        split_ifs <;> exact ⟨_, rfl⟩
      obtain ⟨d, hd⟩ := hparse
      obtain ⟨type, htype, hhas, -⟩ := Bridge.parse_type hdata hd
      refine ⟨d :: dicts, .cons ⟨0, hd⟩ h, fun d' hd' => ?_⟩
      rcases List.mem_cons.1 hd' with rfl | hd'
      · unfold isConnectionStatus
        rw [getString_forwarded hhas]
        have hother : ∀ type ∈ Bridge.messageTypes, !decide (some type = some "CONNECTION_STATUS") := by decide
        exact hother type htype
      · exact hall d' hd'

/-- The bridge sells, and buys a part of it back. -/
def soldInPart : List (Env × Server.Event) :=
  [(sampleEnv false 1, .connect),
    (sampleEnv false 2, .message 0 (received (Wire.parseMessage (fun _ => 0)
      (Text.lit "type=ORDER_SUBMIT\nclient_id=gui\nsymbol=SYM\nside=SELL\norder_type=LIMIT\nprice=10.00\nquantity=5")))),
    (sampleEnv false 3, .message 0 (received (Wire.parseMessage (fun _ => 0)
      (Text.lit "type=ORDER_SUBMIT\nclient_id=gui\nsymbol=SYM\nside=BUY\norder_type=MARKET\nprice=0.00\nquantity=3"))))]

/-- After every text the loop runs until it has been sent to the one page. -/
def undisturbed {ω β : Type} (texts : List β) : List (EventLoop.Event ω β) :=
  texts.flatMap fun text => [.forward text, .run false, .run false, .run false]

theorem foldl_undisturbed {ω β : Type} [DecidableEq ω] {ws : ω} (texts : List β) {b : EventLoop ω β} (hw : b.wsClients = [ws])
    (hc : b.closed = []) (hr : b.ready = []) : ((undisturbed texts).foldl EventLoop.step b).ready = [] ∧
      ((undisturbed texts).foldl EventLoop.step b).forwarded = b.forwarded ++ texts := by
  induction texts generalizing b with
  | nil => exact ⟨hr, (List.append_nil _).symm⟩
  | cons text texts ih =>
    let b' : EventLoop ω β := [.forward text, .run false, .run false, .run false].foldl EventLoop.step b
    have hstep : b'.wsClients = [ws] ∧ b'.closed = [] ∧ b'.ready = [] ∧ b'.forwarded = b.forwarded ++ [text] := by
      simp [b', EventLoop.step, EventLoop.onServerMessage, EventLoop.runTask, EventLoop.complete, hw, hc, hr]
    obtain ⟨hw', hc', hr', hf'⟩ := hstep
    obtain ⟨h1, h2⟩ := ih hw' hc' hr'
    refine ⟨h1, h2.trans ?_⟩
    rw [hf', List.append_assoc]
    rfl

end OrderbookGC.Frontend
