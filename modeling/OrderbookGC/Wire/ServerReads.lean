/-
The server reads what the bridge writes. The handlers of the bridge put any string and any integer
into a request, and the format has no escapes: a line ends at the first newline, and the server takes
a quantity for 32 bits without a sign. A request that fits is read back field by field
(`parse_orderSubmit` and its siblings); one that does not is read as another, and acted on.
-/
import OrderbookGC.Server.Ids
import OrderbookGC.Wire.BridgeReads

namespace OrderbookGC.Bridge

open Text Wire

/-! ## Requests -/

/-- What the handlers pass to `tcp_client`. -/
inductive Request (α : Type)
  | orderSubmit (m : OrderSubmit α)
  | orderCancel (m : OrderCancel α)
  | snapshotRequest (m : SnapshotRequest α)
  | login (m : LoginRequest α)
  | register (m : RegisterRequest α)

variable {α β : Type} [Alphabet α] [Alphabet β]

/-- The `client_id` of `main.py`, for the digits its uuid begins with. -/
def clientId (hex : Fin 12 → Fin 16) : List α := lit "gui_" ++ (List.ofFn hex).map fun d => Alphabet.ofChar (hexDigit d)

namespace Request

def serialize : Request α → List α
  | .orderSubmit m => serializeOrderSubmit m
  | .orderCancel m => serializeOrderCancel m
  | .snapshotRequest m => serializeSnapshotRequest m
  | .login m => serializeLogin m
  | .register m => serializeRegister m

/-- A request of the handlers: their client id, and prices in whole cents. -/
def Accepted (hex : Fin 12 → Fin 16) : Request α → Prop
  | .orderSubmit m => m.clientId = clientId hex ∧ Cents m.price ∧ Cents m.stopPrice
  | .orderCancel m => m.clientId = clientId hex
  | _ => True

/-- The same request over mapped strings. -/
def map (f : List α → List β) : Request α → Request β
  | .orderSubmit m =>
    .orderSubmit ⟨f m.clientId, f m.symbol, m.side, m.orderType, m.price, m.stopPrice, m.quantity⟩
  | .orderCancel m => .orderCancel ⟨f m.orderId, f m.clientId⟩
  | .snapshotRequest m => .snapshotRequest ⟨f m.symbol⟩
  | .login m => .login ⟨f m.username, f m.password⟩
  | .register m => .register ⟨f m.username, f m.password⟩

end Request

/-! ## The text of a request -/

/-- The lines after the price: the stop price is written last, when there is one. -/
def quantityLines (quantity : Int) (stopPrice : ℚ) : List α :=
  if 0 < stopPrice then line "quantity=" (showInt quantity) ++ (lit "stop_price=" ++ showFixed2 stopPrice)
  else lit "quantity=" ++ showInt quantity

theorem join_line (k : String) (v x : List α) (l : List (List α)) :
    [newline].intercalate ((lit k ++ v) :: x :: l) = line k v ++ [newline].intercalate (x :: l) := by
  rw [List.intercalate_cons_cons]
  rfl

theorem join_type {s k v : String} (h : s.toList = k.toList ++ v.toList) (x : List α) (l : List (List α)) :
    [newline].intercalate (lit s :: x :: l) = line k (lit v) ++ [newline].intercalate (x :: l) := by
  rw [← join_line]
  unfold lit
  rw [h, List.map_append]

theorem serializeOrderSubmit_eq (m : OrderSubmit α) : serializeOrderSubmit m =
    line "type=" (lit "ORDER_SUBMIT") ++
    (line "client_id=" m.clientId ++
    (line "symbol=" m.symbol ++
    (line "side=" (lit (sideToWireString m.side)) ++
    (line "order_type=" (lit (orderTypeToWireString m.orderType)) ++
    (line "price=" (showFixed2 m.price) ++
    quantityLines m.quantity m.stopPrice))))) := by
  unfold serializeOrderSubmit quantityLines
  dsimp only
  by_cases hs : 0 < m.stopPrice
  · simp only [if_pos hs, List.cons_append, List.nil_append, join_line, List.intercalate_singleton,
      join_type (s := "type=ORDER_SUBMIT") (k := "type=") (v := "ORDER_SUBMIT") (by decide)]
  · simp only [if_neg hs, join_line, List.intercalate_singleton,
      join_type (s := "type=ORDER_SUBMIT") (k := "type=") (v := "ORDER_SUBMIT") (by decide)]

theorem serializeOrderCancel_eq (m : OrderCancel α) : serializeOrderCancel m =
    line "type=" (lit "ORDER_CANCEL") ++ (line "order_id=" m.orderId ++ (lit "client_id=" ++ m.clientId)) := by
  unfold serializeOrderCancel
  simp only [join_line, List.intercalate_singleton,
    join_type (s := "type=ORDER_CANCEL") (k := "type=") (v := "ORDER_CANCEL") (by decide)]

theorem serializeSnapshotRequest_eq (m : SnapshotRequest α) : serializeSnapshotRequest m =
    line "type=" (lit "SNAPSHOT_REQUEST") ++ line "symbol=" m.symbol := by
  have hlit : (lit "type=SNAPSHOT_REQUEST\nsymbol=" : List α) = line "type=" (lit "SNAPSHOT_REQUEST") ++ lit "symbol=" := by
    unfold line lit newline
    simp only [← List.map_append, ← List.map_singleton]
    exact congrArg _ (by decide)
  unfold serializeSnapshotRequest
  rw [hlit, List.append_assoc, List.append_assoc]
  rfl

theorem serializeLogin_eq (m : LoginRequest α) : serializeLogin m =
    line "type=" (lit "LOGIN") ++ (line "username=" m.username ++ (lit "password=" ++ m.password)) := by
  unfold serializeLogin
  simp only [join_line, List.intercalate_singleton, join_type (s := "type=LOGIN") (k := "type=") (v := "LOGIN") (by decide)]

theorem serializeRegister_eq (m : RegisterRequest α) : serializeRegister m =
    line "type=" (lit "REGISTER") ++ (line "username=" m.username ++ (lit "password=" ++ m.password)) := by
  unfold serializeRegister
  simp only [join_line, List.intercalate_singleton,
    join_type (s := "type=REGISTER") (k := "type=") (v := "REGISTER") (by decide)]

theorem TextHom.quantityLines (f : TextHom α β) (quantity : Int) (stopPrice : ℚ) :
    f.apply (quantityLines quantity stopPrice) = Bridge.quantityLines quantity stopPrice := by
  unfold Bridge.quantityLines
  split_ifs
  · rw [f.append, f.line (by decide), f.showInt, f.append, f.lit (by decide), f.showFixed2]
  · rw [f.append, f.lit (by decide), f.showInt]

/-- A request over mapped strings is the mapped text. -/
theorem Request.serialize_map (f : TextHom α β) (r : Request α) : (r.map f.apply).serialize = f.apply r.serialize := by
  have hline : ∀ {k : String} (v : List α), IsAscii k → f.apply (line k v) = line k (f.apply v) := fun v hk => f.line hk v
  have hlit : ∀ {k : String}, IsAscii k → f.apply (lit k) = lit k := fun hk => f.lit hk
  cases r with
  | orderSubmit m =>
    simp (disch := (simp only [IsAscii, String.reduceToList]; decide)) only [map, serialize, serializeOrderSubmit_eq, f.append,
      hline, hlit, hlit (isAscii_side _), hlit (isAscii_type _), f.showFixed2, TextHom.quantityLines]
  | orderCancel m =>
    simp (disch := (simp only [IsAscii, String.reduceToList]; decide)) only [map, serialize, serializeOrderCancel_eq, f.append,
      hline, hlit]
  | snapshotRequest m =>
    simp (disch := (simp only [IsAscii, String.reduceToList]; decide)) only [map, serialize, serializeSnapshotRequest_eq,
      f.append, hline, hlit]
  | login m =>
    simp (disch := (simp only [IsAscii, String.reduceToList]; decide)) only [map, serialize, serializeLogin_eq, f.append, hline,
      hlit]
  | register m =>
    simp (disch := (simp only [IsAscii, String.reduceToList]; decide)) only [map, serialize, serializeRegister_eq, f.append,
      hline, hlit]

/-! ## What the server reads -/

variable [DecidableEq α]

/-- The quantity as the server reads it, and the stop price when there is one. -/
theorem foldl_quantityLines (m : Wire.OrderSubmitMessage α) (quantity : Int) {stopPrice : ℚ} (hstop : Cents stopPrice) :
    (lines (quantityLines quantity stopPrice)).foldl Wire.OrderSubmitMessage.readLine m =
      { m with quantity := readUInt32 (showInt quantity : List α)
               stopPrice := if 0 < stopPrice then stopPrice else m.stopPrice } := by
  have hq : ∀ m : Wire.OrderSubmitMessage α, m.readLine (lit "quantity=" ++ showInt quantity) =
      { m with quantity := readUInt32 (showInt quantity : List α) } := fun m => by
    simp (disch := (simp only [IsAscii, IsKey, String.reduceToList]; decide)) only [Wire.OrderSubmitMessage.readLine, startsWith_self,
      startsWith_other, if_true, Bool.false_eq_true, if_false, extractUInt32, Wire.extractString_key]
  unfold quantityLines
  by_cases hs : 0 < stopPrice
  · rw [if_pos hs, if_pos hs, lines_line (by decide) (newline_not_mem_showInt _),
      lines_lit (by decide) (by decide) (newline_not_mem_showFixed2 _), List.foldl_cons, hq, List.foldl_cons, List.foldl_nil]
    simp (disch := (simp only [IsAscii, IsKey, String.reduceToList]; decide)) only [Wire.OrderSubmitMessage.readLine, startsWith_self,
      startsWith_other, if_true, Bool.false_eq_true, if_false]
    rw [extractDouble_key (by decide) hstop]
  · rw [if_neg hs, if_neg hs, lines_lit (by decide) (by decide) (newline_not_mem_showInt _), List.foldl_cons, List.foldl_nil, hq]

/-- An order on one line each: everything is read back but a quantity that is no `uint32_t` and a negative stop price. -/
theorem parse_orderSubmit (read : List α → Int) (m : OrderSubmit α) (hc : newline ∉ m.clientId) (hs : newline ∉ m.symbol)
    (hp : Cents m.price) (hstop : Cents m.stopPrice) : Wire.parseMessage read (serializeOrderSubmit m) =
      .orderSubmit ⟨m.clientId, m.symbol, m.side, m.orderType, m.price, if 0 < m.stopPrice then m.stopPrice else 0,
        readUInt32 (showInt m.quantity : List α)⟩ := by
  rw [serializeOrderSubmit_eq, parseMessage_type read (by decide)]
  unfold parseBody
  rw [if_pos rfl]
  congr 1
  rw [lines_line (by decide) hc, lines_line (by decide) hs, lines_line (by decide) (newline_not_mem_side _),
    lines_line (by decide) (newline_not_mem_type _), lines_line (by decide) (newline_not_mem_showFixed2 _)]
  simp (disch := (simp only [IsAscii, IsKey, String.reduceToList]; decide)) only [List.foldl_cons,
    Wire.OrderSubmitMessage.readLine, startsWith_self, startsWith_other, if_true, Bool.false_eq_true, if_false, Wire.extractString_key,
    extractSide_key, extractType_key]
  rw [extractDouble_key (by decide) hp, foldl_quantityLines _ _ hstop]

theorem parse_orderCancel (read : List α → Int) (m : OrderCancel α) (hid : newline ∉ m.orderId) (hc : newline ∉ m.clientId) :
    Wire.parseMessage read (serializeOrderCancel m) = .orderCancel ⟨m.orderId, m.clientId⟩ := by
  rw [serializeOrderCancel_eq]
  exact OrderCancelMessage.parse_serialize read ⟨m.orderId, m.clientId⟩ hid hc

theorem parse_snapshotRequest (read : List α → Int) (m : SnapshotRequest α) (hs : newline ∉ m.symbol) :
    Wire.parseMessage read (serializeSnapshotRequest m) = .snapshotRequest ⟨m.symbol⟩ := by
  rw [serializeSnapshotRequest_eq]
  exact SnapshotRequestMessage.parse_serialize read ⟨m.symbol⟩ hs

theorem parse_login (read : List α → Int) (m : LoginRequest α) (hu : newline ∉ m.username) (hp : newline ∉ m.password) :
    Wire.parseMessage read (serializeLogin m) = .login ⟨m.username, m.password⟩ := by
  rw [serializeLogin_eq]
  exact LoginMessage.parse_serialize read ⟨m.username, m.password⟩ hu hp

theorem newline_not_mem_extractString {l : List α} (h : newline ∉ l) : newline ∉ Wire.extractString l :=
  fun hm => h (mem_of_mem_afterEquals hm)

/-- What reading one line keeps, reading a text keeps. -/
theorem foldl_lines {σ : Type} {P : σ → Prop} {f : σ → List α → σ} (hf : ∀ m, P m → ∀ l, newline ∉ l → P (f m l)) {m : σ}
    (hm : P m) (data : List α) : P ((lines data).foldl f m) :=
  List.foldlRecOn _ _ hm fun m hm l hl => hf m hm l (newline_not_mem_of_mem_lines hl)

theorem foldl_orderSubmit (data : List α) :
    let m := (lines data).foldl Wire.OrderSubmitMessage.readLine ⟨[], [], .buy, .limit, 0, 0, 0⟩
    newline ∉ m.clientId ∧ newline ∉ m.symbol := by
  refine foldl_lines (P := fun m : Wire.OrderSubmitMessage α => newline ∉ m.clientId ∧ newline ∉ m.symbol) (fun m hm l hl => ?_)
    ⟨List.not_mem_nil, List.not_mem_nil⟩ data
  have hval := newline_not_mem_extractString hl
  unfold Wire.OrderSubmitMessage.readLine
  split_ifs
  · exact ⟨hval, hm.2⟩
  · exact ⟨hm.1, hval⟩
  all_goals exact hm

theorem foldl_orderCancel (data : List α) :
    let m := (lines data).foldl OrderCancelMessage.readLine ⟨[], []⟩
    newline ∉ m.orderId ∧ newline ∉ m.clientId := by
  refine foldl_lines (P := fun m : OrderCancelMessage α => newline ∉ m.orderId ∧ newline ∉ m.clientId) (fun m hm l hl => ?_)
    ⟨List.not_mem_nil, List.not_mem_nil⟩ data
  have hval := newline_not_mem_extractString hl
  unfold OrderCancelMessage.readLine
  split_ifs
  · exact ⟨hval, hm.2⟩
  · exact ⟨hm.1, hval⟩
  · exact hm

theorem foldl_snapshotRequest (data : List α) :
    newline ∉ ((lines data).foldl SnapshotRequestMessage.readLine ⟨[]⟩).symbol := by
  refine foldl_lines (P := fun m : SnapshotRequestMessage α => newline ∉ m.symbol) (fun m hm l hl => ?_) List.not_mem_nil data
  unfold SnapshotRequestMessage.readLine
  split_ifs
  · exact newline_not_mem_extractString hl
  · exact hm

theorem foldl_login (data : List α) :
    let m := (lines data).foldl LoginMessage.readLine ⟨[], []⟩
    newline ∉ m.username ∧ newline ∉ m.password := by
  refine foldl_lines (P := fun m : LoginMessage α => newline ∉ m.username ∧ newline ∉ m.password) (fun m hm l hl => ?_)
    ⟨List.not_mem_nil, List.not_mem_nil⟩ data
  have hval := newline_not_mem_extractString hl
  unfold LoginMessage.readLine
  split_ifs
  · exact ⟨hval, hm.2⟩
  · exact ⟨hm.1, hval⟩
  · exact hm

/-- A message of the request's class, with its strings on one line. -/
def SameClass : Request α → Message α → Prop
  | .orderSubmit _, .orderSubmit m => newline ∉ m.clientId ∧ newline ∉ m.symbol
  | .orderCancel _, .orderCancel m => newline ∉ m.orderId ∧ newline ∉ m.clientId
  | .snapshotRequest _, .snapshotRequest m => newline ∉ m.symbol
  | .login _, .login m => newline ∉ m.username ∧ newline ∉ m.password
  | .register _, .register _ => True
  | _, _ => False

/-- Whatever the strings of a request hold, its class is read: the line of the type comes first. -/
theorem parse_sameClass (read : List α → Int) (r : Request α) : SameClass r (Wire.parseMessage read r.serialize) := by
  have hclass : ∀ {name : String} (rest : List α), IsPlain name →
      Wire.parseMessage read (line "type=" (lit name) ++ rest) = parseBody read (lit name) (lines rest) :=
    fun rest hn => parseMessage_type read hn rest
  cases r with
  | orderSubmit m =>
    simp (disch := (simp only [IsAscii, IsPlain, String.reduceToList]; decide)) only [Request.serialize, serializeOrderSubmit_eq,
      hclass, parseBody, lit_inj, String.reduceEq, if_true, if_false]
    exact foldl_orderSubmit _
  | orderCancel m =>
    simp (disch := (simp only [IsAscii, IsPlain, String.reduceToList]; decide)) only [Request.serialize, serializeOrderCancel_eq,
      hclass, parseBody, lit_inj, String.reduceEq, if_true, if_false]
    exact foldl_orderCancel _
  | snapshotRequest m =>
    simp (disch := (simp only [IsAscii, IsPlain, String.reduceToList]; decide)) only [Request.serialize,
      serializeSnapshotRequest_eq, hclass, parseBody, lit_inj, String.reduceEq, if_true, if_false]
    exact foldl_snapshotRequest _
  | login m =>
    simp (disch := (simp only [IsAscii, IsPlain, String.reduceToList]; decide)) only [Request.serialize, serializeLogin_eq,
      hclass, parseBody, lit_inj, String.reduceEq, if_true, if_false]
    exact foldl_login _
  | register m =>
    simp (disch := (simp only [IsAscii, IsPlain, String.reduceToList]; decide)) only [Request.serialize, serializeRegister_eq,
      hclass, parseBody, lit_inj, String.reduceEq, if_true, if_false]
    trivial

/-! ## What becomes of a request -/

omit [DecidableEq α] in
theorem newline_not_mem_clientId (hex : Fin 12 → Fin 16) : newline ∉ (clientId hex : List α) := by
  have hdigit : ∀ d : Fin 16, hexDigit d ≠ '\n' ∧ (hexDigit d).toNat < 128 := by decide
  unfold clientId
  intro hm
  rcases List.mem_append.1 hm with hm | hm
  · exact newline_not_mem_lit (by decide) hm
  · obtain ⟨d, -, hd⟩ := List.mem_map.1 hm
    exact (hdigit d).1 ((ofChar_inj (hdigit d).2 (by decide)).1 hd)

omit [DecidableEq α] in
theorem TextHom.clientId (f : TextHom α β) (hex : Fin 12 → Fin 16) : f.apply (clientId hex) = Bridge.clientId hex := by
  have hdigit : ∀ d : Fin 16, (hexDigit d).toNat < 128 := by decide
  have hchars := f.chars (l := (List.ofFn hex).map hexDigit) fun c hc => by
    obtain ⟨d, -, rfl⟩ := List.mem_map.1 hc
    exact hdigit d
  rw [List.map_map, List.map_map] at hchars
  unfold Bridge.clientId
  rw [f.append, f.lit (by decide)]
  exact congrArg _ hchars

/-- Every field of the message equals the request's. -/
def Carries : Request α → Message α → Prop
  | .orderSubmit r, .orderSubmit m =>
    m.clientId = r.clientId ∧ m.symbol = r.symbol ∧ m.side = r.side ∧ m.orderType = r.orderType ∧ m.price = r.price ∧
      m.stopPrice = r.stopPrice ∧ (m.quantity.toNat : Int) = r.quantity
  | .orderCancel r, .orderCancel m => m.orderId = r.orderId ∧ m.clientId = r.clientId
  | .snapshotRequest r, .snapshotRequest m => m.symbol = r.symbol
  | .login r, .login m => m.username = r.username ∧ m.password = r.password
  | .register r, .register m => m.username = r.username ∧ m.password = r.password
  | _, _ => False

/-- What the format carries: the strings on one line, the quantity a `uint32_t`, the stop price not negative.
A registration need not be read as it was sent. -/
def Request.Fits : Request α → Prop
  | .orderSubmit m => newline ∉ m.symbol ∧ 0 ≤ m.quantity ∧ m.quantity < 2 ^ 32 ∧ 0 ≤ m.stopPrice
  | .orderCancel m => newline ∉ m.orderId
  | .snapshotRequest m => newline ∉ m.symbol
  | .login m => newline ∉ m.username ∧ newline ∉ m.password
  | .register _ => True

def Request.IsRegister : Request α → Prop
  | .register _ => True
  | _ => False

omit [DecidableEq α] in
/-- A quantity in range is read as it is. -/
theorem readUInt32_showInt_of_range {q : Int} (h0 : 0 ≤ q) (h1 : q < 2 ^ 32) : ((readUInt32 (showInt q : List α)).toNat : Int) = q := by
  rw [readUInt32_showInt, if_neg (by omega), if_neg (by omega), UInt32.toNat_ofNat_of_lt' (by simp [UInt32.size]; omega)]
  omega

/-- A request that is no registration is read as it was sent exactly when it fits. -/
theorem carries_iff (read : List α → Int) {hex : Fin 12 → Fin 16} {r : Request α} (ha : r.Accepted hex) (hr : ¬ r.IsRegister) :
    Carries r (Wire.parseMessage read r.serialize) ↔ r.Fits := by
  have hclass := parse_sameClass read r
  cases r with
  | orderSubmit m =>
    obtain ⟨hc, hp, hstop⟩ := ha
    have hcl : newline ∉ m.clientId := by rw [hc]; exact newline_not_mem_clientId hex
    have hparse := fun hs => parse_orderSubmit read m hcl hs hp hstop
    unfold Request.serialize at hclass ⊢
    dsimp only at hclass ⊢
    constructor
    · intro h
      have hs : newline ∉ m.symbol := by
        cases hm : Wire.parseMessage read (serializeOrderSubmit m) with
        | orderSubmit x =>
          rw [hm] at h hclass
          rw [← h.2.1]; exact hclass.2
        | _ => rw [hm] at h; exact h.elim
      rw [hparse hs] at h
      obtain ⟨-, -, -, -, -, h1, h2⟩ := h
      refine ⟨hs, by omega, ?_, ?_⟩
      · have := (readUInt32 (showInt m.quantity : List α)).toNat_lt
        dsimp only at h2
        omega
      · dsimp only at h1
        by_contra hneg
        rw [if_neg fun h => hneg h.le] at h1
        exact hneg h1.le
    · rintro ⟨hs, h0, h1, h2⟩
      rw [hparse hs]
      refine ⟨rfl, rfl, rfl, rfl, rfl, ?_, readUInt32_showInt_of_range h0 h1⟩
      dsimp only
      rcases h2.lt_or_eq with h2 | h2
      · rw [if_pos h2]
      · rw [← h2, if_neg (lt_irrefl 0)]
  | orderCancel m =>
    have hcl : newline ∉ m.clientId := by rw [show m.clientId = _ from ha]; exact newline_not_mem_clientId hex
    unfold Request.serialize at hclass ⊢
    dsimp only at hclass ⊢
    constructor
    · intro h
      cases hm : Wire.parseMessage read (serializeOrderCancel m) with
      | orderCancel x =>
        rw [hm] at h hclass
        show newline ∉ m.orderId
        rw [← h.1]; exact hclass.1
      | _ => rw [hm] at h; exact h.elim
    · intro hid
      rw [parse_orderCancel read m hid hcl]
      exact ⟨rfl, rfl⟩
  | snapshotRequest m =>
    unfold Request.serialize at hclass ⊢
    dsimp only at hclass ⊢
    constructor
    · intro h
      cases hm : Wire.parseMessage read (serializeSnapshotRequest m) with
      | snapshotRequest x =>
        rw [hm] at h hclass
        show newline ∉ m.symbol
        rw [← show x.symbol = m.symbol from h]; exact hclass
      | _ => rw [hm] at h; exact h.elim
    · intro hs
      rw [parse_snapshotRequest read m hs]
      exact rfl
  | login m =>
    unfold Request.serialize at hclass ⊢
    dsimp only at hclass ⊢
    constructor
    · intro h
      cases hm : Wire.parseMessage read (serializeLogin m) with
      | login x =>
        rw [hm] at h hclass
        refine ⟨?_, ?_⟩
        · rw [← h.1]; exact hclass.1
        · rw [← h.2]; exact hclass.2
      | _ => rw [hm] at h; exact h.elim
    · rintro ⟨hu, hp⟩
      rw [parse_login read m hu hp]
      exact ⟨rfl, rfl⟩
  | register m => exact absurd trivial hr

end OrderbookGC.Bridge

/-! ## What the server does -/

namespace OrderbookGC.Server

open Text Wire

/-- A trade, or an order that was in no book. -/
def Books (sv sv' : Server) : Prop := sv'.trades ≠ sv.trades ∨ ∃ id, sv'.Live id ∧ ¬ sv.Live id

/-- An order that is in no book any more. -/
def Cancels (sv sv' : Server) : Prop := ∃ id, sv.Live id ∧ ¬ sv'.Live id

/-- A session authenticated, by a login or because none is required. -/
def Authenticates (sv sv' : Server) : Prop :=
  ∃ s, (sv'.sessionAt s).authenticated = true ∧ sv'.sessionAt s ≠ sv.sessionAt s

/-- The message as a handler gets it. -/
def received : Message UInt8 → Request
  | .orderSubmit m =>
    .orderSubmit ⟨String.ofList (decodeUtf8 m.clientId), String.ofList (decodeUtf8 m.symbol), m.side, m.orderType, m.price,
      m.stopPrice, m.quantity⟩
  | .orderCancel m => .orderCancel (String.ofList (decodeUtf8 m.orderId)) (String.ofList (decodeUtf8 m.clientId))
  | .orderStatus m => .orderStatus (String.ofList (decodeUtf8 m.orderId)) (String.ofList (decodeUtf8 m.clientId))
  | .snapshotRequest m => .snapshotRequest (String.ofList (decodeUtf8 m.symbol))
  | .login m => .login (String.ofList (decodeUtf8 m.username)) (String.ofList (decodeUtf8 m.password))
  | .register m => .register (String.ofList (decodeUtf8 m.username)) (String.ofList (decodeUtf8 m.password))
  | _ => .other

/-- In no reachable state does `handleMessage` book, cancel or authenticate anything on the message. -/
def Harmless (m : Message UInt8) : Prop :=
  ∀ config env evs sv, run config env evs = some sv → ∀ env s sv', sv.hasSession s = true →
    sv.handleMessage env (received m) s = some sv' → ¬ Books sv sv' ∧ ¬ Cancels sv sv' ∧ ¬ Authenticates sv sv'

/-- Registering changes the users table only. -/
theorem handleRegister_sessionAt (sv : Server) (env : Env) (username password : String) (s : SessionPtr) :
    (sv.handleRegister env username password s).sessionAt = sv.sessionAt := by
  unfold handleRegister write
  dsimp only
  split_ifs <;> rfl

theorem handleSnapshotRequest_sessionAt (sv : Server) (symbol : String) (s : SessionPtr) :
    (sv.handleSnapshotRequest symbol s).sessionAt = sv.sessionAt := by
  unfold handleSnapshotRequest createOrderbook
  dsimp only
  split_ifs
  all_goals first | rfl | (split <;> rfl)

theorem harmless_register (m : RegisterMessage UInt8) : Harmless (.register m) := by
  intro config env evs sv _ env' s sv' _ h
  cases h
  have hq := Quiet.handleRegister sv env' s (String.ofList (decodeUtf8 m.username)) (String.ofList (decodeUtf8 m.password))
  have hlive : ∀ id, (sv.handleRegister env' (String.ofList (decodeUtf8 m.username)) (String.ofList (decodeUtf8 m.password)) s).Live
      id ↔ sv.Live id := fun id => by
    unfold Live
    rw [hq.orderbooks]
  refine ⟨?_, ?_, ?_⟩
  · rintro (h | ⟨id, h, hn⟩)
    · exact h hq.trades
    · exact hn ((hlive id).1 h)
  · rintro ⟨id, h, hn⟩
    exact hn ((hlive id).2 h)
  · rintro ⟨t, -, hne⟩
    rw [handleRegister_sessionAt] at hne
    exact hne rfl

/-- A server without books, logins and store. -/
def bareConfig : Config := ⟨[], false, false, nofun⟩

/-- Its first connection. -/
def bareConnected : Server := ((initial bareConfig).boot.configureOrderGenerator).acceptConnection (sampleEnv false 1)

theorem run_bareConnected : run bareConfig (sampleEnv false 0) [(sampleEnv false 1, .connect)] = some bareConnected := rfl

/-- Every request but a registration authenticates a new session of a server that requires no login. -/
theorem not_harmless {m : Message UInt8} {sv' : Server} (h : bareConnected.handleMessage (sampleEnv false 2) (received m) 0 = some sv')
    (ha : (sv'.sessionAt 0).authenticated = true) : ¬ Harmless m := by
  intro hm
  refine (hm _ _ _ _ run_bareConnected _ 0 sv' rfl h).2.2 ⟨0, ha, fun he => ?_⟩
  rw [he] at ha
  cases ha

theorem not_harmless_orderSubmit (m : Wire.OrderSubmitMessage UInt8) : ¬ Harmless (.orderSubmit m) := not_harmless rfl rfl

theorem not_harmless_orderCancel (m : OrderCancelMessage UInt8) : ¬ Harmless (.orderCancel m) := not_harmless rfl rfl

theorem not_harmless_snapshotRequest (m : SnapshotRequestMessage UInt8) : ¬ Harmless (.snapshotRequest m) := by
  have hauth : (((bareConnected.requireAuth 0 "view").2.handleSnapshotRequest (String.ofList (decodeUtf8 m.symbol)) 0).sessionAt
      0).authenticated = true := by
    rw [handleSnapshotRequest_sessionAt]; rfl
  exact not_harmless rfl hauth

theorem not_harmless_login (m : LoginMessage UInt8) : ¬ Harmless (.login m) := not_harmless rfl rfl

end OrderbookGC.Server

/-! ## The bridge and the server -/

namespace OrderbookGC.Bridge

open Text Wire CodePoint

theorem Request.Accepted.map {α β : Type} [Alphabet α] [Alphabet β] (f : TextHom α β) {hex : Fin 12 → Fin 16} {r : Request α}
    (h : r.Accepted hex) : (r.map f.apply).Accepted hex := by
  cases r with
  | orderSubmit m => exact ⟨(congrArg f.apply h.1).trans (TextHom.clientId f hex), h.2⟩
  | orderCancel m => exact (congrArg f.apply h).trans (TextHom.clientId f hex)
  | _ => trivial

theorem Request.fits_map (r : Request CodePoint) : (r.map encode).Fits ↔ r.Fits := by
  have hnew : ∀ s, newline ∈ encode s ↔ newline ∈ s := ofChar_mem_encode (by decide)
  cases r <;> simp [Request.map, Request.Fits, hnew]

/-- The bytes of a request are either read back as the request, field by field, or read as a message that
does no harm: exactly when the request fits. The bridge checks none of it. -/
theorem carries_or_harmless_iff (read : List UInt8 → Int) (hex : Fin 12 → Fin 16) (r : Request CodePoint) (bytes : List UInt8)
    (ha : r.Accepted hex) (hb : encodeStrict r.serialize = some bytes) :
    Carries (r.map encode) (Wire.parseMessage read bytes) ∨ Server.Harmless (Wire.parseMessage read bytes) ↔ r.Fits := by
  have hbytes : bytes = (r.map encode).serialize := by
    unfold encodeStrict at hb
    split_ifs at hb
    exact (Option.some.inj hb).symm.trans (Request.serialize_map encodeHom r).symm
  have hclass := parse_sameClass read (r.map encode)
  have hcarries := fun hr => carries_iff read (ha.map encodeHom) (r := r.map encode) hr
  rw [hbytes, ← r.fits_map]
  -- the class of the message is the request's, and only a registration is harmless
  cases r with
  | register m =>
    refine ⟨fun _ => trivial, fun _ => .inr ?_⟩
    cases hm : Wire.parseMessage read (Request.map encode (.register m)).serialize with
    | register x => exact Server.harmless_register x
    | _ => rw [hm] at hclass; exact hclass.elim
  | orderSubmit m =>
    rw [← hcarries id, or_iff_left]
    cases hm : Wire.parseMessage read (Request.map encode (.orderSubmit m)).serialize with
    | orderSubmit x => exact Server.not_harmless_orderSubmit x
    | _ => rw [hm] at hclass; exact hclass.elim
  | orderCancel m =>
    rw [← hcarries id, or_iff_left]
    cases hm : Wire.parseMessage read (Request.map encode (.orderCancel m)).serialize with
    | orderCancel x => exact Server.not_harmless_orderCancel x
    | _ => rw [hm] at hclass; exact hclass.elim
  | snapshotRequest m =>
    rw [← hcarries id, or_iff_left]
    cases hm : Wire.parseMessage read (Request.map encode (.snapshotRequest m)).serialize with
    | snapshotRequest x => exact Server.not_harmless_snapshotRequest x
    | _ => rw [hm] at hclass; exact hclass.elim
  | login m =>
    rw [← hcarries id, or_iff_left]
    cases hm : Wire.parseMessage read (Request.map encode (.login m)).serialize with
    | login x => exact Server.not_harmless_login x
    | _ => rw [hm] at hclass; exact hclass.elim

/-- A stop-limit order of the largest quantity, for a symbol beyond ASCII with an `=` in it. -/
def largestSubmit : Request CodePoint :=
  .orderSubmit ⟨clientId fun _ => 10, [0xE9, 0x3D], .sell, .stopLimit, 10050 / 100, 1 / 100, 4294967295⟩

theorem carries_or_harmless_iff_largestSubmit :
    encodeStrict largestSubmit.serialize = some (lit "type=ORDER_SUBMIT\nclient_id=gui_aaaaaaaaaaaa\nsymbol=" ++ [0xC3, 0xA9] ++
      lit "=\nside=SELL\norder_type=STOP_LIMIT\nprice=100.50\nquantity=4294967295\nstop_price=0.01") ∧
    (Carries (largestSubmit.map encode) (Wire.parseMessage (fun _ => 0) (encode largestSubmit.serialize)) ∨
      Server.Harmless (Wire.parseMessage (fun _ => 0) (encode largestSubmit.serialize))) := by
  have haccepted : largestSubmit.Accepted fun _ => 10 := ⟨rfl, ⟨10050, by norm_num⟩, 1, by norm_num⟩
  have hfits : largestSubmit.Fits := ⟨by decide, by decide, by decide, by norm_num⟩
  refine ⟨by decide +kernel, ?_⟩
  exact (carries_or_harmless_iff (fun _ => 0) _ largestSubmit _ haccepted (by decide +kernel)).2 hfits

/-- A limit order for minus one. -/
def negativeSubmit : Request CodePoint := .orderSubmit ⟨clientId fun _ => 0, lit "SYM", .buy, .limit, 100, 0, -1⟩

/-- A server that requires a login, and a session that has logged in. -/
def loggedIn : Option Server :=
  Server.run ⟨["SYM"], true, false, Server.sampleConfig.free⟩ (Server.sampleEnv false 0)
    [(Server.sampleEnv false 1, .connect), (Server.sampleEnv false 2, .message 0 (.login "trader" "trader"))]

/-- It is sent, read as an order for 4294967295, and that order rests in the book. -/
theorem negativeSubmit_booked : ∃ bytes sv sv' b p, encodeStrict negativeSubmit.serialize = some bytes ∧
    negativeSubmit.Accepted (fun _ => 0) ∧
    ¬ (Carries (negativeSubmit.map encode) (Wire.parseMessage (fun _ => 0) bytes) ∨
      Server.Harmless (Wire.parseMessage (fun _ => 0) bytes)) ∧
    loggedIn = some sv ∧ sv.hasSession 0 = true ∧
    sv.handleMessage (Server.sampleEnv false 3) (Server.received (Wire.parseMessage (fun _ => 0) bytes)) 0 = some sv' ∧
    Server.Books sv sv' ∧ sv'.orderbooks.find? "SYM" = some b ∧
    b.getOrder (generateUuid (Server.sampleEnv false 3).uuid) = some p ∧ (b.heap p).remainingQuantity = 4294967295 := by
  have hparse : Wire.parseMessage (fun _ => 0) (encode negativeSubmit.serialize) =
      .orderSubmit ⟨lit "gui_000000000000", lit "SYM", .buy, .limit, 100, 0, 4294967295⟩ := by decide +kernel
  have hstate : (loggedIn.bind fun sv => (sv.handleMessage (Server.sampleEnv false 3)
      (Server.received (.orderSubmit ⟨lit "gui_000000000000", lit "SYM", .buy, .limit, 100, 0, 4294967295⟩)) 0).bind fun sv' =>
        (sv'.orderbooks.find? "SYM").map fun b => (sv.hasSession 0,
          sv.orderbooks.entries.all fun e => (e.2.getOrder (generateUuid (Server.sampleEnv false 3).uuid)).isNone,
          b.getOrder (generateUuid (Server.sampleEnv false 3).uuid), (b.heap 0).remainingQuantity)) =
      some (true, true, some 0, 4294967295) := by decide +kernel
  obtain ⟨sv, hrun, h⟩ := Option.bind_eq_some_iff.1 hstate
  obtain ⟨sv', hsv', h⟩ := Option.bind_eq_some_iff.1 h
  obtain ⟨b, hb, he⟩ := Option.map_eq_some_iff.1 h
  simp only [Prod.mk.injEq, List.all_eq_true, Option.isNone_iff_eq_none] at he
  obtain ⟨hsession, hnone, hget, hrem⟩ := he
  refine ⟨encode negativeSubmit.serialize, sv, sv', b, 0, by decide +kernel, ⟨rfl, ⟨10000, by norm_num⟩, 0, by norm_num⟩, ?_,
    hrun, hsession, by rw [hparse]; exact hsv', .inr ⟨_, ⟨"SYM", b, 0, hb, hget⟩, ?_⟩, hb, hget, hrem⟩
  · rw [hparse]
    rintro (h | h)
    · exact absurd h.2.2.2.2.2.2 (by decide)
    · exact Server.not_harmless_orderSubmit _ h
  · rintro ⟨symbol, x, q, hx, hq⟩
    rw [hnone (symbol, x) (Container.SortedMap.find?_eq_some_iff.1 hx)] at hq
    cases hq

end OrderbookGC.Bridge
