/-
The Python side of the wire, `protocol.py` of the bridge: the requests it serializes and the server's
messages it parses into dictionaries. A `str` is a list of code points, over the same alphabets as
the C++ strings. `int(..)` and `float(..)` take the decimal digits of ASCII only; the digits of other
scripts, which the server never writes, count as errors here.
-/
import OrderbookGC.Wire.Message

namespace OrderbookGC.Bridge

open Text Wire

variable {α : Type} [Alphabet α]

/-! ## Requests -/

structure OrderSubmit (α : Type) where
  clientId : List α
  symbol : List α
  side : OrderSide
  orderType : OrderType
  price : ℚ
  stopPrice : ℚ
  quantity : Int

structure OrderCancel (α : Type) where
  orderId : List α
  clientId : List α

structure SnapshotRequest (α : Type) where
  symbol : List α

structure LoginRequest (α : Type) where
  username : List α
  password : List α

structure RegisterRequest (α : Type) where
  username : List α
  password : List α

/-- The members of the enumerations of `models.py` carry the names of the wire format. -/
def serializeOrderSubmit (msg : OrderSubmit α) : List α :=
  let lines :=
    [lit "type=ORDER_SUBMIT",
      lit "client_id=" ++ msg.clientId,
      lit "symbol=" ++ msg.symbol,
      lit "side=" ++ lit (sideToWireString msg.side),
      lit "order_type=" ++ lit (orderTypeToWireString msg.orderType),
      lit "price=" ++ showFixed2 msg.price,
      lit "quantity=" ++ showInt msg.quantity]
  let lines := if 0 < msg.stopPrice then lines ++ [lit "stop_price=" ++ showFixed2 msg.stopPrice] else lines
  [newline].intercalate lines

def serializeOrderCancel (msg : OrderCancel α) : List α :=
  [newline].intercalate [lit "type=ORDER_CANCEL", lit "order_id=" ++ msg.orderId, lit "client_id=" ++ msg.clientId]

def serializeSnapshotRequest (msg : SnapshotRequest α) : List α :=
  lit "type=SNAPSHOT_REQUEST\nsymbol=" ++ msg.symbol ++ lit "\n"

def serializeLogin (msg : LoginRequest α) : List α :=
  [newline].intercalate [lit "type=LOGIN", lit "username=" ++ msg.username, lit "password=" ++ msg.password]

def serializeRegister (msg : RegisterRequest α) : List α :=
  [newline].intercalate [lit "type=REGISTER", lit "username=" ++ msg.username, lit "password=" ++ msg.password]

/-! ## Values -/

inductive PyFloat
  | finite (x : ℚ)
  | infinity (negative : Bool)
  | nan
deriving DecidableEq

inductive PyValue (α : Type)
  | str (s : List α)
  | int (i : Int)
  | float (x : PyFloat)
  | bool (b : Bool)
  | list (l : List (PyValue α))
  | dict (d : List (String × PyValue α))

/-- A dictionary in the order of its insertions. -/
abbrev PyDict (α : Type) := List (String × PyValue α)

/-- `d[key] = value`. -/
def PyDict.set (d : PyDict α) (key : String) (value : PyValue α) : PyDict α :=
  match d with
  | [] => [(key, value)]
  | e :: rest => if e.1 = key then (key, value) :: rest else e :: PyDict.set rest key value

/-- White space as `str.strip` knows it. -/
def isPySpace (a : α) : Bool :=
  let c := Alphabet.code a
  isSpace a || 28 ≤ c && c ≤ 31 || c = 0x85 || c = 0xA0 || c = 0x1680 || 0x2000 ≤ c && c ≤ 0x200A || c = 0x2028 ||
    c = 0x2029 || c = 0x202F || c = 0x205F || c = 0x3000

def strip (s : List α) : List α := ((s.dropWhile isPySpace).reverse.dropWhile isPySpace).reverse

/-- ASCII letters in lower case; no other character becomes an ASCII letter that is compared below. -/
def lower (s : List α) : List Nat :=
  s.map fun a => if 65 ≤ Alphabet.code a && Alphabet.code a ≤ 90 then Alphabet.code a + 32 else Alphabet.code a

def isText (s : List α) (name : String) : Bool := lower s = name.toList.map Char.toNat

variable [DecidableEq α]

/-- Digits with single underscores between them. -/
def digitPart (s : List α) : Option (List α) :=
  let parts := s.splitOn (Alphabet.ofChar '_')
  if parts.all fun p => !p.isEmpty && p.all isDigit then some parts.flatten else none

/-- A part of a number that may be missing. -/
def optionalPart (s : List α) : Option (List α) := if s.isEmpty then some [] else digitPart s

/-- `int(s)`; `none` is a `ValueError`. -/
def pyInt (s : List α) : Option Int :=
  let (neg, s) := readSign (strip s)
  (digitPart s).map fun ds => if neg then -digitsValue 0 ds else digitsValue 0 ds

/-- The exponent of a `float` after its mantissa. -/
def pyExponent (s : List α) : Option Int :=
  match s with
  | [] => some 0
  | _ :: rest =>
    let (neg, ds) := readSign rest
    (digitPart ds).map fun ds => if neg then -digitsValue 0 ds else digitsValue 0 ds

/-- A mantissa with at most one point and a digit on one side of it. -/
def pyMantissa (s : List α) : Option ℚ :=
  let int := s.takeWhile (Alphabet.code · ≠ 46)
  let frac := (s.dropWhile (Alphabet.code · ≠ 46)).drop 1
  if int.isEmpty && frac.isEmpty then none
  else
    (optionalPart int).bind fun int => (optionalPart frac).map fun frac =>
      (digitsValue 0 (int ++ frac) : ℚ) / 10 ^ frac.length

/-- `float(s)`; `none` is a `ValueError`. -/
def pyFloat (s : List α) : Option PyFloat :=
  let (neg, s) := readSign (strip s)
  if isText s "inf" || isText s "infinity" then some (.infinity neg)
  else if isText s "nan" then some .nan
  else
    let isE (a : α) : Bool := Alphabet.code a = 101 || Alphabet.code a = 69
    (pyMantissa (s.takeWhile fun a => !isE a)).bind fun m =>
      (pyExponent (s.dropWhile fun a => !isE a)).map fun e =>
        let x : ℚ := m * 10 ^ e
        .finite (if neg then -x else x)

/-! ## Parsing -/

/-- `_extract_string`. -/
def extractString (l : List α) : List α := afterEquals l

/-- `_extract_float`. -/
def extractFloat (l : List α) : PyFloat := (pyFloat (extractString l)).getD (.finite 0)

/-- `_extract_int`. -/
def extractInt (l : List α) : Int := (pyInt (extractString l)).getD 0

/-- `_parse_order_status`, one line. -/
def readOrderStatus (d : PyDict α) (l : List α) : PyDict α :=
  if l.isEmpty then d
  else if startsWith "order_id=" l then d.set "order_id" (.str (extractString l))
  else if startsWith "client_id=" l then d.set "client_id" (.str (extractString l))
  else if startsWith "symbol=" l then d.set "symbol" (.str (extractString l))
  else if startsWith "side=" l then d.set "side" (.str (extractString l))
  else if startsWith "price=" l then d.set "price" (.float (extractFloat l))
  else if startsWith "quantity=" l then d.set "quantity" (.int (extractInt l))
  else if startsWith "filled_quantity=" l then d.set "filled_quantity" (.int (extractInt l))
  else if startsWith "status=" l then d.set "status" (.str (extractString l))
  else if startsWith "order_type=" l then d.set "order_type" (.str (extractString l))
  else if startsWith "stop_price=" l then d.set "stop_price" (.float (extractFloat l))
  else if startsWith "timestamp=" l then d.set "timestamp" (.str (extractString l))
  else d

/-- The variables of `_parse_snapshot`; `result` has the keys `symbol`, `bids` and `asks` from the start. -/
structure SnapshotState (α : Type) where
  symbol : List α
  bids : List (PyDict α)
  asks : List (PyDict α)
  inBids : Bool
  inAsks : Bool
  current : PyDict α

/-- `_parse_snapshot`, one line of a level. -/
def SnapshotState.readLevel (s : SnapshotState α) (l : List α) : SnapshotState α :=
  if startsWith "price=" l then { s with current := s.current.set "price" (.float (extractFloat l)) }
  else if startsWith "quantity=" l then { s with current := s.current.set "quantity" (.int (extractInt l)) }
  else if startsWith "order_count=" l then
    let current := s.current.set "order_count" (.int (extractInt l))
    if s.inBids then { s with bids := s.bids ++ [current], current := [] }
    else { s with asks := s.asks ++ [current], current := [] }
  else s

/-- `_parse_snapshot`, one line. -/
def SnapshotState.readLine (s : SnapshotState α) (l : List α) : SnapshotState α :=
  if l.isEmpty then s
  else if startsWith "symbol=" l then { s with symbol := extractString l }
  else if l = lit "BIDS:" then { s with inBids := true, inAsks := false }
  else if l = lit "ASKS:" then { s with inBids := false, inAsks := true }
  else if s.inBids || s.inAsks then s.readLevel l
  else s

/-- The `result` of `_parse_snapshot`. -/
def SnapshotState.result (s : SnapshotState α) : PyDict α :=
  [("type", .str (lit "ORDERBOOK_SNAPSHOT")), ("symbol", .str s.symbol), ("bids", .list (s.bids.map .dict)),
    ("asks", .list (s.asks.map .dict))]

/-- `_parse_trade`, one line. -/
def readTrade (d : PyDict α) (l : List α) : PyDict α :=
  if l.isEmpty then d
  else if startsWith "buy_order_id=" l then d.set "buy_order_id" (.str (extractString l))
  else if startsWith "sell_order_id=" l then d.set "sell_order_id" (.str (extractString l))
  else if startsWith "symbol=" l then d.set "symbol" (.str (extractString l))
  else if startsWith "price=" l then d.set "price" (.float (extractFloat l))
  else if startsWith "quantity=" l then d.set "quantity" (.int (extractInt l))
  else if startsWith "timestamp=" l then d.set "timestamp" (.str (extractString l))
  else d

/-- `_parse_error`, one line. -/
def readError (d : PyDict α) (l : List α) : PyDict α :=
  if l.isEmpty then d
  else if startsWith "error_code=" l then d.set "error_code" (.str (extractString l))
  else if startsWith "description=" l then d.set "description" (.str (extractString l))
  else d

/-- `_parse_login_response`, one line. -/
def readLoginResponse (d : PyDict α) (l : List α) : PyDict α :=
  if l.isEmpty then d
  else if startsWith "success=" l then d.set "success" (.bool (isText (extractString l) "true"))
  else if startsWith "session_token=" l then d.set "session_token" (.str (extractString l))
  else if startsWith "username=" l then d.set "username" (.str (extractString l))
  else if startsWith "error_message=" l then d.set "error_message" (.str (extractString l))
  else d

/-- `_parse_register_response`, one line. -/
def readRegisterResponse (d : PyDict α) (l : List α) : PyDict α :=
  if l.isEmpty then d
  else if startsWith "success=" l then d.set "success" (.bool (isText (extractString l) "true"))
  else if startsWith "username=" l then d.set "username" (.str (extractString l))
  else if startsWith "error_message=" l then d.set "error_message" (.str (extractString l))
  else d

/-- `parse_message`. -/
def parseMessage (data : List α) : Option (PyDict α) :=
  match data.splitOn newline with
  | [] => none
  | first :: rest =>
    let msgType := extractString first
    if msgType = lit "ORDER_STATUS" then some (rest.foldl readOrderStatus [("type", .str (lit "ORDER_STATUS"))])
    else if msgType = lit "ORDERBOOK_SNAPSHOT" then
      some (rest.foldl SnapshotState.readLine ⟨[], [], [], false, false, []⟩).result
    else if msgType = lit "TRADE_NOTIFICATION" then
      some (rest.foldl readTrade [("type", .str (lit "TRADE_NOTIFICATION"))])
    else if msgType = lit "ERROR" then some (rest.foldl readError [("type", .str (lit "ERROR"))])
    else if msgType = lit "LOGIN_RESPONSE" then
      some (rest.foldl readLoginResponse [("type", .str (lit "LOGIN_RESPONSE"))])
    else if msgType = lit "REGISTER_RESPONSE" then
      some (rest.foldl readRegisterResponse [("type", .str (lit "REGISTER_RESPONSE"))])
    else some [("type", .str (lit "UNKNOWN")), ("raw", .str data)]

end OrderbookGC.Bridge
