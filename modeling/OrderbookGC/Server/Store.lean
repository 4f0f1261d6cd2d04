/-
The SQLite store of `order_store.cpp`. A table is the list of its rows in insertion order: `INSERT`
appends, `INSERT OR REPLACE` first removes the row with the same primary key, `UPDATE` rewrites
rows in place, and a `SELECT` ordered by a column is a stable sort. Text is bound through `c_str()`
with length -1, so it ends at the first NUL; a `uint32_t` is bound and read back as an `int`. The
columns side, type and status hold the values whose names the source writes. `created_at` is the
second the row was saved in. A write can fail (`ok = false`), and then changes nothing.
-/
import OrderbookGC.Book.Order
import OrderbookGC.Server.Identity
import Mathlib.Data.List.Sort
import Mathlib.Data.Rat.Defs
import Mathlib.Algebra.Order.Ring.Rat

namespace OrderbookGC

/-! ## Columns -/

/-- `sqlite3_bind_int` of a `uint32_t`: the value as a 32-bit two's complement integer. -/
def bindInt (q : UInt32) : Int := q.toBitVec.toInt

/-- `static_cast<uint32_t>(sqlite3_column_int(..))`. -/
def columnInt (i : Int) : UInt32 := UInt32.ofBitVec (BitVec.ofInt 32 i)

@[simp] theorem columnInt_bindInt (q : UInt32) : columnInt (bindInt q) = q := by
  unfold columnInt bindInt
  rw [BitVec.ofInt_toInt]

/-- `nowIso`: the clock, read in nanoseconds, to the second. -/
def nowIso (now : Int) : Int := now / 10 ^ 9

structure OrderRow where
  id : String
  clientId : String
  symbol : String
  side : OrderSide
  orderType : OrderType
  price : ℚ
  stopPrice : ℚ
  quantity : Int
  remainingQuantity : Int
  status : OrderStatus
  createdAt : Int
deriving DecidableEq

structure TradeRow where
  buyOrderId : String
  sellOrderId : String
  symbol : String
  price : ℚ
  quantity : Int
  tradedAt : Int
deriving DecidableEq

structure UserRecord where
  username : String
  password : String
  permissions : String
deriving DecidableEq

structure Db where
  orders : List OrderRow
  trades : List TradeRow
  users : List UserRecord
deriving DecidableEq

namespace Db

def empty : Db := ⟨[], [], []⟩

/-! ## Orders -/

/-- The row `saveOrder` writes. -/
def orderRow (o : Order ℚ) (now : Int) : OrderRow :=
  { id := cStr o.id, clientId := cStr o.clientId, symbol := cStr o.symbol, side := o.side, orderType := o.orderType
    price := o.price, stopPrice := o.stopPrice, quantity := bindInt o.quantity
    remainingQuantity := bindInt o.remainingQuantity, status := o.status, createdAt := nowIso now }

/-- `INSERT OR REPLACE INTO orders`. -/
def saveOrder (ok : Bool) (o : Order ℚ) (now : Int) (db : Db) : Bool × Db :=
  if ok then (true, { db with orders := db.orders.filter (·.id ≠ cStr o.id) ++ [orderRow o now] }) else (false, db)

/-- The columns `updateOrder` sets. -/
def OrderRow.update (r : OrderRow) (o : Order ℚ) : OrderRow :=
  { r with remainingQuantity := bindInt o.remainingQuantity, status := o.status, orderType := o.orderType }

/-- `UPDATE orders SET remaining_quantity=?, status=?, order_type=? WHERE id=?`. -/
def updateOrder (ok : Bool) (o : Order ℚ) (db : Db) : Bool × Db :=
  if ok then (true, { db with orders := db.orders.map fun r => if r.id = cStr o.id then OrderRow.update r o else r })
  else (false, db)

def isActive (r : OrderRow) : Bool := r.status = .pending || r.status = .partialFill

/-- The order built from a row: its quantity is what remained, and a no-op fill marks it `PARTIAL`. -/
def restoreOrder (now : Int) (r : OrderRow) : Order ℚ :=
  let o := Order.new r.id r.side r.price (columnInt r.remainingQuantity) r.symbol r.clientId r.orderType r.stopPrice now
  if columnInt r.remainingQuantity < columnInt r.quantity then (o.fill 0).2 else o

/-- The rows `loadAllActiveOrders` selects, in the order it returns them. -/
def activeRows (db : Db) : List OrderRow :=
  (db.orders.filter isActive).insertionSort (fun a b => a.createdAt ≤ b.createdAt)

def loadAllActiveOrders (now : Int) (db : Db) : List (Order ℚ) := db.activeRows.map (restoreOrder now)

/-! ## Trades -/

def saveTrade (ok : Bool) (t : Trade ℚ) (now : Int) (db : Db) : Bool × Db :=
  if ok then
    (true, { db with trades := db.trades ++
      [{ buyOrderId := cStr t.buyOrderId, sellOrderId := cStr t.sellOrderId, symbol := cStr t.symbol, price := t.price
         quantity := bindInt t.quantity, tradedAt := nowIso now }] })
  else (false, db)

/-! ## Users -/

/-- `INSERT OR REPLACE INTO users`; an empty password is stored as it is. -/
def saveUser (ok : Bool) (user : UserRecord) (salt : SaltDraws) (db : Db) : Bool × Db :=
  if ok then
    let hashed := if user.password.isEmpty then "" else hashPassword user.password salt
    (true, { db with users := db.users.filter (·.username ≠ cStr user.username) ++
      [{ username := cStr user.username, password := cStr hashed, permissions := cStr user.permissions }] })
  else (false, db)

def getUser (username : String) (db : Db) : Option UserRecord := db.users.find? fun u => u.username = cStr username

def authenticateUser (username password : String) (db : Db) : Bool :=
  match db.getUser username with
  | none => false
  | some user => if user.password.isEmpty then password.isEmpty else verifyPassword password user.password

/-- The users `seedDefaultUsers` saves, in order. -/
def defaultUsers : List UserRecord :=
  [⟨"admin", "admin", "trade,view,admin"⟩, ⟨"trader", "trader", "trade,view"⟩, ⟨"viewer", "viewer", "view"⟩,
    ⟨"guest", "", "trade,view"⟩]

end Db

end OrderbookGC
