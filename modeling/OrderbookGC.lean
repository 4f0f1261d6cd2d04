import OrderbookGC.Book.Safety
import OrderbookGC.Book.Notify
import OrderbookGC.Book.Undo
import OrderbookGC.Book.Depth
import OrderbookGC.Book.Backed
import OrderbookGC.Book.Rejection
import OrderbookGC.Book.Termination
import OrderbookGC.Book.Activation
import OrderbookGC.Book.Execution
import OrderbookGC.Book.ZeroSum
import OrderbookGC.Book.Untraded
import OrderbookGC.Server.OrderTable
import OrderbookGC.Server.Ownership
import OrderbookGC.Server.Limit
import OrderbookGC.Server.Milestone
import OrderbookGC.Server.Reply
import OrderbookGC.Server.Frames
import OrderbookGC.Server.Ticks
import OrderbookGC.Server.Resurrection
import OrderbookGC.Server.Stream
import OrderbookGC.Server.Crash
import OrderbookGC.Server.Cleanup
import OrderbookGC.Server.Owners
import OrderbookGC.Server.Replay
import OrderbookGC.Server.Authorized
import OrderbookGC.Server.Feed
import OrderbookGC.Server.View
import OrderbookGC.Server.Uninjected
import OrderbookGC.Wire.RoundTrip
import OrderbookGC.Wire.Timestamp
import OrderbookGC.Wire.BridgeReads
import OrderbookGC.Wire.ServerReads
import OrderbookGC.Session.WriteQueue
import OrderbookGC.Session.Requests
import OrderbookGC.Server.Deadlock
import OrderbookGC.Server.Isolation
import OrderbookGC.Bridge.Reconnect
import OrderbookGC.Bridge.LoginFirst
import OrderbookGC.Bridge.CashFlow
import OrderbookGC.Frontend.Candles
import OrderbookGC.Frontend.OrderTable
