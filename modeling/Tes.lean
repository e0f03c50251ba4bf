import Tes.Book.Sessions
import Tes.Ledger.Conservation
import Tes.Ledger.Rejections
import Tes.Ledger.Funding
import Tes.Ledger.Isolation
import Tes.Ledger.Journal
import Tes.Ledger.CashBacking
import Tes.Ledger.Leverage
import Tes.Ledger.Undo
import Tes.Ledger.Refit
import Tes.Ledger.ProfitAndLoss
import Tes.Ledger.ReserveJournal
import Tes.Market.Snapshots
import Tes.Market.TopOfBook
import Tes.Market.Halts
import Tes.Queue.Claims
import Tes.Queue.Recovery
import Tes.Runs.Cancellation
import Tes.Runs.Tournaments
import Tes.Runs.Payloads
import Tes.Runs.ChildLinks
import Tes.Queue.Fencing
import Tes.Events.Bindings
import Tes.Replay.Verification
import Tes.Runs.RunLogs
import Tes.Market.Uncross
import Tes.Market.FillOrKill
import Tes.Market.Replacement
import Tes.Engine.StopRegistry
import Tes.Replay.Divergence
import Tes.Replay.Paging
import Tes.Runs.SymbolQueries
import Tes.Events.Commands
import Tes.Events.Exceptions
import Tes.Market.StopLifecycle
import Tes.Market.MarketOrders
import Tes.Market.StopReplacement
import Tes.Ledger.ShortMargin
import Tes.Ledger.WrapAround
import Tes.Market.Priority
import Tes.Market.AuctionQuantities
import Tes.Market.EventStream
import Tes.Market.EntryIds
import Tes.Market.FillReports
import Tes.Market.EntryQuantities
import Tes.Ledger.Consistency
import Tes.Market.Uncrossed
import Tes.Market.TriggeredStops
import Tes.Ledger.LongOnly
import Tes.Runs.Metrics
import Tes.Queue.ClaimOrder
import Tes.Runs.Chronology
import Tes.Runs.StoreRefinement
import Tes.Runs.Reports
import Tes.Runs.Backtest
import Tes.Runs.Sweeps
import Tes.Runs.Streams
import Tes.Library.JsonText
import Tes.Replay.ReplayLog
import Tes.Market.MarketData
