import FuturesDesk.Json.Printer
import FuturesDesk.Main
import FuturesDesk.Simulation.Floor
import FuturesDesk.Proofs.Bot.Outcome
import FuturesDesk.Proofs.Bot.Pending
import FuturesDesk.Proofs.Bot.Position
import FuturesDesk.Proofs.Bot.Session
import FuturesDesk.Proofs.Exchange.Margin
import FuturesDesk.Proofs.Gateway.Epochs
import FuturesDesk.Proofs.Gateway.Trial
import FuturesDesk.Proofs.Gateway.Window
import FuturesDesk.Proofs.Strategy.Levels
import FuturesDesk.Proofs.Exchange.CashFlow
import FuturesDesk.Proofs.Indicator.Availability
import FuturesDesk.Proofs.Launch
import FuturesDesk.Proofs.Bot.Evidence
import FuturesDesk.Proofs.Gateway.Isolation
import FuturesDesk.Proofs.Gateway.Attempts
import FuturesDesk.Proofs.Indicator.Stages
import FuturesDesk.Proofs.Indicator.Lookback
import FuturesDesk.Proofs.Indicator.Alignment
import FuturesDesk.Proofs.Strategy.Decision
import FuturesDesk.Proofs.Exchange.Reduction
import FuturesDesk.Proofs.Config.Problems
import FuturesDesk.Proofs.Gateway.Backoff
import FuturesDesk.Proofs.Gateway.Cells
import FuturesDesk.Proofs.Binance.OrderQuery
import FuturesDesk.Proofs.Exchange.PositionOrder
import FuturesDesk.Proofs.Exchange.Safety
