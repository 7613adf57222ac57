import Kreav.Lib.Async
import Kreav.Lib.Schedule
import Kreav.Contract
import Kreav.Lib.Apportion
import Kreav.ContractSplit
import Kreav.ContractRuns
import Kreav.ContractErrors
import Kreav.ContractPayouts
import Kreav.Lib.Rounding
import Kreav.Money
import Kreav.OrderStateMachine
import Kreav.Stellar
import Kreav.Database
import Kreav.Backend
import Kreav.SorobanRpc
import Kreav.Settlement
import Kreav.Orders
import Kreav.Wallets
import Kreav.StartupRecovery
import Kreav.Lib.Triples
import Kreav.BackendSteps
import Kreav.OrderChain
import Kreav.SettlementSteps
import Kreav.SettlementRows
import Kreav.SettlementFaults
import Kreav.RecoveryPass
import Kreav.RecordedSplit
import Kreav.OverlappingRuns
import Kreav.DistinctOrders
import Kreav.Withdrawals
import Kreav.WithdrawalTotals
import Kreav.PaymentEvents
import Kreav.Lib.Lifetimes
import Kreav.Archival
import Kreav.Products
import Kreav.ProductSplit
import Kreav.Lib.Ghost
import Kreav.WithdrawalSteps
import Kreav.AnchorWithdrawals
import Kreav.Lib.Protocols
import Kreav.SettlementRules
import Kreav.WithdrawalStatuses
import Kreav.WaitingOrders
import Kreav.OrderProtocol
import Kreav.Lib.Restarts
import Kreav.CompletedEvents
import Kreav.Deliveries
import Kreav.StatusWrites
import Kreav.Resends
import Kreav.StoredHashes
import Kreav.WalletBalances
import Kreav.StatusCalls
import Kreav.Sponsorship
import Kreav.SponsoredTrustlines
import Kreav.WithdrawPayments
import Kreav.Lib.Decimals
import Kreav.AmountTexts
import Kreav.Lib.Arrivals
import Kreav.Market
import Kreav.PricedOrders
import Kreav.Lib.FixedWidth
import Kreav.Lib.ReadCommitted
import Kreav.Lib.Paging
import Kreav.WalletHistory
import Kreav.Receipts
import Kreav.ReferenceNumbers
import Kreav.ProductUpdates
import Kreav.CollaboratorLists
import Kreav.Lib.Regex
import Kreav.PriceTexts
import Kreav.PayoutPreview
import Kreav.RevenueSeries
import Kreav.Challenges
import Kreav.Lib.Substitution
import Kreav.Lib.Html
import Kreav.DeliveryEmail
import Kreav.Lib.JsValues
import Kreav.DecimalToString
import Kreav.CompletionTimes
import Kreav.Lib.Transactions
import Kreav.Site
import Kreav.SiteRoundTrip
import Kreav.Lib.SingleRuns
import Kreav.CreatorCalls
import Kreav.Ownership
import Kreav.OwnerNoninterference
import Kreav.Sessions
import Kreav.SessionRuns
import Kreav.Registrations
import Kreav.Lib.Clients
import Kreav.BrowserSession
import Kreav.BrowserRuns
import Kreav.AnchorFlow
import Kreav.WithdrawForm
import Kreav.ContractBooks
import Kreav.PaymentGate
import Kreav.DeliveryRuns
import Kreav.Dashboard
import Kreav.RevenueOnChain
import Kreav.CheckoutPage
import Kreav.CheckoutRuns
import Kreav.Profiles
import Kreav.PublicPages
import Kreav.OrderLists
import Kreav.CoveredWithdrawals
