import EasyPay.Lib.Prog
import EasyPay.Lib.Strings
import EasyPay.Domain
import EasyPay.Repository.Codec
import EasyPay.Lib.Table
import EasyPay.Lib.Cached
import EasyPay.Repository.ShardRouter
import EasyPay.Repository.TransactionRepo
import EasyPay.Cache
import EasyPay.Gateway
import EasyPay.Pkg.CheckoutToken
import EasyPay.Service.PaymentService
import EasyPay.Service.CheckoutResolver
import EasyPay.Service.WebhookService
import EasyPay.Provider.Confirmation
import EasyPay.Repository.MerchantRepo
import EasyPay.Service.MerchantService
import EasyPay.Service.Reconciliation
import EasyPay.System
import EasyPay.Orders
import EasyPay.Orders.Collapse
import EasyPay.Orders.Conflict
import EasyPay.Orders.Identity
import EasyPay.Checkout.Sessions
import EasyPay.Checkout.Binding
import EasyPay.Webhook.CrossCheck
import EasyPay.Webhook.Acknowledge
import EasyPay.Status
import EasyPay.Lib.Sha256
import EasyPay.Provider.Listener
import EasyPay.Onchain.Finality
import EasyPay.Onchain.Settlement
import EasyPay.Onchain.Recording
import EasyPay.Onchain.Delivery
import EasyPay.Onchain.Backfill
import EasyPay.Webhook.Refunds
import EasyPay.Webhook.Replay
import EasyPay.Kafka.Consumer
import EasyPay.Consumer.SettlementConsumer
import EasyPay.Onchain.Terminal
import EasyPay.Onchain.Credit
import EasyPay.Onchain.Announce
import EasyPay.Orders.Facts
import EasyPay.Orders.Notified
import EasyPay.Checkout.Locking
import EasyPay.Repository.Snapshot
import EasyPay.Orders.Backlog
import EasyPay.Config
import EasyPay.Repository.Routing
import EasyPay.Repository.Scatter
import EasyPay.Orders.Admission
import EasyPay.Api.Checkout
import EasyPay.Api.Refund
import EasyPay.Orders.Abandoned
import EasyPay.Onchain.Agreement
import EasyPay.Repository.RoundTrip
import EasyPay.Api.Auth
import EasyPay.Onchain.Windows
import EasyPay.Cache.RateLimiter
import EasyPay.Cache.Lock
import EasyPay.Cache.TokenBucket
import EasyPay.Cache.InProcess
import EasyPay.Repository.MerchantLookup
import EasyPay.Lib.Simulation
import EasyPay.Lib.Partition
import EasyPay.Repository.Sharding
import EasyPay.Sharding
import EasyPay.Lib.CircuitBreaker
import EasyPay.Provider.Breaker
import EasyPay.Lib.PortSum
import EasyPay.Api.Server
import EasyPay.Api.Mediation
import EasyPay.Lib.Wrapping
import EasyPay.Api.Jobs
import EasyPay.Api.Visible
import EasyPay.Api.Errors
import EasyPay.Orders.Paid
import EasyPay.Lib.Interp
import EasyPay.Lib.CommitLog
import EasyPay.Consumer.Pipeline
import EasyPay.Consumer.Told
import EasyPay.Api.Rate
import EasyPay.Api.Onboarding
import EasyPay.Lib.Double
