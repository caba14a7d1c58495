import Paymaster.Backend.AccessLists
import Paymaster.Backend.Accounts
import Paymaster.Backend.AdminService
import Paymaster.Backend.AlertEdges
import Paymaster.Backend.AlertGate
import Paymaster.Backend.Auth
import Paymaster.Backend.Binding
import Paymaster.Backend.CallData
import Paymaster.Backend.CeilingsBind
import Paymaster.Backend.CircuitBreaker
import Paymaster.Backend.ClockSkew
import Paymaster.Backend.Conservation
import Paymaster.Backend.Correlation
import Paymaster.Backend.CounterKeys
import Paymaster.Backend.Coverage
import Paymaster.Backend.Database
import Paymaster.Backend.Escalation
import Paymaster.Backend.Eviction
import Paymaster.Backend.GrantedTime
import Paymaster.Backend.IdentityProvider
import Paymaster.Backend.IntervalLoop
import Paymaster.Backend.IpThrottle
import Paymaster.Backend.IssuedAttestations
import Paymaster.Backend.JsonText
import Paymaster.Backend.KeyStores
import Paymaster.Backend.KmsSigner
import Paymaster.Backend.LastUsed
import Paymaster.Backend.LeaderLock
import Paymaster.Backend.LeadershipService
import Paymaster.Backend.LedgerBooks
import Paymaster.Backend.LedgerReplicas
import Paymaster.Backend.LedgerTicks
import Paymaster.Backend.MetricSeries
import Paymaster.Backend.Metrics
import Paymaster.Backend.MigrationLock
import Paymaster.Backend.Migrations
import Paymaster.Backend.Noninterference
import Paymaster.Backend.OtlpTracer
import Paymaster.Backend.Paging
import Paymaster.Backend.PaymasterAndData
import Paymaster.Backend.PaymasterHex
import Paymaster.Backend.PaymasterLayout
import Paymaster.Backend.PaymasterMetrics
import Paymaster.Backend.PaymentClaims
import Paymaster.Backend.Payments
import Paymaster.Backend.Pins
import Paymaster.Backend.PlanCeilings
import Paymaster.Backend.PlanFallback
import Paymaster.Backend.PlanTime
import Paymaster.Backend.Plans
import Paymaster.Backend.Policy
import Paymaster.Backend.PolicyFactory
import Paymaster.Backend.PolicyReloads
import Paymaster.Backend.PolicyWrites
import Paymaster.Backend.Pricing
import Paymaster.Backend.QuotaStore
import Paymaster.Backend.RealSpend
import Paymaster.Backend.Reconciler
import Paymaster.Backend.RecordedEvents
import Paymaster.Backend.RedisQuotaStore
import Paymaster.Backend.RedisRefinement
import Paymaster.Backend.Refunds
import Paymaster.Backend.ReloadRequests
import Paymaster.Backend.RequestSignature
import Paymaster.Backend.SessionLifetime
import Paymaster.Backend.SessionTokens
import Paymaster.Backend.SignatureEngine
import Paymaster.Backend.SponsorRequest
import Paymaster.Backend.SponsorService
import Paymaster.Backend.StoredPolicies
import Paymaster.Backend.SubscriptionNotices
import Paymaster.Backend.SubscriptionState
import Paymaster.Backend.Subscriptions
import Paymaster.Backend.Suspension
import Paymaster.Backend.TenantBalance
import Paymaster.Backend.TenantLedger
import Paymaster.Backend.TraceContext
import Paymaster.Backend.TypedData
import Paymaster.Backend.UserOperation
import Paymaster.Backend.Viem
import Paymaster.Contracts.Attestation
import Paymaster.Contracts.Authority
import Paymaster.Contracts.Blocks
import Paymaster.Contracts.Control
import Paymaster.Contracts.EntryPoint
import Paymaster.Contracts.Ledger
import Paymaster.Contracts.PackedOperation
import Paymaster.Contracts.Replay
import Paymaster.Contracts.Settlement
import Paymaster.Contracts.Solvency
import Paymaster.Contracts.Spec
import Paymaster.Contracts.TenantPaymaster
import Paymaster.Contracts.Types
import Paymaster.Contracts.VerifyingPaymaster
import Paymaster.Frontend.Exposition
import Paymaster.Frontend.Prometheus
import Paymaster.Frontend.Telemetry
import Paymaster.Frontend.TelemetryReports
import Paymaster.Lib.Abi
import Paymaster.Lib.Assoc
import Paymaster.Lib.Base64
import Paymaster.Lib.Bytes
import Paymaster.Lib.CallStack
import Paymaster.Lib.Dialogue
import Paymaster.Lib.Ecdsa
import Paymaster.Lib.Eip712
import Paymaster.Lib.HexDigits
import Paymaster.Lib.HexText
import Paymaster.Lib.LuaNumber
import Paymaster.Lib.Lucas
import Paymaster.Lib.Numeral
import Paymaster.Lib.PlainText
import Paymaster.Lib.Pool
import Paymaster.Lib.Procedure
import Paymaster.Lib.Run
import Paymaster.Lib.Separator
import Paymaster.Lib.Serial
import Paymaster.Lib.Tally
import Paymaster.Lib.TokenBucket
import Paymaster.Lib.Traverse
import Paymaster.Lib.Utf8
import Paymaster.Lib.Window
import Paymaster.Router.RpcRouter
import Paymaster.Router.TraceLane
import Paymaster.Sdk.PaymasterClient
import Paymaster.Sdk.ReceiptWait
import Paymaster.Sdk.SponsoredBundler
import Paymaster.Sdk.Submission
import Paymaster.Sdk.UserOpHash
