import Moligate.Billing.AudioSettlement
import Moligate.Billing.Conservation
import Moligate.Affiliate.Spending
import Moligate.Codes.Once
import Moligate.Tasks.Refund
import Moligate.Users.Fencing
import Moligate.Sessions.Revoked
import Moligate.Sessions.Winner
import Moligate.Wallet.Solvency
import Moligate.Subscription.UsageLedger
import Moligate.TopUps.Credited
import Moligate.Cdk.Issued
import Moligate.Purchases.Limit
import Moligate.SystemTasks.Exclusive
import Moligate.Subscription.Requests.Idempotent
import Moligate.Billing.Overflow
import Moligate.Users.GroupRefresh
import Moligate.Convert.ClaudeLossless
import Moligate.Convert.ResponsesExact
import Moligate.Convert.ResponsesRequest
import Moligate.Convert.Gemini
import Moligate.AuthFlows.SingleUse
import Moligate.TwoFactor.Guessing
import Moligate.Tasks.Remix
import Moligate.Tasks.TokenSettlement
import Moligate.Tiered.Snapshot
import Moligate.TokenUsage.ClaudeStream
import Moligate.TokenUsage.Responses
import Moligate.TokenUsage.GeminiMetadata
import Moligate.UserUpdates.Restrictions
import Moligate.Subscription.Writers.Serial
import Moligate.Purchases.ExactlyOnce
import Moligate.Tokens.Fencing
import Moligate.Subscription.PlainExpiry
import Moligate.Billing.ImageSettlement
import Moligate.Subscription.CatchUp
import Moligate.Channels.AdvancedCustomRoutes
import Moligate.Channels.DatabaseSelection
import Moligate.Channels.Fairness
import Moligate.Channels.Agreement
import Moligate.Channels.Rebuild
import Moligate.Override.Headers
import Moligate.Override.Prune
import Moligate.BatchUpdates.Conservation
import Moligate.Sessions.LoginLimit
import Moligate.RateLimits.Memory
import Moligate.RateLimits.TokenBucket
