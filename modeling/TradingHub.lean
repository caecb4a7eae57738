import TradingHub.Analytics.NoLookAhead
import TradingHub.Api.RateLimiter
import TradingHub.Core.CircuitCalls
import TradingHub.Exchange.Paper.Instructions
import TradingHub.Security.Lockouts
import TradingHub.Services.Concurrency
import TradingHub.Services.ConcurrentCancels
import TradingHub.Services.FillPrices
import TradingHub.Services.GuessQuota
import TradingHub.Services.NullFields
import TradingHub.Services.Policies
import TradingHub.Services.Refresh
import TradingHub.Services.Rejections
import TradingHub.Services.RiskBound
import TradingHub.Services.SingleUse
import TradingHub.Services.StaleTokens
import TradingHub.Services.StoredDecimals
import TradingHub.Services.TenantIsolation
import TradingHub.Services.TerminalStatuses
import TradingHub.Api.RetryAfter
import TradingHub.Core.SequentialCalls
import TradingHub.Security.RevocationStores
import TradingHub.Security.LockoutWindows
import TradingHub.Analytics.Adx
import TradingHub.Analytics.Bands
import TradingHub.Analytics.Division
import TradingHub.Analytics.Oscillators
import TradingHub.Api.ClientAddress
import TradingHub.Services.LockoutWait
import TradingHub.Analytics.RsiSymmetry
import TradingHub.Analytics.SuperTrend
import TradingHub.Api.LimiterMemory
import TradingHub.Services.OrderPages
import TradingHub.Trading.PositionSizing
import TradingHub.Services.Valuation
import TradingHub.Services.Views
import TradingHub.Services.KeyRotation
import TradingHub.Services.Secrets
import TradingHub.Services.AuditTrail
import TradingHub.Services.ClientUse
import TradingHub.Api.Platform
import TradingHub.Api.TrueClients
import TradingHub.Services.Registration
import TradingHub.Services.AuthTrail
import TradingHub.Services.Bookkeeping
import TradingHub.Services.Outages
import TradingHub.Services.SentOrders
import TradingHub.Services.Charts
import TradingHub.Services.PortfolioSync
import TradingHub.Core.Retry
import TradingHub.Trading.RiskCalculators
