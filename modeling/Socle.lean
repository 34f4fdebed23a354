import Socle.GuardedRuns
import Socle.Procedures
import Socle.DirectoryStore
import Socle.DirectoryService
import Socle.LastOwner
import Socle.TeamMembership
import Socle.SecondFactor
import Socle.SingleUse
import Socle.TenantGuards
import Socle.ReadIsolation
import Socle.WriteConfinement
import Socle.ConnectorStore
import Socle.ConnectorService
import Socle.ConnectorTransactions
import Socle.RefreshSerialization
import Socle.RevokedConnection
import Socle.RevocationIsFinal
import Socle.KeyedTable
import Socle.UsageRollup
import Socle.DailyAggregates
import Socle.PurgedUsage
import Socle.AIGateway
import Socle.UsageMetering
import Socle.EgressPolicy
import Socle.DisabledModules
import Socle.PeriodicOverlap
import Socle.WebhookDispatch
import Socle.OwnershipProvenance
import Socle.AuthorizationExact
import Socle.Interruptions
import Socle.AuditTrail
import Socle.AuditCompleteness
import Socle.RefreshBeat
import Socle.ModuleRegistry
import Socle.ModuleMounting
import Socle.AuditPagination
import Socle.TotpEnrolment
import Socle.InvitationOnce
import Socle.LiveInvitations
import Socle.AuthPurge
import Socle.Base64Url
import Socle.PythonJson
import Socle.JsonRoundTrip
import Socle.SignedPayloads
import Socle.FreshTokens
import Socle.AnsweredCalls
import Socle.BurntChallenges
import Socle.RetryAfter
import Socle.BudgetWindows
import Socle.CsrfOrigin
import Socle.ReturnHost
import Socle.PersonalConnections
import Socle.OAuthLogin
import Socle.LoginLinks
import Socle.Gregorian
import Socle.StreamArguments
import Socle.QuotaCounters
import Socle.MonthReconciliation
import Socle.QuotaAlerts
import Socle.RateLimitBounds
import Socle.RateLimitLeaks
import Socle.CounterExpiry
import Socle.ActivationStaleness
import Socle.ActivationCoherence
import Socle.IsoDates
import Socle.CalendarDrafts
import Socle.ResultPages
import Socle.BeatEntries
import Socle.ConsentedScopes
import Socle.UsageCosts
import Socle.LockRelease
import Socle.ConsentLoss
import Socle.SlotClaims
import Socle.SubscriptionRaces
import Socle.FlowStates
import Socle.SessionLifetimes
import Socle.ConnectorKnowledge
import Socle.DeletedTenants
import Socle.ErasedTenants
import Socle.EventProvenance
import Socle.Accountability
import Socle.TokenUpkeep
