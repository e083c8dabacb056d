import RateWise.ExactCounters
import RateWise.SerialOperations
import RateWise.DeletedAccounts
import RateWise.Suspensions
import RateWise.AccountHistory
import RateWise.PageWalks
import RateWise.StoredInputs
import RateWise.ItemTags
import RateWise.Credentials
import RateWise.TokenHistory
import RateWise.SessionHistory
import RateWise.SessionRevocation
import RateWise.LinkActivations
import RateWise.BlacklistRuns
import RateWise.SeatRuns
import RateWise.RateLimits
import RateWise.VoteRefresh
import RateWise.RowRules
import RateWise.SiteDurability
import RateWise.SiteAtomicity
import RateWise.SiteRoutes
import RateWise.SiteSignIn
import RateWise.SiteAcknowledged
import RateWise.SiteErasure
import RateWise.SiteOutbox
import RateWise.StatementKinds
import RateWise.ContentIntegrity
import RateWise.ItemCache
import RateWise.ReviewCache
import RateWise.UserCache
import RateWise.HashSecrecy
import RateWise.UserFreshness
import RateWise.FailureLogs
import RateWise.PageRaces
import RateWise.Filters
import RateWise.CopyHistories
import RateWise.CursorCodec
import RateWise.JsonReads
import RateWise.RedisAdapter
