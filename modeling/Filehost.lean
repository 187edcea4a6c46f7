import Filehost.Ip.Proxies
import Filehost.Ip.Quota
import Filehost.Http.ForwardedFor
import Filehost.RateLimit.Pacing
import Filehost.RateLimit.ThrottledBody
import Filehost.RateLimit.Eviction
import Filehost.RateLimit.Rotation
import Filehost.Challenge.Pow
import Filehost.Challenge.HexSlices
import Filehost.Challenge.Solver
import Filehost.Challenge.Captcha
import Filehost.Clamd.Instream
import Filehost.Cache.BanCache
import Filehost.Cache.MimeBans
import Filehost.Cache.BanRegister
import Filehost.Cache.ChallengeTimes
import Filehost.Cache.SuspectSiblings
import Filehost.Cache.FetchSpacing
import Filehost.Cache.Scoring
import Filehost.Store.Failures
import Filehost.Store.DedupRuns
import Filehost.Store.Archive
import Filehost.Store.Compaction
import Filehost.Store.Lifecycle
import Filehost.Upload.SlugRace
import Filehost.Upload.BannedTypes
import Filehost.Upload.Retention
import Filehost.Upload.Serving
import Filehost.Upload.Fidelity
import Filehost.Upload.Interleaving
import Filehost.Upload.Links
import Filehost.Upload.ReadForm
import Filehost.Upload.CaptchaReturn
import Filehost.Upload.LifeExpectancy
import Filehost.Upload.SlugAllocation
import Filehost.Upload.VirusVerdict
import Filehost.Blacklist.Lifetime
import Filehost.Blacklist.Listing
import Filehost.Admin.BanExpiry
import Filehost.Admin.IpStats
import Filehost.Admin.Listings
import Filehost.Admin.Stats
import Filehost.Admin.Removals
import Filehost.Admin.Deletions
import Filehost.Migrations.Ipv6Support
