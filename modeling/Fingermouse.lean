import Fingermouse.Text
import Fingermouse.CaseFold
import Fingermouse.LineEnds
import Fingermouse.Result
import Fingermouse.Mealy
import Fingermouse.Table
import Fingermouse.Directory
import Fingermouse.TomlText
import Fingermouse.HttpText
import Fingermouse.Agreement
import Fingermouse.FixedWindow
import Fingermouse.Chrono
import Fingermouse.Identity
import Fingermouse.Query
import Fingermouse.QueryGrammar
import Fingermouse.QuerySpelling
import Fingermouse.Framing
import Fingermouse.User
import Fingermouse.UserResponse
import Fingermouse.ProfileErrors
import Fingermouse.Storage
import Fingermouse.RateLimit
import Fingermouse.Config
import Fingermouse.Confinement
import Fingermouse.Server
import Fingermouse.ResponseReader
import Fingermouse.Disclosure
import Fingermouse.AllowList
import Fingermouse.RateLimitRuns
import Fingermouse.RateLimitPace
import Fingermouse.ServerRuns
import Fingermouse.RateLimitTasks
import Fingermouse.RateLimitStore
import Fingermouse.RateLimitCrowd
import Fingermouse.RateLimitClock
import Fingermouse.RateLimitConcurrent
import Fingermouse.RateLimitProgress
import Fingermouse.ServerTasks
import Fingermouse.ServerProgress
import Fingermouse.Telemetry
import Fingermouse.TyposRollout
import Fingermouse.TyposRefresh
import Fingermouse.TyposAuthority
import Fingermouse.TyposRender
import Fingermouse.AtomicWrite
import Fingermouse.TyposFaults
import Fingermouse.TyposTorn
import Fingermouse.TyposGenerate
