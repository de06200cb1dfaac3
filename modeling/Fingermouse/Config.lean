import Fingermouse.Identity
import Fingermouse.RateLimit
import Fingermouse.Result

/-!
# Configuration

`fromCli` turns the command-line options into the configuration the server
runs on: it validates the hosts, clamps the request size and raises zero rates
to one.  Options that are handed through unread (addresses, the store root) are
left out.
-/

namespace Fingermouse

open Text Chrono

/-- A set that remembers insertion order. -/
structure IndexSet (α : Type) where
  items : List α
  nodup : items.Nodup

namespace IndexSet

variable {α : Type} [DecidableEq α]

def singleton (a : α) : IndexSet α := ⟨[a], List.nodup_singleton a⟩

def contains (set : IndexSet α) (a : α) : Bool := a ∈ set.items

/-- An item already present keeps its place. -/
def insert (set : IndexSet α) (a : α) : IndexSet α :=
  if present : a ∈ set.items then set
  else ⟨set.items ++ [a], by
    rw [List.nodup_append_comm]
    exact List.nodup_cons.mpr ⟨present, set.nodup⟩⟩

end IndexSet

/-- Command-line options accepted by the binary. -/
structure CliOptions where
  defaultHost : Str
  allowedHosts : Option Str
  profilePrefix : Str
  planPrefix : Str
  rateLimit : UInt32
  rateWindowSecs : UInt64
  rateCapacity : Nat
  requestTimeoutMs : UInt64
  maxRequestBytes : Nat

/-- The options of a command line that sets none. -/
def CliOptions.default : CliOptions where
  defaultHost := "localhost".toList
  allowedHosts := none
  profilePrefix := "profiles".toList
  planPrefix := "plans".toList
  rateLimit := 30
  rateWindowSecs := 60
  rateCapacity := 8192
  requestTimeoutMs := 3000
  maxRequestBytes := 512

/-- Runtime configuration compiled from the options. -/
structure ServerConfig where
  /-- Default hostname used when queries omit one. -/
  defaultHost : HostName
  /-- Hostnames that the server will respond to. -/
  allowedHosts : IndexSet HostName
  profilePrefix : Str
  planPrefix : Str
  /-- Rate limiting settings applied per client IP. -/
  rate : RateLimitSettings
  /-- Maximum time spent waiting for a client query. -/
  requestTimeout : Duration
  /-- Maximum query size accepted from a client. -/
  maxRequestBytes : Nat

namespace ServerConfig

def sanitisePrefix (input : Str) : Str := trimMatches (· == '/') (trim input)

def describeIdentity (err : IdentityError) : Str := err.display

/-- The loop of `extend_allowed_hosts` over the candidates. -/
def insertHosts : List Str → IndexSet HostName → Except Str (IndexSet HostName)
  | [], allowedHosts => .ok allowedHosts
  | candidate :: candidates, allowedHosts => do
      let host ← (HostName.parse candidate).mapError fun err =>
        "invalid host in allow list: ".toList ++ describeIdentity err
      insertHosts candidates (allowedHosts.insert host)

def extendAllowedHosts (list : Str) (allowedHosts : IndexSet HostName) :
    Except Str (IndexSet HostName) :=
  insertHosts (((list.splitOn ',').map trim).filter (!·.isEmpty)) allowedHosts

def minRequestBytes : Nat := 64

def maxRequestBytesLimit : Nat := 4096

/-- Construct configuration from parsed command-line options. -/
def fromCli (cli : CliOptions) : Except Str ServerConfig := do
  let defaultHost ← (HostName.parse cli.defaultHost).mapError fun err =>
    "invalid default host: ".toList ++ describeIdentity err
  let allowedHosts ← cli.allowedHosts.elim (.ok (.singleton defaultHost)) fun list =>
    extendAllowedHosts list (.singleton defaultHost)
  return {
    defaultHost
    allowedHosts
    profilePrefix := sanitisePrefix cli.profilePrefix
    planPrefix := sanitisePrefix cli.planPrefix
    rate := {
      maxRequests := max cli.rateLimit 1
      window := .fromSecs (max cli.rateWindowSecs 1)
      maxEntries := max cli.rateCapacity 1 }
    requestTimeout := .fromMillis (max cli.requestTimeoutMs 1)
    maxRequestBytes := max minRequestBytes (min cli.maxRequestBytes maxRequestBytesLimit) }

def localhost : HostName := ⟨"localhost".toList, by decide, by decide⟩

/-- The configuration of the default options. -/
def ofDefault : ServerConfig where
  defaultHost := localhost
  allowedHosts := .singleton localhost
  profilePrefix := "profiles".toList
  planPrefix := "plans".toList
  rate := { maxRequests := 30, window := .fromSecs 60, maxEntries := 8192 }
  requestTimeout := .fromMillis 3000
  maxRequestBytes := 512

theorem fromCli_default : fromCli .default = .ok ofDefault := by
  have host : HostName.parse CliOptions.default.defaultHost = .ok localhost :=
    HostName.parse_text localhost
  simp only [fromCli, host]
  rfl

/-- The limiter's settings raise every zero rate to one. -/
theorem fromCli_rate {cli : CliOptions} {config : ServerConfig}
    (built : fromCli cli = .ok config) :
    config.rate = ⟨max cli.rateLimit 1, .fromSecs (max cli.rateWindowSecs 1),
      max cli.rateCapacity 1⟩ := by
  simp only [fromCli, Except.bind_eq_ok_iff, Except.pure_eq_ok_iff] at built
  obtain ⟨defaultHost, -, allowedHosts, -, rfl⟩ := built
  rfl

/-- The request size is clamped. -/
theorem fromCli_maxRequestBytes {cli : CliOptions} {config : ServerConfig}
    (built : fromCli cli = .ok config) :
    minRequestBytes ≤ config.maxRequestBytes ∧
      config.maxRequestBytes ≤ maxRequestBytesLimit := by
  simp only [fromCli, Except.bind_eq_ok_iff, Except.pure_eq_ok_iff] at built
  obtain ⟨defaultHost, -, allowedHosts, -, rfl⟩ := built
  simp [minRequestBytes, maxRequestBytesLimit]

/-- Determine whether the server is responsible for the supplied host. -/
def acceptsHost (config : ServerConfig) (host : HostName) : Bool :=
  config.allowedHosts.contains host

theorem acceptsHost_iff {config : ServerConfig} {host : HostName} :
    config.acceptsHost host = true ↔ host ∈ config.allowedHosts.items := by
  simp [acceptsHost, IndexSet.contains]

end ServerConfig

end Fingermouse
