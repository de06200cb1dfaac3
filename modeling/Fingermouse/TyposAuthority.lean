import Fingermouse.Mealy
import Fingermouse.TyposRefresh

/-!
# Whose cache is called current

Runs of `refresh_base` over files and URLs that share a cache.

* `recorded_run`: cache and metadata are those of the last install.
* `reportsInstall_iff`: a call is right to report a current cache exactly where the
  metadata names the URL that says it has not changed.
* `current_iff`: the same over runs.
-/

namespace Fingermouse.TyposRefresh

open Text TyposRollout

variable {py : WebPython} {targets after : CacheTargets} {result : RefreshResult} {call : Call}

/-! ## Runs -/

/-- What a call answers or raises, and the cache it leaves. -/
structure Outcome where
  result : Except Failure RefreshResult
  cache : Option Bytes

def Outcome.status (outcome : Outcome) : Option Status :=
  outcome.result.toOption.map RefreshResult.status

variable (py) in
def step (targets : CacheTargets) (call : Call) : Outcome × CacheTargets :=
  match refreshBase py call targets with
  | .ok (result, after) => (⟨.ok result, after.cache⟩, after)
  | .error failure => (⟨.error failure, targets.cache⟩, targets)

theorem step_of_ok (done : refreshBase py call targets = .ok (result, after)) :
    step py targets call = (⟨.ok result, after.cache⟩, after) := by
  rw [step, done]

theorem step_of_error {failure : Failure}
    (raised : refreshBase py call targets = .error failure) :
    step py targets call = (⟨.error failure, targets.cache⟩, targets) := by
  rw [step, raised]

abbrev Event := Call × Outcome

def lastInstall (events : List Event) : Option Event :=
  (events.filter fun event => event.2.status = some .refreshed).getLast?

theorem lastInstall_append (events : List Event) (event : Event) :
    lastInstall (events ++ [event]) =
      if event.2.status = some .refreshed then some event else lastInstall events := by
  unfold lastInstall
  rw [List.filter_append, List.filter_singleton]
  split_ifs with refreshed
  · rw [decide_eq_true refreshed, cond_true, List.getLast?_concat]
  · rw [decide_eq_false refreshed, cond_false, List.append_nil]

variable (py) in
/-- The call put the content, a dictionary held by its authority, into the
cache. -/
structure Installed (authority : Authority) (content : Bytes) (event : Event) : Prop where
  source : event.1.authority = some authority
  offered : event.1.Offers content
  dictionary : IsDictionary py.toPython content
  cache : event.2.cache = some content

variable (py) in
/-- Cache and metadata are those of the last install; before the first there is
no cache. -/
def Recorded (last : Option Event) (targets : CacheTargets) : Prop :=
  last.elim (targets.cache = none) fun install =>
    ∃ authority content, Installed py authority content install ∧ targets.Records authority content

theorem Recorded.step {events : List Event} (recorded : Recorded py (lastInstall events) targets)
    (call : Call) :
    Recorded py (lastInstall (events ++ [(call, (step py targets call).1)]))
      (step py targets call).2 := by
  rw [lastInstall_append]
  cases done : refreshBase py call targets with
  | error failure =>
      rw [step_of_error done]
      exact recorded
  | ok answer =>
      obtain ⟨result, after⟩ := answer
      have reported : Outcome.status ⟨.ok result, after.cache⟩ = some result.status := rfl
      rw [step_of_ok done]
      dsimp only
      rw [reported]
      rcases refreshBase_cases done with new | kept
      · obtain ⟨refreshed, authority, content, source, offers, dictionary, records⟩ := new
        rw [if_pos (congrArg some refreshed)]
        exact ⟨authority, content, ⟨source, offers, dictionary, records.cache⟩, records⟩
      · obtain ⟨rfl, status⟩ := kept
        rw [if_neg]
        · exact recorded
        · intro refreshed
          rw [Option.some.injEq] at refreshed
          simp [refreshed] at status

theorem recorded_run (cachePath : Str) (calls : List Call) :
    Recorded py (lastInstall (Mealy.trace (step py) (.fresh cachePath) calls))
      (Mealy.final (step py) (.fresh cachePath) calls) := by
  refine Mealy.final_invariant
    (fun front now =>
      Recorded py (lastInstall (Mealy.trace (step py) (.fresh cachePath) front)) now) rfl ?_
  intro front call back _ recorded
  rw [Mealy.trace_append]
  exact recorded.step call

/-! ## What is reported current -/

variable (py) in
/-- Where the call reports a current cache, the last install was one from its
own authority, and put there what the cache holds. -/
def ReportsInstall (last : Option Event) (call : Call) (outcome : Outcome) : Prop :=
  outcome.status = some .current →
    ∃ authority content install, call.authority = some authority ∧
      outcome.cache = some content ∧ last = some install ∧
      Installed py authority content install

variable (py) in
/-- The same, of the calls before it. -/
def ReportsOwn (before : List Event) (call : Call) (outcome : Outcome) : Prop :=
  ReportsInstall py (lastInstall before) call outcome

variable (py) in
/-- A URL that says it has not changed is the one that the cache is recorded
for. -/
def KeepsAuthority (targets : CacheTargets) (call : Call) : Prop :=
  call.offline = false → call.source.isLocal = false →
    Unchanged py targets call.source.text call.urlopen →
    (readMetadata targets.metadata).lookup "source".toList = some (.string call.source.text)

instance (targets : CacheTargets) (source : Str)
    (urlopen : Request → Except Failure RemoteResponse) :
    Decidable (Unchanged py targets source urlopen) :=
  decidable_of_iff (validCache py targets = .ok true ∧
    ∃ request ∈ (httpsRequest py source
        (conditionalHeaders (readMetadata targets.metadata))).toOption,
      saysUnchanged py (readMetadata targets.metadata) (urlopen request) = true) (by
    simp only [Unchanged, Except.mem_toOption_iff])

instance (targets : CacheTargets) (call : Call) : Decidable (KeepsAuthority py targets call) :=
  inferInstanceAs (Decidable (_ → _ → _ → _ = _))

/-- A recorded cache is of the authority that the metadata names. -/
theorem Recorded.exists_install {last : Option Event} (recorded : Recorded py last targets)
    (cached : targets.cache ≠ none) :
    ∃ install authority content, last = some install ∧
      Installed py authority content install ∧ targets.Records authority content := by
  cases last with
  | none => exact absurd recorded cached
  | some install =>
      obtain ⟨authority, content, installed, records⟩ := recorded
      exact ⟨install, authority, content, rfl, installed, records⟩

theorem CacheTargets.Records.url_iff {authority : Authority} {content : Bytes}
    (records : targets.Records authority content) {source : Str}
    (https : urlScheme source = "https".toList) :
    (readMetadata targets.metadata).lookup "source".toList = some (.string source) ↔
      authority = .url source := by
  rw [records.source, Option.some.injEq, Json.string.injEq, Authority.name_eq_iff https]

theorem CacheTargets.Records.eq_file {authority : Authority} {content : Bytes}
    (records : targets.Records authority content) {path : AbsPath}
    (names : NamesFile (readMetadata targets.metadata) path) : authority = .file path := by
  obtain ⟨source, nanos, mtime⟩ := names
  obtain ⟨recordedPath, rfl⟩ := records.mtime nanos mtime
  rw [records.source, Option.some.injEq, Json.string.injEq] at source
  exact congrArg Authority.file (AbsPath.ext source)

theorem exists_of_status {status : Status}
    (reported : (step py targets call).1.status = some status) :
    ∃ result after, refreshBase py call targets = .ok (result, after) ∧
      result.status = status := by
  cases done : refreshBase py call targets with
  | error failure =>
      rw [step_of_error done] at reported
      cases reported
  | ok answer =>
      obtain ⟨result, after⟩ := answer
      rw [step_of_ok done] at reported
      exact ⟨result, after, rfl, Option.some.inj reported⟩

theorem step_of_unchanged (online : call.offline = false)
    (remote : call.source.isLocal = false)
    (unchanged : Unchanged py targets call.source.text call.urlopen) :
    step py targets call = (⟨.ok ⟨.current, targets.cachePath⟩, targets.cache⟩, targets) := by
  apply step_of_ok
  rw [refreshBase, online, remote]
  exact refreshHttp_of_unchanged unchanged

/-- One call reports its own cache exactly where the cache is recorded for the
URL that says it has not changed. -/
theorem reportsInstall_iff {last : Option Event} (recorded : Recorded py last targets) :
    ReportsInstall py last call (step py targets call).1 ↔ KeepsAuthority py targets call := by
  constructor
  · -- The answer is `current` whatever the metadata names.
    intro reports online remote unchanged
    rw [step_of_unchanged online remote unchanged] at reports
    obtain ⟨authority, content, install, own, -, same, installed⟩ := reports rfl
    obtain ⟨install', authority', content', same', installed', records⟩ :=
      recorded.exists_install (cache_of_validCache unchanged.1)
    obtain rfl : install' = install := Option.some.inj (same'.symm.trans same)
    obtain rfl : authority' = authority :=
      Option.some.inj (installed'.source.symm.trans installed.source)
    have url : call.authority = some (.url call.source.text) := by
      rw [Call.authority, remote]
      rfl
    obtain ⟨_, request, asked, -⟩ := unchanged
    rw [records.url_iff (request_of_httpsRequest asked).2]
    exact Option.some.inj (own.symm.trans url)
  · intro keeps current
    obtain ⟨result, after, done, status⟩ := exists_of_status current
    rw [step_of_ok done]
    rcases refreshBase_cases done with ⟨refreshed, -⟩ | ⟨rfl, kept⟩
    · rw [status] at refreshed
      cases refreshed
    · simp only [status, reduceCtorEq, true_and, false_or] at kept
      obtain ⟨valid, authority⟩ := kept
      obtain ⟨install, recordedAuthority, content, same, installed, records⟩ :=
        recorded.exists_install (cache_of_validCache valid)
      refine ⟨recordedAuthority, content, install, ?_, records.cache, same, installed⟩
      rcases authority with ⟨path, own, names⟩ | ⟨online, remote, unchanged⟩
      · -- A local refresh has compared the names, and only files have times.
        rw [own, records.eq_file names]
      · obtain ⟨request, asked, -⟩ := unchanged.2
        have source := keeps online remote unchanged
        rw [records.url_iff (request_of_httpsRequest asked).2] at source
        rw [source, Call.authority, remote]
        rfl

/-- In every run whose calls keep to the recorded authority, every cache that is
reported current was last installed from the authority of the call; and in
any run a call reports so exactly if it keeps to the recorded authority. -/
theorem current_iff (py : WebPython) (cachePath : Str) :
    (∀ calls, Mealy.AllSteps (step py) (KeepsAuthority py) (.fresh cachePath) calls →
      ∀ front call back, calls = front ++ call :: back →
        ReportsOwn py (Mealy.trace (step py) (.fresh cachePath) front) call
          (step py (Mealy.final (step py) (.fresh cachePath) front) call).1) ∧
    ∀ front call,
      ReportsOwn py (Mealy.trace (step py) (.fresh cachePath) front) call
          (step py (Mealy.final (step py) (.fresh cachePath) front) call).1 ↔
        KeepsAuthority py (Mealy.final (step py) (.fresh cachePath) front) call := by
  refine ⟨fun calls keep front call back split => ?_, fun front call => ?_⟩
  · subst split
    exact (reportsInstall_iff (recorded_run cachePath front)).mpr keep.of_append
  · exact reportsInstall_iff (recorded_run cachePath front)

/-! ### Two servers with one tag -/

def sampleWebPython : WebPython where
  toPython := samplePython
  parsedateToDatetime _ := .error (.valueError "Invalid date value or format".toList)
  checkNetloc _ := .ok ()

def tag : Str := "\"v1\"".toList

/-- A server whose one document has the tag. -/
def serve (text : Str) (request : Request) : Except Failure RemoteResponse :=
  if ("If-None-Match".toList, tag) ∈ request.headers then .error (.httpError 304)
  else .ok ⟨200, fun name => if name = "ETag".toList then some tag else none, .ok (asBytes text)⟩

def fetch (url text : Str) : Call where
  source := .str url
  offline := false
  file := ⟨.error (.other []), .error (.other []), .error (.other [])⟩
  urlopen := serve text

def estateUrl : Str := "https://estate.example/base.toml".toList

def mirrorUrl : Str := "https://mirror.example/base.toml".toList

/-- Fetched again, a dictionary is current. -/
theorem current_of_fetch_twice :
    let first := fetch estateUrl organText
    let fresh := CacheTargets.fresh "base.toml".toList
    let answer := (step sampleWebPython (Mealy.final (step sampleWebPython) fresh [first]) first).1
    answer.status = some .current ∧
      ReportsOwn sampleWebPython (Mealy.trace (step sampleWebPython) fresh [first]) first answer :=
  ⟨by decide +kernel, (current_iff sampleWebPython _).1 [_, _] (by decide +kernel) [_] _ [] rfl⟩

/-- Another URL, whose document happens to have the same tag, is answered by the
cache of the first. -/
theorem current_of_other_url :
    ¬∀ (py : WebPython) (cachePath : Str) (front : List Call) (call : Call),
      ReportsOwn py (Mealy.trace (step py) (.fresh cachePath) front) call
        (step py (Mealy.final (step py) (.fresh cachePath) front) call).1 := by
  intro own
  have current : (step sampleWebPython (Mealy.final (step sampleWebPython) (.fresh [])
      [fetch estateUrl organText]) (fetch mirrorUrl tehText)).1.status = some .current := by
    decide +kernel
  obtain ⟨authority, content, install, asked, -, last, installed⟩ := own _ _ _ _ current
  have estate : (lastInstall (Mealy.trace (step sampleWebPython) (.fresh [])
      [fetch estateUrl organText])).map (fun event => event.1.authority) =
        some (some (.url estateUrl)) := by
    decide +kernel
  rw [last, Option.map_some, installed.source, ← asked] at estate
  revert estate
  decide +kernel

end Fingermouse.TyposRefresh
