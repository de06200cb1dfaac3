import Fingermouse.TyposFaults

/-!
# Installs that are cut in two

`refresh_base` of `typos_rollout.py` replaces the cache before it writes the
metadata.  Where it does not come to replace them, the new cache stands with the
metadata of the install before.

* `refreshBase_follows`: what a failing write can make of a call.
* `refreshBase_noFaults`: where writing does not fail, this is `refresh_base`.
* `marked_run`: the metadata are those of the last install, whatever fails.
* `authority_exact`: where writes may fail, a call is right to report a current
  cache exactly if the metadata name its source and the cache is still that of
  the last install.
-/

namespace Fingermouse.TyposRefresh

open Text TyposRollout

/-- The cache is not replaced without the metadata. -/
def Replaced.Whole (replaced : Replaced) : Prop :=
  replaced.cache = true → replaced.metadata = true

namespace Faulty

variable {py : WebPython} {faults : Faults} {targets : CacheTargets} {call : Call}

/-! ## One call -/

/-- A result with the files it comes with; an exception leaves them. -/
def answer {ε : Type} (targets : CacheTargets) :
    Except ε (RefreshResult × CacheTargets) → Except ε RefreshResult × CacheTargets
  | .ok (result, after) => (.ok result, after)
  | .error err => (.error err, targets)

theorem refreshLocal_kept {file : LocalFile} {result : RefreshResult} {after : CacheTargets}
    (done : TyposRefresh.refreshLocal py file targets = .ok (result, after))
    (kept : result.status ≠ .refreshed) : after = targets := by
  obtain ⟨path, -, ⟨-, same, -⟩ | ⟨refreshed, -⟩⟩ := refreshLocal_cases done
  · exact same
  · exact absurd refreshed kept

theorem remoteResponseResult_kept {source : Str} {saved : Metadata} {response : RemoteResponse}
    {result : RefreshResult} {after : CacheTargets}
    (done : TyposRefresh.remoteResponseResult py source targets saved response =
      .ok (result, after))
    (kept : result.status ≠ .refreshed) : after = targets := by
  rcases remoteResponseResult_cases done with ⟨-, same, -⟩ | ⟨refreshed, -⟩
  · exact same
  · exact absurd refreshed kept

/-- Files that a result leaves are there after it. -/
theorem answer_of_kept {ε : Type} {done : Except ε (RefreshResult × CacheTargets)}
    (kept : ∀ result after, done = .ok (result, after) → after = targets) :
    answer targets done = (done.map Prod.fst, targets) := by
  cases done with
  | error err => rfl
  | ok reply =>
      obtain ⟨result, after⟩ := reply
      obtain rfl := kept result after rfl
      rfl

theorem answer_exceptClauses {failure : Failure} :
    answer targets (exceptClauses py targets failure) =
      ((exceptClauses py targets failure).map Prod.fst, targets) :=
  answer_of_kept fun _ _ done => (exceptClauses_cases done).1

theorem answer_refreshBase_offline {call : Call} (offline : call.offline = true) :
    answer targets (TyposRefresh.refreshBase py call targets) =
      ((TyposRefresh.refreshBase py call targets).map Prod.fst, targets) := by
  refine answer_of_kept fun result after done => ?_
  rw [TyposRefresh.refreshBase, if_pos offline] at done
  obtain ⟨valid, -, done⟩ := Except.bind_eq_ok_iff.mp done
  split_ifs at done
  cases done
  rfl

/-- What comes of a call that, without faults, would answer as planned: the same,
and no fault where an install is planned; or a write fails, and at most a stale
cache is reported. -/
inductive Follows {ε : Type} (faults : Faults) (targets : CacheTargets)
    (plan : Except ε (RefreshResult × CacheTargets))
    (reply : Except ε RefreshResult × CacheTargets) : Prop
  | plain :
    reply = answer targets plan →
    (∀ result after, plan = .ok (result, after) → result.status = .refreshed →
      faults = ⟨none, none⟩) →
    Follows faults targets plan reply
  | breaks {result : RefreshResult} {after : CacheTargets} :
    faults ≠ ⟨none, none⟩ → plan = .ok (result, after) → result.status = .refreshed →
    reply.2 = (persist faults targets after result).2 →
    (∀ result', reply.1 = .ok result' → result'.status = .staleCache) →
    Follows faults targets plan reply

theorem settle_cases (faults : Faults) (done : Except PyError (RefreshResult × CacheTargets))
    (kept : ∀ result after, done = .ok (result, after) → result.status ≠ .refreshed →
      after = targets) :
    (settle faults targets done = answer targets done ∧
      ∀ result after, done = .ok (result, after) → result.status = .refreshed →
        faults = ⟨none, none⟩) ∨
      ∃ result after err, faults ≠ ⟨none, none⟩ ∧ done = .ok (result, after) ∧
        result.status = .refreshed ∧
        settle faults targets done = (.error err, (persist faults targets after result).2) := by
  cases done with
  | error err => exact .inl ⟨rfl, nofun⟩
  | ok reply =>
      obtain ⟨result, after⟩ := reply
      by_cases refreshed : result.status = .refreshed
      · have settled : settle faults targets (.ok (result, after)) =
            persist faults targets after result := if_pos refreshed
        rcases persist_answer faults targets after result with ⟨rfl, -⟩ | ⟨fault, fails, broken⟩
        · exact .inl ⟨settled, fun _ _ _ _ => rfl⟩
        · refine .inr ⟨result, after, fault.err, ?_, rfl, refreshed,
            settled.trans (Prod.ext broken rfl)⟩
          rintro rfl
          rcases fails with fails | fails <;> cases fails
      · refine .inl ⟨?_, fun result' after' same installs => ?_⟩
        · rw [settle, if_neg refreshed, answer, kept result after rfl refreshed]
        · cases same
          exact absurd installs refreshed

/-- The `except` clauses find no result that is refreshed. -/
theorem plain_of_exceptClauses {failure : Failure} :
    Follows faults targets (exceptClauses py targets failure)
      ((exceptClauses py targets failure).map Prod.fst, targets) := by
  refine .plain answer_exceptClauses.symm fun result after answers installs => ?_
  obtain ⟨-, stale | ⟨current, -⟩⟩ := exceptClauses_cases answers
  · cases stale.symm.trans installs
  · cases current.symm.trans installs

theorem refreshHttp_follows (py : WebPython) (faults : Faults) (source : Str)
    (urlopen : Request → Except Failure RemoteResponse) (targets : CacheTargets) :
    Follows faults targets (TyposRefresh.refreshHttp py source urlopen targets)
      (refreshHttp py faults source urlopen targets) := by
  unfold refreshHttp TyposRefresh.refreshHttp
  dsimp only
  cases httpsRequest py source (conditionalHeaders (readMetadata targets.metadata)) with
  | error err => exact .plain rfl nofun
  | ok request =>
      simp only [Except.mapError, bind, Except.bind]
      cases opened : urlopen request with
      | error failure => exact plain_of_exceptClauses
      | ok response =>
          have tried := settle_cases faults
            (TyposRefresh.remoteResponseResult py source targets (readMetadata targets.metadata)
              response)
            fun _ _ => remoteResponseResult_kept
          rcases tried with ⟨same, sound⟩ | ⟨result, after, err, fails, planned, installs, broken⟩
          · simp only [attempt, remoteResponseResult, same]
            cases planned : TyposRefresh.remoteResponseResult py source targets
                (readMetadata targets.metadata) response with
            | error err => exact plain_of_exceptClauses
            | ok reply =>
                refine .plain rfl fun result after answers => sound result after ?_
                cases answers
                exact planned
          · simp only [attempt, remoteResponseResult, broken]
            simp only [planned, Except.mapError]
            refine .breaks fails rfl installs rfl fun result' answered => ?_
            cases clauses : exceptClauses py (persist faults targets after result).2
                (.raised err) with
            | error failure =>
                rw [clauses] at answered
                cases answered
            | ok reply =>
                rw [clauses] at answered
                cases answered
                obtain ⟨-, stale | ⟨-, -, raised⟩⟩ := exceptClauses_cases clauses
                · exact stale
                · cases raised

/-- A call does what it does where writes succeed, or a write fails it. -/
theorem refreshBase_follows (py : WebPython) (faults : Faults) (call : Call)
    (targets : CacheTargets) :
    Follows faults targets (TyposRefresh.refreshBase py call targets)
      (refreshBase py faults call targets) := by
  unfold refreshBase
  split_ifs with offline isLocal
  · refine .plain (answer_refreshBase_offline offline).symm fun result after answers installs => ?_
    rw [TyposRefresh.refreshBase, if_pos offline] at answers
    obtain ⟨valid, -, answers⟩ := Except.bind_eq_ok_iff.mp answers
    split_ifs at answers
    cases answers
    cases installs
  · rw [TyposRefresh.refreshBase, if_neg offline, if_pos isLocal, refreshLocal]
    have tried := settle_cases faults (TyposRefresh.refreshLocal py call.file targets)
      fun _ _ => refreshLocal_kept
    rcases tried with ⟨same, sound⟩ | ⟨result, after, err, fails, planned, installs, broken⟩
    · rw [same]
      refine .plain ?_ fun result after answers => ?_
      · cases TyposRefresh.refreshLocal py call.file targets <;> rfl
      · exact sound result after (Except.mapError_eq_ok_iff.mp answers)
    · rw [broken, planned]
      refine .breaks fails rfl installs rfl fun result' answered => ?_
      cases answered
  · rw [TyposRefresh.refreshBase, if_neg offline, if_neg isLocal]
    exact refreshHttp_follows py faults call.source.text call.urlopen targets

/-- Where no write fails this is `refresh_base`, and an exception leaves the
files as they are. -/
theorem refreshBase_noFaults (py : WebPython) (call : Call) (targets : CacheTargets) :
    refreshBase py ⟨none, none⟩ call targets =
      answer targets (TyposRefresh.refreshBase py call targets) := by
  cases refreshBase_follows py ⟨none, none⟩ call targets with
  | plain same _ => exact same
  | breaks fails => exact absurd rfl fails

/-! ## Runs -/

/-- What comes of a call, with the files that it has replaced, whether or not it
came to say so. -/
structure Observed where
  outcome : Outcome
  replaced : Replaced

variable (py) in
/-- A call that would install replaces what its faults let it. -/
def replacedBy (targets : CacheTargets) (input : Call × Faults) : Replaced :=
  if (TyposRefresh.step py targets input.1).1.status = some .refreshed then input.2.replaced
  else ⟨false, false⟩

variable (py) in
/-- One call; the faults are those of its writes. -/
def observe (targets : CacheTargets) (input : Call × Faults) : Observed × CacheTargets :=
  let reply := refreshBase py input.2 input.1 targets
  (⟨⟨reply.1, reply.2.cache⟩, replacedBy py targets input⟩, reply.2)

abbrev Event := (Call × Faults) × Observed

variable (py) in
/-- The calls of a run and what came of them. -/
def events (cachePath : Str) (run : List (Call × Faults)) : List Event :=
  Mealy.trace (observe py) (.fresh cachePath) run

/-- The last call that has replaced both files. -/
def lastInstall (before : List Event) : Option TyposRefresh.Event :=
  ((before.filter fun event => event.2.replaced.metadata).getLast?).map fun event =>
    (event.1.1, event.2.outcome)

/-- What the last install put into the cache. -/
def installed (before : List Event) : Option Bytes :=
  (lastInstall before).bind fun install => install.2.cache

variable (py) in
/-- Beside the cache of the last install, the metadata would be right. -/
def Marked (before : List Event) (targets : CacheTargets) : Prop :=
  Recorded py (lastInstall before) { targets with cache := installed before }

theorem replacedBy_of_installs {input : Call × Faults} {result : RefreshResult}
    {after : CacheTargets} (planned : TyposRefresh.refreshBase py input.1 targets =
      .ok (result, after)) (installs : result.status = .refreshed) :
    replacedBy py targets input = input.2.replaced := by
  rw [replacedBy, step_of_ok planned]
  exact if_pos (congrArg some installs)

theorem replacedBy_of_idle {input : Call × Faults}
    (idle : ∀ result after, TyposRefresh.refreshBase py input.1 targets = .ok (result, after) →
      result.status ≠ .refreshed) : replacedBy py targets input = ⟨false, false⟩ := by
  refine if_neg fun refreshed => ?_
  obtain ⟨result, after, planned, installs⟩ := exists_of_status refreshed
  exact idle result after planned installs

theorem stale_of_status {answered : Except Failure RefreshResult} {cache : Option Bytes}
    {status : Status} (stale : ∀ result, answered = .ok result → result.status = .staleCache)
    (reported : Outcome.status ⟨answered, cache⟩ = some status) : status = .staleCache := by
  cases answered with
  | error failure => cases reported
  | ok result => exact (Option.some.inj reported).symm.trans (stale result rfl)

/-- What is installed comes from the authority of the call, and is recorded for
it. -/
theorem exists_installed {result : RefreshResult} {after : CacheTargets}
    (planned : TyposRefresh.refreshBase py call targets = .ok (result, after))
    (installs : result.status = .refreshed) (answered : Except Failure RefreshResult) :
    ∃ authority content, Installed py authority content (call, ⟨answered, after.cache⟩) ∧
      after.Records authority content := by
  rcases refreshBase_cases planned with new | ⟨-, status⟩
  · obtain ⟨-, authority, content, source, offers, dictionary, records⟩ := new
    exact ⟨authority, content, ⟨source, offers, dictionary, records.cache⟩, records⟩
  · simp [installs] at status

/-- A call replaces both files, and then has installed; or it leaves the metadata. -/
theorem observe_cases (py : WebPython) (targets : CacheTargets) (input : Call × Faults) :
    let observed := observe py targets input
    (observed.1.replaced = ⟨true, true⟩ ∧
      ∃ authority content, Installed py authority content (input.1, observed.1.outcome) ∧
        observed.2.Records authority content) ∨
    observed.1.replaced.metadata = false ∧
      ∃ cache, observed.2 = { targets with cache } ∧
        (observed.1.replaced.cache = false → cache = targets.cache) := by
  obtain ⟨call, faults⟩ := input
  unfold observe
  dsimp only
  cases refreshBase_follows py faults call targets with
  | plain same sound =>
      rw [same]
      cases planned : TyposRefresh.refreshBase py call targets with
      | error failure =>
          rw [replacedBy_of_idle fun result after answers => by cases planned.symm.trans answers]
          exact .inr ⟨rfl, targets.cache, rfl, fun _ => rfl⟩
      | ok reply =>
          obtain ⟨result, after⟩ := reply
          by_cases installs : result.status = .refreshed
          · obtain rfl := sound result after planned installs
            rw [replacedBy_of_installs planned installs]
            exact .inl ⟨rfl, exists_installed planned installs _⟩
          · have idle : ∀ result after, TyposRefresh.refreshBase py call targets =
                .ok (result, after) → result.status ≠ .refreshed := by
              intro result' after' answers
              cases planned.symm.trans answers
              exact installs
            obtain rfl : after = targets :=
              ((refreshBase_cases planned).resolve_left fun new => installs new.1).1
            rw [replacedBy_of_idle idle]
            exact .inr ⟨rfl, after.cache, rfl, fun _ => rfl⟩
  | @breaks result after _ planned installs files stale =>
      rw [replacedBy_of_installs planned installs, files]
      rcases persist_files faults targets after result with
        ⟨replaced, now⟩ | ⟨replaced, now⟩ | ⟨replaced, now⟩
      · rw [replaced, now]
        exact .inr ⟨rfl, targets.cache, rfl, fun _ => rfl⟩
      · rw [replaced, now]
        exact .inr ⟨rfl, after.cache, rfl, by rintro ⟨⟩⟩
      · rw [replaced, now]
        exact .inl ⟨rfl, exists_installed planned installs _⟩

theorem lastInstall_append (before : List Event) (event : Event) :
    lastInstall (before ++ [event]) =
      if event.2.replaced.metadata then some (event.1.1, event.2.outcome)
      else lastInstall before := by
  unfold lastInstall
  rw [List.filter_append, List.filter_singleton]
  cases event.2.replaced.metadata with
  | true => rw [cond_true, List.getLast?_concat, Option.map_some, if_pos rfl]
  | false => rw [cond_false, List.append_nil, if_neg Bool.false_ne_true]

theorem installed_append (before : List Event) (event : Event) :
    installed (before ++ [event]) =
      if event.2.replaced.metadata then event.2.outcome.cache else installed before := by
  unfold installed
  rw [lastInstall_append]
  split_ifs <;> rfl

theorem Marked.observe {before : List Event} (marked : Marked py before targets)
    (input : Call × Faults) :
    Marked py (before ++ [(input, (observe py targets input).1)])
      (observe py targets input).2 := by
  unfold Marked at marked ⊢
  rw [installed_append, lastInstall_append]
  rcases observe_cases py targets input with ⟨both, authority, content, new, records⟩ |
    ⟨kept, cache, files, -⟩
  · rw [both, if_pos rfl, if_pos rfl]
    exact ⟨authority, content, new, records⟩
  · rw [kept, if_neg Bool.false_ne_true, if_neg Bool.false_ne_true, files]
    exact marked

theorem installed_observe {before : List Event} (intact : targets.cache = installed before)
    {input : Call × Faults} (whole : (Faulty.observe py targets input).1.replaced.Whole) :
    (Faulty.observe py targets input).2.cache =
      installed (before ++ [(input, (Faulty.observe py targets input).1)]) := by
  rw [installed_append]
  rcases observe_cases py targets input with ⟨both, -⟩ | ⟨kept, cache, files, same⟩
  · rw [both]
    rfl
  · have untouched : (Faulty.observe py targets input).1.replaced.cache = false := by
      refine eq_false_of_ne_true fun new => ?_
      cases kept.symm.trans (whole new)
    rw [kept, if_neg Bool.false_ne_true, files]
    exact (same untouched).trans intact

theorem events_append (cachePath : Str) (run : List (Call × Faults)) (input : Call × Faults) :
    events py cachePath (run ++ [input]) = events py cachePath run ++
      [(input, (observe py (Mealy.final (observe py) (.fresh cachePath) run) input).1)] :=
  Mealy.trace_append (observe py) (.fresh cachePath) run [input]

theorem marked_run (py : WebPython) (cachePath : Str) (run : List (Call × Faults)) :
    Marked py (events py cachePath run) (Mealy.final (observe py) (.fresh cachePath) run) := by
  refine Mealy.final_invariant
    (fun front now => Marked py (events py cachePath front) now) rfl ?_
  intro front input back _ marked
  rw [events_append]
  exact marked.observe input

theorem installed_run (py : WebPython) (cachePath : Str) {run : List (Call × Faults)}
    (whole : ∀ event ∈ events py cachePath run, event.2.replaced.Whole) :
    (Mealy.final (observe py) (.fresh cachePath) run).cache =
      installed (events py cachePath run) := by
  revert whole
  refine Mealy.final_invariant (fun front (now : CacheTargets) =>
    (∀ event ∈ events py cachePath front, event.2.replaced.Whole) →
      now.cache = installed (events py cachePath front)) (fun _ => rfl) ?_
  intro front input back _ before whole
  rw [events_append] at whole ⊢
  rw [List.forall_mem_append, List.forall_mem_singleton] at whole
  exact installed_observe (before whole.1) whole.2

/-- A call that reports a current cache is one whose writes have not failed. -/
theorem observe_of_current {input : Call × Faults}
    (current : (observe py targets input).1.outcome.status = some .current) :
    (observe py targets input).1.outcome = (TyposRefresh.step py targets input.1).1 ∧
      (observe py targets input).1.outcome.cache = targets.cache := by
  unfold observe at current ⊢
  dsimp only at current ⊢
  cases refreshBase_follows py input.2 input.1 targets with
  | plain same sound =>
      rw [same] at current ⊢
      cases done : TyposRefresh.refreshBase py input.1 targets with
      | error failure =>
          rw [done] at current
          cases current
      | ok reply =>
          obtain ⟨result, after⟩ := reply
          rw [done] at current
          have current : result.status = .current := Option.some.inj current
          rcases TyposRefresh.refreshBase_cases done with ⟨refreshed, -⟩ | ⟨rfl, -⟩
          · rw [current] at refreshed
            cases refreshed
          · rw [step_of_ok done]
            exact ⟨rfl, rfl⟩
  | breaks _ _ _ _ stale => cases stale_of_status stale current

/-- Whatever writes have failed before, a call that reports a current cache is
right exactly if the metadata name its source and the cache is still what the
last install put there; and so it is where no call has replaced the cache without
the metadata. -/
theorem authority_exact (py : WebPython) (cachePath : Str) (run : List (Call × Faults)) :
    let now := Mealy.final (observe py) (.fresh cachePath) run
    let before := events py cachePath run
    (∀ input : Call × Faults, (observe py now input).1.outcome.status = some .current →
      (ReportsInstall py (lastInstall before) input.1 (observe py now input).1.outcome ↔
        KeepsAuthority py now input.1 ∧ now.cache = installed before)) ∧
    ((∀ event ∈ before, event.2.replaced.Whole) → now.cache = installed before) := by
  intro now before
  refine ⟨fun input current => ?_, installed_run py cachePath⟩
  obtain ⟨same, kept⟩ := observe_of_current current
  have recorded (intact : now.cache = installed before) :
      Recorded py (lastInstall before) now := by
    have marked : Marked py before now := marked_run py cachePath run
    rw [Marked, ← intact] at marked
    exact marked
  constructor
  · intro reports
    obtain ⟨authority, content, install, -, cached, last, put⟩ := reports current
    have intact : now.cache = installed before := by
      rw [← kept, cached, installed, last, Option.bind_some, put.cache]
    rw [same] at reports
    exact ⟨(reportsInstall_iff (recorded intact)).mp reports, intact⟩
  · rintro ⟨keeps, intact⟩
    rw [same]
    exact (reportsInstall_iff (recorded intact)).mpr keeps

/-! ### A disk that fills up between the writes -/

/-- The mirror has another dictionary, and no tags. -/
def mirrored : Call :=
  { fetch mirrorUrl tehText with
    urlopen := fun _ => .ok ⟨200, fun _ => none, .ok (asBytes tehText)⟩ }

/-- The dictionary of the estate is installed; that of the mirror replaces it, but
the metadata can not be written. -/
def tornRun : List (Call × Faults) :=
  [(fetch estateUrl organText, ⟨none, none⟩), (mirrored, fullDisk)]

/-- The estate says that nothing has changed, and the cache is the mirror's. -/
theorem authority_exact_of_torn :
    let now := Mealy.final (observe sampleWebPython) (.fresh []) tornRun
    let again := (observe sampleWebPython now (fetch estateUrl organText, ⟨none, none⟩)).1.outcome
    again.status = some .current ∧
      KeepsAuthority sampleWebPython now (fetch estateUrl organText) ∧
      ¬ReportsInstall sampleWebPython (lastInstall (events sampleWebPython [] tornRun))
        (fetch estateUrl organText) again := by
  intro now again
  have current : again.status = some .current := by
    decide +kernel
  refine ⟨current, by decide +kernel, fun reports => ?_⟩
  have intact := (((authority_exact sampleWebPython [] tornRun).1 _ current).mp reports).2
  revert intact
  decide +kernel

end Faulty

end Fingermouse.TyposRefresh
