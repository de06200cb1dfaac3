import Fingermouse.AtomicWrite
import Fingermouse.TyposAuthority

/-!
# Refreshing when writes fail

`refresh_base` of `typos_rollout.py` where each of the two atomic writes of an
install may raise, before or after it has replaced its file, or be the last that
the process comes to.  What a call has written stays.

* `files_of_writes`: a schedule of the system calls of the two writes comes to
  what the faults here say.
* `cache_survives`: in any run the cache holds a whole dictionary that some call
  was offered, and is not lost.
* `cache_answers`: once there is a cache, neither a network nor a disk that
  fails makes a refresh over HTTPS raise.
-/

namespace Fingermouse.TyposRefresh

open Text TyposRollout

/-- What a call of `_atomic_write` raises, with the file as it was or replaced:
`unlink` may raise after `replace`. -/
inductive WriteFault where
  | kept (err : PyError)
  | replaced (err : PyError)

def WriteFault.err : WriteFault → PyError
  | kept err | replaced err => err

/-- How the two writes of an install fail. -/
structure Faults where
  cache : Option WriteFault
  metadata : Option WriteFault

/-- `isinstance(error, OSError)`, which an `HTTPError` is. -/
def Failure.isOSError : Failure → Bool
  | .httpError _ => true
  | .raised err => err.isOSError

/-- The libraries raise no `OSError` for the text that they are given. -/
structure Documented (py : WebPython) : Prop where
  /-- Line ends are line feeds to a document, or CRLF. -/
  newlines : ∀ text document, py.tomlLoads text = .ok document →
    py.tomlLoads (universalNewlines text) = .ok document
  tomlLoads : ∀ text err, py.tomlLoads text = .error err → err.isOSError = false
  parsedate : ∀ text err, py.parsedateToDatetime text = .error err → err.isOSError = false
  checkNetloc : ∀ url err, py.checkNetloc url = .error err → err.isOSError = false

/-- Network and writes fail with an `OSError`. -/
structure FailsPlainly (call : Call) (faults : Faults) : Prop where
  urlopen : ∀ request failure, call.urlopen request = .error failure → failure.isOSError = true
  read : ∀ request response err, call.urlopen request = .ok response →
    response.read = .error err → err.isOSError = true
  cache : ∀ fault ∈ faults.cache, fault.err.isOSError = true
  metadata : ∀ fault ∈ faults.metadata, fault.err.isOSError = true

/-- `_atomic_write`, with the files before it and after its `replace`. -/
def atomicWrite {α : Type} (fault : Option WriteFault) (before after : α) :
    Except PyError Unit × α :=
  match fault with
  | none => (.ok (), after)
  | some (.kept err) => (.error err, before)
  | some (.replaced err) => (.error err, after)

/-- The files that a call has replaced. -/
structure Replaced where
  cache : Bool
  metadata : Bool
deriving DecidableEq

/-- The file is replaced, whatever the write then raises. -/
def WriteFault.replaces : Option WriteFault → Bool
  | some (.kept _) => false
  | _ => true

/-- The files that an install replaces; a cache that raises keeps it from the
metadata. -/
def Faults.replaced (faults : Faults) : Replaced where
  cache := WriteFault.replaces faults.cache
  metadata := faults.cache.isNone && WriteFault.replaces faults.metadata

namespace Faulty

/-- `_atomic_write` of the cache, then `_write_metadata`. -/
def persist (faults : Faults) (targets after : CacheTargets) (result : RefreshResult) :
    Except PyError RefreshResult × CacheTargets :=
  match atomicWrite faults.cache targets { targets with cache := after.cache } with
  | (.error err, now) => (.error err, now)
  | (.ok _, now) =>
      match atomicWrite faults.metadata now after with
      | (.error err, now) => (.error err, now)
      | (.ok _, now) => (.ok result, now)

/-- What comes of a refresh that, up to here, would end so. -/
def settle (faults : Faults) (targets : CacheTargets) :
    Except PyError (RefreshResult × CacheTargets) → Except PyError RefreshResult × CacheTargets
  | .error err => (.error err, targets)
  | .ok (result, after) =>
      if result.status = .refreshed then persist faults targets after result
      else (.ok result, targets)

section

variable (py : WebPython) (faults : Faults)

/-- `_refresh_local`. -/
def refreshLocal (file : LocalFile) (targets : CacheTargets) :
    Except PyError RefreshResult × CacheTargets :=
  settle faults targets (TyposRefresh.refreshLocal py file targets)

/-- `_remote_response_result`. -/
def remoteResponseResult (source : Str) (targets : CacheTargets) (saved : Metadata)
    (response : RemoteResponse) : Except PyError RefreshResult × CacheTargets :=
  settle faults targets (TyposRefresh.remoteResponseResult py source targets saved response)

/-- The `try` block of `_refresh_http`. -/
def attempt (source : Str) (targets : CacheTargets) (saved : Metadata) :
    Except Failure RemoteResponse → Except Failure RefreshResult × CacheTargets
  | .error failure => (.error failure, targets)
  | .ok response =>
      let answer := remoteResponseResult py faults source targets saved response
      (answer.1.mapError .raised, answer.2)

/-- `_refresh_http`.  The `except` clauses meet the files as the `try` block has
left them. -/
def refreshHttp (source : Str) (urlopen : Request → Except Failure RemoteResponse)
    (targets : CacheTargets) : Except Failure RefreshResult × CacheTargets :=
  let saved := readMetadata targets.metadata
  match httpsRequest py source (conditionalHeaders saved) with
  | .error err => (.error (.raised err), targets)
  | .ok request =>
      match attempt py faults source targets saved (urlopen request) with
      | (.ok result, now) => (.ok result, now)
      | (.error failure, now) => ((exceptClauses py now failure).map Prod.fst, now)

/-- `refresh_base`. -/
def refreshBase (call : Call) (targets : CacheTargets) :
    Except Failure RefreshResult × CacheTargets :=
  if call.offline then ((TyposRefresh.refreshBase py call targets).map Prod.fst, targets)
  else if call.source.isLocal then
    let answer := refreshLocal py faults call.file targets
    (answer.1.mapError .raised, answer.2)
  else refreshHttp py faults call.source.text call.urlopen targets

end

variable {py : WebPython} {faults : Faults} {targets : CacheTargets}

/-- The files after an install: as they were, with a new cache only, or new. -/
theorem persist_files (faults : Faults) (targets after : CacheTargets) (result : RefreshResult) :
    let now := (persist faults targets after result).2
    faults.replaced = ⟨false, false⟩ ∧ now = targets ∨
      faults.replaced = ⟨true, false⟩ ∧ now = { targets with cache := after.cache } ∨
      faults.replaced = ⟨true, true⟩ ∧ now = after := by
  obtain ⟨cache, metadata⟩ := faults
  cases cache with
  | some fault =>
      cases fault with
      | kept err => exact .inl ⟨rfl, rfl⟩
      | replaced err => exact .inr (.inl ⟨rfl, rfl⟩)
  | none =>
      cases metadata with
      | some fault =>
          cases fault with
          | kept err => exact .inr (.inl ⟨rfl, rfl⟩)
          | replaced err => exact .inr (.inr ⟨rfl, rfl⟩)
      | none => exact .inr (.inr ⟨rfl, rfl⟩)

/-- An install reports its result, or raises what one of its writes does. -/
theorem persist_answer (faults : Faults) (targets after : CacheTargets) (result : RefreshResult) :
    let answer := (persist faults targets after result).1
    (faults = ⟨none, none⟩ ∧ answer = .ok result) ∨
      ∃ fault, (fault ∈ faults.cache ∨ fault ∈ faults.metadata) ∧ answer = .error fault.err := by
  obtain ⟨cache, metadata⟩ := faults
  cases cache with
  | some fault =>
      refine .inr ⟨fault, .inl rfl, ?_⟩
      cases fault <;> rfl
  | none =>
      cases metadata with
      | some fault =>
          refine .inr ⟨fault, .inr rfl, ?_⟩
          cases fault <;> rfl
      | none => exact .inl ⟨rfl, rfl⟩

/-! ## The system calls of an install -/

section Writes

open TyposRolloutCache (System)

/-- However the system calls of the two writes are interleaved with those for other
files, and wherever they raise or their process dies, the two files end as an
install with some faults leaves them; and it answers exactly if `_write_metadata`
has returned.  What the metadata file holds is given by `text`. -/
theorem files_of_writes (targets after : CacheTargets) (result : RefreshResult) (metadataPath : Str)
    (text : Sidecar → Option Bytes) (d : Directory Str UInt8)
    (schedule : List TyposRolloutCache.Action)
    (apart : Mealy.AllSteps System.step System.Apart ⟨d, []⟩ schedule)
    (plain : .drew targets.cachePath ∉ System.history d schedule)
    (plain' : .drew metadataPath ∉ System.history d schedule)
    (before : d.read targets.cachePath = targets.cache)
    (before' : d.read metadataPath = text targets.metadata)
    (cacheCalls : ∀ w ∈ (System.after d schedule).writers, w.name = targets.cachePath →
      some w.content = after.cache)
    (metadataCalls : ∀ w ∈ (System.after d schedule).writers, w.name = metadataPath →
      some w.content = text after.metadata)
    (ordered : ∀ w ∈ (System.after d schedule).writers, w.name = metadataPath →
      ∃ v ∈ (System.after d schedule).writers, v.name = targets.cachePath ∧ v.stage = .returned) :
    ∃ faults, let reply := persist faults targets after result
      (System.after d schedule).directory.read targets.cachePath = reply.2.cache ∧
        (System.after d schedule).directory.read metadataPath = text reply.2.metadata ∧
        (reply.1 = .ok result ↔ ∃ w ∈ (System.after d schedule).writers,
          w.name = metadataPath ∧ w.stage = .returned) := by
  have published : ∀ w ∈ (System.after d schedule).writers, w.stage = .returned →
      .published w.name w.content ∈ System.history d schedule := by
    intro w listed returned
    exact System.published_of_replaced schedule w listed (by rw [returned]; rfl)
  rw [System.read_after apart plain, System.read_after apart plain', before, before']
  rcases System.contents_cases metadataPath (text targets.metadata)
      (System.history d schedule) with ⟨unpublished', same'⟩ | ⟨content', published', same'⟩
  · -- No metadata: no call for them has returned.
    have running : ¬∃ w ∈ (System.after d schedule).writers,
        w.name = metadataPath ∧ w.stage = .returned := by
      rintro ⟨w, listed, named, returned⟩
      exact unpublished' w.content (named ▸ published w listed returned)
    rcases System.contents_cases targets.cachePath targets.cache
        (System.history d schedule) with ⟨-, same⟩ | ⟨content, publishes, same⟩
    · exact ⟨⟨some (.kept (.other [])), none⟩, same, same',
        iff_of_false (by rintro ⟨⟩) running⟩
    · obtain ⟨w, listed, named, rfl⟩ := System.exists_of_published schedule publishes
      exact ⟨⟨none, some (.kept (.other []))⟩, same.trans (cacheCalls w listed named), same',
        iff_of_false (by rintro ⟨⟩) running⟩
  · obtain ⟨w, listed, named, rfl⟩ := System.exists_of_published schedule published'
    obtain ⟨v, listed', named', returned⟩ := ordered w listed named
    have cached : .published targets.cachePath v.content ∈ System.history d schedule :=
      named' ▸ published v listed' returned
    rcases System.contents_cases targets.cachePath targets.cache
        (System.history d schedule) with ⟨unpublished, -⟩ | ⟨content, publishes, same⟩
    · exact absurd cached (unpublished v.content)
    · obtain ⟨u, listed'', named'', rfl⟩ := System.exists_of_published schedule publishes
      have files := And.intro (same.trans (cacheCalls u listed'' named''))
        (same'.trans (metadataCalls w listed named))
      by_cases answers : ∃ w ∈ (System.after d schedule).writers,
          w.name = metadataPath ∧ w.stage = .returned
      · exact ⟨⟨none, none⟩, files.1, files.2, iff_of_true rfl answers⟩
      · exact ⟨⟨none, some (.replaced (.other []))⟩, files.1, files.2,
          iff_of_false (by rintro ⟨⟩) answers⟩

def metadataName : Str := "base.json".toList

/-- What two metadata files hold: there is none, or it is an object. -/
def sampleText : Sidecar → Option Bytes
  | .object _ => some [0x7b, 0x7d]
  | _ => none

/-- The cache is written; the metadata are too, but their temporary file cannot be
unlinked. -/
def lateFailure (cachePath : Str) : List TyposRolloutCache.Action :=
  [.call cachePath [0x31], .move 0 (.turn "a".toList 0), .move 0 (.turn [] 0),
    .move 0 (.turn [] 0), .move 0 (.turn [] 0), .move 0 (.turn [] 0),
    .call metadataName [0x7b, 0x7d], .move 1 (.turn "b".toList 0), .move 1 (.turn [] 1),
    .move 1 (.turn [] 0), .move 1 (.turn [] 0), .move 1 .fail]

theorem files_of_writes_of_lateFailure :
    let fresh := CacheTargets.fresh "base.toml".toList
    let after : CacheTargets := ⟨fresh.cachePath, some [0x31], .object ∅⟩
    let result : RefreshResult := ⟨.refreshed, fresh.cachePath⟩
    ∃ faults, (persist faults fresh after result).2.cache = some [0x31] ∧
      sampleText (persist faults fresh after result).2.metadata = some [0x7b, 0x7d] ∧
      (persist faults fresh after result).1 ≠ .ok result := by
  intro fresh after result
  obtain ⟨faults, cache, metadata, answers⟩ := files_of_writes fresh after result metadataName
    sampleText System.vacant (lateFailure fresh.cachePath) (by decide) (by decide) (by decide) rfl
    rfl (by decide) (by decide) (by decide)
  exact ⟨faults, cache.symm.trans (by decide), metadata.symm.trans (by decide),
    fun answered => absurd (answers.mp answered) (by decide)⟩

end Writes

/-! ## The cache -/

/-- The files are as they were, or the cache is new. -/
def Brings (p : Bytes → Prop) (targets now : CacheTargets) : Prop :=
  now = targets ∨ ∃ content, p content ∧ now.cache = some content

theorem settle_brings {p : Bytes → Prop} {done : Except PyError (RefreshResult × CacheTargets)}
    (installs : ∀ result after, done = .ok (result, after) → result.status = .refreshed →
      ∃ content, p content ∧ after.cache = some content) :
    Brings p targets (settle faults targets done).2 := by
  cases done with
  | error err => exact .inl rfl
  | ok reply =>
      obtain ⟨result, after⟩ := reply
      simp only [settle]
      split_ifs with refreshed
      · obtain ⟨content, held, cached⟩ := installs result after rfl refreshed
        rcases persist_files faults targets after result with ⟨-, now⟩ | ⟨-, now⟩ | ⟨-, now⟩
        · exact .inl now
        · exact .inr ⟨content, held, by rw [now, cached]⟩
        · exact .inr ⟨content, held, by rw [now, cached]⟩
      · exact .inl rfl

/-- Whatever a call comes to, the cache is as it was, or holds a dictionary that
the call was offered. -/
theorem refreshBase_brings (py : WebPython) (faults : Faults) (call : Call)
    (targets : CacheTargets) :
    Brings (fun content => IsDictionary py.toPython content ∧ call.Offers content) targets
      (refreshBase py faults call targets).2 := by
  unfold refreshBase
  split_ifs with offline isLocal
  · exact .inl rfl
  · refine settle_brings fun result after done refreshed => ?_
    obtain ⟨path, -, ⟨current, -⟩ | ⟨-, content, read, dictionary, records⟩⟩ :=
      refreshLocal_cases done
    · rw [refreshed] at current
      cases current
    · refine ⟨content, ⟨dictionary, ?_⟩, records.cache⟩
      rwa [Call.Offers, if_pos isLocal]
  · unfold refreshHttp
    dsimp only
    cases asked : httpsRequest py call.source.text
        (conditionalHeaders (readMetadata targets.metadata)) with
    | error err => exact .inl rfl
    | ok request =>
        have tried : Brings (fun content => IsDictionary py.toPython content ∧ call.Offers content)
            targets (attempt py faults call.source.text targets (readMetadata targets.metadata)
              (call.urlopen request)).2 := by
          cases opened : call.urlopen request with
          | error failure => exact .inl rfl
          | ok response =>
              refine settle_brings fun result after done refreshed => ?_
              rcases remoteResponseResult_cases done with
                ⟨current, -⟩ | ⟨-, content, read, dictionary, records⟩
              · rw [refreshed] at current
                cases current
              · refine ⟨content, ⟨dictionary, ?_⟩, records.cache⟩
                rw [Call.Offers, if_neg isLocal]
                exact ⟨request, response, (request_of_httpsRequest asked).1, opened, read⟩
        dsimp only
        generalize attempt py faults call.source.text targets (readMetadata targets.metadata)
          (call.urlopen request) = reply at tried
        obtain ⟨_ | _, now⟩ := reply
        · exact tried
        · exact tried

/-! ## Runs -/

variable (py) in
/-- One call; the faults are those of its writes. -/
def step (targets : CacheTargets) (input : Call × Faults) :
    Except Failure RefreshResult × CacheTargets :=
  refreshBase py input.2 input.1 targets

/-- What is in the cache is a whole dictionary that some call was offered. -/
theorem cache_of_run (cachePath : Str) (run : List (Call × Faults)) :
    ∀ content, (Mealy.final (step py) (.fresh cachePath) run).cache = some content →
      IsDictionary py.toPython content ∧ ∃ input ∈ run, input.1.Offers content := by
  refine Mealy.final_invariant (fun (front : List (Call × Faults)) (now : CacheTargets) =>
    ∀ content, now.cache = some content →
      IsDictionary py.toPython content ∧ ∃ input ∈ front, input.1.Offers content) ?_ ?_
  · intro content cached
    cases cached
  · intro front input back _ before content cached
    rcases refreshBase_brings py input.2 input.1
      (Mealy.final (step py) (.fresh cachePath) front) with same | ⟨content', held, new⟩
    · rw [step, same] at cached
      obtain ⟨dictionary, other, earlier, offers⟩ := before content cached
      exact ⟨dictionary, other, List.mem_append_left _ earlier, offers⟩
    · obtain rfl := Option.some.inj (new.symm.trans cached)
      exact ⟨held.1, input, List.mem_append_right _ (List.mem_singleton_self _), held.2⟩

/-- A cache stays. -/
theorem cache_kept (run : List (Call × Faults)) (cached : targets.cache ≠ none) :
    (Mealy.final (step py) targets run).cache ≠ none := by
  refine Mealy.final_invariant (fun _ (now : CacheTargets) => now.cache ≠ none) cached ?_
  intro front input back _ before
  rcases refreshBase_brings py input.2 input.1 (Mealy.final (step py) targets front) with
    same | ⟨content, -, new⟩
  · rw [step, same]
    exact before
  · rw [step, new]
    exact Option.some_ne_none content

/-- In any run, wherever writes fail: what is in the cache is a whole dictionary
that some call was offered, and a cache once written is never lost. -/
theorem cache_survives (py : WebPython) (cachePath : Str) (run : List (Call × Faults)) :
    (∀ content, (Mealy.final (step py) (.fresh cachePath) run).cache = some content →
      IsDictionary py.toPython content ∧ ∃ input ∈ run, input.1.Offers content) ∧
    ∀ front back, run = front ++ back →
      (Mealy.final (step py) (.fresh cachePath) front).cache ≠ none →
      (Mealy.final (step py) (.fresh cachePath) run).cache ≠ none := by
  refine ⟨cache_of_run cachePath run, fun front back split cached => ?_⟩
  rw [split, Mealy.final_append]
  exact cache_kept back cached

/-! ## A failing network -/

theorem validCache_of_isDictionary (documented : Documented py) {content : Bytes}
    (cached : targets.cache = some content) (dictionary : IsDictionary py.toPython content) :
    validCache py targets = .ok true := by
  obtain ⟨text, parsed, decoded, loaded⟩ := dictionary
  obtain ⟨document, document', rest⟩ := Except.bind_eq_ok_iff.mp loaded
  have reads : loadDictionary py.toPython (.ok content) = .ok parsed := by
    simp only [loadDictionary, bind, Except.bind, decoded]
    rw [dictionaryFromText, documented.newlines text document document']
    exact rest
  simp only [validCache, cached, Option.elim_some, reads]

/-- The chain fails with no `OSError`. -/
def Unrelated {α : Type} (x : Except PyError α) : Prop :=
  ∀ err, x = .error err → err.isOSError = false

theorem Unrelated.bind {α β : Type} {x : Except PyError α} {f : α → Except PyError β}
    (first : Unrelated x) (rest : ∀ a, Unrelated (f a)) : Unrelated (x >>= f) := by
  intro err failed
  rcases Except.bind_eq_error_iff.mp failed with atFirst | ⟨a, -, later⟩
  · exact first err atFirst
  · exact rest a err later

theorem unrelated_stringList (py : Python) (table : Dict Object) (key : Str) :
    Unrelated (stringList py table key) := by
  intro err failed
  unfold stringList at failed
  dsimp only at failed
  split at failed
  · split_ifs at failed
    cases failed
    rfl
  · cases failed
    rfl

theorem unrelated_table (py : Python) (document : Dict Object) (key : Str) :
    Unrelated (table py document key) := by
  intro err failed
  unfold table at failed
  split at failed
  · cases failed
  · cases failed
    rfl

theorem unrelated_stringItems (table : Dict Object) : Unrelated (stringItems table) := by
  intro err failed
  unfold stringItems at failed
  split_ifs at failed
  cases failed
  rfl

/-- A text that is no dictionary is told so by other exceptions. -/
theorem unrelated_dictionaryFromText (documented : Documented py) (text : Str) :
    Unrelated (dictionaryFromText py.toPython text) := by
  refine .bind (documented.tomlLoads text) fun document => ?_
  dsimp only
  split_ifs
  · intro err failed
    cases failed
    rfl
  · exact .bind (unrelated_table _ _ _) fun _ => .bind (unrelated_table _ _ _) fun _ =>
      .bind (unrelated_table _ _ _) fun _ => .bind (unrelated_table _ _ _) fun _ =>
      .bind (unrelated_table _ _ _) fun _ => .bind (unrelated_stringItems _) fun _ =>
      .bind (unrelated_stringList _ _ _) fun _ => .bind (unrelated_stringList _ _ _) fun _ =>
      .bind (unrelated_stringList _ _ _) fun _ => .bind (unrelated_stringList _ _ _) fun _ =>
      nofun

theorem unrelated_decode (content : Bytes) : Unrelated (decode content) := by
  intro err failed
  unfold decode at failed
  cases decoded : fromUtf8 content with
  | none =>
      rw [decoded] at failed
      cases failed
      rfl
  | some text =>
      rw [decoded] at failed
      cases failed

/-- With a valid cache an `OSError` is answered by the cache. -/
theorem exceptClauses_of_osError (valid : validCache py targets = .ok true) {failure : Failure}
    (os : failure.isOSError = true) :
    ∃ result, exceptClauses py targets failure = .ok (result, targets) := by
  cases failure with
  | httpError code =>
      simp only [exceptClauses, httpErrorResult, staleCacheOrRaise, valid]
      by_cases notModified : code = 304
      · rw [decide_eq_true notModified]
        exact ⟨_, rfl⟩
      · rw [decide_eq_false notModified]
        exact ⟨_, rfl⟩
  | raised err =>
      have os : err.isOSError = true := os
      rw [exceptClauses, if_pos os, staleCacheOrRaise, valid]
      exact ⟨_, rfl⟩

theorem unrelated_remoteIsNotNewer (documented : Documented py) (saved : Metadata)
    (headers : Str → Option Str) : Unrelated (remoteIsNotNewer py saved headers) := by
  intro err failed
  unfold remoteIsNotNewer at failed
  split_ifs at failed
  split at failed
  · rename_i modified savedModified _ _
    dsimp only at failed
    split at failed
    · cases failed
    · rename_i err' compared
      split_ifs at failed
      obtain rfl := Except.error.inj failed
      rcases Except.bind_eq_error_iff.mp compared with date | ⟨moment, -, compared⟩
      · exact documented.parsedate _ err' date
      · rcases Except.bind_eq_error_iff.mp compared with date | ⟨savedMoment, -, compared⟩
        · exact documented.parsedate _ err' date
        · cases moment <;> cases savedMoment <;> cases compared <;> rfl
  · cases failed

variable (py) in
/-- The answer is no 304, and its dates make `_remote_is_not_newer` raise, or it
is newer and what is read of it is no dictionary. -/
def Spoils (saved : Metadata) (response : RemoteResponse) : Prop :=
  response.status ≠ 304 ∧
    ((∃ err, remoteIsNotNewer py saved response.headers = .error err) ∨
      remoteIsNotNewer py saved response.headers = .ok false ∧
        ∃ content, response.read = .ok content ∧ ¬IsDictionary py.toPython content)

/-- With a valid cache, the dates of an answer are compared. -/
theorem remoteResponseResult_of_modified (valid : validCache py targets = .ok true) (source : Str)
    {saved : Metadata} {response : RemoteResponse} (modified : response.status ≠ 304) :
    TyposRefresh.remoteResponseResult py source targets saved response =
      remoteIsNotNewer py saved response.headers >>= fun notNewer =>
        if notNewer then .ok (⟨.current, targets.cachePath⟩, targets)
        else response.read >>= fun content =>
          writeRemoteCache py source targets content response.headers := by
  unfold TyposRefresh.remoteResponseResult
  rw [valid, decide_eq_false modified]
  rfl

/-- The write of a dictionary leaves a valid cache, and fails only as the disk
does. -/
theorem settle_of_dictionary (documented : Documented py)
    (valid : validCache py targets = .ok true) {call : Call} (plain : FailsPlainly call faults)
    {content : Bytes} (dictionary : IsDictionary py.toPython content) (source : Str)
    (headers : Str → Option Str) :
    let reply := settle faults targets (writeRemoteCache py source targets content headers)
    validCache py reply.2 = .ok true ∧ ∀ err, reply.1 = .error err → err.isOSError = true := by
  intro reply
  have written : ∃ metadata, writeRemoteCache py source targets content headers =
      .ok (⟨.refreshed, targets.cachePath⟩, { targets with cache := some content, metadata }) := by
    obtain ⟨text, parsed, decoded, loaded⟩ := dictionary
    simp only [writeRemoteCache, decoded, loaded, bind, Except.bind]
    exact ⟨_, rfl⟩
  obtain ⟨metadata, written⟩ := written
  have persists : reply = persist faults targets
      { targets with cache := some content, metadata } ⟨.refreshed, targets.cachePath⟩ := by
    simp only [reply, written, settle, if_true]
  rw [persists]
  constructor
  · rcases persist_files faults targets { targets with cache := some content, metadata }
      ⟨.refreshed, targets.cachePath⟩ with ⟨-, now⟩ | ⟨-, now⟩ | ⟨-, now⟩
    · rw [now]
      exact valid
    · rw [now]
      exact validCache_of_isDictionary documented rfl dictionary
    · rw [now]
      exact validCache_of_isDictionary documented rfl dictionary
  · intro err raised
    rcases persist_answer faults targets { targets with cache := some content, metadata }
      ⟨.refreshed, targets.cachePath⟩ with ⟨-, answered⟩ | ⟨fault, broken, answered⟩
    · cases answered.symm.trans raised
    · obtain rfl := Except.error.inj (answered.symm.trans raised)
      exact broken.elim (plain.cache fault) (plain.metadata fault)

/-- What is no dictionary is not written. -/
theorem writeRemoteCache_of_not (documented : Documented py) {content : Bytes}
    (other : ¬IsDictionary py.toPython content) (source : Str) (targets : CacheTargets)
    (headers : Str → Option Str) :
    ∃ err, writeRemoteCache py source targets content headers = .error err ∧
      err.isOSError = false := by
  cases written : writeRemoteCache py source targets content headers with
  | ok reply => exact absurd (writeRemoteCache_cases written).2.1 other
  | error err =>
      refine ⟨err, rfl, ?_⟩
      rcases Except.bind_eq_error_iff.mp written with undecoded | ⟨text, -, written⟩
      · exact unrelated_decode content err undecoded
      · rcases Except.bind_eq_error_iff.mp written with unparsed | ⟨parsed, -, written⟩
        · exact unrelated_dictionaryFromText documented text err unparsed
        · cases written

/-- A reply that answers or fails with an `OSError`, and leaves a valid cache. -/
def Recoverable {α ε : Type} (py : WebPython) (isOSError : ε → Bool)
    (reply : Except ε α × CacheTargets) : Prop :=
  validCache py reply.2 = .ok true ∧ ∀ err, reply.1 = .error err → isOSError err = true

/-- With a valid cache, an answer of the network makes the refresh fail otherwise
than with an `OSError` exactly if it spoils it. -/
theorem remoteResponseResult_recoverable (documented : Documented py)
    (valid : validCache py targets = .ok true) {call : Call} (plain : FailsPlainly call faults)
    {request : Request} {response : RemoteResponse} (opened : call.urlopen request = .ok response)
    (source : Str) (saved : Metadata) :
    let reply := remoteResponseResult py faults source targets saved response
    Recoverable py PyError.isOSError reply ∧ ¬Spoils py saved response ∨
      (∃ err, reply.1 = .error err ∧ err.isOSError = false) ∧ Spoils py saved response := by
  intro reply
  by_cases notModified : response.status = 304
  · left
    have unchanged : saysUnchanged py saved (.ok response) = true :=
      decide_eq_true (.inl notModified)
    have current : reply = (.ok ⟨.current, targets.cachePath⟩, targets) := by
      simp only [reply, remoteResponseResult, remoteResponseResult_of_unchanged valid unchanged]
      rfl
    rw [current]
    exact ⟨⟨valid, nofun⟩, fun spoils => spoils.1 notModified⟩
  have settled : reply = settle faults targets
      (TyposRefresh.remoteResponseResult py source targets saved response) := rfl
  rw [settled, remoteResponseResult_of_modified valid source notModified]
  cases compared : remoteIsNotNewer py saved response.headers with
  | error err =>
      exact .inr ⟨⟨err, rfl, unrelated_remoteIsNotNewer documented saved response.headers err
        compared⟩, notModified, .inl ⟨err, compared⟩⟩
  | ok notNewer =>
      cases notNewer with
      | true =>
          refine .inl ⟨⟨valid, nofun⟩, ?_⟩
          rintro ⟨-, ⟨err, failed⟩ | ⟨newer, -⟩⟩
          · cases compared.symm.trans failed
          · cases compared.symm.trans newer
      | false =>
          cases read : response.read with
          | error err =>
              refine .inl ⟨⟨valid, fun err' same => ?_⟩, ?_⟩
              · obtain rfl := Except.error.inj same
                exact plain.read request response err opened read
              · rintro ⟨-, ⟨err', failed⟩ | ⟨-, content, read', -⟩⟩
                · cases compared.symm.trans failed
                · cases read.symm.trans read'
          | ok content =>
              by_cases dictionary : IsDictionary py.toPython content
              · refine .inl ⟨settle_of_dictionary documented valid plain dictionary source
                  response.headers, ?_⟩
                rintro ⟨-, ⟨err', failed⟩ | ⟨-, content', read', other⟩⟩
                · cases compared.symm.trans failed
                · cases read.symm.trans read'
                  exact other dictionary
              · obtain ⟨err, refused, unrelated⟩ :=
                  writeRemoteCache_of_not documented dictionary source targets response.headers
                refine .inr ⟨⟨err, ?_, unrelated⟩, notModified,
                  .inr ⟨compared, content, read, dictionary⟩⟩
                simp only [bind, Except.bind, refused, settle, Bool.false_eq_true, if_false]

/-- The same of the `try` block. -/
theorem attempt_cases (documented : Documented py) (valid : validCache py targets = .ok true)
    {call : Call} (plain : FailsPlainly call faults) (request : Request) (source : Str)
    (saved : Metadata) :
    let reply := attempt py faults source targets saved (call.urlopen request)
    let spoiled := ∃ response, call.urlopen request = .ok response ∧ Spoils py saved response
    Recoverable py Failure.isOSError reply ∧ ¬spoiled ∨
      (∃ err, reply.1 = .error (.raised err) ∧ err.isOSError = false) ∧ spoiled := by
  intro reply spoiled
  cases opened : call.urlopen request with
  | error failure =>
      left
      have failed : reply = (.error failure, targets) := by
        simp only [reply, opened, attempt]
      rw [failed]
      refine ⟨⟨valid, fun failure' same => ?_⟩, ?_⟩
      · obtain rfl := Except.error.inj same
        exact plain.urlopen request failure opened
      · rintro ⟨response, opened', -⟩
        cases opened.symm.trans opened'
  | ok response =>
      have answers : reply =
          ((remoteResponseResult py faults source targets saved response).1.mapError .raised,
            (remoteResponseResult py faults source targets saved response).2) := by
        simp only [reply, opened, attempt]
      have same : spoiled ↔ Spoils py saved response := by
        constructor
        · rintro ⟨response', opened', spoils⟩
          cases opened.symm.trans opened'
          exact spoils
        · exact fun spoils => ⟨response, opened, spoils⟩
      rw [answers, same]
      rcases remoteResponseResult_recoverable documented valid plain opened source saved with
        ⟨⟨valid', plainly⟩, unspoiled⟩ | ⟨⟨err, raised, unrelated⟩, spoils⟩
      · refine .inl ⟨⟨valid', fun failure failed => ?_⟩, unspoiled⟩
        obtain ⟨err, raised, rfl⟩ := Except.mapError_eq_error_iff.mp failed
        exact plainly err raised
      · exact .inr ⟨⟨err, Except.mapError_eq_error_iff.mpr ⟨err, raised, rfl⟩, unrelated⟩, spoils⟩

/-- The `except` clauses, with a valid cache: nothing is raised, unless the answer
spoils the refresh. -/
theorem refreshHttp_of_asked (documented : Documented py) (valid : validCache py targets = .ok true)
    {call : Call} (plain : FailsPlainly call faults) {request : Request} {source : Str}
    (asked : httpsRequest py source (conditionalHeaders (readMetadata targets.metadata)) =
      .ok request) :
    let reply := refreshHttp py faults source call.urlopen targets
    let spoiled := ∃ response, call.urlopen request = .ok response ∧
      Spoils py (readMetadata targets.metadata) response
    (∃ result, reply.1 = .ok result) ∧ ¬spoiled ∨
      (∃ err, reply.1 = .error (.raised err) ∧ err.isOSError = false) ∧ spoiled := by
  intro reply spoiled
  have replies : reply =
      match attempt py faults source targets (readMetadata targets.metadata)
          (call.urlopen request) with
      | (.ok result, now) => (.ok result, now)
      | (.error failure, now) => ((exceptClauses py now failure).map Prod.fst, now) := by
    simp only [reply, refreshHttp, asked]
  rw [replies]
  have tried := attempt_cases documented valid plain request source
    (readMetadata targets.metadata)
  dsimp only at tried
  generalize attempt py faults source targets (readMetadata targets.metadata)
    (call.urlopen request) = attempted at tried ⊢
  obtain ⟨answer, now⟩ := attempted
  rcases tried with ⟨⟨valid', plainly⟩, unspoiled⟩ | ⟨⟨err, raised, unrelated⟩, spoils⟩
  · refine .inl ⟨?_, unspoiled⟩
    cases answer with
    | ok result => exact ⟨result, rfl⟩
    | error failure =>
        obtain ⟨result, answered⟩ := exceptClauses_of_osError valid' (plainly failure rfl)
        exact ⟨result, congrArg (Except.map Prod.fst) answered⟩
  · refine .inr ⟨⟨err, ?_, unrelated⟩, spoils⟩
    dsimp only at raised
    rw [raised]
    simp only [exceptClauses, unrelated, Bool.false_eq_true, if_false]
    rfl

theorem refreshBase_of_offline (valid : validCache py targets = .ok true) {call : Call}
    (offline : call.offline = true) :
    refreshBase py faults call targets = (.ok ⟨.offlineCache, targets.cachePath⟩, targets) := by
  simp only [refreshBase, if_pos offline, TyposRefresh.refreshBase, valid]
  rfl

theorem refreshBase_of_remote {call : Call} (online : call.offline = false)
    (remote : call.source.isLocal = false) :
    refreshBase py faults call targets =
      refreshHttp py faults call.source.text call.urlopen targets := by
  simp only [refreshBase, online, remote, Bool.false_eq_true, if_false]

/-- With a valid cache no `OSError` comes out of a refresh, but for a local one. -/
theorem unrelated_refreshBase (documented : Documented py)
    (valid : validCache py targets = .ok true) {call : Call} (plain : FailsPlainly call faults)
    (remote : call.source.isLocal = false) {failure : Failure}
    (raises : (refreshBase py faults call targets).1 = .error failure) :
    failure.isOSError = false := by
  cases offline : call.offline with
  | true =>
      rw [refreshBase_of_offline valid offline] at raises
      cases raises
  | false =>
      rw [refreshBase_of_remote offline remote] at raises
      cases asked : httpsRequest py call.source.text
          (conditionalHeaders (readMetadata targets.metadata)) with
      | error err =>
          simp only [refreshHttp, asked] at raises
          cases raises
          rcases Except.bind_eq_error_iff.mp asked with netloc | ⟨-, -, scheme⟩
          · exact documented.checkNetloc _ err netloc
          · split_ifs at scheme
            · cases scheme
              rfl
            · cases scheme
      | ok request =>
          rcases refreshHttp_of_asked documented valid plain asked with
            ⟨⟨result, answered⟩, -⟩ | ⟨⟨err, raised, unrelated⟩, -⟩
          · cases answered.symm.trans raises
          · cases raised.symm.trans raises
            exact unrelated

theorem validCache_of_run (documented : Documented py) {cachePath : Str}
    {run : List (Call × Faults)}
    (cached : (Mealy.final (step py) (.fresh cachePath) run).cache ≠ none) :
    validCache py (Mealy.final (step py) (.fresh cachePath) run) = .ok true := by
  obtain ⟨content, held⟩ := Option.ne_none_iff_exists'.mp cached
  exact validCache_of_isDictionary documented held (cache_of_run cachePath run content held).1

/-- Once there is a cache, a refresh works offline; and over HTTPS, however
network and disk fail, it raises exactly where the answer spoils it. -/
theorem cache_answers (py : WebPython) (documented : Documented py) (cachePath : Str)
    (run : List (Call × Faults)) (call : Call) (faults : Faults)
    (plain : FailsPlainly call faults) :
    let now := Mealy.final (step py) (.fresh cachePath) run
    now.cache ≠ none →
      (call.offline = true →
        refreshBase py faults call now = (.ok ⟨.offlineCache, now.cachePath⟩, now)) ∧
      (call.offline = false → call.source.isLocal = false →
        ∀ request, httpsRequest py call.source.text
            (conditionalHeaders (readMetadata now.metadata)) = .ok request →
          ((∃ failure, (refreshBase py faults call now).1 = .error failure) ↔
            ∃ response, call.urlopen request = .ok response ∧
              Spoils py (readMetadata now.metadata) response)) := by
  intro now cached
  have valid : validCache py now = .ok true := validCache_of_run documented cached
  refine ⟨refreshBase_of_offline valid, fun online remote request asked => ?_⟩
  rw [refreshBase_of_remote online remote]
  rcases refreshHttp_of_asked documented valid plain asked with
    ⟨⟨result, answered⟩, unspoiled⟩ | ⟨⟨err, raised, -⟩, spoils⟩
  · refine ⟨fun raises => ?_, fun spoils => absurd spoils unspoiled⟩
    obtain ⟨failure, raised⟩ := raises
    cases answered.symm.trans raised
  · exact ⟨fun _ => spoils, fun _ => ⟨_, raised⟩⟩

/-! ### A disk that fills up -/

theorem documented_sample : Documented sampleWebPython where
  newlines text document loaded := by
    simp only [sampleWebPython, samplePython] at loaded ⊢
    split_ifs at loaded with organ teh
    · rw [organ, if_pos (by decide +kernel)]
      exact loaded
    · rw [teh, if_neg (by decide +kernel), if_pos (by decide +kernel)]
      exact loaded
  tomlLoads text err failed := by
    simp only [sampleWebPython, samplePython] at failed
    split_ifs at failed
    cases failed
    rfl
  parsedate text err failed := by
    cases failed
    rfl
  checkNetloc url err failed := by
    cases failed

/-- There is no network. -/
def isolated : Call :=
  { fetch estateUrl organText with urlopen := fun _ => .error (.raised (.osError [])) }

theorem failsPlainly_isolated : FailsPlainly isolated ⟨none, none⟩ where
  urlopen _ _ failed := by
    cases failed
    rfl
  read _ _ _ opened := by cases opened
  cache _ broken := by cases broken
  metadata _ broken := by cases broken

/-- The metadata is not written. -/
def fullDisk : Faults := ⟨none, some (.kept (.osError "No space left".toList))⟩

/-- The cache is written and its metadata is not; after that the network is
gone. -/
theorem cache_answers_of_full_disk :
    ¬∃ failure, (refreshBase sampleWebPython ⟨none, none⟩ isolated
      (Mealy.final (step sampleWebPython) (.fresh [])
        [(fetch estateUrl organText, fullDisk)])).1 =
        .error failure := by
  intro raises
  obtain ⟨response, opened, -⟩ :=
    ((cache_answers sampleWebPython documented_sample []
      [(fetch estateUrl organText, fullDisk)] isolated
      ⟨none, none⟩ failsPlainly_isolated (by decide +kernel)).2 rfl (by decide +kernel) _
      rfl).mp raises
  cases opened

end Faulty

end Fingermouse.TyposRefresh
