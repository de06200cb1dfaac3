import Fingermouse.TyposRollout

/-!
# The cache of the shared spelling policy

`refresh_base` of `typos_rollout.py`: one cache and one metadata record, kept by
a refresh from a local file and by a refresh over HTTPS.  Reading and parsing of
what a call is given may fail; writing does not (for that see `TyposFaults`), and
nobody else writes.

* `refreshBase_cases`: what a call does to cache and metadata, and when it calls
  the cache current.
* `refreshHttp_of_unchanged`: an HTTPS source that says it has not changed is
  believed, whatever the metadata names.
-/

namespace Fingermouse.TyposRefresh

open Text TyposRollout

/-! ## Results -/

inductive Status where
  | current
  | refreshed
  | staleCache
  | offlineCache
deriving DecidableEq

structure RefreshResult where
  status : Status
  cache : Str
deriving DecidableEq

/-- What a call raises.  An `HTTPError` comes out of `urlopen` alone. -/
inductive Failure where
  | httpError (code : Int)
  | raised (error : PyError)
deriving DecidableEq

/-! ## Cache and metadata -/

/-- A value of the metadata; a boolean is an integer. -/
inductive Json where
  | null
  | integer (value : Int)
  | string (text : Str)
  | other
deriving DecidableEq

abbrev Metadata := AList fun _ : Str => Json

/-- The metadata file, a text. -/
inductive Sidecar where
  | missing
  | notJson
  | notObject
  | object (members : Metadata)

/-- The two files and the path of the first. -/
structure CacheTargets where
  cachePath : Str
  cache : Option Bytes
  metadata : Sidecar

/-- A checkout that has never been refreshed. -/
def CacheTargets.fresh (cachePath : Str) : CacheTargets := ⟨cachePath, none, .missing⟩

/-- `_read_metadata`. -/
def readMetadata : Sidecar → Metadata
  | .object members => members
  | _ => ∅

/-! ## Python's library -/

/-- A moment as `email.utils` reads it: with an offset to UTC, or without. -/
inductive Datetime where
  | naive (nanos : Int)
  | aware (nanos : Int)

/-- `<=`, which compares like with like only. -/
def Datetime.le : Datetime → Datetime → Except PyError Bool
  | .naive a, .naive b => .ok (a ≤ b)
  | .aware a, .aware b => .ok (a ≤ b)
  | _, _ => .error (.typeError "can't compare offset-naive and offset-aware datetimes".toList)

structure WebPython extends Python where
  parsedateToDatetime : Str → Except PyError Datetime
  /-- The checks of `urlsplit` on the network location. -/
  checkNetloc : Str → Except PyError Unit

def isSchemeChar (c : Char) : Bool := c.isAlphanum || c = '+' || c = '-' || c = '.'

/-- `urlsplit(url).scheme`. -/
def urlScheme (url : Str) : Str :=
  let url := (url.dropWhile fun c => c.toNat ≤ 0x20).filter fun c => c ∉ ['\t', '\r', '\n']
  let scheme := url.takeWhile (· ≠ ':')
  if ':' ∈ url ∧ scheme.head?.any Char.isAlpha ∧ scheme.all isSchemeChar then
    toAsciiLowercase scheme
  else []

/-- `a and b`, where `b` may raise. -/
def andAlso {ε : Type} (a : Bool) (b : Except ε Bool) : Except ε Bool :=
  if a then b else .ok false

theorem andAlso_eq_true_iff {ε : Type} {a : Bool} {b : Except ε Bool} :
    andAlso a b = .ok true ↔ a = true ∧ b = .ok true := by
  cases a <;> simp [andAlso]

/-! ## Calls -/

/-- A path as `resolve` answers it. -/
@[ext] structure AbsPath where
  text : Str
  rooted : text.head? = some '/'
deriving DecidableEq

/-- What a call finds of its source, should it look there. -/
structure LocalFile where
  mtimeNs : Except PyError Int
  resolve : Except PyError AbsPath
  readBytes : Except PyError Bytes

structure Request where
  url : Str
  headers : List (Str × Str)

structure RemoteResponse where
  status : Int
  headers : Str → Option Str
  read : Except PyError Bytes

/-- The `source` argument: a `pathlib.Path` or a `str`. -/
inductive Source where
  | path (text : Str)
  | str (text : Str)

/-- `isinstance(source, pathlib.Path) or "://" not in str(source)`. -/
def Source.isLocal : Source → Bool
  | .path _ => true
  | .str text => ¬"://".toList <:+: text

def Source.text : Source → Str
  | .path text | .str text => text

/-- A call of `refresh_base` with what the file system and the network answer
it. -/
structure Call where
  source : Source
  offline : Bool
  file : LocalFile
  urlopen : Request → Except Failure RemoteResponse

section

variable (py : WebPython)

/-! ## Checks of the cache -/

/-- `_valid_cache`. -/
def validCache (targets : CacheTargets) : Except PyError Bool :=
  match loadDictionary py.toPython
      (targets.cache.elim (.error (.fileNotFoundError targets.cachePath)) .ok) with
  | .ok _ => .ok true
  | .error err => if err.isOSError || err.isTypeOrValueError then .ok false else .error err

/-- `_remote_is_not_newer`. -/
def remoteIsNotNewer (saved : Metadata) (headers : Str → Option Str) : Except PyError Bool :=
  if (headers "ETag".toList).any fun etag => saved.lookup "etag".toList = some (.string etag) then
    .ok true
  else
    match headers "Last-Modified".toList, saved.lookup "last_modified".toList with
    | some modified, some (.string savedModified) =>
        let compared := do
          let moment ← py.parsedateToDatetime modified
          let savedMoment ← py.parsedateToDatetime savedModified
          moment.le savedMoment
        match compared with
        | .ok older => .ok older
        | .error err =>
            if err.isTypeOrValueError then .ok (modified = savedModified) else .error err
    | _, _ => .ok false

/-- `_local_cache_is_current`. -/
def localCacheIsCurrent (targets : CacheTargets) (saved : Metadata) (sourceName : Str)
    (sourceMtimeNs : Int) : Except PyError Bool := do
  let hasMatchingSource : Bool := saved.lookup "source".toList = some (.string sourceName)
  let hasNewEnoughMtime : Bool :=
    match saved.lookup "mtime_ns".toList with
    | some (.integer savedMtime) => sourceMtimeNs ≤ savedMtime
    | _ => false
  let valid ← validCache py targets
  return valid && hasMatchingSource && hasNewEnoughMtime

/-! ## Refreshing

An exception is raised before anything is written. -/

/-- `_refresh_local`. -/
def refreshLocal (file : LocalFile) (targets : CacheTargets) :
    Except PyError (RefreshResult × CacheTargets) := do
  let sourceMtimeNs ← file.mtimeNs
  let sourceName ← file.resolve
  let saved := readMetadata targets.metadata
  let current ← localCacheIsCurrent py targets saved sourceName.text sourceMtimeNs
  if current then
    return (⟨.current, targets.cachePath⟩, targets)
  else
    let content ← file.readBytes
    let text ← decode content
    let _ ← dictionaryFromText py.toPython text
    let metadata : Metadata := .ofPairs
      [("source".toList, .string sourceName.text), ("mtime_ns".toList, .integer sourceMtimeNs)]
    return (⟨.refreshed, targets.cachePath⟩,
      { targets with cache := some content, metadata := .object metadata })

/-- `_conditional_headers`. -/
def conditionalHeaders (saved : Metadata) : List (Str × Str) :=
  (match saved.lookup "etag".toList with
    | some (.string etag) => [("If-None-Match".toList, etag)]
    | _ => []) ++
  match saved.lookup "last_modified".toList with
    | some (.string lastModified) => [("If-Modified-Since".toList, lastModified)]
    | _ => []

/-- `_https_request`. -/
def httpsRequest (source : Str) (headers : List (Str × Str)) : Except PyError Request := do
  py.checkNetloc source
  if urlScheme source ≠ "https".toList then
    .error (.valueError ("shared dictionary URL must use HTTPS: ".toList ++ source))
  else return ⟨source, headers⟩

/-- `json.dumps` of a header. -/
def headerJson (header : Option Str) : Json := header.elim .null .string

/-- `_write_remote_cache`. -/
def writeRemoteCache (source : Str) (targets : CacheTargets) (content : Bytes)
    (headers : Str → Option Str) : Except PyError (RefreshResult × CacheTargets) := do
  let text ← decode content
  let _ ← dictionaryFromText py.toPython text
  let metadata : Metadata := .ofPairs
    [("source".toList, .string source), ("etag".toList, headerJson (headers "ETag".toList)),
      ("last_modified".toList, headerJson (headers "Last-Modified".toList))]
  return (⟨.refreshed, targets.cachePath⟩,
    { targets with cache := some content, metadata := .object metadata })

/-- `_remote_response_result`. -/
def remoteResponseResult (source : Str) (targets : CacheTargets) (saved : Metadata)
    (response : RemoteResponse) : Except PyError (RefreshResult × CacheTargets) := do
  -- Neither test asks which source the metadata names.
  let unmodified ← andAlso (response.status = 304) (validCache py targets)
  if unmodified then
    return (⟨.current, targets.cachePath⟩, targets)
  else
    let valid ← validCache py targets
    let notNewer ← andAlso valid (remoteIsNotNewer py saved response.headers)
    if notNewer then
      return (⟨.current, targets.cachePath⟩, targets)
    else
      let content ← response.read
      writeRemoteCache py source targets content response.headers

/-- `_stale_cache_or_raise`. -/
def staleCacheOrRaise (targets : CacheTargets) (failure : Failure) :
    Except Failure (RefreshResult × CacheTargets) := do
  let valid ← (validCache py targets).mapError .raised
  if valid then return (⟨.staleCache, targets.cachePath⟩, targets) else .error failure

/-- `_http_error_result`. -/
def httpErrorResult (targets : CacheTargets) (code : Int) :
    Except Failure (RefreshResult × CacheTargets) := do
  let unmodified ← andAlso (code = 304) ((validCache py targets).mapError .raised)
  if unmodified then return (⟨.current, targets.cachePath⟩, targets)
  else staleCacheOrRaise py targets (.httpError code)

/-- The `except` clauses of `_refresh_http`. -/
def exceptClauses (targets : CacheTargets) : Failure → Except Failure (RefreshResult × CacheTargets)
  | .httpError code => httpErrorResult py targets code
  | .raised err =>
      if err.isOSError then staleCacheOrRaise py targets (.raised err) else .error (.raised err)

/-- `_refresh_http`. -/
def refreshHttp (source : Str) (urlopen : Request → Except Failure RemoteResponse)
    (targets : CacheTargets) : Except Failure (RefreshResult × CacheTargets) := do
  let saved := readMetadata targets.metadata
  let request ← (httpsRequest py source (conditionalHeaders saved)).mapError .raised
  let attempt := do
    let response ← urlopen request
    (remoteResponseResult py source targets saved response).mapError .raised
  match attempt with
  | .ok done => .ok done
  | .error failure => exceptClauses py targets failure

/-- `refresh_base`. -/
def refreshBase (call : Call) (targets : CacheTargets) :
    Except Failure (RefreshResult × CacheTargets) := do
  if call.offline then
    let valid ← (validCache py targets).mapError .raised
    if valid then return (⟨.offlineCache, targets.cachePath⟩, targets)
    else .error (.raised (.fileNotFoundError
      ("no cached shared dictionary at ".toList ++ targets.cachePath)))
  else if call.source.isLocal then (refreshLocal py call.file targets).mapError .raised
  else refreshHttp py call.source.text call.urlopen targets

end

/-! ## Authorities -/

inductive Authority where
  | file (path : AbsPath)
  | url (text : Str)
deriving DecidableEq

/-- What the metadata calls an authority. -/
def Authority.name : Authority → Str
  | .file path => path.text
  | .url text => text

/-- The authority of a call; a source that does not resolve has none. -/
def Call.authority (call : Call) : Option Authority :=
  if call.source.isLocal then call.file.resolve.toOption.map .file
  else some (.url call.source.text)

/-- A refresh would install the content. -/
def IsDictionary (py : Python) (content : Bytes) : Prop :=
  ∃ text dictionary, decode content = .ok text ∧ dictionaryFromText py text = .ok dictionary

/-- The network answers a request for the URL with the content. -/
def Delivers (url : Str) (urlopen : Request → Except Failure RemoteResponse)
    (content : Bytes) : Prop :=
  ∃ request response, request.url = url ∧ urlopen request = .ok response ∧
    response.read = .ok content

/-- The content is what the source of the call holds. -/
def Call.Offers (call : Call) (content : Bytes) : Prop :=
  if call.source.isLocal then call.file.readBytes = .ok content
  else Delivers call.source.text call.urlopen content

/-- The metadata is that of an install from the file. -/
def NamesFile (saved : Metadata) (path : AbsPath) : Prop :=
  saved.lookup "source".toList = some (.string path.text) ∧
    ∃ nanos, saved.lookup "mtime_ns".toList = some (.integer nanos)

/-- The cache holds the content, and the metadata names the authority. -/
structure CacheTargets.Records (targets : CacheTargets) (authority : Authority)
    (content : Bytes) : Prop where
  cache : targets.cache = some content
  source : (readMetadata targets.metadata).lookup "source".toList = some (.string authority.name)
  /-- Only a file has its time recorded. -/
  mtime : ∀ nanos, (readMetadata targets.metadata).lookup "mtime_ns".toList =
    some (.integer nanos) → ∃ path, authority = .file path

theorem urlScheme_of_rooted (path : AbsPath) : urlScheme path.text ≠ "https".toList := by
  obtain ⟨text, rooted⟩ := path
  obtain ⟨rest, rfl⟩ := List.head?_eq_some_iff.mp rooted
  have slash : (List.dropWhile (fun c : Char => c.toNat ≤ 0x20) ('/' :: rest)) = '/' :: rest :=
    List.dropWhile_cons_of_neg (by decide)
  have kept : ('/' :: rest).filter (fun c => c ∉ ['\t', '\r', '\n']) =
      '/' :: rest.filter (fun c => c ∉ ['\t', '\r', '\n']) :=
    List.filter_cons_of_pos (by decide)
  simp only [urlScheme, slash, kept]
  rw [List.takeWhile_cons_of_pos (by decide), if_neg]
  · decide
  · intro scheme
    have letter : Char.isAlpha '/' = true := scheme.2.1
    exact absurd letter (by decide)

/-- A file is never called by a name that passes for an HTTPS URL. -/
theorem Authority.name_eq_iff {authority : Authority} {url : Str}
    (https : urlScheme url = "https".toList) : authority.name = url ↔ authority = .url url := by
  cases authority with
  | file path =>
      simp only [Authority.name, reduceCtorEq, iff_false]
      intro same
      exact urlScheme_of_rooted path (same ▸ https)
  | url text => simp only [Authority.name, Authority.url.injEq]

/-! ## What a refresh does -/

variable {py : WebPython} {targets after : CacheTargets} {result : RefreshResult}

theorem localCacheIsCurrent_eq_true {saved : Metadata} {path : AbsPath} {sourceMtimeNs : Int}
    (current : localCacheIsCurrent py targets saved path.text sourceMtimeNs = .ok true) :
    validCache py targets = .ok true ∧ NamesFile saved path := by
  obtain ⟨valid, checked, current⟩ := Except.bind_eq_ok_iff.mp current
  simp only [Except.pure_eq_ok_iff, Bool.and_eq_true, decide_eq_true_eq] at current
  obtain ⟨⟨rfl, source⟩, mtime⟩ := current
  refine ⟨checked, source, ?_⟩
  split at mtime
  · exact ⟨_, by assumption⟩
  · cases mtime

/-- A local refresh keeps a cache that is recorded for the file, or installs
the file. -/
theorem refreshLocal_cases {file : LocalFile}
    (done : refreshLocal py file targets = .ok (result, after)) :
    ∃ path, file.resolve = .ok path ∧
      (result.status = .current ∧ after = targets ∧ validCache py targets = .ok true ∧
        NamesFile (readMetadata targets.metadata) path ∨
      result.status = .refreshed ∧ ∃ content, file.readBytes = .ok content ∧
        IsDictionary py.toPython content ∧ after.Records (.file path) content) := by
  obtain ⟨mtimeNs, -, done⟩ := Except.bind_eq_ok_iff.mp done
  obtain ⟨path, resolved, done⟩ := Except.bind_eq_ok_iff.mp done
  obtain ⟨current, checked, done⟩ := Except.bind_eq_ok_iff.mp done
  refine ⟨path, resolved, ?_⟩
  cases current with
  | true =>
      cases done
      exact .inl ⟨rfl, rfl, localCacheIsCurrent_eq_true checked⟩
  | false =>
      obtain ⟨content, read, done⟩ := Except.bind_eq_ok_iff.mp done
      obtain ⟨text, decoded, done⟩ := Except.bind_eq_ok_iff.mp done
      obtain ⟨dictionary, parsed, done⟩ := Except.bind_eq_ok_iff.mp done
      cases done
      exact .inr ⟨rfl, content, read, ⟨text, dictionary, decoded, parsed⟩, rfl, rfl,
        fun _ _ => ⟨path, rfl⟩⟩

theorem writeRemoteCache_cases {source : Str} {content : Bytes} {headers : Str → Option Str}
    (done : writeRemoteCache py source targets content headers = .ok (result, after)) :
    result.status = .refreshed ∧ IsDictionary py.toPython content ∧
      after.Records (.url source) content := by
  obtain ⟨text, decoded, done⟩ := Except.bind_eq_ok_iff.mp done
  obtain ⟨dictionary, parsed, done⟩ := Except.bind_eq_ok_iff.mp done
  cases done
  refine ⟨rfl, ⟨text, dictionary, decoded, parsed⟩, rfl, rfl, fun nanos recorded => ?_⟩
  have unrecorded : (AList.ofPairs [("source".toList, Json.string source),
      ("etag".toList, headerJson (headers "ETag".toList)),
      ("last_modified".toList, headerJson (headers "Last-Modified".toList))]).lookup
        "mtime_ns".toList = none := rfl
  cases unrecorded.symm.trans recorded

variable (py) in
/-- The answer is a 304, or no newer by its validators. -/
def saysUnchanged (saved : Metadata) : Except Failure RemoteResponse → Bool
  | .ok response =>
      response.status = 304 ∨ remoteIsNotNewer py saved response.headers = .ok true
  | .error (.httpError code) => code = 304
  | .error (.raised _) => false

theorem remoteResponseResult_cases {source : Str} {saved : Metadata} {response : RemoteResponse}
    (done : remoteResponseResult py source targets saved response = .ok (result, after)) :
    result.status = .current ∧ after = targets ∧ validCache py targets = .ok true ∧
        saysUnchanged py saved (.ok response) = true ∨
      result.status = .refreshed ∧ ∃ content, response.read = .ok content ∧
        IsDictionary py.toPython content ∧ after.Records (.url source) content := by
  obtain ⟨unmodified, checked, done⟩ := Except.bind_eq_ok_iff.mp done
  cases unmodified with
  | true =>
      cases done
      obtain ⟨notModified, valid⟩ := andAlso_eq_true_iff.mp checked
      exact .inl ⟨rfl, rfl, valid, decide_eq_true (.inl (of_decide_eq_true notModified))⟩
  | false =>
      obtain ⟨valid, checked, done⟩ := Except.bind_eq_ok_iff.mp done
      obtain ⟨notNewer, compared, done⟩ := Except.bind_eq_ok_iff.mp done
      cases notNewer with
      | true =>
          cases done
          obtain ⟨rfl, notNewer⟩ := andAlso_eq_true_iff.mp compared
          exact .inl ⟨rfl, rfl, checked, decide_eq_true (.inr notNewer)⟩
      | false =>
          obtain ⟨content, read, done⟩ := Except.bind_eq_ok_iff.mp done
          obtain ⟨refreshed, written⟩ := writeRemoteCache_cases done
          exact .inr ⟨refreshed, content, read, written⟩

theorem remoteResponseResult_of_unchanged {source : Str} {saved : Metadata}
    {response : RemoteResponse} (valid : validCache py targets = .ok true)
    (unchanged : saysUnchanged py saved (.ok response) = true) :
    remoteResponseResult py source targets saved response =
      .ok (⟨.current, targets.cachePath⟩, targets) := by
  unfold remoteResponseResult
  rw [valid]
  by_cases notModified : response.status = 304
  · rw [decide_eq_true notModified]
    rfl
  · have notNewer := (of_decide_eq_true unchanged).resolve_left notModified
    rw [decide_eq_false notModified, notNewer]
    rfl

theorem staleCacheOrRaise_cases {failure : Failure}
    (done : staleCacheOrRaise py targets failure = .ok (result, after)) :
    after = targets ∧ result.status = .staleCache := by
  obtain ⟨valid, -, done⟩ := Except.bind_eq_ok_iff.mp done
  split_ifs at done
  cases done
  exact ⟨rfl, rfl⟩

/-- Where a download fails, the cache stays; it is called current after a 304
only. -/
theorem exceptClauses_cases {failure : Failure}
    (done : exceptClauses py targets failure = .ok (result, after)) :
    after = targets ∧ (result.status = .staleCache ∨
      result.status = .current ∧ validCache py targets = .ok true ∧
        failure = .httpError 304) := by
  cases failure with
  | httpError code =>
      unfold exceptClauses httpErrorResult at done
      obtain ⟨unmodified, checked, done⟩ := Except.bind_eq_ok_iff.mp done
      cases unmodified with
      | true =>
          cases done
          obtain ⟨notModified, valid⟩ := andAlso_eq_true_iff.mp checked
          exact ⟨rfl, .inr ⟨rfl, Except.mapError_eq_ok_iff.mp valid,
            congrArg _ (of_decide_eq_true notModified)⟩⟩
      | false =>
          obtain ⟨same, stale⟩ := staleCacheOrRaise_cases done
          exact ⟨same, .inl stale⟩
  | raised err =>
      simp only [exceptClauses] at done
      split_ifs at done
      obtain ⟨same, stale⟩ := staleCacheOrRaise_cases done
      exact ⟨same, .inl stale⟩

theorem exceptClauses_of_notModified (valid : validCache py targets = .ok true) :
    exceptClauses py targets (.httpError 304) =
      .ok (⟨.current, targets.cachePath⟩, targets) := by
  unfold exceptClauses httpErrorResult
  rw [valid]
  rfl

/-- A request asks for the source of the call, over HTTPS. -/
theorem request_of_httpsRequest {source : Str} {headers : List (Str × Str)} {request : Request}
    (asked : httpsRequest py source headers = .ok request) :
    request.url = source ∧ urlScheme source = "https".toList := by
  obtain ⟨-, -, asked⟩ := Except.bind_eq_ok_iff.mp asked
  split_ifs at asked with https
  cases asked
  exact ⟨rfl, not_not.mp https⟩

variable (py) in
/-- The cache is valid, and the source answers that it has not changed. -/
def Unchanged (targets : CacheTargets) (source : Str)
    (urlopen : Request → Except Failure RemoteResponse) : Prop :=
  validCache py targets = .ok true ∧
    ∃ request, httpsRequest py source (conditionalHeaders (readMetadata targets.metadata)) =
        .ok request ∧
      saysUnchanged py (readMetadata targets.metadata) (urlopen request) = true

/-- A refresh over HTTPS keeps a cache that is unchanged or stale, or installs
the answer. -/
theorem refreshHttp_cases {source : Str} {urlopen : Request → Except Failure RemoteResponse}
    (done : refreshHttp py source urlopen targets = .ok (result, after)) :
    after = targets ∧ (result.status = .staleCache ∨
        result.status = .current ∧ Unchanged py targets source urlopen) ∨
      result.status = .refreshed ∧ ∃ content, Delivers source urlopen content ∧
        IsDictionary py.toPython content ∧ after.Records (.url source) content := by
  obtain ⟨request, asked, done⟩ := Except.bind_eq_ok_iff.mp done
  rw [Except.mapError_eq_ok_iff] at asked
  dsimp only at done
  cases opened : urlopen request with
  | error failure =>
      rw [opened] at done
      change exceptClauses py targets failure = _ at done
      obtain ⟨same, stale | ⟨current, valid, rfl⟩⟩ := exceptClauses_cases done
      · exact .inl ⟨same, .inl stale⟩
      · exact .inl ⟨same, .inr ⟨current, valid, request, asked, by rw [opened]; rfl⟩⟩
  | ok response =>
      rw [opened] at done
      cases answered : remoteResponseResult py source targets (readMetadata targets.metadata)
          response with
      | ok answer =>
          have same : (.ok answer : Except Failure _) = .ok (result, after) := by
            rw [← done]
            simp only [bind, Except.bind, answered, Except.mapError]
          cases same
          rcases remoteResponseResult_cases answered with ⟨current, same, valid, unchanged⟩ | new
          · exact .inl ⟨same, .inr ⟨current, valid, request, asked, by rwa [opened]⟩⟩
          · obtain ⟨refreshed, content, read, written⟩ := new
            exact .inr ⟨refreshed, content,
              ⟨request, response, (request_of_httpsRequest asked).1, opened, read⟩, written⟩
      | error err =>
          simp only [bind, Except.bind, answered, Except.mapError] at done
          obtain ⟨same, stale | ⟨-, -, raised⟩⟩ := exceptClauses_cases done
          · exact .inl ⟨same, .inl stale⟩
          · cases raised

theorem refreshHttp_of_unchanged {source : Str}
    {urlopen : Request → Except Failure RemoteResponse}
    (unchanged : Unchanged py targets source urlopen) :
    refreshHttp py source urlopen targets = .ok (⟨.current, targets.cachePath⟩, targets) := by
  obtain ⟨valid, request, asked, unchanged⟩ := unchanged
  simp only [refreshHttp, asked, Except.mapError, bind, Except.bind]
  cases opened : urlopen request with
  | error failure =>
      rw [opened] at unchanged
      cases failure with
      | httpError code =>
          obtain rfl : code = 304 := of_decide_eq_true unchanged
          exact exceptClauses_of_notModified valid
      | raised err => cases unchanged
  | ok response =>
      rw [opened] at unchanged
      simp only [remoteResponseResult_of_unchanged valid unchanged]

theorem cache_of_validCache (valid : validCache py targets = .ok true) : targets.cache ≠ none := by
  intro absent
  rw [validCache, absent] at valid
  cases valid

variable {call : Call}

/-- A call installs what its authority holds, or leaves cache and metadata as
they are. -/
theorem refreshBase_cases (done : refreshBase py call targets = .ok (result, after)) :
    (result.status = .refreshed ∧
      ∃ authority content, call.authority = some authority ∧ call.Offers content ∧
        IsDictionary py.toPython content ∧ after.Records authority content) ∨
    after = targets ∧ (result.status = .staleCache ∨ result.status = .offlineCache ∨
      result.status = .current ∧ validCache py targets = .ok true ∧
        ((∃ path, call.authority = some (.file path) ∧
          NamesFile (readMetadata targets.metadata) path) ∨
        call.offline = false ∧ call.source.isLocal = false ∧
          Unchanged py targets call.source.text call.urlopen)) := by
  unfold refreshBase at done
  split_ifs at done with offline isLocal
  · obtain ⟨valid, -, done⟩ := Except.bind_eq_ok_iff.mp done
    split_ifs at done
    cases done
    exact .inr ⟨rfl, .inr (.inl rfl)⟩
  · rw [Except.mapError_eq_ok_iff] at done
    obtain ⟨path, resolved, answer⟩ := refreshLocal_cases done
    have file : call.authority = some (.file path) := by
      rw [Call.authority, if_pos isLocal, resolved]
      rfl
    rcases answer with kept | new
    · obtain ⟨current, same, valid, recorded⟩ := kept
      exact .inr ⟨same, .inr (.inr ⟨current, valid, .inl ⟨path, file, recorded⟩⟩)⟩
    · obtain ⟨refreshed, content, read, written⟩ := new
      have offers : call.Offers content := by
        rwa [Call.Offers, if_pos isLocal]
      exact .inl ⟨refreshed, .file path, content, file, offers, written⟩
  · have remote : call.authority = some (.url call.source.text) := if_neg isLocal
    rcases refreshHttp_cases done with ⟨same, stale | ⟨current, unchanged⟩⟩ | new
    · exact .inr ⟨same, .inl stale⟩
    · exact .inr ⟨same, .inr (.inr ⟨current, unchanged.1, .inr
        ⟨eq_false_of_ne_true offline, eq_false_of_ne_true isLocal, unchanged⟩⟩)⟩
    · obtain ⟨refreshed, content, delivers, written⟩ := new
      have offers : call.Offers content := by
        rwa [Call.Offers, if_neg isLocal]
      exact .inl ⟨refreshed, .url call.source.text, content, remote, offers, written⟩

end Fingermouse.TyposRefresh
