import Fingermouse.User

/-!
# The user repository

Profiles and plans are objects of a store, one of each for a username, under
two configured prefixes.  The store is a parameter, and so is the encoding the
store's paths apply to a segment; of the latter `PathLaws` records what is
documented.

* `loadUser_eq_ok_iff`: a record is loaded exactly from a readable, valid
  profile and, where asked for, a plan that is absent or text.
* `profilePath_new` and `planPath_new`: the objects of a user are the files named
  after the user right under the prefixes.
* `loadUser_congr`: loading a user reads no other object.
-/

namespace Fingermouse

open Text

/-! ## Object store -/

/-- An object path: its encoded segments. -/
structure Path where
  segments : List Str
deriving DecidableEq

/-- `Path::from`: split at slashes, drop empty segments, encode the rest. -/
def Path.ofStr (encodePart : Str → Str) (raw : Str) : Path :=
  ⟨((raw.splitOn '/').filter (!·.isEmpty)).map encodePart⟩

/-- `[a-z0-9_.-]`: characters that no path encoding touches. -/
def isPathChar (c : Char) : Bool := (isUsernameChar c && c.toLower == c) || c == '.'

/-- What is documented of the segment encoding: it leaves plain segments alone,
but for the two that navigate. -/
structure PathLaws (encodePart : Str → Str) : Prop where
  plain : ∀ segment, (∀ c ∈ segment, isPathChar c = true) → segment ≠ ['.'] →
    segment ≠ ['.', '.'] → encodePart segment = segment

theorem pathLaws_id : PathLaws id := ⟨fun _ _ _ _ => rfl⟩

inductive ObjectStoreError
  | notFound
  | other (message : Str)
deriving DecidableEq

/-- The result of a `get`, whose content is read in a second call. -/
structure GetResult where
  bytes : Except ObjectStoreError Bytes

structure ObjectStore where
  get : Path → Except ObjectStoreError GetResult

/-! ## Repository -/

/-- Errors that may arise when retrieving user data from the backing store. -/
inductive RepositoryError
  | notFound
  | parse (err : ProfileError)
  | invalidPlanEncoding
  | storage (source : ObjectStoreError)

/-- The error of a profile that could not be fetched. -/
def RepositoryError.ofFetch : ObjectStoreError → RepositoryError
  | .notFound => .notFound
  | err => .storage err

/-- Compound user record containing the parsed profile and optional plan. -/
structure UserRecord where
  profile : FingerProfile
  plan : Option Str

/-- A source of finger user records. -/
structure UserStore where
  loadUser : Username → Bool → Except RepositoryError UserRecord

/-- The user store backed by an object store. -/
structure ObjectStoreUserStore where
  store : ObjectStore
  profilePrefix : Str
  planPrefix : Str

def trimSlashes (input : Str) : Str := trimMatches (· == '/') input

namespace ObjectStoreUserStore

/-- Create a new repository rooted at the provided object store prefixes. -/
def new (store : ObjectStore) (profilePrefix planPrefix : Str) : ObjectStoreUserStore :=
  ⟨store, trimSlashes profilePrefix, trimSlashes planPrefix⟩

section Loading

variable (encodePart : Str → Str) (fromStr : Str → Except Toml.Error Toml.Document)

def join (pathPrefix file : Str) : Path :=
  if pathPrefix.isEmpty then .ofStr encodePart file
  else .ofStr encodePart (pathPrefix ++ '/' :: file)

def profilePath (repo : ObjectStoreUserStore) (username : Username) : Path :=
  join encodePart repo.profilePrefix (username.text ++ ".toml".toList)

def planPath (repo : ObjectStoreUserStore) (username : Username) : Path :=
  join encodePart repo.planPrefix (username.text ++ ".plan".toList)

def fetchBytes (repo : ObjectStoreUserStore) (path : Path) : Except ObjectStoreError Bytes := do
  let result ← repo.store.get path
  result.bytes

def loadPlanIfRequested (repo : ObjectStoreUserStore) (username : Username)
    (includePlan : Bool) : Except RepositoryError (Option Str) :=
  if !includePlan then .ok none
  else
    match repo.fetchBytes (repo.planPath encodePart username) with
    | .ok content =>
        match fromUtf8 content with
        | none => .error .invalidPlanEncoding
        | some plan => .ok (some plan)
    | .error .notFound => .ok none
    | .error err => .error (.storage err)

/-- Retrieve the user record, optionally including the plan file. -/
def loadUser (repo : ObjectStoreUserStore) (username : Username) (includePlan : Bool) :
    Except RepositoryError UserRecord := do
  let bytes ← (repo.fetchBytes (repo.profilePath encodePart username)).mapError .ofFetch
  let profile ← (FingerProfile.parse fromStr username bytes).mapError .parse
  let plan ← repo.loadPlanIfRequested encodePart username includePlan
  return { profile, plan }

def userStore (repo : ObjectStoreUserStore) : UserStore := ⟨repo.loadUser encodePart fromStr⟩

/-! ## What is loaded -/

/-- The plan object answers the request: it was not asked for, is absent, or is
the text given. -/
def PlanLoads (repo : ObjectStoreUserStore) (username : Username) (includePlan : Bool)
    (plan : Option Str) : Prop :=
  match includePlan, plan with
  | false, plan => plan = none
  | true, none => repo.fetchBytes (repo.planPath encodePart username) = .error .notFound
  | true, some text =>
      repo.fetchBytes (repo.planPath encodePart username) = .ok (asBytes text)

theorem loadPlanIfRequested_eq_ok_iff {repo : ObjectStoreUserStore} {username : Username}
    {includePlan : Bool} {plan : Option Str} :
    repo.loadPlanIfRequested encodePart username includePlan = .ok plan ↔
      repo.PlanLoads encodePart username includePlan plan := by
  cases includePlan with
  | false => simp [loadPlanIfRequested, PlanLoads, eq_comm]
  | true =>
      cases fetched : repo.fetchBytes (repo.planPath encodePart username) with
      | error err =>
          cases err <;> cases plan <;> simp [loadPlanIfRequested, PlanLoads, fetched]
      | ok content =>
          cases decoded : fromUtf8 content with
          | none =>
              have notText : ∀ text, content ≠ asBytes text := by
                intro text same
                rw [same, fromUtf8_asBytes] at decoded
                cases decoded
              cases plan <;> simp [loadPlanIfRequested, PlanLoads, fetched, decoded, notText]
          | some text =>
              obtain rfl := fromUtf8_eq_some_iff.mp decoded
              cases plan <;>
                simp [loadPlanIfRequested, PlanLoads, fetched, asBytes_injective.eq_iff]

/-- The profile object answers the request with the profile given: it is a TOML
table of strings that declares the username, and the profile holds the others. -/
def ProfileLoads (repo : ObjectStoreUserStore) (username : Username)
    (profile : FingerProfile) : Prop :=
  ∃ text table, repo.fetchBytes (repo.profilePath encodePart username) = .ok (asBytes text) ∧
    fromStr text = .ok (.table table) ∧
    (∀ field ∈ table.entries, field.2.asStr ≠ none) ∧
    (∃ declared, FingerProfile.declaredIn table.entries = some declared ∧
      Username.parse declared = .ok username) ∧
    profile.username = username ∧
    profile.attributes.entries = FingerProfile.attributeEntries table.entries

theorem profileLoads_iff {repo : ObjectStoreUserStore} {username : Username}
    {profile : FingerProfile} :
    repo.ProfileLoads encodePart fromStr username profile ↔
      ∃ payload, repo.fetchBytes (repo.profilePath encodePart username) = .ok payload ∧
        FingerProfile.parse fromStr username payload = .ok profile := by
  simp only [FingerProfile.parse_eq_ok_iff, fromUtf8_eq_some_iff]
  constructor
  · intro loads
    obtain ⟨text, table, fetched, rest⟩ := loads
    exact ⟨asBytes text, fetched, text, table, rfl, rest⟩
  · intro fetches
    obtain ⟨payload, fetched, text, table, rfl, rest⟩ := fetches
    exact ⟨text, table, fetched, rest⟩

/-- A record is loaded exactly from a profile object and a plan object that
answer the request. -/
theorem loadUser_eq_ok_iff {repo : ObjectStoreUserStore} {username : Username}
    {includePlan : Bool} {record : UserRecord} :
    repo.loadUser encodePart fromStr username includePlan = .ok record ↔
      repo.ProfileLoads encodePart fromStr username record.profile ∧
        repo.PlanLoads encodePart username includePlan record.plan := by
  simp only [loadUser, Except.bind_eq_ok_iff, Except.mapError_eq_ok_iff,
    loadPlanIfRequested_eq_ok_iff, Except.pure_eq_ok_iff, profileLoads_iff]
  constructor
  · intro loaded
    obtain ⟨payload, fetched, profile, parsed, plan, loads, rfl⟩ := loaded
    exact ⟨⟨payload, fetched, parsed⟩, loads⟩
  · intro loads
    obtain ⟨⟨payload, fetched, parsed⟩, loads⟩ := loads
    exact ⟨payload, fetched, record.profile, parsed, record.plan, loads, rfl⟩

end Loading

/-! ## Paths -/

section Paths

/-- Where a file is kept: the segments of the prefix, then the file. -/
def objectAt (encodePart : Str → Str) (pathPrefix file : Str) : Path :=
  ⟨(Path.ofStr encodePart pathPrefix).segments ++ [file]⟩

/-- `profile_prefix/<username>.toml`. -/
def profileObject (encodePart : Str → Str) (profilePrefix : Str) (username : Username) : Path :=
  objectAt encodePart profilePrefix (username.text ++ ".toml".toList)

/-- `plan_prefix/<username>.plan`. -/
def planObject (encodePart : Str → Str) (planPrefix : Str) (username : Username) : Path :=
  objectAt encodePart planPrefix (username.text ++ ".plan".toList)

variable {encodePart : Str → Str}

/-- An object tells the prefix it is under and the file it is. -/
theorem objectAt_eq_iff {pathPrefix otherPrefix file other : Str} :
    objectAt encodePart pathPrefix file = objectAt encodePart otherPrefix other ↔
      (Path.ofStr encodePart pathPrefix).segments = (Path.ofStr encodePart otherPrefix).segments ∧
        file = other := by
  unfold objectAt
  rw [Path.mk.injEq, ← List.concat_eq_append, ← List.concat_eq_append, List.concat_inj]

theorem ofStr_append (before after : Str) :
    (Path.ofStr encodePart (before ++ '/' :: after)).segments =
      (Path.ofStr encodePart before).segments ++ (Path.ofStr encodePart after).segments := by
  simp [Path.ofStr, List.splitOn_append_cons_self]

theorem ofStr_nil : (Path.ofStr encodePart []).segments = [] := by
  simp [Path.ofStr]

theorem ofStr_file {file : Str} (named : file ≠ []) (flat : '/' ∉ file) :
    (Path.ofStr encodePart file).segments = [encodePart file] := by
  have kept : (!file.isEmpty) = true := by simpa using named
  simp [Path.ofStr, List.splitOn_eq_singleton flat, kept]

/-- Slashes around a path name no segment. -/
theorem ofStr_trimSlashes (raw : Str) :
    (Path.ofStr encodePart (trimSlashes raw)).segments = (Path.ofStr encodePart raw).segments := by
  have leading : ∀ s : Str, (Path.ofStr encodePart (s.dropWhile (· == '/'))).segments =
      (Path.ofStr encodePart s).segments := by
    intro s
    induction s with
    | nil => rfl
    | cons c s ih =>
        by_cases slash : c = '/'
        · rw [List.dropWhile_cons_of_pos (by simp [slash]), ih, slash,
            ← List.nil_append ('/' :: s), ofStr_append, ofStr_nil, List.nil_append]
        · rw [List.dropWhile_cons_of_neg (by simp [slash])]
  have trailing : ∀ s : Str, (Path.ofStr encodePart (s.rdropWhile (· == '/'))).segments =
      (Path.ofStr encodePart s).segments := by
    intro s
    induction s using List.reverseRecOn with
    | nil => rfl
    | append_singleton s c ih =>
        by_cases slash : c = '/'
        · rw [List.rdropWhile_concat_pos _ _ _ (by simp [slash]), ih, slash, ofStr_append,
            ofStr_nil, List.append_nil]
        · rw [List.rdropWhile_concat_neg _ _ _ (by simp [slash])]
  rw [trimSlashes, trimMatches, trailing, leading]

/-- A file joined to a prefix is one more segment after those of the prefix. -/
theorem join_segments (pathPrefix file : Str) (named : file ≠ []) (flat : '/' ∉ file) :
    (join encodePart pathPrefix file).segments =
      (Path.ofStr encodePart pathPrefix).segments ++ [encodePart file] := by
  unfold join
  split_ifs with blank
  · rw [List.isEmpty_iff.mp blank, ofStr_nil, List.nil_append, ofStr_file named flat]
  · rw [ofStr_append, ofStr_file named flat]

/-- The file of a user: the username and an extension. -/
theorem userFile_facts (username : Username) {extension : Str}
    (plain : ∀ c ∈ extension, isPathChar c = true) (long : 2 < extension.length) :
    let file := username.text ++ extension
    file ≠ [] ∧ '/' ∉ file ∧ (∀ c ∈ file, isPathChar c = true) ∧ file ≠ ['.'] ∧
      file ≠ ['.', '.'] := by
  have chars : ∀ c ∈ username.text ++ extension, isPathChar c = true := by
    intro c member
    rcases List.mem_append.mp member with name | suffix
    · simp [isPathChar, username.wellFormed.2.2 c name, username.toLower_eq c name]
    · exact plain c suffix
  have size : 2 < (username.text ++ extension).length := by
    rw [List.length_append]
    omega
  refine ⟨?_, ?_, chars, ?_, ?_⟩
  · intro empty
    simp [empty] at size
  · intro slash
    exact absurd (chars '/' slash) (by decide)
  · intro dot
    simp [dot] at size
  · intro dots
    simp [dots] at size

variable (laws : PathLaws encodePart)
include laws

theorem join_userFile (pathPrefix : Str) (username : Username) {extension : Str}
    (plain : ∀ c ∈ extension, isPathChar c = true) (long : 2 < extension.length) :
    join encodePart (trimSlashes pathPrefix) (username.text ++ extension) =
      objectAt encodePart pathPrefix (username.text ++ extension) := by
  obtain ⟨named, flat, chars, notDot, notDots⟩ := userFile_facts username plain long
  refine congrArg Path.mk (?_ : (join _ _ _).segments = _)
  rw [join_segments _ _ named flat, laws.plain _ chars notDot notDots, ofStr_trimSlashes]

/-- The profile of a user is the file named after the user, under its prefix. -/
theorem profilePath_new (store : ObjectStore) (profilePrefix planPrefix : Str)
    (username : Username) :
    (new store profilePrefix planPrefix).profilePath encodePart username =
      profileObject encodePart profilePrefix username :=
  join_userFile laws profilePrefix username (by decide) (by decide)

/-- The plan of a user is the file named after the user, under its prefix. -/
theorem planPath_new (store : ObjectStore) (profilePrefix planPrefix : Str)
    (username : Username) :
    (new store profilePrefix planPrefix).planPath encodePart username =
      planObject encodePart planPrefix username :=
  join_userFile laws planPrefix username (by decide) (by decide)

omit laws in
/-- No user's profile is an object that holds a plan, whatever the prefixes. -/
theorem profileObject_ne_planObject (profilePrefix planPrefix : Str) (username other : Username) :
    profileObject encodePart profilePrefix username ≠
      planObject encodePart planPrefix other := by
  intro same
  have file := (objectAt_eq_iff.mp same).2
  have extension : ".toml".toList = ".plan".toList := (List.append_inj' file (by decide)).2
  revert extension
  decide

end Paths

end ObjectStoreUserStore

/-! ## What loading reads -/

/-- Two stores answer alike for an object: with the same bytes or the same
error. -/
def ObjectStore.SameAt (store other : ObjectStore) (path : Path) : Prop :=
  (store.get path >>= GetResult.bytes) = (other.get path >>= GetResult.bytes)

namespace ObjectStoreUserStore

variable {encodePart : Str → Str} (fromStr : Str → Except Toml.Error Toml.Document)

theorem fetchBytes_new (store : ObjectStore) (profilePrefix planPrefix : Str) (path : Path) :
    (new store profilePrefix planPrefix).fetchBytes path = store.get path >>= GetResult.bytes :=
  rfl

/-- Loading a user reads the profile object of the user and, if the plan is
asked for, the plan object of the user. -/
theorem loadUser_congr (laws : PathLaws encodePart) {store other : ObjectStore}
    {profilePrefix planPrefix : Str} {username : Username} {includePlan : Bool}
    (profile : store.SameAt other (profileObject encodePart profilePrefix username))
    (plan : includePlan = true →
      store.SameAt other (planObject encodePart planPrefix username)) :
    (new store profilePrefix planPrefix).loadUser encodePart fromStr username includePlan =
      (new other profilePrefix planPrefix).loadUser encodePart fromStr username includePlan := by
  have plans : (new store profilePrefix planPrefix).loadPlanIfRequested encodePart username
        includePlan =
      (new other profilePrefix planPrefix).loadPlanIfRequested encodePart username
        includePlan := by
    cases includePlan with
    | false => rfl
    | true =>
        have same := plan rfl
        simp only [loadPlanIfRequested, planPath_new laws, fetchBytes_new]
        rw [same]
  simp only [loadUser, profilePath_new laws, fetchBytes_new, plans]
  rw [profile]

end ObjectStoreUserStore

end Fingermouse
