import Fingermouse.Config
import Fingermouse.Query
import Fingermouse.Storage

/-!
# Where requests may read

The prefixes are free text of the operator, the usernames come from the wire.
Between the two stand `sanitisePrefix`, `trimSlashes`, the path constructor and
the username parser; `paths_confined` is what they add up to.
-/

namespace Fingermouse

open Text

/-! ## Reads -/

/-- What `load` makes of a store depends on the objects at `paths` alone. -/
def ReadsOnly {α : Type} (load : ObjectStore → α) (paths : Path → Prop) : Prop :=
  ∀ store other : ObjectStore, (∀ path, paths path → store.SameAt other path) →
    load store = load other

/-! ## File stems -/

def fileStemChars : Str := "abcdefghijklmnopqrstuvwxyz0123456789_-".toList

/-- `[a-z0-9_-]{1,32}`. -/
def IsFileStem (stem : Str) : Prop :=
  1 ≤ stem.length ∧ stem.length ≤ 32 ∧ ∀ c ∈ stem, c ∈ fileStemChars

theorem Username.isFileStem (username : Username) : IsFileStem username.text := by
  obtain ⟨named, short, chars⟩ := username.wellFormed
  refine ⟨List.length_pos_iff.mpr named, short, ?_⟩
  intro c member
  have listed : c.toLower = c → c ∈ fileStemChars :=
    forall_usernameChar (p := fun c => c.toLower = c → c ∈ fileStemChars) (by decide)
      (chars c member)
  exact listed (username.toLower_eq c member)

namespace ObjectStoreUserStore

/-- The repository of a server configured with the two prefixes. -/
def configured (store : ObjectStore) (profilePrefix planPrefix : Str) : ObjectStoreUserStore :=
  new store (ServerConfig.sanitisePrefix profilePrefix) (ServerConfig.sanitisePrefix planPrefix)

/-- It is the one the command line's prefixes give. -/
theorem new_of_fromCli {cli : CliOptions} {config : ServerConfig}
    (built : ServerConfig.fromCli cli = .ok config) (store : ObjectStore) :
    new store config.profilePrefix config.planPrefix =
      configured store cli.profilePrefix cli.planPrefix := by
  simp only [ServerConfig.fromCli, Except.bind_eq_ok_iff, Except.pure_eq_ok_iff] at built
  obtain ⟨defaultHost, -, allowedHosts, -, rfl⟩ := built
  rfl

section Paths

variable {encodePart : Str → Str}

/-- Sanitising a prefix trims it and keeps every segment left. -/
theorem objectAt_sanitisePrefix (pathPrefix file : Str) :
    objectAt encodePart (ServerConfig.sanitisePrefix pathPrefix) file =
      ⟨(Path.ofStr encodePart (trim pathPrefix)).segments ++ [file]⟩ := by
  unfold objectAt
  rw [show ServerConfig.sanitisePrefix pathPrefix = trimSlashes (trim pathPrefix) from rfl,
    ofStr_trimSlashes]

/-- Under one prefix, the files of two users are two objects. -/
theorem objectAt_userFile_injective (pathPrefix extension : Str) :
    Function.Injective fun username : Username =>
      objectAt encodePart pathPrefix (username.text ++ extension) := by
  intro username other same
  have file := (objectAt_eq_iff.mp same).2
  exact Username.text_injective (List.append_cancel_right file)

variable (laws : PathLaws encodePart)
include laws

theorem profilePath_configured (store : ObjectStore) (profilePrefix planPrefix : Str)
    (username : Username) :
    (configured store profilePrefix planPrefix).profilePath encodePart username =
      ⟨(Path.ofStr encodePart (trim profilePrefix)).segments ++
        [username.text ++ ".toml".toList]⟩ := by
  unfold configured
  rw [profilePath_new laws, profileObject, objectAt_sanitisePrefix]

theorem planPath_configured (store : ObjectStore) (profilePrefix planPrefix : Str)
    (username : Username) :
    (configured store profilePrefix planPrefix).planPath encodePart username =
      ⟨(Path.ofStr encodePart (trim planPrefix)).segments ++
        [username.text ++ ".plan".toList]⟩ := by
  unfold configured
  rw [planPath_new laws, planObject, objectAt_sanitisePrefix]

/-- A load reads the profile path of the user and, if the plan is asked for, the
plan path. -/
theorem readsOnly_loadUser (fromStr : Str → Except Toml.Error Toml.Document) (repo : ObjectStore)
    (profilePrefix planPrefix : Str) (username : Username) (includePlan : Bool) :
    ReadsOnly
      (fun store => (configured store profilePrefix planPrefix).loadUser encodePart fromStr
        username includePlan)
      (fun path =>
        path = (configured repo profilePrefix planPrefix).profilePath encodePart username ∨
          includePlan = true ∧
            path = (configured repo profilePrefix planPrefix).planPath encodePart username) := by
  intro store other same
  unfold configured at same ⊢
  rw [profilePath_new laws, planPath_new laws] at same
  apply loadUser_congr fromStr laws
  · exact same _ (.inl rfl)
  · intro asked
    exact same _ (.inr ⟨asked, rfl⟩)

/-- Whatever the prefixes, a request reads nothing but files named after its user
right under them; no two users share one, and no profile is where a plan is.
From a command line with the prefixes comes this repository. -/
theorem paths_confined (fromStr : Str → Except Toml.Error Toml.Document) (repo : ObjectStore)
    (profilePrefix planPrefix : Str) :
    let profilePath := (configured repo profilePrefix planPrefix).profilePath encodePart
    let planPath := (configured repo profilePrefix planPrefix).planPath encodePart
    (∀ line query, Query.parse line = .ok query →
      ReadsOnly
          (fun store => (configured store profilePrefix planPrefix).loadUser encodePart fromStr
            query.username query.verbose)
          (fun path => path = profilePath query.username ∨
            query.verbose = true ∧ path = planPath query.username) ∧
        IsFileStem query.username.text ∧
          profilePath query.username =
            ⟨(Path.ofStr encodePart (trim profilePrefix)).segments ++
              [query.username.text ++ ".toml".toList]⟩ ∧
          planPath query.username =
            ⟨(Path.ofStr encodePart (trim planPrefix)).segments ++
              [query.username.text ++ ".plan".toList]⟩) ∧
      (∀ user other, user ≠ other →
        profilePath user ≠ profilePath other ∧ planPath user ≠ planPath other) ∧
      (∀ user other, profilePath user ≠ planPath other) ∧
      ∀ cli config, ServerConfig.fromCli cli = .ok config → cli.profilePrefix = profilePrefix →
        cli.planPrefix = planPrefix →
        new repo config.profilePrefix config.planPrefix =
          configured repo profilePrefix planPrefix := by
  intro profilePath planPath
  have profileAt : ∀ user, profilePath user =
      profileObject encodePart (ServerConfig.sanitisePrefix profilePrefix) user :=
    profilePath_new laws repo _ _
  have planAt : ∀ user, planPath user =
      planObject encodePart (ServerConfig.sanitisePrefix planPrefix) user :=
    planPath_new laws repo _ _
  refine ⟨?_, ?_, ?_, ?_⟩
  · -- What the parser accepts is a `Username`, which carries what is asked of it.
    intro line query _
    exact ⟨readsOnly_loadUser laws fromStr repo profilePrefix planPrefix _ _,
      query.username.isFileStem,
      profilePath_configured laws repo profilePrefix planPrefix _,
      planPath_configured laws repo profilePrefix planPrefix _⟩
  · intro user other different
    rw [profileAt, profileAt, planAt, planAt]
    constructor
    · intro same
      exact different (objectAt_userFile_injective _ _ same)
    · intro same
      exact different (objectAt_userFile_injective _ _ same)
  · intro user other
    rw [profileAt, planAt]
    exact profileObject_ne_planObject _ _ user other
  · rintro cli config built rfl rfl
    exact new_of_fromCli built repo

end Paths

section Witness

open FingerProfile (alice plainDocument parserOf singleTable)

/-- Two spellings of one directory: the profile and the plan of a user are still
two objects, right under it. -/
theorem paths_confined_of_equal_prefixes :
    let repo := configured ⟨fun _ => .error .notFound⟩ " //home//finger/ ".toList
      "home/finger".toList
    repo.profilePath id alice = ⟨["home".toList, "finger".toList, "alice.toml".toList]⟩ ∧
      repo.planPath id alice = ⟨["home".toList, "finger".toList, "alice.plan".toList]⟩ ∧
      repo.profilePath id alice ≠ repo.planPath id alice := by
  intro repo
  have confined := paths_confined pathLaws_id
    (parserOf plainDocument (singleTable "full_name".toList "Alice Smith".toList))
    ⟨fun _ => .error .notFound⟩ " //home//finger/ ".toList "home/finger".toList
  obtain ⟨requests, -, apart, -⟩ := confined
  obtain ⟨-, -, profile, plan⟩ :=
    requests (asBytes "/W Alice\r\n".toList) ⟨alice, none, true⟩ (by decide)
  exact ⟨profile, plan, apart alice alice⟩

end Witness

end ObjectStoreUserStore

end Fingermouse
