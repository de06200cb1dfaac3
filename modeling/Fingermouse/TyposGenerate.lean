import Fingermouse.TyposFaults
import Fingermouse.TyposRender

/-!
# Generating the configuration

`generate_typos_config.py`: refresh the cache, merge it with the overlay of the
repository, and write `typos.toml`, run after run.

* `targets_after`: the cache goes through a run as under `refresh_base`.
* `config_holds`: `typos.toml` is as it was, or the rendering of a dictionary that
  some authority offered, merged with an overlay, and enforces both.
* `fallback_without_cache`: the tracked configuration stands in only while there
  is no cache.
-/

namespace Fingermouse.GenerateTyposConfig

open Text TomlText TyposRollout TyposRefresh

/-- The files of the repository that are written. -/
structure Repository where
  targets : CacheTargets
  destination : Str
  config : Option Bytes

/-- A call of `main` with what it meets. -/
structure Run where
  call : Call
  faults : Faults
  /-- What reading `typos.local.toml` comes to, if it exists. -/
  overlay : Option (Except PyError Bytes)
  /-- What reading the tracked configuration raises. -/
  unreadable : Option PyError
  /-- How writing the configuration fails. -/
  configFault : Option WriteFault

/-- `RefreshResult` with the statuses of `main`. -/
inductive Result
  | refresh (result : RefreshResult)
  | trackedConfig (destination : Str)
deriving DecidableEq

section

variable (py : WebPython)

/-- `dictionary_from_cache`. -/
def dictionaryFromCache (targets : CacheTargets) (overlay : Option (Except PyError Bytes)) :
    Except PyError Dictionary := do
  let dictionary ← loadDictionary py.toPython
    (targets.cache.elim (.error (.fileNotFoundError targets.cachePath)) .ok)
  match overlay with
  | none => return dictionary
  | some file =>
      let policy ← loadDictionary py.toPython file
      mergeDictionaries py.toPython dictionary policy

/-- `render_config`. -/
def renderConfig (targets : CacheTargets) (overlay : Option (Except PyError Bytes)) :
    Except PyError Str := do
  let dictionary ← dictionaryFromCache py targets overlay
  renderTyposConfig py.toPython dictionary

/-- `destination.read_text(encoding="utf-8")`. -/
def readTracked (repository : Repository) (unreadable : Option PyError) : Except PyError Str := do
  let content ← (match unreadable, repository.config with
    | some err, _ => .error err
    | none, none => .error (.fileNotFoundError repository.destination)
    | none, some content => .ok content : Except PyError Bytes)
  let text ← decode content
  return universalNewlines text

/-- `_tracked_remote_fallback`. -/
def trackedRemoteFallback (source : Source) (repository : Repository)
    (unreadable : Option PyError) : Except PyError (Option Result) :=
  match source with
  | .path _ => .ok none
  | .str text => do
      py.checkNetloc text
      if urlScheme text ≠ "https".toList then return none
      else
        match readTracked repository unreadable >>= py.tomlLoads with
        | .ok _ => return some (.trackedConfig repository.destination)
        | .error err => if err.isOSError || err.isTomlDecodeError then return none else .error err

/-- `main`. -/
def main (repository : Repository) (run : Run) : Except Failure Result × Repository :=
  let refreshed := Faulty.refreshBase py run.faults run.call repository.targets
  let repository := { repository with targets := refreshed.2 }
  match refreshed.1 with
  | .error failure =>
      if failure.isOSError then
        match trackedRemoteFallback py run.call.source repository run.unreadable with
        | .ok (some fallback) => (.ok fallback, repository)
        | .ok none => (.error failure, repository)
        | .error err => (.error (.raised err), repository)
      else (.error failure, repository)
  | .ok result =>
      match renderConfig py repository.targets run.overlay with
      | .error err => (.error (.raised err), repository)
      | .ok rendered =>
          match atomicWrite run.configFault repository
              { repository with config := some (asBytes rendered) } with
          | (.error err, repository) => (.error (.raised err), repository)
          | (.ok _, repository) => (.ok (.refresh result), repository)

end

/-- A repository that has never run `main`. -/
def Repository.fresh (cachePath destination : Str) (config : Option Bytes) : Repository :=
  ⟨.fresh cachePath, destination, config⟩

variable {py : WebPython} {repository : Repository} {run : Run}

/-! ## One run -/

/-- What is written, whether or not that raises, is the files before or after. -/
theorem atomicWrite_files {α : Type} (fault : Option WriteFault) (before after : α) :
    (atomicWrite fault before after).2 = before ∨ (atomicWrite fault before after).2 = after := by
  unfold atomicWrite
  split
  · exact .inr rfl
  · exact .inl rfl
  · exact .inr rfl

/-- The files after a run of `main`: the cache is that of its refresh, and the
configuration is left, or written from cache and overlay. -/
theorem main_files (py : WebPython) (repository : Repository) (run : Run) :
    let now := (main py repository run).2
    let targets := (Faulty.refreshBase py run.faults run.call repository.targets).2
    now = { repository with targets } ∨
      ∃ rendered, renderConfig py targets run.overlay = .ok rendered ∧
        now = { repository with targets, config := some (asBytes rendered) } := by
  unfold main
  dsimp only
  split
  · left
    split_ifs
    · split <;> rfl
    · rfl
  · split
    · exact .inl rfl
    · rename_i rendered done
      have files := atomicWrite_files run.configFault
        { repository with
          targets := (Faulty.refreshBase py run.faults run.call repository.targets).2 }
        { repository with
          targets := (Faulty.refreshBase py run.faults run.call repository.targets).2
          config := some (asBytes rendered) }
      generalize atomicWrite run.configFault _ _ = written at files ⊢
      obtain ⟨_ | _, now⟩ := written
      · exact files.imp id fun same => ⟨rendered, done, same⟩
      · exact files.imp id fun same => ⟨rendered, done, same⟩

/-! ## Runs -/

variable (py) in
def step (repository : Repository) (run : Run) : Except Failure Result × Repository :=
  main py repository run

variable (py) in
/-- The repository after a number of runs. -/
abbrev after (cachePath destination : Str) (config : Option Bytes) (runs : List Run) :
    Repository :=
  Mealy.final (step py) (.fresh cachePath destination config) runs

/-- A run of `main` does to the cache what its call of `refresh_base` does. -/
theorem targets_after (cachePath destination : Str) (config : Option Bytes) (runs : List Run) :
    (after py cachePath destination config runs).targets =
      Mealy.final (Faulty.step py) (.fresh cachePath)
        (runs.map fun run => (run.call, run.faults)) := by
  refine Mealy.final_invariant (fun (front : List Run) (now : Repository) => now.targets =
    Mealy.final (Faulty.step py) (.fresh cachePath)
      (front.map fun run => (run.call, run.faults))) rfl ?_
  intro front run back _ before
  rw [List.map_append, Mealy.final_append, ← before]
  rcases main_files py (after py cachePath destination config front) run with
    same | ⟨rendered, -, same⟩
  · rw [step, same]
    rfl
  · rw [step, same]
    rfl

/-- The cache of a run of `main` is a dictionary that some call was offered. -/
theorem cache_after {cachePath destination : Str} {config : Option Bytes} {runs : List Run}
    {content : Bytes}
    (cached : (after py cachePath destination config runs).targets.cache = some content) :
    IsDictionary py.toPython content ∧ ∃ run ∈ runs, run.call.Offers content := by
  rw [targets_after] at cached
  obtain ⟨dictionary, input, listed, offers⟩ := Faulty.cache_of_run cachePath _ content cached
  obtain ⟨run, inRuns, rfl⟩ := List.mem_map.mp listed
  exact ⟨dictionary, run, inRuns, offers⟩

/-! ## What the configuration holds -/

/-- The dictionary is that of the cached content, merged with the overlay if there
is one. -/
def Merges (py : Python) (content : Bytes) (overlay : Option (Except PyError Bytes))
    (merged : Dictionary) : Prop :=
  ∃ base, loadDictionary py (.ok content) = .ok base ∧
    match overlay with
    | none => merged = base
    | some file => ∃ policy, loadDictionary py file = .ok policy ∧
        mergeDictionaries py base policy = .ok merged

/-- The words have every correction of the part, and the merge has its patterns and
exclusions. -/
structure Holds (part merged : Dictionary) (words : List (Str × Str)) : Prop where
  words : ∀ word correction, part.Maps word correction → (word, correction) ∈ words
  ignorePatterns : part.ignorePatterns ⊆ merged.ignorePatterns
  excludedFiles : part.excludedFiles ⊆ merged.excludedFiles

/-- The text reads back as the configuration of the merge, which holds all of the
cached content and all of the overlay. -/
def Enforces (py : Python) (content : Bytes) (overlay : Option (Except PyError Bytes))
    (merged : Dictionary) (rendered : Str) : Prop :=
  ∃ words, readToml rendered = some (merged.entries words) ∧
    (∀ base, loadDictionary py (.ok content) = .ok base → Holds base merged words) ∧
    ∀ file ∈ overlay, ∀ policy, loadDictionary py file = .ok policy → Holds policy merged words

/-- A merge holds both of its parts. -/
theorem holds_of_merge {py : Python} {base policy merged : Dictionary}
    {words : List (Str × Str)} (consistent : base.Consistent)
    (merges : mergeDictionaries py base policy = .ok merged)
    (same : ∀ word correction, (word, correction) ∈ words ↔ merged.Maps word correction) :
    Holds base merged words ∧ Holds policy merged words := by
  have maps := mergeDictionaries_maps_iff consistent merges
  obtain ⟨filled, -, merges⟩ := Except.bind_eq_ok_iff.mp merges
  cases merges
  refine ⟨⟨fun word correction held => ?_, fun pattern listed => ?_, fun file listed => ?_⟩,
    ⟨fun word correction held => ?_, fun pattern listed => ?_, fun file listed => ?_⟩⟩
  · exact (same word correction).mpr ((maps word correction).mpr (.inl held))
  · exact List.mem_sortedSet_iff.mpr (List.mem_append_left _ listed)
  · exact List.mem_sortedSet_iff.mpr (List.mem_append_left _ listed)
  · exact (same word correction).mpr ((maps word correction).mpr (.inr held))
  · exact List.mem_sortedSet_iff.mpr (List.mem_append_right _ listed)
  · exact List.mem_sortedSet_iff.mpr (List.mem_append_right _ listed)

/-- What is rendered is the configuration of cache and overlay. -/
theorem exists_merges {targets : CacheTargets} {overlay : Option (Except PyError Bytes)}
    {rendered : Str} (done : renderConfig py targets overlay = .ok rendered) :
    ∃ content merged, targets.cache = some content ∧
      Merges py.toPython content overlay merged ∧
      renderTyposConfig py.toPython merged = .ok rendered := by
  obtain ⟨merged, loaded, done⟩ := Except.bind_eq_ok_iff.mp done
  obtain ⟨base, cached, loaded⟩ := Except.bind_eq_ok_iff.mp loaded
  cases held : targets.cache with
  | none =>
      rw [held] at cached
      cases cached
  | some content =>
      rw [held] at cached
      refine ⟨content, merged, rfl, ⟨base, cached, ?_⟩, done⟩
      cases overlay with
      | none =>
          cases loaded
          rfl
      | some file =>
          obtain ⟨policy, given, merges⟩ := Except.bind_eq_ok_iff.mp loaded
          exact ⟨policy, given, merges⟩

/-- The rendering of a merge enforces both parts. -/
theorem Merges.enforces {py : Python} (strict : RefusesDelete py) {content : Bytes}
    {overlay : Option (Except PyError Bytes)} {merged : Dictionary} {rendered : Str}
    (merges : Merges py content overlay merged)
    (done : renderTyposConfig py merged = .ok rendered) :
    Enforces py content overlay merged rendered := by
  obtain ⟨mappings, generated, read⟩ := exists_mappings_of_render strict done
  have same := mem_words_iff generated
  obtain ⟨base, cached, merges⟩ := merges
  have unique : ∀ {file : Except PyError Bytes} {part other : Dictionary},
      loadDictionary py file = .ok part → loadDictionary py file = .ok other → other = part :=
    fun loaded loaded' => Except.ok.inj (loaded'.symm.trans loaded)
  refine ⟨_, read, fun base' cached' => ?_, fun file given policy' loaded' => ?_⟩
  · obtain rfl := unique cached cached'
    cases overlay with
    | none =>
        obtain rfl := merges
        exact ⟨fun word correction => (same word correction).mpr, List.Subset.refl _,
          List.Subset.refl _⟩
    | some file =>
        obtain ⟨policy, -, merges⟩ := merges
        exact (holds_of_merge (consistent_of_loadDictionary cached) merges same).1
  · obtain rfl : overlay = some file := given
    obtain ⟨policy, loaded, merges⟩ := merges
    obtain rfl := unique loaded loaded'
    exact (holds_of_merge (consistent_of_loadDictionary cached) merges same).2

/-- In any run of `main`, whatever raises and wherever: `typos.toml` is as it
was, or the rendering of a dictionary which some call was offered, merged with the
overlay that some call met; and it enforces both. -/
theorem config_holds (py : WebPython) (strict : RefusesDelete py.toPython)
    (cachePath destination : Str) (config : Option Bytes) (runs : List Run) :
    let now := after py cachePath destination config runs
    now.config = config ∨
      ∃ content overlay merged rendered, now.config = some (asBytes rendered) ∧
        (∃ run ∈ runs, run.call.Offers content) ∧ (∃ run ∈ runs, run.overlay = overlay) ∧
        Merges py.toPython content overlay merged ∧
        renderTyposConfig py.toPython merged = .ok rendered ∧
        Enforces py.toPython content overlay merged rendered := by
  refine Mealy.final_invariant (fun (front : List Run) (now : Repository) =>
    now.config = config ∨
      ∃ content overlay merged rendered, now.config = some (asBytes rendered) ∧
        (∃ run ∈ front, run.call.Offers content) ∧ (∃ run ∈ front, run.overlay = overlay) ∧
        Merges py.toPython content overlay merged ∧
        renderTyposConfig py.toPython merged = .ok rendered ∧
        Enforces py.toPython content overlay merged rendered) (.inl rfl) ?_
  intro front run back _ before
  have own : run ∈ front ++ [run] := List.mem_append_right _ (List.mem_singleton_self _)
  rcases main_files py (after py cachePath destination config front) run with
    same | ⟨rendered, done, same⟩
  · rw [step, same]
    rcases before with kept |
      ⟨content, overlay, merged, rendered, written, offers, overlays, rest⟩
    · exact .inl kept
    · obtain ⟨other, listed, offers⟩ := offers
      obtain ⟨other', listed', overlays⟩ := overlays
      exact .inr ⟨content, overlay, merged, rendered, written,
        ⟨other, List.mem_append_left _ listed, offers⟩,
        ⟨other', List.mem_append_left _ listed', overlays⟩, rest⟩
  · obtain ⟨content, merged, cached, merges, renders⟩ := exists_merges done
    have now : (after py cachePath destination config (front ++ [run])).targets.cache =
        some content := by
      rw [after, Mealy.final_append]
      exact (congrArg (fun now : Repository => now.targets.cache) same).trans cached
    rw [step, same]
    exact .inr ⟨content, run.overlay, merged, rendered, rfl, (cache_after now).2,
      ⟨run, own, rfl⟩, merges, renders, merges.enforces strict renders⟩

/-! ### A first run -/

def configWebPython : WebPython := { sampleWebPython with toPython := configPython }

/-- The document of the estate is fetched, and the overlay has the same. -/
def firstRun : Run where
  call := fetch estateUrl tehText
  faults := ⟨none, none⟩
  overlay := some (.ok (asBytes tehText))
  unreadable := none
  configFault := none

theorem config_holds_of_first :
    ∃ content merged rendered,
      (after configWebPython [] [] none [firstRun]).config = some (asBytes rendered) ∧
      Merges configPython content (some (.ok (asBytes tehText))) merged ∧
      renderTyposConfig configPython merged = .ok rendered ∧
      Enforces configPython content (some (.ok (asBytes tehText))) merged rendered := by
  obtain ⟨content, overlay, merged, rendered, written, -, ⟨run, listed, rfl⟩, holds⟩ :=
    (config_holds configWebPython refusesDelete_config [] [] none [firstRun]).resolve_left
      (by decide +kernel)
  obtain rfl := List.mem_singleton.mp listed
  exact ⟨content, merged, rendered, written, holds⟩

/-! ## The tracked configuration -/

theorem exists_of_readTracked {unreadable : Option PyError} {read : Str}
    (done : readTracked repository unreadable = .ok read) :
    ∃ content text, repository.config = some content ∧ decode content = .ok text ∧
      read = universalNewlines text := by
  obtain ⟨content, held, done⟩ := Except.bind_eq_ok_iff.mp done
  obtain ⟨text, decoded, same⟩ := Except.bind_eq_ok_iff.mp done
  cases same
  refine ⟨content, text, ?_, decoded, rfl⟩
  cases unreadable with
  | some err => cases held
  | none =>
      cases config : repository.config with
      | none =>
          rw [config] at held
          cases held
      | some stored =>
          rw [config] at held
          cases held
          rfl

theorem fallback_cases {source : Source} {unreadable : Option PyError} {result : Result}
    (answers : trackedRemoteFallback py source repository unreadable = .ok (some result)) :
    (∃ url, source = .str url ∧ urlScheme url = "https".toList) ∧
      ∃ content text document, repository.config = some content ∧ decode content = .ok text ∧
        py.tomlLoads (universalNewlines text) = .ok document := by
  cases source with
  | path text => cases answers
  | str url =>
      obtain ⟨-, -, answers⟩ := Except.bind_eq_ok_iff.mp answers
      split_ifs at answers with https
      · cases answers
      refine ⟨⟨url, rfl, not_not.mp https⟩, ?_⟩
      cases parsed : readTracked repository unreadable >>= py.tomlLoads with
      | error err =>
          rw [parsed] at answers
          dsimp only at answers
          split_ifs at answers
          cases answers
      | ok document =>
          obtain ⟨_, read, loaded⟩ := Except.bind_eq_ok_iff.mp parsed
          obtain ⟨content, text, config, decodes, rfl⟩ := exists_of_readTracked read
          exact ⟨content, text, document, config, decodes, loaded⟩

theorem main_fallback {path : Str}
    (reports : (main py repository run).1 = .ok (.trackedConfig path)) :
    let refreshed := Faulty.refreshBase py run.faults run.call repository.targets
    (main py repository run).2.config = repository.config ∧
      (∃ failure, refreshed.1 = .error failure ∧ failure.isOSError = true) ∧
      ∃ result, trackedRemoteFallback py run.call.source
        { repository with targets := refreshed.2 } run.unreadable = .ok (some result) := by
  intro refreshed
  unfold main at reports ⊢
  dsimp only at reports ⊢
  cases answer : (Faulty.refreshBase py run.faults run.call repository.targets).1 with
  | ok result =>
      rw [answer] at reports
      dsimp only at reports
      split at reports
      · cases reports
      · split at reports <;> cases reports
  | error failure =>
      rw [answer] at reports
      dsimp only at reports ⊢
      split_ifs at reports ⊢ with os
      split at reports
      · rename_i fallback found
        rw [found]
        exact ⟨rfl, ⟨failure, rfl, os⟩, fallback, rfl⟩
      · cases reports
      · cases reports

/-- The tracked configuration stands in for a refresh only while there is no
cache, or for a text with the scheme of an HTTPS URL that is taken for a path; it
parses, and stays as it is. -/
theorem fallback_without_cache (py : WebPython) (documented : Documented py)
    (cachePath destination : Str) (config : Option Bytes) (runs : List Run) (run : Run)
    (plain : FailsPlainly run.call run.faults) (path : Str)
    (reports : (main py (after py cachePath destination config runs) run).1 =
      .ok (.trackedConfig path)) :
    let now := after py cachePath destination config runs
    (now.targets.cache = none ∨
      ∃ url, run.call.source = .str url ∧ urlScheme url = "https".toList ∧
        ¬"://".toList <:+: url) ∧
      (main py now run).2.config = now.config ∧
      ∃ content text document, now.config = some content ∧ decode content = .ok text ∧
        py.tomlLoads (universalNewlines text) = .ok document := by
  intro now
  obtain ⟨kept, ⟨failure, raised, os⟩, result, answers⟩ := main_fallback reports
  obtain ⟨⟨url, source, https⟩, parses⟩ := fallback_cases answers
  refine ⟨or_iff_not_imp_left.mpr fun cached => ⟨url, source, https, fun remote => ?_⟩,
    kept, parses⟩
  have isRemote : run.call.source.isLocal = false := by
    rw [source, Source.isLocal, decide_eq_false_iff_not, not_not]
    exact remote
  have valid : validCache py now.targets = .ok true := by
    rw [targets_after] at cached ⊢
    exact Faulty.validCache_of_run documented cached
  have unrelated := Faulty.unrelated_refreshBase documented valid plain isRemote raised
  cases unrelated.symm.trans os

/-! ### A path that looks like a URL -/

/-- There is no such file. -/
def pathlike : Call :=
  { fetch "https:base.toml".toList tehText with
    file := ⟨.error (.fileNotFoundError []), .error (.other []), .error (.other [])⟩ }

theorem failsPlainly_pathlike : FailsPlainly pathlike ⟨none, none⟩ where
  urlopen request failure failed := by
    simp only [pathlike, fetch, serve] at failed
    split_ifs at failed
    cases failed
    rfl
  read request response err opened broken := by
    simp only [pathlike, fetch, serve] at opened
    split_ifs at opened
    cases opened
    cases broken
  cache _ broken := by cases broken
  metadata _ broken := by cases broken

/-- The cache is refreshed, and the overlay cannot be read. -/
def unmergedRun : Run :=
  { firstRun with overlay := some (.error (.osError "Permission denied".toList)) }

def pathlikeRun : Run := { firstRun with call := pathlike }

/-- After the one run there is a cache; the other, whose source is taken for a path,
is answered with the configuration there is. -/
theorem fallback_without_cache_of_pathlike :
    let now := after sampleWebPython [] [] (some (asBytes organText)) [unmergedRun]
    now.targets.cache ≠ none ∧
      (∃ url, pathlikeRun.call.source = .str url ∧ urlScheme url = "https".toList ∧
        ¬"://".toList <:+: url) ∧
      (main sampleWebPython now pathlikeRun).2.config = now.config ∧
      ∃ content text document, now.config = some content ∧ decode content = .ok text ∧
        sampleWebPython.tomlLoads (universalNewlines text) = .ok document := by
  have cached : (after sampleWebPython [] [] (some (asBytes organText))
      [unmergedRun]).targets.cache ≠ none := by
    decide +kernel
  obtain ⟨why, kept, parses⟩ := fallback_without_cache sampleWebPython Faulty.documented_sample []
    [] (some (asBytes organText)) [unmergedRun] pathlikeRun failsPlainly_pathlike []
    (by decide +kernel)
  rcases why with uncached | path
  · exact absurd uncached cached
  · exact ⟨cached, path, kept, parses⟩

end Fingermouse.GenerateTyposConfig
