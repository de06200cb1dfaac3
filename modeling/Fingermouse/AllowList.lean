import Fingermouse.Disclosure
import Fingermouse.QuerySpelling

/-!
# The allow list

The hosts a server answers for are the default host and those of a
comma-separated list, collected by a loop that stops at the first invalid one.

* `fromCli_hosts_iff`: when the loop comes through, and with which set.
* `hostMismatch_mem_written_iff`: which connections are told that their host is
  not served.
* `allow_list_exact`: the two together, for every command line.
-/

namespace Fingermouse

open Text

/-! ## Sets in insertion order -/

namespace IndexSet

variable {α : Type} [DecidableEq α]

theorem eraseDups_concat (l : List α) (a : α) :
    (l ++ [a]).eraseDups = if a ∈ l then l.eraseDups else l.eraseDups ++ [a] := by
  rw [List.eraseDups_append]
  split_ifs with present
  · simp [List.removeAll, present]
  · simp [List.removeAll, present, List.eraseDups_cons]

theorem eraseDups_eq_self {l : List α} (distinct : l.Nodup) : l.eraseDups = l := by
  induction l using List.reverseRecOn with
  | nil => rfl
  | append_singleton l a ih =>
      rw [List.nodup_append_comm, List.singleton_append, List.nodup_cons] at distinct
      rw [eraseDups_concat, if_neg distinct.1, ih distinct.2]

theorem items_insert (set : IndexSet α) (a : α) :
    (set.insert a).items = (set.items ++ [a]).eraseDups := by
  rw [eraseDups_concat, eraseDups_eq_self set.nodup, insert]
  split_ifs <;> rfl

/-- Inserted one by one, the items stand in the order of their first
occurrences. -/
theorem items_foldl_insert (set : IndexSet α) (l : List α) :
    (l.foldl insert set).items = (set.items ++ l).eraseDups := by
  induction l using List.reverseRecOn with
  | nil => rw [List.append_nil, eraseDups_eq_self set.nodup, List.foldl_nil]
  | append_singleton l a ih =>
      have distinct : (set.items ++ l).eraseDups.Nodup := ih ▸ (l.foldl insert set).nodup
      rw [List.foldl_concat, items_insert, ih, ← List.append_assoc]
      rw [eraseDups_concat (set.items ++ l), eraseDups_concat, eraseDups_eq_self distinct]
      simp only [List.mem_eraseDups]

end IndexSet

/-! ## The list -/

/-- The pieces of an optional comma-separated list. -/
def listPieces (list : Option Str) : List Str := list.elim [] (·.splitOn ',')

def IsBlank (piece : Str) : Prop := ∀ c ∈ piece, isWhitespace c = true

instance (piece : Str) : Decidable (IsBlank piece) :=
  inferInstanceAs (Decidable (∀ c ∈ piece, isWhitespace c = true))

/-- The hosts that pieces name, in their order; the others are passed over. -/
def namedHosts (pieces : List Str) : List HostName :=
  pieces.filterMap fun piece => (HostName.parse piece).toOption

theorem toOption_parse_eq_some_iff {piece : Str} {host : HostName} :
    (HostName.parse piece).toOption = some host ↔ HostName.parse piece = .ok host := by
  cases HostName.parse piece <;> simp [Except.toOption]

theorem namedHosts_cons (piece : Str) (pieces : List Str) :
    namedHosts (piece :: pieces) =
      (HostName.parse piece).toOption.toList ++ namedHosts pieces := by
  unfold namedHosts
  rw [List.filterMap_cons]
  cases (HostName.parse piece).toOption <;> rfl

theorem mem_namedHosts_iff {pieces : List Str} {host : HostName} :
    host ∈ namedHosts pieces ↔ ∃ piece ∈ pieces, HostName.parse piece = .ok host := by
  simp only [namedHosts, List.mem_filterMap, toOption_parse_eq_some_iff]

/-- A blank piece names no host. -/
theorem IsBlank.parse_ne_ok {piece : Str} (blank : IsBlank piece) (host : HostName) :
    HostName.parse piece ≠ .ok host := by
  intro parsed
  have valid := (HostName.parse_eq_ok_iff.mp parsed).1
  exact valid.ne_nil (trim_eq_nil_iff.mpr blank)

namespace ServerConfig

/-- The pieces the loop runs over. -/
theorem mem_candidates_iff {pieces : List Str} {p : Str → Prop} :
    (∀ candidate ∈ (pieces.map trim).filter (!·.isEmpty), p candidate) ↔
      ∀ piece ∈ pieces, IsBlank piece ∨ p (trim piece) := by
  simp only [List.mem_filter, List.mem_map, Bool.not_eq_true', List.isEmpty_eq_false_iff]
  constructor
  · intro holds piece member
    by_cases blank : IsBlank piece
    · exact .inl blank
    · refine .inr (holds _ ⟨⟨piece, member, rfl⟩, ?_⟩)
      intro empty
      exact blank (trim_eq_nil_iff.mp empty)
  · intro holds candidate kept
    obtain ⟨⟨piece, member, rfl⟩, solid⟩ := kept
    refine (holds piece member).resolve_left fun blank => ?_
    exact solid (trim_eq_nil_iff.mpr blank)

theorem namedHosts_candidates (pieces : List Str) :
    namedHosts ((pieces.map trim).filter (!·.isEmpty)) = namedHosts pieces := by
  induction pieces with
  | nil => rfl
  | cons piece pieces ih =>
      by_cases blank : IsBlank piece
      · have empty : trim piece = [] := trim_eq_nil_iff.mpr blank
        have unnamed : (HostName.parse piece).toOption = none := by
          rw [Option.eq_none_iff_forall_ne_some]
          intro host named
          exact blank.parse_ne_ok host (toOption_parse_eq_some_iff.mp named)
        rw [List.map_cons, List.filter_cons_of_neg (by simp [empty]), ih, namedHosts_cons,
          unnamed, Option.toList_none, List.nil_append]
      · have solid : trim piece ≠ [] := fun empty => blank (trim_eq_nil_iff.mp empty)
        rw [List.map_cons, List.filter_cons_of_pos (by simp [solid]), namedHosts_cons,
          namedHosts_cons, ih, HostName.parse_trim]

/-- The loop comes through exactly if every candidate is a host, and has then
inserted them in order. -/
theorem insertHosts_eq_ok_iff {candidates : List Str} {set answer : IndexSet HostName} :
    insertHosts candidates set = .ok answer ↔
      (∀ candidate ∈ candidates, ∃ host, HostName.parse candidate = .ok host) ∧
        (namedHosts candidates).foldl IndexSet.insert set = answer := by
  induction candidates generalizing set with
  | nil => simp [insertHosts, namedHosts]
  | cons candidate candidates ih =>
      simp only [insertHosts, Except.bind_eq_ok_iff, Except.mapError_eq_ok_iff, ih,
        List.forall_mem_cons]
      cases parsed : HostName.parse candidate with
      | error err => simp
      | ok host => simp [namedHosts_cons, parsed, Except.toOption]

theorem extendAllowedHosts_eq_ok_iff {list : Str} {set answer : IndexSet HostName} :
    extendAllowedHosts list set = .ok answer ↔
      (∀ piece ∈ list.splitOn ',', IsBlank piece ∨ ∃ host, HostName.parse piece = .ok host) ∧
        (namedHosts (list.splitOn ',')).foldl IndexSet.insert set = answer := by
  unfold extendAllowedHosts
  rw [insertHosts_eq_ok_iff, namedHosts_candidates,
    mem_candidates_iff (p := fun candidate => ∃ host, HostName.parse candidate = .ok host)]
  simp only [HostName.parse_trim]

/-- The option is a valid list, if there is one. -/
def ValidList (list : Option Str) : Prop :=
  ∀ piece ∈ listPieces list, IsBlank piece ∨ ∃ host, HostName.parse piece = .ok host

instance (list : Option Str) : Decidable (ValidList list) :=
  decidable_of_iff
    (∀ piece ∈ listPieces list, IsBlank piece ∨ (HostName.parse piece).toOption.isSome) <| by
    simp only [ValidList, Option.isSome_iff_exists, toOption_parse_eq_some_iff]

theorem elim_extendAllowedHosts_eq_ok_iff {list : Option Str} {set answer : IndexSet HostName} :
    list.elim (.ok set) (extendAllowedHosts · set) = .ok answer ↔
      ValidList list ∧ (namedHosts (listPieces list)).foldl IndexSet.insert set = answer := by
  cases list with
  | none => simp [ValidList, listPieces, namedHosts]
  | some list => exact extendAllowedHosts_eq_ok_iff

/-- The hosts of a configuration: where it can be built, the default host and
then those the list names. -/
theorem fromCli_hosts_iff {cli : CliOptions} {host : HostName} {hosts : IndexSet HostName} :
    (∃ config, fromCli cli = .ok config ∧ config.defaultHost = host ∧
        config.allowedHosts = hosts) ↔
      HostName.parse cli.defaultHost = .ok host ∧ ValidList cli.allowedHosts ∧
        (namedHosts (listPieces cli.allowedHosts)).foldl IndexSet.insert (.singleton host) =
          hosts := by
  simp only [fromCli, Except.bind_eq_ok_iff, Except.mapError_eq_ok_iff, Except.pure_eq_ok_iff,
    elim_extendAllowedHosts_eq_ok_iff]
  constructor
  · intro built
    obtain ⟨config, ⟨host, parsed, hosts, listed, rfl⟩, rfl, rfl⟩ := built
    exact ⟨parsed, listed⟩
  · intro valid
    obtain ⟨parsed, listed⟩ := valid
    exact ⟨_, ⟨host, parsed, hosts, listed, rfl⟩, rfl, rfl⟩

end ServerConfig

/-! ## The mismatch message -/

/-- A rendering begins with the username's line, no message does. -/
theorem FingerProfile.render_ne_hostMismatch (profile : FingerProfile) (includePlan : Bool)
    (plan : Option Str) :
    (profile.render includePlan plan).asBytes ≠ renderMessage hostMismatch := by
  intro same
  obtain ⟨rest, lines⟩ : ∃ rest, (profile.render includePlan plan).lines =
      ("User: ".toList ++ profile.username.text) :: rest := ⟨_, rfl⟩
  rw [ResponseBody.asBytes_eq, lines, List.map_cons, List.flatten_cons, frame,
    trimLineEndings_of_printable (printable_greeting profile.username)] at same
  have first := congrArg List.head? same
  have user : asBytes "User: ".toList = 0x55 :: asBytes "ser: ".toList := by decide
  have other : (renderMessage hostMismatch).head? = some 0x66 := by decide
  rw [other, asBytes_append, user] at first
  simp at first

namespace ConnectionHandler

theorem buildResponse_eq_hostMismatch_iff {handler : ConnectionHandler} {query : FingerQuery}
    {host : HostName} :
    handler.buildResponse query host = renderMessage hostMismatch ↔
      handler.config.acceptsHost host = false := by
  have missing : renderMessage userMissing ≠ renderMessage hostMismatch := by decide
  have generic : renderMessage genericError ≠ renderMessage hostMismatch := by decide
  cases served : handler.config.acceptsHost host with
  | false => simp [buildResponse, served]
  | true =>
      simp only [buildResponse, served, Bool.not_true, Bool.false_eq_true, if_false,
        Bool.true_eq_false, iff_false]
      split
      · exact FingerProfile.render_ne_hostMismatch _ _ _
      · exact missing
      · exact generic
      · exact generic
      · exact generic

/-- The message is written exactly to the admitted clients that ask for a host
which is not served. -/
theorem hostMismatch_mem_written_iff {handler : ConnectionHandler} {checked : Outcome}
    {input : Bytes} :
    renderMessage hostMismatch ∈ (handler.connect checked input).2.written ↔
      checked = .ok () ∧ ∃ query, handler.Requests input query ∧
        handler.config.acceptsHost (handler.servedHost query) = false := by
  have slowDown : renderMessage hostMismatch ≠ renderMessage rateLimitMessage := by decide
  have generic : renderMessage hostMismatch ≠ renderMessage genericError := by decide
  rw [connect_eq]
  cases checked with
  | error err => simp [reply, slowDown]
  | ok admitted =>
      cases request : handler.readRequest input with
      | error err => simp [reply, request, Requests, TcpStream.accepted]
      | ok raw =>
          cases parsed : Query.parse raw with
          | error err => simp [reply, request, parsed, Requests, generic]
          | ok query =>
              simp [reply, request, parsed, Requests, eq_comm (a := renderMessage hostMismatch),
                buildResponse_eq_hostMismatch_iff]

end ConnectionHandler

/-! ## Configuration and queries -/

namespace ServerConfig

open ConnectionHandler

theorem fromCli_items {cli : CliOptions} {config : ServerConfig}
    (built : fromCli cli = .ok config) :
    HostName.parse cli.defaultHost = .ok config.defaultHost ∧
      config.allowedHosts.items =
        (config.defaultHost :: namedHosts (listPieces cli.allowedHosts)).eraseDups := by
  obtain ⟨parsed, -, inserted⟩ := fromCli_hosts_iff.mp ⟨config, built, rfl, rfl⟩
  refine ⟨parsed, ?_⟩
  rw [← inserted, IndexSet.items_foldl_insert]
  rfl

theorem fromCli_acceptsHost_iff {cli : CliOptions} {config : ServerConfig}
    (built : fromCli cli = .ok config) {host : HostName} :
    config.acceptsHost host = true ↔ host = config.defaultHost ∨
      ∃ piece ∈ listPieces cli.allowedHosts, HostName.parse piece = .ok host := by
  rw [acceptsHost_iff, (fromCli_items built).2, List.mem_eraseDups, List.mem_cons,
    mem_namedHosts_iff]

/-- A configuration is built exactly from a valid default host and a valid list;
it serves these hosts, the default one first and each once, and so no query
without a host is told that its host is not served. -/
theorem allow_list_exact (cli : CliOptions) :
    ((∃ config, fromCli cli = .ok config) ↔
      (∃ host, HostName.parse cli.defaultHost = .ok host) ∧ ValidList cli.allowedHosts) ∧
    (∀ config, fromCli cli = .ok config →
      HostName.parse cli.defaultHost = .ok config.defaultHost ∧
      config.allowedHosts.items =
        (config.defaultHost :: namedHosts (listPieces cli.allowedHosts)).eraseDups ∧
      (∀ host, config.acceptsHost host = true ↔
        host = config.defaultHost ∨
          ∃ piece ∈ listPieces cli.allowedHosts, HostName.parse piece = .ok host) ∧
      ∀ store checked input query,
        (ConnectionHandler.mk config store).Requests input query → query.host = none →
          renderMessage hostMismatch ∉
            ((ConnectionHandler.mk config store).connect checked input).2.written) ∧
    ∀ piece other host, HostName.parse piece = .ok host →
      (HostName.parse other = .ok host ↔
        toAsciiLowercase (trim piece) = toAsciiLowercase (trim other)) := by
  refine ⟨?_, ?_, ?_⟩
  · constructor
    · intro success
      obtain ⟨config, built⟩ := success
      obtain ⟨parsed, valid, -⟩ := fromCli_hosts_iff.mp ⟨config, built, rfl, rfl⟩
      exact ⟨⟨_, parsed⟩, valid⟩
    · intro valid
      obtain ⟨⟨host, parsed⟩, valid⟩ := valid
      obtain ⟨config, built, -⟩ := fromCli_hosts_iff.mpr ⟨parsed, valid, rfl⟩
      exact ⟨config, built⟩
  · intro config built
    refine ⟨(fromCli_items built).1, (fromCli_items built).2,
      fun host => fromCli_acceptsHost_iff built, ?_⟩
    intro store checked input query asked hostless told
    obtain ⟨-, other, asked', refused⟩ := hostMismatch_mem_written_iff.mp told
    obtain rfl := asked.unique asked'
    have home : (ConnectionHandler.mk config store).servedHost query = config.defaultHost := by
      rw [servedHost, hostless]
      rfl
    rw [home, (fromCli_acceptsHost_iff built).mpr (.inl rfl)] at refused
    cases refused
  · intro piece other host parsed
    have text := (HostName.parse_eq_ok_iff.mp parsed).2
    constructor
    · intro parsed'
      exact text.symm.trans (HostName.parse_eq_ok_iff.mp parsed').2
    · intro same
      rw [← HostName.parse_congr same, parsed]

/-- A list with an empty piece, two spellings of one host and the default host
again. -/
def respelledOptions : CliOptions :=
  { CliOptions.default with
    allowedHosts := some "Example.org,, localhost,EXAMPLE.ORG ".toList }

/-- The default host comes first, and the other one once. -/
theorem allow_list_exact_of_respelled :
    ∃ config, fromCli respelledOptions = .ok config ∧
      config.allowedHosts.items.map HostName.text =
        ["localhost".toList, "example.org".toList] := by
  obtain ⟨success, hosts, -⟩ := allow_list_exact respelledOptions
  have home : HostName.parse respelledOptions.defaultHost = .ok localhost := by decide
  obtain ⟨config, built⟩ := success.mpr ⟨⟨localhost, home⟩, by decide⟩
  obtain ⟨parsed, items, -⟩ := hosts config built
  have same : config.defaultHost = localhost := Except.ok.inj (parsed.symm.trans home)
  refine ⟨config, built, ?_⟩
  rw [items, same]
  decide

end ServerConfig

end Fingermouse
