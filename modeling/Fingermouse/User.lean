import Fingermouse.Framing
import Fingermouse.Identity
import Fingermouse.Result
import Fingermouse.Table

/-!
# User profiles

A profile is read from a TOML table of strings and rendered as lines.  The TOML
parser is a parameter; of its result the profile parser sees the top-level
table, whose keys are distinct, and which values are strings.

* `parse_eq_ok_iff`: what the profile parser accepts, and the profile it
  answers.
* `render_safe_iff`: values and plan lines are reduced to printable ASCII, keys
  are not, so a response is made of printable lines exactly if the document's
  keys are printable.
-/

namespace Fingermouse

open Text

namespace Toml

/-- A TOML value; the other kinds are not told apart. -/
inductive Value
  | string (text : Str)
  | other
deriving DecidableEq

def Value.asStr : Value → Option Str
  | .string text => some text
  | .other => none

/-- A table in its iteration order. -/
abbrev Table := AList fun _ : Str => Value

/-- What `toml::from_str` answers. -/
inductive Document
  | table (contents : Table)
  | scalar (value : Value)

def Document.asTable : Document → Option Table
  | .table contents => some contents
  | .scalar _ => none

structure Error where
  message : Str

end Toml

/-- Errors returned when parsing user profiles. -/
inductive ProfileError
  | notATable
  | nonStringValue (key : Str)
  | usernameMismatch
  | usernameInvalid (err : IdentityError)
  | missingUsername
  | invalidEncoding
  | toml (err : Toml.Error)

/-- The attributes in insertion order. -/
abbrev Attributes := AList fun _ : Str => Str

/-- Parsed user profile loaded from the object store. -/
structure FingerProfile where
  username : Username
  attributes : Attributes

/-- Textual response sent back to a finger client. -/
structure ResponseBody where
  lines : List Str

def usernameKey : Str := "username".toList

namespace FingerProfile

/-! ## Parsing -/

/-- The loop over the table: attributes so far, and the declared username. -/
def parseFields : List (Sigma fun _ : Str => Toml.Value) → Attributes → Option Str →
    Except ProfileError (Attributes × Option Str)
  | [], attributes, declaredUsername => .ok (attributes, declaredUsername)
  | ⟨key, fieldValue⟩ :: fields, attributes, declaredUsername =>
      if key = usernameKey then
        match fieldValue.asStr with
        | none => .error (.nonStringValue key)
        | some declared => parseFields fields attributes (some declared)
      else
        match fieldValue.asStr with
        | none => .error (.nonStringValue key)
        | some entry => parseFields fields (attributes.insertLast key entry) declaredUsername

/-- Parse the provided payload. -/
def parse (fromStr : Str → Except Toml.Error Toml.Document) (username : Username)
    (payload : Bytes) : Except ProfileError FingerProfile := do
  let text ← (fromUtf8 payload).elim (.error .invalidEncoding) .ok
  let document ← (fromStr text).mapError .toml
  let table ← document.asTable.elim (.error .notATable) .ok
  let (attributes, declaredUsername) ← parseFields table.entries ∅ none
  let declared ← declaredUsername.elim (.error .missingUsername) .ok
  let parsed ← (Username.parse declared).mapError .usernameInvalid
  if parsed ≠ username then .error .usernameMismatch
  else return { username, attributes }

/-! ## Rendering -/

def normaliseKey : Str → Str
  | [] => []
  | first :: chars => first.toUpper :: chars.map fun ch => if ch = '_' then ' ' else ch

def sanitiseLine (input : Str) : Str := input.filter isPrintable

/-- The line of one attribute. -/
def attributeLine (key value : Str) : Str :=
  normaliseKey key ++ ": ".toList ++ sanitiseLine value

def planLines : Option Str → List Str
  | some content =>
      if (trim content).isEmpty then ["(empty plan)".toList]
      else (Text.lines content).map sanitiseLine
  | none => ["(no plan)".toList]

/-- Render the profile and optional plan into a response body. -/
def render (profile : FingerProfile) (includePlan : Bool) (plan : Option Str) : ResponseBody :=
  ⟨["User: ".toList ++ profile.username.text] ++
    profile.attributes.entries.map (fun entry => attributeLine entry.1 entry.2) ++
    (if includePlan then [[], "Plan:".toList] ++ planLines plan else []) ++
    [[], "Powered by fingermouse".toList]⟩

end FingerProfile

/-- Serialise the response body into CRLF-terminated bytes. -/
def ResponseBody.asBytes (body : ResponseBody) : Bytes :=
  (body.lines.foldl CrlfBuffer.pushLine .empty).intoBytes

theorem ResponseBody.asBytes_eq (body : ResponseBody) :
    body.asBytes = (body.lines.map frame).flatten :=
  intoBytes_foldl_pushLine .empty body.lines

namespace FingerProfile

/-! ## What the parser accepts -/

/-- The attributes of a table: its string values under their keys, in order,
but for the username. -/
def attributeEntries (fields : List (Sigma fun _ : Str => Toml.Value)) :
    List (Sigma fun _ : Str => Str) :=
  fields.filterMap fun field =>
    if field.1 = usernameKey then none else field.2.asStr.map (⟨field.1, ·⟩)

/-- The declared username among the fields, if any. -/
def declaredIn (fields : List (Sigma fun _ : Str => Toml.Value)) : Option Str :=
  (fields.find? fun field => field.1 = usernameKey).bind fun field => field.2.asStr

theorem declaredIn_eq_none {fields : List (Sigma fun _ : Str => Toml.Value)}
    (absent : ∀ field ∈ fields, field.1 ≠ usernameKey) : declaredIn fields = none := by
  have none_found : fields.find? (fun field => field.1 = usernameKey) = none := by
    simpa [List.find?_eq_none] using absent
  rw [declaredIn, none_found, Option.bind_none]

/-- The loop succeeds exactly on tables of strings, and collects the attributes
in table order and the declared username. -/
theorem parseFields_eq_ok_iff {fields : List (Sigma fun _ : Str => Toml.Value)}
    {attributes attributes' : Attributes} {declared declared' : Option Str}
    (distinct : fields.NodupKeys) (fresh : ∀ field ∈ fields, field.1 ∉ attributes) :
    parseFields fields attributes declared = .ok (attributes', declared') ↔
      (∀ field ∈ fields, field.2.asStr ≠ none) ∧
        attributes'.entries = attributes.entries ++ attributeEntries fields ∧
        declared' = (declaredIn fields).or declared := by
  induction fields generalizing attributes declared with
  | nil =>
      simp [parseFields, attributeEntries, declaredIn, AList.ext_iff, eq_comm]
  | cons field fields ih =>
      obtain ⟨key, value⟩ := field
      obtain ⟨unseen, distinct⟩ := List.nodupKeys_cons.mp distinct
      rw [List.forall_mem_cons] at fresh
      have others : ∀ field ∈ fields, field.1 ≠ key :=
        fun field member same =>
          unseen (show key ∈ fields.keys from same ▸ List.mem_keys_of_mem member)
      cases string : value.asStr with
      | none => by_cases named : key = usernameKey <;> simp [parseFields, string, named]
      | some text =>
          by_cases named : key = usernameKey
          · have undeclared := declaredIn_eq_none (named ▸ others)
            have declares : declaredIn (⟨key, value⟩ :: fields) = some text := by
              simp [declaredIn, named, string]
            have skips : attributeEntries (⟨key, value⟩ :: fields) = attributeEntries fields := by
              simp [attributeEntries, named]
            rw [parseFields, if_pos named, string, skips, declares]
            simp only [ih distinct fresh.2, undeclared, List.forall_mem_cons, string]
            simp
          · have inserted := AList.insertLast_of_notMem text fresh.1
            have keeps : attributeEntries (⟨key, value⟩ :: fields) =
                ⟨key, text⟩ :: attributeEntries fields := by
              simp [attributeEntries, named, string]
            have declares : declaredIn (⟨key, value⟩ :: fields) = declaredIn fields := by
              simp [declaredIn, named]
            have fresh' : ∀ field ∈ fields, field.1 ∉ attributes.insertLast key text := by
              intro field member inTable
              rcases (AList.mem_insertLast_of_notMem text fresh.1).mp inTable with old | same
              · exact fresh.2 field member old
              · exact others field member same
            rw [parseFields, if_neg named, string, keeps, declares]
            simp only [ih distinct fresh', inserted, List.forall_mem_cons, string]
            simp

/-- The parser accepts exactly the payloads that are UTF-8, parse to a table of
strings and declare the requested username; it answers the table's other
strings. -/
theorem parse_eq_ok_iff {fromStr : Str → Except Toml.Error Toml.Document} {username : Username}
    {payload : Bytes} {profile : FingerProfile} :
    parse fromStr username payload = .ok profile ↔
      ∃ text table, fromUtf8 payload = some text ∧ fromStr text = .ok (.table table) ∧
        (∀ field ∈ table.entries, field.2.asStr ≠ none) ∧
        (∃ declared, declaredIn table.entries = some declared ∧
          Username.parse declared = .ok username) ∧
        profile.username = username ∧
        profile.attributes.entries = attributeEntries table.entries := by
  have asTable : ∀ document table, document = Toml.Document.table table ↔
      document.asTable = some table := by
    rintro (contents | value) table <;> simp [Toml.Document.asTable]
  simp only [parse, Except.bind_eq_ok_iff, Except.elim_error_eq_ok_iff,
    Except.mapError_eq_ok_iff]
  constructor
  · intro accepted
    obtain ⟨text, decoded, document, parsed, table, tabular, ⟨attributes, found⟩, fields, declared,
      rfl, user, valid, rest⟩ := accepted
    obtain rfl := (asTable document table).mpr tabular
    obtain ⟨strings, entries, found⟩ := (parseFields_eq_ok_iff table.nodupKeys
      fun _ _ => AList.notMem_empty _).mp fields
    rw [Option.or_none] at found
    split_ifs at rest with mismatch
    obtain rfl := Except.pure_eq_ok_iff.mp rest
    rw [ne_eq, not_not] at mismatch
    exact ⟨text, table, decoded, parsed, strings, ⟨declared, found.symm, mismatch ▸ valid⟩, rfl,
      entries⟩
  · intro document
    obtain ⟨text, table, decoded, parsed, strings, ⟨declared, found, valid⟩, rfl, entries⟩ :=
      document
    refine ⟨text, decoded, _, parsed, table, rfl, (profile.attributes, some declared),
      ?_, declared, rfl, profile.username, valid, ?_⟩
    · exact (parseFields_eq_ok_iff table.nodupKeys fun _ _ => AList.notMem_empty _).mpr
        ⟨strings, entries, by rw [found, Option.or_none]⟩
    · rw [if_neg (not_not.mpr rfl)]
      rfl

/-! ## What the response shows -/

/-- What each attribute adds to the response. -/
def attributePieces (profile : FingerProfile) : List Bytes :=
  profile.attributes.entries.map fun entry => frame (attributeLine entry.1 entry.2)

/-- The response is a concatenation of printable lines in which each attribute
has exactly one. -/
def SafeResponse (profile : FingerProfile) (includePlan : Bool) (plan : Option Str) : Prop :=
  ∃ before after : List Bytes,
    (profile.render includePlan plan).asBytes =
        (before ++ profile.attributePieces ++ after).flatten ∧
      ∀ piece ∈ before ++ profile.attributePieces ++ after, IsWireLine piece

theorem isPrintable_of_mem_sanitiseLine {input : Str} {c : Char} (member : c ∈ sanitiseLine input) :
    isPrintable c = true :=
  (List.mem_filter.mp member).2

theorem printable_planLines {plan : Option Str} {line : Str} (member : line ∈ planLines plan) :
    ∀ c ∈ line, isPrintable c = true := by
  cases plan with
  | none =>
      obtain rfl := List.mem_singleton.mp member
      decide
  | some content =>
      simp only [planLines] at member
      split_ifs at member
      · obtain rfl := List.mem_singleton.mp member
        decide
      · obtain ⟨piece, -, rfl⟩ := List.mem_map.mp member
        exact fun c => isPrintable_of_mem_sanitiseLine

theorem isPrintable_toUpper (c : Char) : isPrintable c.toUpper = isPrintable c := by
  by_cases narrow : c.toNat < 128
  · exact forall_ascii (p := fun c => isPrintable c.toUpper = isPrintable c) (by decide) c narrow
  · rw [toUpper_of_not_ascii (Nat.le_of_not_lt narrow)]

/-- Normalising a key neither adds nor removes a character outside printable
ASCII. -/
theorem printable_normaliseKey_iff (key : Str) :
    (∀ c ∈ normaliseKey key, isPrintable c = true) ↔ ∀ c ∈ key, isPrintable c = true := by
  cases key with
  | nil => rfl
  | cons first chars =>
      have underscore : ∀ c : Char, isPrintable (if c = '_' then ' ' else c) = isPrintable c := by
        intro c
        split_ifs with same
        · rw [same]
          rfl
        · rfl
      simp only [normaliseKey, List.forall_mem_cons, isPrintable_toUpper, List.forall_mem_map,
        underscore]

theorem printable_colon : ∀ c ∈ ": ".toList, isPrintable c = true := by decide

/-- The line of an attribute ends in its value or in the blank before it, never
in a line end. -/
theorem trimLineEndings_attributeLine (key value : Str) :
    trimLineEndings (attributeLine key value) = attributeLine key value := by
  refine trimLineEndings_eq_self fun c last => not_lineEnd_of_isPrintable ?_
  rw [attributeLine, List.append_assoc, List.getLast?_append_of_ne_nil _ (by simp)] at last
  rcases List.mem_append.mp (List.mem_of_getLast? last) with colon | inValue
  · exact printable_colon c colon
  · exact isPrintable_of_mem_sanitiseLine inValue

/-- The line of an attribute is printable exactly if its key is. -/
theorem isWireLine_attributeLine_iff {key value : Str} :
    IsWireLine (frame (attributeLine key value)) ↔ ∀ c ∈ key, isPrintable c = true := by
  rw [isWireLine_frame_iff, trimLineEndings_attributeLine, ← printable_normaliseKey_iff key]
  constructor
  · exact fun printable c member =>
      printable c (List.mem_append_left _ (List.mem_append_left _ member))
  · intro printable c member
    rcases List.mem_append.mp member with label | inValue
    · rcases List.mem_append.mp label with inKey | colon
      · exact printable c inKey
      · exact printable_colon c colon
    · exact isPrintable_of_mem_sanitiseLine inValue

theorem printable_greeting (username : Username) :
    ∀ c ∈ "User: ".toList ++ username.text, isPrintable c = true := by
  intro c member
  rcases List.mem_append.mp member with label | name
  · exact (by decide : ∀ c ∈ "User: ".toList, isPrintable c = true) c label
  · have printable := printable_of_isUsernameChar (username.wellFormed.2.2 c name)
    exact isPrintable_iff.mpr (by omega)

/-- The plan section and the footer are printable whatever the plan. -/
theorem printable_tail (includePlan : Bool) (plan : Option Str) :
    ∀ line ∈ (if includePlan then [[], "Plan:".toList] ++ planLines plan else []) ++
        [[], "Powered by fingermouse".toList],
      ∀ c ∈ line, isPrintable c = true := by
  rw [List.forall_mem_append]
  refine ⟨?_, by decide⟩
  split_ifs
  · rw [List.forall_mem_append]
    exact ⟨by decide, fun _ => printable_planLines⟩
  · exact fun _ member => by cases member

/-- The response is safe exactly if the attributes' keys are printable. -/
theorem safeResponse_iff (profile : FingerProfile) (includePlan : Bool) (plan : Option Str) :
    profile.SafeResponse includePlan plan ↔
      ∀ entry ∈ profile.attributes.entries, ∀ c ∈ entry.1, isPrintable c = true := by
  constructor
  · intro safe entry member
    obtain ⟨before, after, -, printable⟩ := safe
    have piece : frame (attributeLine entry.1 entry.2) ∈ profile.attributePieces :=
      List.mem_map.mpr ⟨entry, member, rfl⟩
    exact isWireLine_attributeLine_iff.mp
      (printable _ (List.mem_append_left _ (List.mem_append_right _ piece)))
  · intro printable
    refine ⟨[frame ("User: ".toList ++ profile.username.text)],
      ((if includePlan then [[], "Plan:".toList] ++ planLines plan else []) ++
        [[], "Powered by fingermouse".toList]).map frame, ?_, ?_⟩
    · refine (ResponseBody.asBytes_eq _).trans (congrArg List.flatten ?_)
      simp only [render, attributePieces, List.map_append, List.map_map, List.map_cons,
        List.map_nil, List.append_assoc, Function.comp_def]
    · intro piece member
      rcases List.mem_append.mp member with front | back
      · rcases List.mem_append.mp front with greeting | shown
        · rw [List.mem_singleton.mp greeting]
          exact isWireLine_frame (printable_greeting profile.username)
        · obtain ⟨entry, inTable, rfl⟩ := List.mem_map.mp shown
          exact isWireLine_attributeLine_iff.mpr (printable entry inTable)
      · obtain ⟨line, inTail, rfl⟩ := List.mem_map.mp back
        exact isWireLine_frame (printable_tail includePlan plan line inTail)

/-- The attributes of a table of strings have the table's keys, but for the
username. -/
theorem forall_attributeEntries_iff {p : Str → Prop}
    {fields : List (Sigma fun _ : Str => Toml.Value)}
    (strings : ∀ field ∈ fields, field.2.asStr ≠ none) (named : p usernameKey) :
    (∀ entry ∈ attributeEntries fields, p entry.1) ↔ ∀ field ∈ fields, p field.1 := by
  constructor
  · intro holds field member
    by_cases isName : field.1 = usernameKey
    · rwa [isName]
    · obtain ⟨text, string⟩ := Option.ne_none_iff_exists'.mp (strings field member)
      refine holds ⟨field.1, text⟩ (List.mem_filterMap.mpr ⟨field, member, ?_⟩)
      rw [if_neg isName, string, Option.map_some]
  · intro holds entry member
    obtain ⟨field, inFields, shown⟩ := List.mem_filterMap.mp member
    split_ifs at shown
    obtain ⟨text, -, rfl⟩ := Option.map_eq_some_iff.mp shown
    exact holds field inFields

/-- The response to an accepted document, whatever the plan, is made of
printable lines, one for each attribute, exactly if the document's keys are
printable ASCII: keys alone reach the client unfiltered. -/
theorem render_safe_iff {fromStr : Str → Except Toml.Error Toml.Document} {username : Username}
    {payload : Bytes} {text : Str} {table : Toml.Table} {profile : FingerProfile}
    (decoded : fromUtf8 payload = some text) (document : fromStr text = .ok (.table table))
    (accepted : parse fromStr username payload = .ok profile) (includePlan : Bool)
    (plan : Option Str) :
    profile.SafeResponse includePlan plan ↔
      ∀ field ∈ table.entries, ∀ c ∈ field.1, isPrintable c = true := by
  obtain ⟨text', table', decoded', document', strings, -, -, entries⟩ :=
    parse_eq_ok_iff.mp accepted
  obtain rfl : text' = text := Option.some.inj (decoded'.symm.trans decoded)
  rw [document'] at document
  cases document
  rw [safeResponse_iff, entries]
  exact forall_attributeEntries_iff (p := fun key => ∀ c ∈ key, isPrintable c = true) strings
    (by decide)

/-! ## Two documents -/

section Documents

/-- A TOML parser, as far as one document goes. -/
def parserOf (text : Str) (table : Toml.Table) (input : Str) :
    Except Toml.Error Toml.Document :=
  if input = text then .ok (.table table) else .error ⟨"unknown document".toList⟩

def alice : Username := ⟨"alice".toList, by decide, by decide⟩

/-- The table of a document with one attribute. -/
def singleTable (key value : Str) : Toml.Table :=
  ((∅ : Toml.Table).insert usernameKey (.string alice.text)).insert key (.string value)

def singleProfile (key value : Str) : FingerProfile :=
  ⟨alice, (∅ : Attributes).insert key value⟩

theorem parse_single (text : Str) {key : Str} (value : Str) (ne : key ≠ usernameKey) :
    parse (parserOf text (singleTable key value)) alice (asBytes text) =
      .ok (singleProfile key value) := by
  have entries : (singleTable key value).entries =
      [⟨key, .string value⟩, ⟨usernameKey, .string alice.text⟩] := by
    simp [singleTable, AList.entries_insert, ne]
  refine parse_eq_ok_iff.mpr ⟨text, singleTable key value, fromUtf8_asBytes text, if_pos rfl, ?_,
    ⟨alice.text, ?_, Username.parse_text alice⟩, rfl, ?_⟩
  · simp [entries, Toml.Value.asStr]
  · simp [entries, declaredIn, ne, Toml.Value.asStr]
  · simp [entries, attributeEntries, ne, Toml.Value.asStr, singleProfile]

def plainDocument : Str := "username = \"alice\"\nfull_name = \"Alice Smith\"\n".toList

theorem render_safe_of_plain :
    (singleProfile "full_name".toList "Alice Smith".toList).SafeResponse true none :=
  (render_safe_iff (fromUtf8_asBytes plainDocument) (if_pos rfl)
    (parse_single plainDocument "Alice Smith".toList (by decide)) true none).mpr (by decide)

/-- A quoted key may hold any character by an escape, here the ones that clear
a terminal. -/
def escapeDocument : Str := "username = \"alice\"\n\"\\u001b[2J\" = \"x\"\n".toList

/-- Accepted, the document sends its escape sequence to the client. -/
theorem escape_reaches_client :
    ¬∀ (fromStr : Str → Except Toml.Error Toml.Document) (username : Username)
      (payload : Bytes) (profile : FingerProfile), parse fromStr username payload = .ok profile →
      ∀ includePlan plan, profile.SafeResponse includePlan plan := by
  intro safe
  have key : "\x1b[2J".toList ≠ usernameKey := by decide
  have printable := (safeResponse_iff _ false none).mp
    (safe _ _ _ _ (parse_single escapeDocument "x".toList key) false none)
  revert printable
  decide

end Documents

end FingerProfile

end Fingermouse
