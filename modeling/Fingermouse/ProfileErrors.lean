import Fingermouse.UserResponse

/-!
# Why a profile is rejected

The error of every payload that is no profile.

* `parseFields_of_nonString` and `exists_parseFields`: the loop over the table
  stops at the first value that is no string, and names its key.
* `rejects_iff`: the one reason for which a payload is rejected.
-/

namespace Fingermouse

open Text

namespace FingerProfile

/-- The table holds strings only. -/
def Strings (table : Toml.Table) : Prop := ∀ field ∈ table.entries, field.2.asStr ≠ none

/-- The reasons for which a payload is no profile of the user; each presupposes
that those before it do not apply. -/
inductive Rejects (fromStr : Str → Except Toml.Error Toml.Document) (username : Username)
    (payload : Bytes) : ProfileError → Prop
  | invalidEncoding :
    fromUtf8 payload = none → Rejects fromStr username payload .invalidEncoding
  | toml {text : Str} {err : Toml.Error} :
    fromUtf8 payload = some text → fromStr text = .error err →
    Rejects fromStr username payload (.toml err)
  | notATable {text : Str} {value : Toml.Value} :
    fromUtf8 payload = some text → fromStr text = .ok (.scalar value) →
    Rejects fromStr username payload .notATable
  | nonStringValue {text : Str} {table : Toml.Table} {key : Str} {value : Toml.Value}
      {front back : List (Sigma fun _ : Str => Toml.Value)} :
    fromUtf8 payload = some text → fromStr text = .ok (.table table) →
    table.entries = front ++ ⟨key, value⟩ :: back → value.asStr = none →
    (∀ field ∈ front, field.2.asStr ≠ none) →
    Rejects fromStr username payload (.nonStringValue key)
  | missingUsername {text : Str} {table : Toml.Table} :
    fromUtf8 payload = some text → fromStr text = .ok (.table table) → Strings table →
    table.lookup usernameKey = none →
    Rejects fromStr username payload .missingUsername
  | usernameInvalid {text declared : Str} {table : Toml.Table} {err : IdentityError} :
    fromUtf8 payload = some text → fromStr text = .ok (.table table) → Strings table →
    table.lookup usernameKey = some (.string declared) → Username.parse declared = .error err →
    Rejects fromStr username payload (.usernameInvalid err)
  | usernameMismatch {text declared : Str} {table : Toml.Table} {other : Username} :
    fromUtf8 payload = some text → fromStr text = .ok (.table table) → Strings table →
    table.lookup usernameKey = some (.string declared) → Username.parse declared = .ok other →
    other ≠ username → Rejects fromStr username payload .usernameMismatch

/-! ## The loop -/

theorem parseFields_of_append {front : List (Sigma fun _ : Str => Toml.Value)}
    (strings : ∀ field ∈ front, field.2.asStr ≠ none)
    (fields : List (Sigma fun _ : Str => Toml.Value)) (attributes : Attributes)
    (declared : Option Str) :
    ∃ attributes' declared', parseFields (front ++ fields) attributes declared =
      parseFields fields attributes' declared' := by
  induction front generalizing attributes declared with
  | nil => exact ⟨attributes, declared, rfl⟩
  | cons field front ih =>
      rw [List.forall_mem_cons] at strings
      obtain ⟨text, string⟩ := Option.ne_none_iff_exists'.mp strings.1
      rw [List.cons_append, parseFields]
      split_ifs with named
      · rw [string]
        exact ih strings.2 _ _
      · rw [string]
        exact ih strings.2 _ _

theorem parseFields_of_nonString {front back : List (Sigma fun _ : Str => Toml.Value)} {key : Str}
    {value : Toml.Value} (strings : ∀ field ∈ front, field.2.asStr ≠ none)
    (nonString : value.asStr = none) (attributes : Attributes) (declared : Option Str) :
    parseFields (front ++ ⟨key, value⟩ :: back) attributes declared =
      .error (.nonStringValue key) := by
  obtain ⟨attributes', declared', skipped⟩ :=
    parseFields_of_append strings (⟨key, value⟩ :: back) attributes declared
  rw [skipped, parseFields, nonString]
  split_ifs <;> rfl

/-- Over strings the loop answers the declared username. -/
theorem exists_parseFields {table : Toml.Table} (strings : Strings table) :
    ∃ attributes, parseFields table.entries ∅ none =
      .ok (attributes, (table.lookup usernameKey).bind Toml.Value.asStr) := by
  refine ⟨⟨attributeEntries table.entries, nodupKeys_attributeEntries strings⟩, ?_⟩
  rw [parseFields_eq_ok_iff table.nodupKeys fun _ _ => AList.notMem_empty _]
  exact ⟨strings, rfl, by rw [Option.or_none, declaredIn_eq_lookup]⟩

/-! ## The parser -/

section Parser

variable {fromStr : Str → Except Toml.Error Toml.Document} {username : Username}
  {payload : Bytes}

theorem parse_of_table {text : Str} {table : Toml.Table}
    (decoded : fromUtf8 payload = some text) (document : fromStr text = .ok (.table table)) :
    parse fromStr username payload = (do
      let (attributes, declaredUsername) ← parseFields table.entries ∅ none
      let declared ← declaredUsername.elim (.error .missingUsername) .ok
      let parsed ← (Username.parse declared).mapError .usernameInvalid
      if parsed ≠ username then .error .usernameMismatch
      else return { username, attributes }) := by
  rw [parse, decoded]
  simp only [Option.elim_some, bind, Except.bind, document, Except.mapError, Toml.Document.asTable]

/-- A payload with a reason to be rejected is rejected for it. -/
theorem Rejects.parse_eq {err : ProfileError} (rejects : Rejects fromStr username payload err) :
    parse fromStr username payload = .error err := by
  cases rejects with
  | invalidEncoding undecoded =>
      rw [parse, undecoded]
      rfl
  | toml decoded failed =>
      rw [parse, decoded]
      simp only [Option.elim_some, bind, Except.bind, failed, Except.mapError]
  | notATable decoded document =>
      rw [parse, decoded]
      simp only [Option.elim_some, bind, Except.bind, document, Except.mapError,
        Toml.Document.asTable, Option.elim_none]
  | nonStringValue decoded document split nonString strings =>
      rw [parse_of_table decoded document, split, parseFields_of_nonString strings nonString]
      rfl
  | missingUsername decoded document strings undeclared =>
      obtain ⟨attributes, fields⟩ := exists_parseFields strings
      rw [parse_of_table decoded document, fields, undeclared]
      rfl
  | usernameInvalid decoded document strings declares invalid =>
      obtain ⟨attributes, fields⟩ := exists_parseFields strings
      rw [parse_of_table decoded document, fields, declares]
      simp only [bind, Except.bind, Option.bind_some, Toml.Value.asStr, Option.elim_some, invalid,
        Except.mapError]
  | usernameMismatch decoded document strings declares valid differs =>
      obtain ⟨attributes, fields⟩ := exists_parseFields strings
      rw [parse_of_table decoded document, fields, declares]
      simp only [bind, Except.bind, Option.bind_some, Toml.Value.asStr, Option.elim_some, valid,
        Except.mapError, if_pos differs]

/-- A payload is a profile, or there is a reason to reject it. -/
theorem exists_parse_or_rejects (fromStr : Str → Except Toml.Error Toml.Document)
    (username : Username) (payload : Bytes) :
    (∃ profile, parse fromStr username payload = .ok profile) ∨
      ∃ err, Rejects fromStr username payload err := by
  cases decoded : fromUtf8 payload with
  | none => exact .inr ⟨_, .invalidEncoding decoded⟩
  | some text =>
      rcases document : fromStr text with err | table | value
      · exact .inr ⟨_, .toml decoded document⟩
      · by_cases strings : Strings table
        · cases declared : table.lookup usernameKey with
          | none => exact .inr ⟨_, .missingUsername decoded document strings declared⟩
          | some value =>
              obtain ⟨text', string⟩ := Option.ne_none_iff_exists'.mp
                (strings ⟨usernameKey, value⟩ (AList.mem_lookup_iff.mp declared))
              obtain rfl : value = .string text' := by
                cases value <;> simp_all [Toml.Value.asStr]
              rcases named : Username.parse text' with err | other
              · exact .inr ⟨_, .usernameInvalid decoded document strings declared named⟩
              · by_cases same : other = username
                · obtain ⟨attributes, fields⟩ := exists_parseFields strings
                  refine .inl ⟨⟨username, attributes⟩, ?_⟩
                  rw [parse_of_table decoded document, fields, declared]
                  simp only [bind, Except.bind, Option.bind_some, Toml.Value.asStr,
                    Option.elim_some, named, Except.mapError, same, ne_eq, not_true_eq_false,
                    if_false]
                  rfl
                · exact .inr ⟨_, .usernameMismatch decoded document strings declared named same⟩
        · -- The first value that is no string is the one the loop stops at.
          cases first : table.entries.find? fun field => field.2.asStr.isNone with
          | none =>
              rw [List.find?_eq_none] at first
              exact absurd (fun field member none => first field member (by simp [none])) strings
          | some field =>
              obtain ⟨nonString, front, back, split, before⟩ :=
                List.find?_eq_some_iff_append.mp first
              refine .inr ⟨_, .nonStringValue decoded document split
                (Option.isNone_iff_eq_none.mp nonString) fun field member none => ?_⟩
              have string := before field member
              rw [none] at string
              cases string
      · exact .inr ⟨_, .notATable decoded document⟩

/-- A payload is rejected for exactly one reason: the first that the parser
comes to, and for a value that is no string the first such value of the table. -/
theorem rejects_iff (fromStr : Str → Except Toml.Error Toml.Document)
    (username : Username) (payload : Bytes) (err : ProfileError) :
    parse fromStr username payload = .error err ↔ Rejects fromStr username payload err := by
  refine ⟨fun rejected => ?_, Rejects.parse_eq⟩
  rcases exists_parse_or_rejects fromStr username payload with ⟨profile, accepted⟩ | reason
  · rw [accepted] at rejected
    cases rejected
  · obtain ⟨err', rejects⟩ := reason
    obtain rfl : err' = err := Except.error.inj (rejects.parse_eq.symm.trans rejected)
    exact rejects

end Parser

end FingerProfile

end Fingermouse
