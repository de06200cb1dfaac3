import Fingermouse.Identity
import Fingermouse.Result

/-!
# The query parser

`parse` is the chain of the source: decode, strip the terminator, refuse
control characters, split at white space, look ahead for the `/W` option, split
the user token at `@`, validate both names.  `parse_eq_ok_iff` and
`parseUserHost_eq_ok_iff` say once what acceptance means.

The control-character check runs on the stripped line but still exempts
carriage return and line feed, so an accepted line may carry either as white
space; `control_free_iff` says that these two are the only ones.
-/

namespace Fingermouse

open Text

/-- Parsed representation of a finger query. -/
structure FingerQuery where
  username : Username
  host : Option HostName
  verbose : Bool
deriving DecidableEq

/-- Errors that may be encountered when parsing a finger query. -/
inductive QueryError
  | missingCrlf
  | controlCharacter
  | missingUsername
  | unknownOption
  | trailingInput
  | invalidUsername (message : Str)
  | invalidHostname (message : Str)
  | invalidEncoding
deriving DecidableEq

namespace Query

def crlf : Str := ['\r', '\n']

def isEmbeddedControlChar (b : UInt8) : Bool := b ≤ 0x1f && b != 0x0d && b != 0x0a

/-- Strip framing and validate the raw query input. -/
def validateInput (line : Bytes) : Except QueryError Str :=
  match fromUtf8 line with
  | none => .error .invalidEncoding
  | some raw =>
      match stripSuffix crlf raw with
      | none => .error .missingCrlf
      | some stripped =>
          if (asBytes stripped).any isEmbeddedControlChar then .error .controlCharacter
          else .ok stripped

/-- The check `parse_verbose_flag` makes of the token after the option. -/
def ensureValid (token : Str) : Except QueryError Str :=
  if token.isEmpty then .error .missingUsername
  else if token.head? = some '/' then .error .unknownOption
  else .ok token

/-- Parse the optional `/W` flag; the tokens not yet consumed come back as the
iterator the source advances. -/
def parseVerboseFlag (tokens : List Str) (first : Str) :
    Except QueryError (Bool × Str × List Str) :=
  if eqIgnoreAsciiCase first "/W".toList then
    match tokens with
    | [] => .error .missingUsername
    | next :: tokens => do
        let token ← ensureValid next
        return (true, token, tokens)
  else do
    let token ← ensureValid first
    return (false, token, tokens)

def formatError (err : IdentityError) : Str := err.display

/-- The host fragment of a split user token: what stands between the first two
`@`, unless it is empty. -/
def hostFragment (parts : List Str) : Option Str :=
  (parts.tail.head?.map fun fragment => (fragment.splitOn '@').head?.getD []).filter (!·.isEmpty)

/-- Parse the username and optional host fragment from the provided token. -/
def parseUserHost (userToken : Str) : Except QueryError (Username × Option HostName) :=
  let parts := splitn '@' 2 userToken
  let user := parts.head?.getD []
  if user.isEmpty then .error .missingUsername
  else do
    let username ← (Username.parse user).mapError fun err => .invalidUsername (formatError err)
    match hostFragment parts with
    | none => return (username, none)
    | some fragment => do
        let host ← (HostName.parse fragment).mapError fun err => .invalidHostname (formatError err)
        return (username, some host)

/-- Parse the supplied query line. -/
def parse (line : Bytes) : Except QueryError FingerQuery := do
  let raw ← validateInput line
  match splitWhitespace raw with
  | [] => .error .missingUsername
  | first :: tokens => do
      let (verbose, userToken, tokens) ← parseVerboseFlag tokens first
      if tokens.head?.isSome then .error .trailingInput
      else do
        let (username, host) ← parseUserHost userToken
        return { username, host, verbose }

/-! ## What acceptance means -/

theorem validateInput_eq_ok_iff {line : Bytes} {stripped : Str} :
    validateInput line = .ok stripped ↔
      line = asBytes (stripped ++ crlf) ∧
        ∀ b ∈ asBytes stripped, isEmbeddedControlChar b = false := by
  unfold validateInput
  constructor
  · intro valid
    split at valid
    · cases valid
    · rename_i raw decoded
      split at valid
      · cases valid
      · rename_i text suffix
        split_ifs at valid with control
        injection valid with same
        subst same
        rw [stripSuffix_eq_some_iff] at suffix
        rw [fromUtf8_eq_some_iff, suffix] at decoded
        simp only [List.any_eq_true, not_exists, not_and, Bool.not_eq_true] at control
        exact ⟨decoded, control⟩
  · intro valid
    obtain ⟨rfl, control⟩ := valid
    have clean : (asBytes stripped).any isEmbeddedControlChar = false := by
      simpa [List.any_eq_false] using control
    have suffix : stripSuffix crlf (stripped ++ crlf) = some stripped :=
      stripSuffix_eq_some_iff.mpr rfl
    simp only [fromUtf8_asBytes, suffix, clean, Bool.false_eq_true, if_false]

/-- A token that may hold the username: not empty and not an option. -/
def IsUserToken (token : Str) : Prop := token ≠ [] ∧ token.head? ≠ some '/'

theorem ensureValid_eq_ok_iff {token answer : Str} :
    ensureValid token = .ok answer ↔ IsUserToken token ∧ token = answer := by
  unfold ensureValid IsUserToken
  split_ifs with empty option
  · simp_all
  · simp [option]
  · simp only [List.isEmpty_iff] at empty
    simp [empty, option]

/-- The option is consumed exactly when the first token is it, and the user
token is then the next one. -/
theorem parseVerboseFlag_eq_ok_iff {tokens : List Str} {first : Str}
    {answer : Bool × Str × List Str} :
    parseVerboseFlag tokens first = .ok answer ↔
      (eqIgnoreAsciiCase first "/W".toList = true ∧
        ∃ token rest, tokens = token :: rest ∧ IsUserToken token ∧ (true, token, rest) = answer) ∨
      (eqIgnoreAsciiCase first "/W".toList = false ∧
        IsUserToken first ∧ (false, first, tokens) = answer) := by
  unfold parseVerboseFlag
  cases option : eqIgnoreAsciiCase first "/W".toList with
  | false =>
      simp only [Bool.false_eq_true, if_false, Except.bind_eq_ok_iff, ensureValid_eq_ok_iff,
        Except.pure_eq_ok_iff, false_and, false_or, true_and]
      constructor
      · intro taken
        obtain ⟨token, ⟨valid, rfl⟩, same⟩ := taken
        exact ⟨valid, same⟩
      · intro taken
        obtain ⟨valid, same⟩ := taken
        exact ⟨first, ⟨valid, rfl⟩, same⟩
  | true =>
      simp only [if_true, Bool.true_eq_false, false_and, or_false, true_and]
      cases tokens with
      | nil => simp
      | cons next tokens =>
          simp only [Except.bind_eq_ok_iff, ensureValid_eq_ok_iff, Except.pure_eq_ok_iff]
          constructor
          · intro taken
            obtain ⟨token, ⟨valid, rfl⟩, same⟩ := taken
            exact ⟨next, tokens, rfl, valid, same⟩
          · intro taken
            obtain ⟨token, rest, tail, valid, same⟩ := taken
            cases tail
            exact ⟨next, ⟨valid, rfl⟩, same⟩

/-- Both names of an accepted token come from their own parsers. -/
theorem parseUserHost_eq_ok_iff {userToken : Str} {username : Username} {host : Option HostName} :
    parseUserHost userToken = .ok (username, host) ↔
      (splitn '@' 2 userToken).head?.getD [] ≠ [] ∧
        Username.parse ((splitn '@' 2 userToken).head?.getD []) = .ok username ∧
        match hostFragment (splitn '@' 2 userToken) with
        | none => none = host
        | some fragment => ∃ name, HostName.parse fragment = .ok name ∧ some name = host := by
  unfold parseUserHost
  simp only [List.isEmpty_iff]
  split_ifs with empty
  · simp [empty]
  · simp only [Except.bind_eq_ok_iff, Except.mapError_eq_ok_iff, ne_eq, empty, not_false_eq_true,
      true_and]
    cases hostFragment (splitn '@' 2 userToken) with
    | none =>
        simp only [Except.pure_eq_ok_iff, Prod.mk.injEq]
        constructor
        · intro accepted
          obtain ⟨_, parsed, same, rest⟩ := accepted
          exact ⟨same ▸ parsed, rest⟩
        · intro names
          obtain ⟨parsed, rest⟩ := names
          exact ⟨username, parsed, rfl, rest⟩
    | some fragment =>
        simp only [Except.bind_eq_ok_iff, Except.mapError_eq_ok_iff, Except.pure_eq_ok_iff,
          Prod.mk.injEq]
        constructor
        · intro accepted
          obtain ⟨_, parsed, name, found, same, rest⟩ := accepted
          exact ⟨same ▸ parsed, name, found, rest⟩
        · intro names
          obtain ⟨parsed, name, found, rest⟩ := names
          exact ⟨username, parsed, name, found, rfl, rest⟩

/-- An accepted line is a terminated UTF-8 text free of the refused control
characters, whose tokens are an optional flag and one user token. -/
theorem parse_eq_ok_iff {line : Bytes} {query : FingerQuery} :
    parse line = .ok query ↔
      ∃ stripped token, validateInput line = .ok stripped ∧ IsUserToken token ∧
        ((query.verbose = true ∧ ∃ flag, eqIgnoreAsciiCase flag "/W".toList = true ∧
            splitWhitespace stripped = [flag, token]) ∨
          (query.verbose = false ∧ eqIgnoreAsciiCase token "/W".toList = false ∧
            splitWhitespace stripped = [token])) ∧
        parseUserHost token = .ok (query.username, query.host) := by
  simp only [parse, Except.bind_eq_ok_iff]
  constructor
  · intro accepted
    obtain ⟨stripped, valid, accepted⟩ := accepted
    cases split : splitWhitespace stripped with
    | nil => simp [split] at accepted
    | cons first tokens =>
        simp only [split, Except.bind_eq_ok_iff] at accepted
        obtain ⟨⟨verbose, token, rest⟩, flagged, accepted⟩ := accepted
        cases rest with
        | cons next rest => simp at accepted
        | nil =>
            simp only [List.head?_nil, Option.isSome_none, Bool.false_eq_true, if_false,
              Except.bind_eq_ok_iff, Except.pure_eq_ok_iff] at accepted
            obtain ⟨⟨username, host⟩, names, rfl⟩ := accepted
            refine ⟨stripped, token, valid, ?_⟩
            rcases parseVerboseFlag_eq_ok_iff.mp flagged with
              ⟨option, user, rest, rfl, isUser, same⟩ | ⟨option, isUser, same⟩
            · cases same
              exact ⟨isUser, .inl ⟨rfl, first, option, split⟩, names⟩
            · cases same
              exact ⟨isUser, .inr ⟨rfl, option, split⟩, names⟩
  · intro derivation
    obtain ⟨stripped, token, valid, isUser, tokens, names⟩ := derivation
    refine ⟨stripped, valid, ?_⟩
    obtain ⟨first, tokens, split, flagged⟩ : ∃ first tokens,
        splitWhitespace stripped = first :: tokens ∧
          parseVerboseFlag tokens first = .ok (query.verbose, token, []) := by
      rcases tokens with ⟨verbose, flag, option, split⟩ | ⟨verbose, option, split⟩
      · exact ⟨flag, [token], split, parseVerboseFlag_eq_ok_iff.mpr
          (.inl ⟨option, token, [], rfl, isUser, by rw [verbose]⟩)⟩
      · exact ⟨token, [], split, parseVerboseFlag_eq_ok_iff.mpr
          (.inr ⟨option, isUser, by rw [verbose]⟩)⟩
    rw [split]
    exact Except.bind_eq_ok_iff.mpr ⟨_, flagged, Except.bind_eq_ok_iff.mpr ⟨_, names, rfl⟩⟩

/-! ## Control characters in accepted lines -/

theorem isEmbeddedControlChar_eq_false_iff {b : UInt8} :
    isEmbeddedControlChar b = false ↔ (b ≤ 0x1f → b = 0x0d ∨ b = 0x0a) := by
  simp only [isEmbeddedControlChar, Bool.and_eq_false_iff, decide_eq_false_iff_not,
    bne_eq_false_iff_eq]
  tauto

/-- The part of an accepted line before its terminator is free of control
characters exactly when it holds neither carriage return nor line feed, the
two that the check exempts. -/
theorem control_free_iff {line : Bytes} {query : FingerQuery} (accepted : parse line = .ok query) :
    ∃ body, line = body ++ [0x0d, 0x0a] ∧
      ((∀ b ∈ body, ¬ b ≤ 0x1f) ↔ 0x0d ∉ body ∧ 0x0a ∉ body) := by
  obtain ⟨stripped, -, valid, -⟩ := parse_eq_ok_iff.mp accepted
  obtain ⟨framed, refused⟩ := validateInput_eq_ok_iff.mp valid
  refine ⟨asBytes stripped, by rw [framed, asBytes_append]; rfl, ?_⟩
  constructor
  · intro free
    exact ⟨fun cr => free _ cr (by decide), fun lf => free _ lf (by decide)⟩
  · intro absent b member control
    obtain ⟨noCr, noLf⟩ := absent
    rcases isEmbeddedControlChar_eq_false_iff.mp (refused b member) control with rfl | rfl
    · exact noCr member
    · exact noLf member

/-- The law at a line without embedded line ends. -/
theorem control_free_at_alice : ∃ body, asBytes "/W alice\r\n".toList = body ++ [0x0d, 0x0a] ∧
    ((∀ b ∈ body, ¬ b ≤ 0x1f) ↔ 0x0d ∉ body ∧ 0x0a ∉ body) :=
  control_free_iff
    (show parse _ = .ok ⟨⟨"alice".toList, by decide, by decide⟩, none, true⟩ by decide)

/-- A carriage return before the terminator is read as white space, and the
line is accepted with it. -/
theorem carriage_return_accepted :
    ¬ ∀ line query body, parse line = .ok query → line = body ++ [0x0d, 0x0a] →
      ∀ b ∈ body, ¬ b ≤ 0x1f := by
  intro law
  exact law (asBytes "alice\r\r\n".toList) ⟨⟨"alice".toList, by decide, by decide⟩, none, false⟩
    (asBytes "alice\r".toList) (by decide) (by decide) 0x0d (by decide) (by decide)

end Query

end Fingermouse
