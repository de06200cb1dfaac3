import Fingermouse.Query

/-!
# Spellings of a query

Request lines that differ in the case of ASCII letters and in their spacing
are one query, or one error.

* `Username.parse_toAsciiLowercase`, `HostName.parse_toAsciiLowercase`: the
  names are read alike in either case.
* `Query.parseTokens_map`: so is every list of tokens.
* `Query.parse_respells`: two spellings of a line have one answer.
-/

namespace Fingermouse

open Text

/-! ## Names -/

theorem caseless_at : Caseless '@' := caseless_of_ascii (by decide)

theorem caseless_slash : Caseless '/' := caseless_of_ascii (by decide)

namespace Username

/-- The parser refuses a text for its length, or for a character. -/
theorem parse_eq_error_iff {input : Str} {err : IdentityError} :
    parse input = .error err ↔
      if (trim input).isEmpty ∨ byteLen (trim input) > maxLen then .usernameLength maxLen = err
      else (trim input).all isUsernameChar = false ∧ .usernameCharacters = err := by
  unfold parse
  dsimp only
  split_ifs with length chars
  · rw [Except.error.injEq]
  · simp [chars]
  · simp [chars]

theorem parse_toAsciiLowercase (input : Str) :
    parse (toAsciiLowercase input) = parse input := by
  have chars : ∀ s : Str, (toAsciiLowercase s).all isUsernameChar = s.all isUsernameChar := by
    intro s
    rw [toAsciiLowercase, List.all_map]
    exact congrArg s.all (funext isUsernameChar_toLower)
  refine (Except.eq_of_imp (fun username parsed => ?_) fun err refused => ?_).symm
  · obtain ⟨valid, text⟩ := parse_eq_ok_iff.mp parsed
    rw [parse_eq_ok_iff, trim_toAsciiLowercase, toAsciiLowercase_toAsciiLowercase]
    exact ⟨valid.toAsciiLowercase, text⟩
  · rwa [parse_eq_error_iff, trim_toAsciiLowercase, toAsciiLowercase_isEmpty,
      byteLen_toAsciiLowercase, chars, ← parse_eq_error_iff]

end Username

namespace HostName

theorem validateLabel_toAsciiLowercase (label : Str) :
    validateLabel (toAsciiLowercase label) = validateLabel label := by
  have chars : (toAsciiLowercase label).any (!isHostChar ·) = label.any (!isHostChar ·) := by
    rw [toAsciiLowercase, List.any_map]
    refine congrArg label.any (funext fun c => ?_)
    exact congrArg (fun ok => !ok) (isHostChar_toLower c)
  simp only [validateLabel, toAsciiLowercase_isEmpty, caseless_hyphen.head?_toAsciiLowercase,
    caseless_hyphen.getLast?_toAsciiLowercase, chars]

theorem appendLabels_map (output : Str) (labels : List Str) :
    appendLabels output (labels.map toAsciiLowercase) = appendLabels output labels := by
  induction labels generalizing output with
  | nil => rfl
  | cons label labels ih =>
      simp only [List.map_cons, appendLabels, validateLabel_toAsciiLowercase,
        toAsciiLowercase_toAsciiLowercase, ih]

/-- The parser refuses a text for its length, or for the first label the loop
refuses. -/
theorem parse_eq_error_iff {input : Str} {err : IdentityError} :
    parse input = .error err ↔
      if (trim input).isEmpty ∨ byteLen (trim input) > maxLen then .hostLength maxLen = err
      else appendLabels [] ((trim input).splitOn '.') = .error err := by
  unfold parse
  dsimp only
  split_ifs with length
  · rw [Except.error.injEq]
  · split
    · rename_i found labels
      rw [labels, Except.error.injEq, Except.error.injEq]
    · rename_i output labels
      simp [labels]

theorem parse_toAsciiLowercase (input : Str) :
    parse (toAsciiLowercase input) = parse input := by
  refine (Except.eq_of_imp (fun host parsed => ?_) fun err refused => ?_).symm
  · obtain ⟨valid, text⟩ := parse_eq_ok_iff.mp parsed
    rw [parse_eq_ok_iff, trim_toAsciiLowercase, toAsciiLowercase_toAsciiLowercase]
    exact ⟨valid.toAsciiLowercase, text⟩
  · rwa [parse_eq_error_iff, trim_toAsciiLowercase, toAsciiLowercase_isEmpty,
      byteLen_toAsciiLowercase, caseless_dot.splitOn_toAsciiLowercase, appendLabels_map,
      ← parse_eq_error_iff]

theorem parse_trim (input : Str) : parse (trim input) = parse input := by
  refine Except.eq_of_imp (fun host parsed => ?_) fun err refused => ?_
  · rwa [parse_eq_ok_iff, trim_trim, ← parse_eq_ok_iff] at parsed
  · rwa [parse_eq_error_iff, trim_trim, ← parse_eq_error_iff] at refused

/-- Inputs that differ in case and in white space around them are read alike. -/
theorem parse_congr {input other : Str}
    (same : toAsciiLowercase (trim input) = toAsciiLowercase (trim other)) :
    parse input = parse other := by
  rw [← parse_trim input, ← parse_trim other, ← parse_toAsciiLowercase (trim input), same,
    parse_toAsciiLowercase]

end HostName

/-! ## Tokens -/

namespace Query

theorem eqIgnoreAsciiCase_toAsciiLowercase (s t : Str) :
    eqIgnoreAsciiCase (toAsciiLowercase s) t = eqIgnoreAsciiCase s t := by
  simp only [eqIgnoreAsciiCase, toAsciiLowercase_toAsciiLowercase]

theorem ensureValid_toAsciiLowercase (token : Str) :
    ensureValid (toAsciiLowercase token) = (ensureValid token).map toAsciiLowercase := by
  unfold ensureValid
  rw [toAsciiLowercase_isEmpty]
  simp only [caseless_slash.head?_toAsciiLowercase]
  split_ifs <;> rfl

/-- The flag is read alike in either case, and the remaining tokens are those
in lower case. -/
theorem parseVerboseFlag_map (tokens : List Str) (first : Str) :
    parseVerboseFlag (tokens.map toAsciiLowercase) (toAsciiLowercase first) =
      (parseVerboseFlag tokens first).map fun flagged =>
        (flagged.1, toAsciiLowercase flagged.2.1, flagged.2.2.map toAsciiLowercase) := by
  unfold parseVerboseFlag
  rw [eqIgnoreAsciiCase_toAsciiLowercase]
  split_ifs with option
  · cases tokens with
    | nil => rfl
    | cons next tokens =>
        simp only [List.map_cons, ensureValid_toAsciiLowercase]
        cases ensureValid next <;> rfl
  · rw [ensureValid_toAsciiLowercase]
    cases ensureValid first <;> rfl

theorem hostFragment_map (parts : List Str) :
    hostFragment (parts.map toAsciiLowercase) = (hostFragment parts).map toAsciiLowercase := by
  match parts with
  | [] => rfl
  | [_] => rfl
  | _ :: fragment :: _ =>
      obtain ⟨piece, pieces, split⟩ :=
        List.exists_cons_of_ne_nil (List.splitOn_ne_nil '@' fragment)
      simp only [hostFragment, List.map_cons, List.tail_cons, List.head?_cons, Option.map_some,
        caseless_at.splitOn_toAsciiLowercase, split, Option.getD_some, Option.filter_some,
        toAsciiLowercase_isEmpty]
      split_ifs <;> rfl

theorem parseUserHost_toAsciiLowercase (token : Str) :
    parseUserHost (toAsciiLowercase token) = parseUserHost token := by
  have user : ((splitn '@' 2 token).map toAsciiLowercase).head?.getD [] =
      toAsciiLowercase ((splitn '@' 2 token).head?.getD []) := by
    cases splitn '@' 2 token <;> rfl
  unfold parseUserHost
  dsimp only
  rw [caseless_at.splitn_two_toAsciiLowercase, user, toAsciiLowercase_isEmpty,
    Username.parse_toAsciiLowercase, hostFragment_map]
  cases hostFragment (splitn '@' 2 token) with
  | none => rfl
  | some fragment => simp only [Option.map_some, HostName.parse_toAsciiLowercase]

/-- What `parse` does with the tokens of the stripped line. -/
def parseTokens : List Str → Except QueryError FingerQuery
  | [] => .error .missingUsername
  | first :: tokens => do
      let (verbose, userToken, tokens) ← parseVerboseFlag tokens first
      if tokens.head?.isSome then .error .trailingInput
      else do
        let (username, host) ← parseUserHost userToken
        return { username, host, verbose }

theorem parse_eq_parseTokens (line : Bytes) :
    parse line = validateInput line >>= fun raw => parseTokens (splitWhitespace raw) := by
  unfold parse
  refine congrArg (validateInput line >>= ·) (funext fun raw => ?_)
  cases splitWhitespace raw <;> rfl

theorem parseTokens_map (tokens : List Str) :
    parseTokens (tokens.map toAsciiLowercase) = parseTokens tokens := by
  cases tokens with
  | nil => rfl
  | cons first tokens =>
      simp only [List.map_cons, parseTokens, parseVerboseFlag_map]
      cases parseVerboseFlag tokens first with
      | error err => rfl
      | ok flagged =>
          obtain ⟨verbose, token, rest⟩ := flagged
          cases rest with
          | nil =>
              show (parseUserHost (toAsciiLowercase token) >>= _) = (parseUserHost token >>= _)
              rw [parseUserHost_toAsciiLowercase]
          | cons next rest => rfl

/-! ## Lines -/

/-- The words of a line between spaces, in lower case. -/
def foldedWords (line : Bytes) : List Bytes := (wordsOn 0x20 line).map (List.map lowerByte)

/-- Two request lines that differ only in the case of ASCII letters, in the
lengths of the runs of spaces between words, and in the numbers of spaces
before the first word and between the last one and the terminator; a line
without a terminator is compared up to its end. -/
inductive Respells : Bytes → Bytes → Prop
  | terminated {body body' : Bytes} : foldedWords body = foldedWords body' →
    Respells (body ++ [0x0d, 0x0a]) (body' ++ [0x0d, 0x0a])
  | unterminated {line line' : Bytes} : ¬[0x0d, 0x0a] <:+ line → ¬[0x0d, 0x0a] <:+ line' →
    foldedWords line = foldedWords line' → Respells line line'

theorem ascii_space : (' ' : Char).toNat < 128 := by decide

theorem foldedWords_asBytes (s : Str) :
    foldedWords (asBytes s) = (wordsOn ' ' s).map fun word => asBytes (toAsciiLowercase word) := by
  have words : wordsOn 0x20 (asBytes s) = (wordsOn ' ' s).map asBytes :=
    wordsOn_asBytes ascii_space s
  rw [foldedWords, words, List.map_map]
  exact List.map_congr_left fun word _ => (asBytes_toAsciiLowercase word).symm

/-- Bytes spelled like an encoding are an encoding. -/
theorem exists_of_foldedWords {line : Bytes} {s : Str}
    (same : foldedWords line = foldedWords (asBytes s)) : ∃ t, line = asBytes t := by
  refine exists_of_wordsOn ascii_space fun word member => ?_
  have folded : word.map lowerByte ∈ foldedWords line := List.mem_map_of_mem member
  rw [same, foldedWords_asBytes] at folded
  obtain ⟨t, -, spelled⟩ := List.mem_map.mp folded
  exact exists_of_map_lowerByte spelled.symm

/-- Two spellings of a text have the same words up to case. -/
theorem wordsOn_of_foldedWords {s t : Str}
    (same : foldedWords (asBytes s) = foldedWords (asBytes t)) :
    (wordsOn ' ' s).map toAsciiLowercase = (wordsOn ' ' t).map toAsciiLowercase := by
  rw [foldedWords_asBytes, foldedWords_asBytes] at same
  refine List.map_injective_iff.mpr asBytes_injective ?_
  rwa [List.map_map, List.map_map]

theorem isEmbeddedControlChar_lowerByte (b : UInt8) :
    isEmbeddedControlChar (lowerByte b) = isEmbeddedControlChar b :=
  forall_lowerByte (p := fun b d => isEmbeddedControlChar d = isEmbeddedControlChar b) (by decide)
    (fun _ => rfl) b

theorem space_not_control : isEmbeddedControlChar 0x20 = false := rfl

theorem any_control_eq (line : Bytes) :
    line.any isEmbeddedControlChar =
      (foldedWords line).any fun word => word.any isEmbeddedControlChar := by
  rw [any_eq_any_wordsOn space_not_control, foldedWords, List.any_map]
  refine congrArg (wordsOn 0x20 line).any (funext fun word => ?_)
  rw [Function.comp_apply, List.any_map]
  exact congrArg word.any (funext fun b => (isEmbeddedControlChar_lowerByte b).symm)

theorem splitWhitespace_of_foldedWords {s t : Str}
    (same : foldedWords (asBytes s) = foldedWords (asBytes t)) :
    (splitWhitespace s).map toAsciiLowercase = (splitWhitespace t).map toAsciiLowercase := by
  have folded : ∀ u : Str, (splitWhitespace u).map toAsciiLowercase =
      ((wordsOn ' ' u).map toAsciiLowercase).flatMap splitWhitespace := by
    intro u
    rw [splitWhitespace_eq_flatMap, List.map_flatMap, List.flatMap_map]
    exact congrArg (wordsOn ' ' u).flatMap
      (funext fun word => (splitWhitespace_toAsciiLowercase word).symm)
  rw [folded, folded, wordsOn_of_foldedWords same]

theorem validateInput_terminated (s : Str) :
    validateInput (asBytes s ++ [0x0d, 0x0a]) =
      if (asBytes s).any isEmbeddedControlChar then .error .controlCharacter else .ok s := by
  have framed : asBytes s ++ [0x0d, 0x0a] = asBytes (s ++ crlf) := (asBytes_append s crlf).symm
  have stripped : stripSuffix crlf (s ++ crlf) = some s := stripSuffix_eq_some_iff.mpr rfl
  simp only [validateInput, framed, fromUtf8_asBytes, stripped]

/-- What precedes the terminator of an encoding is an encoding. -/
theorem exists_of_terminated {body : Bytes} {u : Str} (same : asBytes u = body ++ [0x0d, 0x0a]) :
    ∃ s, body = asBytes s := by
  have cr : ('\r' : Char).toNat < 128 := by decide
  obtain ⟨s, -, rfl, -, -⟩ := exists_of_asBytes_eq_append_cons cr same
  exact ⟨s, rfl⟩

theorem validateInput_of_not_encoded {line : Bytes} (broken : ¬∃ s, line = asBytes s) :
    validateInput line = .error .invalidEncoding := by
  have undecoded : fromUtf8 line = none := by
    by_contra decoded
    obtain ⟨s, found⟩ := Option.ne_none_iff_exists'.mp decoded
    exact broken ⟨s, fromUtf8_eq_some_iff.mp found⟩
  simp only [validateInput, undecoded]

theorem validateInput_unterminated {s : Str} (unterminated : ¬[0x0d, 0x0a] <:+ asBytes s) :
    validateInput (asBytes s) = .error .missingCrlf := by
  have kept : stripSuffix crlf s = none := by
    by_contra stripped
    obtain ⟨rest, found⟩ := Option.ne_none_iff_exists'.mp stripped
    rw [stripSuffix_eq_some_iff.mp found, asBytes_append] at unterminated
    exact unterminated (List.suffix_append (asBytes rest) (asBytes crlf))
  simp only [validateInput, fromUtf8_asBytes, kept]

/-- Two spellings of one request line have one answer, query or error. -/
theorem parse_respells {line line' : Bytes} (respells : Respells line line') :
    parse line = parse line' := by
  rw [parse_eq_parseTokens, parse_eq_parseTokens]
  cases respells with
  | @terminated body body' same =>
      by_cases encoded : ∃ s, body = asBytes s
      · obtain ⟨s, rfl⟩ := encoded
        obtain ⟨t, rfl⟩ := exists_of_foldedWords same.symm
        rw [validateInput_terminated, validateInput_terminated, any_control_eq, same,
          ← any_control_eq]
        split_ifs with control
        · rfl
        · show parseTokens (splitWhitespace s) = parseTokens (splitWhitespace t)
          rw [← parseTokens_map, splitWhitespace_of_foldedWords same, parseTokens_map]
      · have broken : ∀ {b : Bytes}, ¬(∃ s, b = asBytes s) →
            ¬∃ u, b ++ [0x0d, 0x0a] = asBytes u := by
          intro b unencoded whole
          obtain ⟨u, framed⟩ := whole
          exact unencoded (exists_of_terminated framed.symm)
        have encoded' : ¬∃ s, body' = asBytes s := by
          intro other
          obtain ⟨t, rfl⟩ := other
          exact encoded (exists_of_foldedWords same)
        rw [validateInput_of_not_encoded (broken encoded),
          validateInput_of_not_encoded (broken encoded')]
  | unterminated ends ends' same =>
      by_cases encoded : ∃ s, line = asBytes s
      · obtain ⟨s, rfl⟩ := encoded
        obtain ⟨t, rfl⟩ := exists_of_foldedWords same.symm
        rw [validateInput_unterminated ends, validateInput_unterminated ends']
      · have encoded' : ¬∃ s, line' = asBytes s := by
          intro other
          obtain ⟨t, rfl⟩ := other
          exact encoded (exists_of_foldedWords same)
        rw [validateInput_of_not_encoded encoded, validateInput_of_not_encoded encoded']

/-- Upper case and wide gaps change nothing. -/
theorem parse_respells_alice :
    parse (asBytes "/W  ALICE@Example.COM  \r\n".toList) =
      parse (asBytes " /w alice@example.com\r\n".toList) :=
  parse_respells (.terminated (by decide) :
    Respells (asBytes "/W  ALICE@Example.COM  ".toList ++ [0x0d, 0x0a])
      (asBytes " /w alice@example.com".toList ++ [0x0d, 0x0a]))

end Query

end Fingermouse
