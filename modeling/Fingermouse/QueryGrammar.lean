import Fingermouse.Query

/-!
# The request grammar

A second reading of the query line, as the grammar

    ws* [('/W' | '/w') ws+] user ['@' host? ['@' tail]] ws* CRLF

whose derivations are the values of `Request`: the fields carry the side
conditions of the grammar, so an ill-formed derivation cannot be built.
`parse_grammar` connects the two: the parser accepts exactly the derivable
lines, a line has one derivation, and the answer is read off it.

The reading is of lines without embedded line ends, which the control-character
check lets through as white space.
-/

namespace Fingermouse

open Text

namespace Query

/-! ## Derivations -/

/-- White space that passes the control-character check. -/
def IsGap (s : Str) : Prop := ∀ c ∈ s, isWhitespace c = true ∧ 0x20 ≤ c.toNat

/-- Solid characters that pass the control-character check. -/
def IsTail (s : Str) : Prop := ∀ c ∈ s, isWhitespace c = false ∧ 0x20 ≤ c.toNat

instance (s : Str) : Decidable (IsGap s) := inferInstanceAs (Decidable (∀ c ∈ s, _))

instance (s : Str) : Decidable (IsTail s) := inferInstanceAs (Decidable (∀ c ∈ s, _))

/-- `('/W' | '/w') ws+` -/
structure Flag where
  letter : Char
  gap : Str
  letter_ok : letter = 'W' ∨ letter = 'w'
  gap_ne_nil : gap ≠ []
  gap_ok : IsGap gap

/-- `'@' host? ['@' tail]` -/
structure Target where
  host : Option {name : Str // IsHostSyntax name}
  tail : Option {rest : Str // IsTail rest}

/-- `user ['@' host? ['@' tail]]` -/
structure UserToken where
  user : Str
  target : Option Target
  user_ok : IsUserSyntax user

/-- `ws* [('/W' | '/w') ws+] user ['@' host? ['@' tail]] ws*` -/
structure Request where
  lead : Str
  flag : Option Flag
  token : UserToken
  trail : Str
  lead_ok : IsGap lead
  trail_ok : IsGap trail

def Flag.text (flag : Flag) : Str := '/' :: flag.letter :: flag.gap

def Target.hostText (target : Target) : Str := target.host.elim [] Subtype.val

def Target.tailText (target : Target) : Str := target.tail.elim [] fun rest => '@' :: rest.val

def Target.text (target : Target) : Str := '@' :: (target.hostText ++ target.tailText)

def UserToken.text (token : UserToken) : Str := token.user ++ token.target.elim [] Target.text

def Request.text (request : Request) : Str :=
  request.lead ++ (request.flag.elim [] Flag.text ++ (request.token.text ++ request.trail))

/-! ## What a derivation denotes -/

def UserToken.username (token : UserToken) : Username :=
  ⟨toAsciiLowercase token.user, token.user_ok.toAsciiLowercase,
    toAsciiLowercase_toAsciiLowercase token.user⟩

def Target.hostName (target : Target) : Option HostName :=
  target.host.map fun name =>
    ⟨toAsciiLowercase name.val, name.property.toAsciiLowercase,
      toAsciiLowercase_toAsciiLowercase name.val⟩

def UserToken.hostName (token : UserToken) : Option HostName := token.target.bind Target.hostName

/-- Lower-cased names, and verbose exactly when the flag is present. -/
def Request.query (request : Request) : FingerQuery where
  username := request.token.username
  host := request.token.hostName
  verbose := request.flag.isSome

/-! ## Characters of a derivation -/

theorem isTail_of_isUserSyntax {user : Str} (valid : IsUserSyntax user) : IsTail user :=
  fun c member => ⟨valid.solid c member,
    Nat.le_of_lt (printable_of_isUsernameChar (valid.2.2 c member)).1⟩

theorem isTail_of_isHostSyntax {name : Str} (valid : IsHostSyntax name) : IsTail name := by
  intro c member
  refine ⟨valid.solid c member, ?_⟩
  rcases valid.eq_dot_or_isHostChar member with rfl | host
  · decide
  · exact Nat.le_of_lt (printable_of_isUsernameChar (isUsernameChar_of_isHostChar host)).1

theorem IsTail.append {s t : Str} (left : IsTail s) (right : IsTail t) : IsTail (s ++ t) :=
  List.forall_mem_append.mpr ⟨left, right⟩

theorem IsTail.at_cons {s : Str} (tail : IsTail s) : IsTail ('@' :: s) :=
  List.forall_mem_cons.mpr ⟨by decide, tail⟩

theorem Target.isTail_text (target : Target) : IsTail target.text := by
  obtain ⟨host, tail⟩ := target
  refine IsTail.at_cons (IsTail.append ?_ ?_)
  · cases host with
    | none => exact List.forall_mem_nil _
    | some name => exact isTail_of_isHostSyntax name.property
  · cases tail with
    | none => exact List.forall_mem_nil _
    | some rest => exact rest.property.at_cons

theorem UserToken.isTail_text (token : UserToken) : IsTail token.text := by
  obtain ⟨user, target, user_ok⟩ := token
  apply IsTail.append (isTail_of_isUserSyntax user_ok)
  cases target with
  | none => exact List.forall_mem_nil _
  | some target => exact target.isTail_text

theorem at_notMem_user {user : Str} (valid : IsUserSyntax user) : '@' ∉ user :=
  fun member => (not_separator_of_isUsernameChar (valid.2.2 '@' member)).1 rfl

theorem at_notMem_hostText (target : Target) : '@' ∉ target.hostText := by
  obtain ⟨host, tail⟩ := target
  cases host with
  | none => exact List.not_mem_nil
  | some name =>
      intro member
      rcases name.property.eq_dot_or_isHostChar member with dot | host
      · cases dot
      · exact (not_separator_of_isUsernameChar (isUsernameChar_of_isHostChar host)).1 rfl

/-- A user token begins with a character of the user. -/
theorem UserToken.exists_cons (token : UserToken) :
    ∃ c rest, token.text = c :: rest ∧ isUsernameChar c = true := by
  obtain ⟨c, user, cons⟩ := List.exists_cons_of_ne_nil token.user_ok.1
  refine ⟨c, user ++ token.target.elim [] Target.text, ?_, ?_⟩
  · rw [UserToken.text, cons, List.cons_append]
  · exact token.user_ok.2.2 c (cons ▸ List.mem_cons_self)

theorem UserToken.isUserToken (token : UserToken) : IsUserToken token.text := by
  obtain ⟨c, rest, cons, valid⟩ := token.exists_cons
  rw [cons]
  refine ⟨List.cons_ne_nil c rest, fun slash => ?_⟩
  exact (not_separator_of_isUsernameChar valid).2.1 (Option.some.inj slash)

/-! ## The user token -/

/-- The first fragment after `@` is the host of the derivation. -/
theorem hostFragment_target (user : Str) (target : Target) :
    hostFragment [user, target.hostText ++ target.tailText] = target.host.map Subtype.val := by
  have first : ((target.hostText ++ target.tailText).splitOn '@').head? = some target.hostText := by
    have absent := at_notMem_hostText target
    obtain ⟨host, tail⟩ := target
    cases tail with
    | none =>
        simp only [Target.tailText, Option.elim_none, List.append_nil]
        rw [List.splitOn_eq_singleton absent]
        rfl
    | some rest => exact head?_splitOn_append absent
  simp only [hostFragment, List.tail_cons, List.head?_cons, Option.map_some, first,
    Option.getD_some]
  obtain ⟨host, tail⟩ := target
  cases host with
  | none => rfl
  | some name =>
      have nonempty : (!name.val.isEmpty) = true := by simpa using name.property.ne_nil
      exact Option.filter_some_pos nonempty

/-- A derivable user token is split as derived, and both names are accepted. -/
theorem parseUserHost_text (token : UserToken) :
    parseUserHost token.text = .ok (token.username, token.hostName) := by
  have user : Username.parse token.user = .ok token.username :=
    Username.parse_eq_ok_iff.mpr
      ⟨token.user_ok.trim_eq.symm ▸ token.user_ok, by rw [token.user_ok.trim_eq]; rfl⟩
  have absent := at_notMem_user token.user_ok
  rw [parseUserHost_eq_ok_iff]
  obtain ⟨text, target, user_ok⟩ := token
  cases target with
  | none =>
      have split : splitn '@' 2 (text ++ []) = [text] := by
        rw [List.append_nil]
        exact splitn_two_of_notMem absent
      simp only [UserToken.text, Option.elim_none, split]
      exact ⟨user_ok.1, user, rfl⟩
  | some target =>
      have split : splitn '@' 2 (text ++ target.text) =
          [text, target.hostText ++ target.tailText] := splitn_two_append absent
      simp only [UserToken.text, Option.elim_some, split, hostFragment_target]
      refine ⟨user_ok.1, user, ?_⟩
      obtain ⟨host, tail⟩ := target
      cases host with
      | none => rfl
      | some name =>
          exact ⟨_, HostName.parse_eq_ok_iff.mpr
            ⟨name.property.trim_eq.symm ▸ name.property, by rw [name.property.trim_eq]⟩, rfl⟩

/-- An accepted username of clean characters is one of the grammar. -/
theorem UserToken.username_of_parse {user : Str} {username : Username} (clean : IsTail user)
    (parsed : Username.parse user = .ok username) :
    ∃ valid : IsUserSyntax user, UserToken.username ⟨user, none, valid⟩ = username := by
  have text := trim_of_forall_not fun c member => (clean c member).1
  obtain ⟨valid, spelled⟩ := Username.parse_eq_ok_iff.mp parsed
  rw [text] at valid spelled
  exact ⟨valid, by cases username; simp only [UserToken.username, ← spelled]⟩

/-- What follows the `@` of a token is a host fragment and perhaps a tail. -/
theorem exists_fragment {back : Str} (clean : IsTail back) :
    ∃ name : Str, ∃ tail : Option {rest : Str // IsTail rest},
      back = name ++ tail.elim [] (fun rest => '@' :: rest.val) ∧
        (back.splitOn '@').head? = some name := by
  by_cases again : '@' ∈ back
  · obtain ⟨name, rest, rfl, noAt⟩ := List.eq_append_cons_of_mem again
    have restClean : IsTail rest := fun c member =>
      clean c (List.mem_append_right name (List.mem_cons_of_mem _ member))
    exact ⟨name, some ⟨rest, restClean⟩, rfl, head?_splitOn_append noAt⟩
  · refine ⟨back, none, (List.append_nil back).symm, ?_⟩
    rw [List.splitOn_eq_singleton again]
    rfl

/-- A token of clean characters whose names are accepted is derivable. -/
theorem exists_of_parseUserHost {token : Str} {username : Username} {host : Option HostName}
    (clean : IsTail token) (accepted : parseUserHost token = .ok (username, host)) :
    ∃ derived : UserToken, derived.text = token ∧ derived.username = username ∧
      derived.hostName = host := by
  rw [parseUserHost_eq_ok_iff] at accepted
  obtain ⟨-, parsed, fragment⟩ := accepted
  by_cases present : '@' ∈ token
  · obtain ⟨user, back, rfl, absent⟩ := List.eq_append_cons_of_mem present
    rw [splitn_two_append absent] at parsed fragment
    obtain ⟨userClean, backClean⟩ := List.forall_mem_append.mp clean
    rw [List.forall_mem_cons] at backClean
    obtain ⟨user_ok, same⟩ := UserToken.username_of_parse userClean parsed
    obtain ⟨name, tail, rfl, first⟩ := exists_fragment backClean.2
    simp only [hostFragment, List.tail_cons, List.head?_cons, Option.map_some, first,
      Option.getD_some] at fragment
    cases empty : name.isEmpty with
    | true =>
        rw [List.isEmpty_iff] at empty
        subst empty
        exact ⟨⟨user, some ⟨none, tail⟩, user_ok⟩, rfl, same, fragment⟩
    | false =>
        rw [Option.filter_some_pos (by simp [empty])] at fragment
        obtain ⟨found, valid, rfl⟩ := fragment
        have text : trim name = name := trim_of_forall_not fun c member =>
          (backClean.2 c (List.mem_append_left _ member)).1
        obtain ⟨syntaxOk, spelled⟩ := HostName.parse_eq_ok_iff.mp valid
        rw [text] at syntaxOk spelled
        refine ⟨⟨user, some ⟨some ⟨name, syntaxOk⟩, tail⟩, user_ok⟩, rfl, same, ?_⟩
        cases found
        simp only [UserToken.hostName, Option.bind_some, Target.hostName, Option.map_some,
          ← spelled]
  · rw [splitn_two_of_notMem present] at parsed fragment
    obtain ⟨user_ok, same⟩ := UserToken.username_of_parse clean parsed
    exact ⟨⟨token, none, user_ok⟩, List.append_nil token, same, fragment⟩

/-! ## The option -/

/-- The option letters, whatever their case. -/
theorem eqIgnoreAsciiCase_option_iff {token : Str} :
    eqIgnoreAsciiCase token "/W".toList = true ↔ token = ['/', 'W'] ∨ token = ['/', 'w'] := by
  have slash : ∀ c : Char, c.toLower = '/' → c = '/' := by
    intro c lowered
    by_cases ascii : c.toNat < 128
    · exact forall_ascii (p := fun c => c.toLower = '/' → c = '/') (by decide) c ascii lowered
    · rwa [toLower_of_not_ascii (Nat.le_of_not_lt ascii)] at lowered
  have letter : ∀ c : Char, c.toLower = 'w' → c = 'W' ∨ c = 'w' := by
    intro c lowered
    by_cases ascii : c.toNat < 128
    · exact forall_ascii (p := fun c => c.toLower = 'w' → c = 'W' ∨ c = 'w') (by decide) c ascii
        lowered
    · rw [toLower_of_not_ascii (Nat.le_of_not_lt ascii)] at lowered
      exact .inr lowered
  constructor
  · intro equal
    have lowered : token.map Char.toLower = ['/', 'w'] := beq_iff_eq.mp equal
    rcases token with _ | ⟨first, _ | ⟨second, _ | ⟨third, rest⟩⟩⟩ <;>
      simp only [List.map_cons, List.map_nil, List.cons.injEq, and_true, reduceCtorEq,
        and_false] at lowered
    rw [slash first lowered.1]
    exact (letter second lowered.2).imp (by rintro rfl; rfl) (by rintro rfl; rfl)
  · rintro (rfl | rfl) <;> decide

theorem Flag.eqIgnoreAsciiCase_letter (flag : Flag) :
    eqIgnoreAsciiCase ['/', flag.letter] "/W".toList = true := by
  rw [eqIgnoreAsciiCase_option_iff]
  exact flag.letter_ok.imp (by intro same; rw [same]) (by intro same; rw [same])

/-! ## Derivable lines are accepted -/

theorem IsGap.white {gap : Str} (ok : IsGap gap) : ∀ c ∈ gap, isWhitespace c = true :=
  fun c member => (ok c member).1

theorem Request.isClean (request : Request) : ∀ c ∈ request.text, 0x20 ≤ c.toNat := by
  have token := request.token.isTail_text
  simp only [Request.text, List.forall_mem_append]
  refine ⟨fun c member => (request.lead_ok c member).2, ?_, fun c member => (token c member).2,
    fun c member => (request.trail_ok c member).2⟩
  cases request.flag with
  | none => exact List.forall_mem_nil _
  | some flag =>
      refine List.forall_mem_cons.mpr ⟨by decide, List.forall_mem_cons.mpr ⟨?_, ?_⟩⟩
      · rcases flag.letter_ok with same | same <;> rw [same] <;> decide
      · exact fun c member => (flag.gap_ok c member).2

theorem Request.splitWhitespace_text (request : Request) :
    splitWhitespace request.text =
      (request.flag.map fun flag => ['/', flag.letter]).toList ++ [request.token.text] := by
  have solid : ∀ c ∈ request.token.text, isWhitespace c = false :=
    fun c member => (request.token.isTail_text c member).1
  have tokenOnly :
      splitWhitespace (request.token.text ++ request.trail) = [request.token.text] := by
    rw [splitWhitespace_token request.token.isUserToken.1 solid
      fun c member => request.trail_ok.white c (List.mem_of_mem_head? member),
      splitWhitespace_of_whitespace request.trail_ok.white]
  rw [Request.text, splitWhitespace_append_of_whitespace request.lead_ok.white]
  cases request.flag with
  | none => exact tokenOnly
  | some flag =>
      have letterSolid : ∀ c ∈ ['/', flag.letter], isWhitespace c = false := by
        rcases flag.letter_ok with same | same <;> rw [same] <;> decide
      have gapFirst : ∀ c ∈ (flag.gap ++ (request.token.text ++ request.trail)).head?,
          isWhitespace c = true := by
        obtain ⟨c, gap, cons⟩ := List.exists_cons_of_ne_nil flag.gap_ne_nil
        intro d head
        rw [cons, List.cons_append, List.head?_cons, Option.mem_some_iff] at head
        exact head ▸ flag.gap_ok.white c (cons ▸ List.mem_cons_self)
      calc
        splitWhitespace (flag.text ++ (request.token.text ++ request.trail)) =
            splitWhitespace (['/', flag.letter] ++
              (flag.gap ++ (request.token.text ++ request.trail))) := rfl
        _ = ['/', flag.letter] ::
              splitWhitespace (flag.gap ++ (request.token.text ++ request.trail)) :=
          splitWhitespace_token (List.cons_ne_nil _ _) letterSolid gapFirst
        _ = ['/', flag.letter] :: [request.token.text] := by
          rw [splitWhitespace_append_of_whitespace flag.gap_ok.white, tokenOnly]

/-- Text without characters below the space passes the control check. -/
theorem validateInput_of_clean {text : Str} (clean : ∀ c ∈ text, 0x20 ≤ c.toNat) :
    validateInput (asBytes (text ++ crlf)) = .ok text := by
  refine validateInput_eq_ok_iff.mpr ⟨rfl, fun b member => ?_⟩
  rw [isEmbeddedControlChar_eq_false_iff]
  intro control
  have low : ∃ b ∈ asBytes text, b.toNat < 0x20 :=
    ⟨b, member, Nat.lt_succ_of_le (UInt8.le_iff_toNat_le.mp control)⟩
  obtain ⟨c, inText, lowChar⟩ :=
    (exists_mem_asBytes_iff (p := (· < 0x20)) (fun n small => by omega) text).mp low
  have := clean c inText
  omega

/-- Every derivable line is accepted with the query it denotes. -/
theorem parse_text (request : Request) :
    parse (asBytes (request.text ++ crlf)) = .ok request.query := by
  refine parse_eq_ok_iff.mpr ⟨request.text, request.token.text,
    validateInput_of_clean request.isClean, request.token.isUserToken, ?_,
    parseUserHost_text request.token⟩
  have split := request.splitWhitespace_text
  cases flagged : request.flag with
  | none =>
      rw [flagged] at split
      refine .inr ⟨by simp [Request.query, flagged], ?_, split⟩
      cases option : eqIgnoreAsciiCase request.token.text "/W".toList with
      | false => rfl
      | true =>
          rcases eqIgnoreAsciiCase_option_iff.mp option with same | same <;>
            exact absurd (by rw [same]; rfl) request.token.isUserToken.2
  | some flag =>
      rw [flagged] at split
      exact .inl ⟨by simp [Request.query, flagged], _, flag.eqIgnoreAsciiCase_letter, split⟩

/-! ## Accepted lines are derivable -/

/-- Without embedded line ends the control check leaves no character below the
space. -/
theorem clean_of_validateInput {line : Bytes} {stripped : Str}
    (valid : validateInput line = .ok stripped)
    (framing : ∀ body, line = body ++ [0x0d, 0x0a] → 0x0d ∉ body ∧ 0x0a ∉ body) :
    line = asBytes (stripped ++ crlf) ∧ ∀ c ∈ stripped, 0x20 ≤ c.toNat := by
  obtain ⟨framed, refused⟩ := validateInput_eq_ok_iff.mp valid
  obtain ⟨noCr, noLf⟩ := framing (asBytes stripped) (by rw [framed, asBytes_append]; rfl)
  refine ⟨framed, fun c member => ?_⟩
  by_contra low
  obtain ⟨b, inBytes, control⟩ := (exists_mem_asBytes_iff (p := (· < 0x20))
    (fun n small => by omega) stripped).mpr ⟨c, member, Nat.lt_of_not_le low⟩
  have le : b ≤ 0x1f := UInt8.le_iff_toNat_le.mpr (Nat.le_of_lt_succ control)
  rcases isEmbeddedControlChar_eq_false_iff.mp (refused b inBytes) le with rfl | rfl
  · exact noCr inBytes
  · exact noLf inBytes

theorem exists_of_parse {line : Bytes} {query : FingerQuery} (accepted : parse line = .ok query)
    (framing : ∀ body, line = body ++ [0x0d, 0x0a] → 0x0d ∉ body ∧ 0x0a ∉ body) :
    ∃ request : Request, line = asBytes (request.text ++ crlf) ∧ request.query = query := by
  obtain ⟨stripped, token, valid, -, tokens, names⟩ := parse_eq_ok_iff.mp accepted
  obtain ⟨framed, clean⟩ := clean_of_validateInput valid framing
  have gapOf : ∀ {gap : Str}, (∀ c ∈ gap, isWhitespace c = true) → (∀ c ∈ gap, c ∈ stripped) →
      IsGap gap := fun white inText c member => ⟨white c member, clean c (inText c member)⟩
  rcases tokens with ⟨verbose, option, isOption, split⟩ | ⟨verbose, -, split⟩
  · obtain ⟨lead, gap, trail, rfl, leadWhite, nonempty, gapWhite, trailWhite, solid⟩ :=
      exists_of_splitWhitespace_eq_pair split
    obtain ⟨letter, rfl, letter_ok⟩ : ∃ letter, option = ['/', letter] ∧
        (letter = 'W' ∨ letter = 'w') := by
      rcases eqIgnoreAsciiCase_option_iff.mp isOption with rfl | rfl
      · exact ⟨'W', rfl, .inl rfl⟩
      · exact ⟨'w', rfl, .inr rfl⟩
    obtain ⟨derived, rfl, username, host⟩ := exists_of_parseUserHost
      (fun c member => ⟨solid c member, clean c (by simp [member])⟩) names
    refine ⟨⟨lead, some ⟨letter, gap, letter_ok, nonempty, gapOf gapWhite ?_⟩, derived, trail,
      gapOf leadWhite ?_, gapOf trailWhite ?_⟩, framed, ?_⟩
    · exact fun c member => by simp [member]
    · exact fun c member => by simp [member]
    · exact fun c member => by simp [member]
    · simp only [Request.query, username, host, Option.isSome_some, ← verbose]
  · obtain ⟨lead, trail, rfl, leadWhite, trailWhite, solid⟩ :=
      exists_of_splitWhitespace_eq_singleton split
    obtain ⟨derived, rfl, username, host⟩ := exists_of_parseUserHost
      (fun c member => ⟨solid c member, clean c (by simp [member])⟩) names
    refine ⟨⟨lead, none, derived, trail, gapOf leadWhite ?_, gapOf trailWhite ?_⟩, framed, ?_⟩
    · exact fun c member => by simp [member]
    · exact fun c member => by simp [member]
    · simp only [Request.query, username, host, Option.isSome_none, ← verbose]

/-! ## A line has one derivation -/

theorem Target.text_injective {target target' : Target}
    (same : target.hostText ++ target.tailText = target'.hostText ++ target'.tailText) :
    target = target' := by
  have inHost : ∀ target : Target, ∀ c ∈ target.hostText, (c != '@') = true :=
    fun target c member => by
      simpa using ne_of_mem_of_not_mem member (at_notMem_hostText target)
  have stop : ∀ target : Target, ∀ c ∈ target.tailText.head?, (c != '@') = false := by
    intro target c head
    obtain ⟨host, tail⟩ := target
    cases tail with
    | none => cases head
    | some rest => cases head; rfl
  obtain ⟨hosts, tails⟩ :=
    append_inj_of_span (inHost target) (inHost target') (stop target) (stop target') same
  obtain ⟨host, tail⟩ := target
  obtain ⟨host', tail'⟩ := target'
  rw [Target.mk.injEq]
  constructor
  · cases host with
    | none =>
        cases host' with
        | none => rfl
        | some name => exact absurd hosts.symm name.property.ne_nil
    | some name =>
        cases host' with
        | none => exact absurd hosts name.property.ne_nil
        | some name' => exact congrArg some (Subtype.ext hosts)
  · cases tail with
    | none =>
        cases tail' with
        | none => rfl
        | some rest => cases tails
    | some rest =>
        cases tail' with
        | none => cases tails
        | some rest' => exact congrArg some (Subtype.ext (List.cons.inj tails).2)

theorem UserToken.text_injective {token token' : UserToken} (same : token.text = token'.text) :
    token = token' := by
  have stop : ∀ token : UserToken, ∀ c ∈ (token.target.elim [] Target.text).head?,
      isUsernameChar c = false := by
    intro token c head
    obtain ⟨user, target, user_ok⟩ := token
    cases target with
    | none => cases head
    | some target => cases head; decide
  obtain ⟨users, targets⟩ :=
    append_inj_of_span token.user_ok.2.2 token'.user_ok.2.2 (stop token) (stop token') same
  obtain ⟨user, target, user_ok⟩ := token
  obtain ⟨user', target', user_ok'⟩ := token'
  rw [UserToken.mk.injEq]
  refine ⟨users, ?_⟩
  cases target with
  | none =>
      cases target' with
      | none => rfl
      | some target' => cases targets
  | some target =>
      cases target' with
      | none => cases targets
      | some target' => exact congrArg some (Target.text_injective (List.cons.inj targets).2)

/-- After the leading white space the derivation begins with a solid
character, whether the flag is present or not. -/
theorem Request.head_body (request : Request) :
    ∃ c rest, request.flag.elim [] Flag.text ++ (request.token.text ++ request.trail) = c :: rest ∧
      isWhitespace c = false ∧ (c = '/' ↔ request.flag.isSome = true) := by
  cases request.flag with
  | none =>
      obtain ⟨c, rest, cons, valid⟩ := request.token.exists_cons
      refine ⟨c, rest ++ request.trail, ?_, isWhitespace_of_isUsernameChar valid, ?_⟩
      · rw [cons]
        rfl
      · exact iff_of_false (not_separator_of_isUsernameChar valid).2.1 Bool.false_ne_true
  | some flag => exact ⟨'/', _, rfl, by decide, by simp⟩

/-- A token is told from the white space after it. -/
theorem UserToken.append_gap_injective {token token' : UserToken} {trail trail' : Str}
    (gap : IsGap trail) (gap' : IsGap trail')
    (same : token.text ++ trail = token'.text ++ trail') : token = token' ∧ trail = trail' := by
  obtain ⟨texts, trails⟩ := append_inj_of_span (p := fun c => !isWhitespace c)
    (fun c member => by simp [(token.isTail_text c member).1])
    (fun c member => by simp [(token'.isTail_text c member).1])
    (fun c head => by simp [gap.white c (List.mem_of_mem_head? head)])
    (fun c head => by simp [gap'.white c (List.mem_of_mem_head? head)]) same
  exact ⟨UserToken.text_injective texts, trails⟩

theorem UserToken.solid_head (token : UserToken) (trail : Str) :
    ∀ c ∈ (token.text ++ trail).head?, isWhitespace c = false := by
  intro c head
  obtain ⟨d, rest, cons, valid⟩ := token.exists_cons
  rw [cons, List.cons_append, List.head?_cons, Option.mem_some_iff] at head
  exact head ▸ isWhitespace_of_isUsernameChar valid

theorem Request.text_injective {request request' : Request}
    (same : request.text = request'.text) : request = request' := by
  have stop : ∀ request : Request,
      ∀ c ∈ (request.flag.elim [] Flag.text ++ (request.token.text ++ request.trail)).head?,
        isWhitespace c = false := by
    intro request c head
    obtain ⟨d, rest, cons, solid, -⟩ := request.head_body
    rw [cons, List.head?_cons, Option.mem_some_iff] at head
    exact head ▸ solid
  obtain ⟨leads, bodies⟩ := append_inj_of_span request.lead_ok.white request'.lead_ok.white
    (stop request) (stop request') same
  -- both derivations have the flag or neither has
  have flags : request.flag.isSome = request'.flag.isSome := by
    obtain ⟨c, rest, cons, -, slash⟩ := request.head_body
    obtain ⟨c', rest', cons', -, slash'⟩ := request'.head_body
    rw [cons, cons'] at bodies
    rw [Bool.eq_iff_iff, ← slash, ← slash', (List.cons.inj bodies).1]
  obtain ⟨lead, flag, token, trail, lead_ok, trail_ok⟩ := request
  obtain ⟨lead', flag', token', trail', lead_ok', trail_ok'⟩ := request'
  rw [Request.mk.injEq]
  refine ⟨leads, ?_⟩
  cases flag with
  | none =>
      cases flag' with
      | some flag' => cases flags
      | none => exact ⟨rfl, UserToken.append_gap_injective trail_ok trail_ok' bodies⟩
  | some flag =>
      cases flag' with
      | none => cases flags
      | some flag' =>
          obtain ⟨letters, rests⟩ := List.cons.inj (List.cons.inj bodies).2
          obtain ⟨gaps, tails⟩ := append_inj_of_span flag.gap_ok.white flag'.gap_ok.white
            (token.solid_head trail) (token'.solid_head trail') rests
          refine ⟨?_, UserToken.append_gap_injective trail_ok trail_ok' tails⟩
          cases flag
          cases flag'
          exact congrArg some ((Flag.mk.injEq ..).mpr ⟨letters, gaps⟩)

/-! ## The printed form -/

/-- `[/W ]user[@host]` -/
def printed (query : FingerQuery) : Str :=
  (if query.verbose then "/W ".toList else []) ++
    (query.username.text ++ query.host.elim [] fun host => '@' :: host.text)

/-- The derivation of the printed form. -/
def printedRequest (query : FingerQuery) : Request where
  lead := []
  flag := if query.verbose then
      some ⟨'W', [' '], .inl rfl, List.cons_ne_nil _ _, by decide⟩
    else none
  token := ⟨query.username.text,
    query.host.map fun host => ⟨some ⟨host.text, host.wellFormed⟩, none⟩, query.username.wellFormed⟩
  trail := []
  lead_ok := List.forall_mem_nil _
  trail_ok := List.forall_mem_nil _

theorem printedRequest_text (query : FingerQuery) :
    (printedRequest query).text = printed query := by
  obtain ⟨username, host, verbose⟩ := query
  cases host <;> cases verbose <;>
    simp [printedRequest, printed, Request.text, UserToken.text, Target.text, Target.hostText,
      Target.tailText, Flag.text]

theorem printedRequest_query (query : FingerQuery) : (printedRequest query).query = query := by
  obtain ⟨⟨user, userOk, userLower⟩, host, verbose⟩ := query
  have verboseEq : (printedRequest ⟨⟨user, userOk, userLower⟩, host, verbose⟩).flag.isSome =
      verbose := by
    cases verbose <;> rfl
  simp only [Request.query, verboseEq]
  cases host with
  | none => simp [printedRequest, UserToken.username, UserToken.hostName, userLower]
  | some host =>
      simp [printedRequest, UserToken.username, UserToken.hostName, Target.hostName, userLower,
        host.lower]

/-- Printing a query and parsing it again gives the query back. -/
theorem parse_printed (query : FingerQuery) :
    parse (asBytes (printed query ++ crlf)) = .ok query := by
  rw [← printedRequest_text, parse_text, printedRequest_query]

/-! ## The grammar of accepted lines -/

/-- **Query grammar.**  A line without embedded line ends is accepted with a
query exactly when it has a derivation that denotes the query; it has one
derivation at most; and an accepted query is the answer to its printed form. -/
theorem parse_grammar (line : Bytes)
    (framing : ∀ body, line = body ++ [0x0d, 0x0a] → 0x0d ∉ body ∧ 0x0a ∉ body) :
    (∀ query, parse line = .ok query ↔
      ∃ request : Request, fromUtf8 line = some (request.text ++ crlf) ∧
        request.query = query) ∧
    (∀ request request' : Request, fromUtf8 line = some (request.text ++ crlf) →
      fromUtf8 line = some (request'.text ++ crlf) → request = request') ∧
    (∀ query, parse line = .ok query → parse (asBytes (printed query ++ crlf)) = .ok query) := by
  refine ⟨fun query => ⟨fun accepted => ?_, ?_⟩, fun request request' decoded decoded' => ?_,
    fun query _ => parse_printed query⟩
  · obtain ⟨request, framed, denotes⟩ := exists_of_parse accepted framing
    exact ⟨request, fromUtf8_eq_some_iff.mpr framed, denotes⟩
  · intro derivation
    obtain ⟨request, decoded, rfl⟩ := derivation
    rw [fromUtf8_eq_some_iff.mp decoded]
    exact parse_text request
  · have same : request.text ++ crlf = request'.text ++ crlf :=
      Option.some.inj (decoded.symm.trans decoded')
    exact Request.text_injective (List.append_cancel_right same)

/-- The grammar at a line with a flag, an empty host and a tail. -/
theorem parse_grammar_at_bob :
    (∀ query, parse (asBytes " /w Bob@@x \r\n".toList) = .ok query ↔
      ∃ request : Request,
        fromUtf8 (asBytes " /w Bob@@x \r\n".toList) = some (request.text ++ crlf) ∧
          request.query = query) ∧
    (∀ request request' : Request,
      fromUtf8 (asBytes " /w Bob@@x \r\n".toList) = some (request.text ++ crlf) →
      fromUtf8 (asBytes " /w Bob@@x \r\n".toList) = some (request'.text ++ crlf) →
        request = request') ∧
    (∀ query, parse (asBytes " /w Bob@@x \r\n".toList) = .ok query →
      parse (asBytes (printed query ++ crlf)) = .ok query) := by
  refine parse_grammar _ fun body framed => ?_
  have same : body = asBytes " /w Bob@@x ".toList :=
    List.append_cancel_right (framed.symm.trans (by decide))
  rw [same]
  decide

end Query

end Fingermouse
