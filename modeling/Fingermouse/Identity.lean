import Fingermouse.CaseFold

/-!
# Usernames and hostnames

`Username` and `HostName` are the normalised, validated strings of the source:
each carries the proof that its text is in normal form, so the parsers are the
only way to obtain one from outside text.  `Username.parse_eq_ok_iff` and
`HostName.parse_eq_ok_iff` are the one specification of each parser that later
modules cite; neither parser is unfolded again.  `HostName.normal_form` says
which texts are hostnames and which are the same one.
-/

namespace Fingermouse

open Text

/-- Errors that may occur while parsing usernames or hostnames. -/
inductive IdentityError
  | usernameLength (max : Nat)
  | usernameCharacters
  | hostLength (max : Nat)
  | hostCharacters
  | hostLabelHyphen
  | hostEmptyLabel
deriving DecidableEq

/-- The `Display` text of the error. -/
def IdentityError.display : IdentityError → Str
  | .usernameLength max => s!"username must be between 1 and {max} characters".toList
  | .usernameCharacters =>
      "username may only contain ASCII letters, digits, hyphen, or underscore".toList
  | .hostLength max => s!"hostname must be between 1 and {max} characters".toList
  | .hostCharacters => "hostname contains invalid characters".toList
  | .hostLabelHyphen => "hostname labels must not begin or end with a hyphen".toList
  | .hostEmptyLabel => "hostname has empty label".toList

/-! ## Character classes -/

/-- `'a'..='z' | 'A'..='Z' | '0'..='9' | '-'`. -/
def isHostChar (c : Char) : Bool :=
  ('a' ≤ c && c ≤ 'z') || ('A' ≤ c && c ≤ 'Z') || ('0' ≤ c && c ≤ '9') || c == '-'

/-- `'a'..='z' | 'A'..='Z' | '0'..='9' | '-' | '_'`. -/
def isUsernameChar (c : Char) : Bool := isHostChar c || c == '_'

theorem ascii_of_isUsernameChar {c : Char} (ok : isUsernameChar c = true) : c.toNat < 128 := by
  simp only [isUsernameChar, isHostChar, Bool.or_eq_true, Bool.and_eq_true, decide_eq_true_eq,
    beq_iff_eq, Char.le_def, UInt32.le_iff_toNat_le] at ok
  have code : ∀ d : Char, d.toNat = d.val.toNat := fun _ => rfl
  rcases ok with (((⟨-, le⟩ | ⟨-, le⟩) | ⟨-, le⟩) | rfl) | rfl
  · exact Nat.lt_of_le_of_lt le (by decide)
  · exact Nat.lt_of_le_of_lt le (by decide)
  · exact Nat.lt_of_le_of_lt le (by decide)
  · decide
  · decide

theorem isUsernameChar_of_isHostChar {c : Char} (ok : isHostChar c = true) :
    isUsernameChar c = true := by
  simp [isUsernameChar, ok]

theorem ascii_of_isHostChar {c : Char} (ok : isHostChar c = true) : c.toNat < 128 :=
  ascii_of_isUsernameChar (isUsernameChar_of_isHostChar ok)

/-- A property of accepted characters is checked code by code. -/
theorem forall_usernameChar {p : Char → Prop}
    (check : ∀ n < 128, isUsernameChar (Char.ofNat n) = true → p (Char.ofNat n))
    {c : Char} (ok : isUsernameChar c = true) : p c :=
  forall_ascii (p := fun c => isUsernameChar c = true → p c) check c (ascii_of_isUsernameChar ok) ok

theorem isWhitespace_of_isUsernameChar {c : Char} (ok : isUsernameChar c = true) :
    isWhitespace c = false :=
  forall_usernameChar (p := fun c => isWhitespace c = false) (by decide) ok

theorem printable_of_isUsernameChar {c : Char} (ok : isUsernameChar c = true) :
    0x20 < c.toNat ∧ c.toNat < 0x7f :=
  forall_usernameChar (p := fun c => 0x20 < c.toNat ∧ c.toNat < 0x7f) (by decide) ok

/-- The separators of requests, hosts and paths are outside the class. -/
theorem not_separator_of_isUsernameChar {c : Char} (ok : isUsernameChar c = true) :
    c ≠ '@' ∧ c ≠ '/' ∧ c ≠ '.' :=
  forall_usernameChar (p := fun c => c ≠ '@' ∧ c ≠ '/' ∧ c ≠ '.') (by decide) ok

theorem isHostChar_toLower (c : Char) : isHostChar c.toLower = isHostChar c :=
  forall_toLower (p := fun c d => isHostChar d = isHostChar c) (by decide) (fun _ _ => rfl) c

theorem isUsernameChar_toLower (c : Char) : isUsernameChar c.toLower = isUsernameChar c :=
  forall_toLower (p := fun c d => isUsernameChar d = isUsernameChar c) (by decide)
    (fun _ _ => rfl) c

theorem caseless_hyphen : Caseless '-' := caseless_of_ascii (by decide)

theorem caseless_dot : Caseless '.' := caseless_of_ascii (by decide)

/-! ## Usernames -/

/-- What `Username::parse` demands of the trimmed input. -/
def IsUserSyntax (s : Str) : Prop :=
  s ≠ [] ∧ s.length ≤ 32 ∧ ∀ c ∈ s, isUsernameChar c = true

instance (s : Str) : Decidable (IsUserSyntax s) :=
  inferInstanceAs (Decidable (_ ∧ _ ∧ _))

/-- A normalised, validated username. -/
structure Username where
  text : Str
  wellFormed : IsUserSyntax text
  lower : toAsciiLowercase text = text
deriving DecidableEq

namespace IsUserSyntax

variable {s : Str} (valid : IsUserSyntax s)
include valid

theorem ascii : ∀ c ∈ s, c.toNat < 128 :=
  fun c member => ascii_of_isUsernameChar (valid.2.2 c member)

theorem solid : ∀ c ∈ s, isWhitespace c = false :=
  fun c member => isWhitespace_of_isUsernameChar (valid.2.2 c member)

theorem trim_eq : trim s = s := trim_of_forall_not valid.solid

theorem toAsciiLowercase : IsUserSyntax (toAsciiLowercase s) := by
  refine ⟨by simpa [Text.toAsciiLowercase] using valid.1,
    by simpa [Text.toAsciiLowercase] using valid.2.1, ?_⟩
  intro c member
  obtain ⟨d, inText, rfl⟩ := List.mem_map.mp member
  rw [isUsernameChar_toLower, valid.2.2 d inText]

end IsUserSyntax

namespace Username

def maxLen : Nat := 32

/-- Parse the provided string, enforcing allowed characters and length. -/
def parse (input : Str) : Except IdentityError Username :=
  let trimmed := trim input
  if length : trimmed.isEmpty ∨ byteLen trimmed > maxLen then
    .error (.usernameLength maxLen)
  else if chars : trimmed.all isUsernameChar then
    have valid : IsUserSyntax trimmed := by
      have solid := List.all_eq_true.mp chars
      have bytes := byteLen_of_ascii fun c member => ascii_of_isUsernameChar (solid c member)
      simp only [List.isEmpty_iff, not_or, gt_iff_lt, Nat.not_lt, bytes] at length
      exact ⟨length.1, length.2, solid⟩
    .ok ⟨toAsciiLowercase trimmed, valid.toAsciiLowercase,
      toAsciiLowercase_toAsciiLowercase trimmed⟩
  else
    .error .usernameCharacters

/-- The parser accepts exactly the inputs whose trimmed text is a username, and
answers that text in lower case. -/
theorem parse_eq_ok_iff {input : Str} {username : Username} :
    parse input = .ok username ↔
      IsUserSyntax (trim input) ∧ username.text = toAsciiLowercase (trim input) := by
  constructor
  · intro parsed
    simp only [parse] at parsed
    split_ifs at parsed with length chars
    injection parsed with same
    have solid := List.all_eq_true.mp chars
    have bytes := byteLen_of_ascii fun c member => ascii_of_isUsernameChar (solid c member)
    simp only [List.isEmpty_iff, not_or, gt_iff_lt, Nat.not_lt, bytes] at length
    exact ⟨⟨length.1, length.2, solid⟩, by rw [← same]⟩
  · intro accepted
    obtain ⟨valid, text⟩ := accepted
    have length : ¬ ((trim input).isEmpty ∨ byteLen (trim input) > maxLen) := by
      rw [byteLen_of_ascii valid.ascii, List.isEmpty_iff, not_or, gt_iff_lt, Nat.not_lt]
      exact ⟨valid.1, valid.2.1⟩
    have chars : (trim input).all isUsernameChar = true := List.all_eq_true.mpr valid.2.2
    cases username
    simp only [parse, dif_neg length, dif_pos chars, Except.ok.injEq, Username.mk.injEq]
    exact text.symm

theorem toLower_eq (username : Username) : ∀ c ∈ username.text, c.toLower = c :=
  List.map_inj_left.mp (username.lower.trans (List.map_id _).symm)

/-- A username is a fixed point of the parser. -/
theorem parse_text (username : Username) : parse username.text = .ok username := by
  rw [parse_eq_ok_iff, username.wellFormed.trim_eq]
  exact ⟨username.wellFormed, username.lower.symm⟩

theorem text_injective : Function.Injective Username.text := by
  intro username other same
  cases username
  cases other
  cases same
  rfl

end Username

/-! ## Hostnames -/

/-- What `validate_label` demands of one label. -/
def IsLabel (label : Str) : Prop :=
  label ≠ [] ∧ label.head? ≠ some '-' ∧ label.getLast? ≠ some '-' ∧
    ∀ c ∈ label, isHostChar c = true

instance (label : Str) : Decidable (IsLabel label) :=
  inferInstanceAs (Decidable (_ ∧ _ ∧ _ ∧ _))

/-- Dot-separated labels, 253 characters at most. -/
def IsHostSyntax (s : Str) : Prop :=
  s.length ≤ 253 ∧ ∀ label ∈ s.splitOn '.', IsLabel label

instance (s : Str) : Decidable (IsHostSyntax s) :=
  inferInstanceAs (Decidable (_ ∧ _))

/-- A normalised, validated hostname. -/
structure HostName where
  text : Str
  wellFormed : IsHostSyntax text
  lower : toAsciiLowercase text = text
deriving DecidableEq

theorem IsLabel.toAsciiLowercase {label : Str} (valid : IsLabel label) :
    IsLabel (toAsciiLowercase label) := by
  obtain ⟨nonempty, front, back, chars⟩ := valid
  refine ⟨by simpa [Text.toAsciiLowercase] using nonempty, ?_, ?_, ?_⟩
  · rwa [ne_eq, caseless_hyphen.head?_toAsciiLowercase]
  · rwa [ne_eq, caseless_hyphen.getLast?_toAsciiLowercase]
  · intro c member
    obtain ⟨d, inLabel, rfl⟩ := List.mem_map.mp member
    rw [isHostChar_toLower, chars d inLabel]

namespace IsHostSyntax

variable {s : Str} (valid : IsHostSyntax s)
include valid

theorem eq_dot_or_isHostChar {c : Char} (member : c ∈ s) : c = '.' ∨ isHostChar c = true :=
  (eq_or_exists_mem_splitOn member).imp id fun ⟨label, inLabels, inLabel⟩ =>
    (valid.2 label inLabels).2.2.2 c inLabel

theorem ne_nil : s ≠ [] := by
  rintro rfl
  exact (valid.2 [] (by simp)).1 rfl

theorem ascii : ∀ c ∈ s, c.toNat < 128 := by
  intro c member
  rcases valid.eq_dot_or_isHostChar member with rfl | host
  · decide
  · exact ascii_of_isHostChar host

theorem solid : ∀ c ∈ s, isWhitespace c = false := by
  intro c member
  rcases valid.eq_dot_or_isHostChar member with rfl | host
  · decide
  · exact isWhitespace_of_isUsernameChar (isUsernameChar_of_isHostChar host)

theorem trim_eq : trim s = s := trim_of_forall_not valid.solid

theorem toAsciiLowercase : IsHostSyntax (toAsciiLowercase s) := by
  refine ⟨by simpa [Text.toAsciiLowercase] using valid.1, ?_⟩
  rw [caseless_dot.splitOn_toAsciiLowercase]
  intro label member
  obtain ⟨original, inLabels, rfl⟩ := List.mem_map.mp member
  exact (valid.2 original inLabels).toAsciiLowercase

end IsHostSyntax

namespace HostName

def maxLen : Nat := 253

/-- Validate that a hostname label follows the restrictions of the server. -/
def validateLabel (label : Str) : Except IdentityError Unit :=
  if label.isEmpty then .error .hostEmptyLabel
  else if label.head? = some '-' ∨ label.getLast? = some '-' then .error .hostLabelHyphen
  else if label.any (!isHostChar ·) then .error .hostCharacters
  else .ok ()

theorem validateLabel_eq_ok_iff {label : Str} : validateLabel label = .ok () ↔ IsLabel label := by
  unfold validateLabel IsLabel
  split_ifs with empty hyphen chars
  · simp_all
  · simp only [false_iff]
    intro label
    obtain ⟨-, front, back, -⟩ := label
    exact hyphen.elim front back
  · simp only [false_iff]
    intro label
    obtain ⟨-, -, -, host⟩ := label
    simp only [List.any_eq_true, Bool.not_eq_true'] at chars
    obtain ⟨c, member, bad⟩ := chars
    simp [host c member] at bad
  · simp only [true_iff]
    simp only [List.isEmpty_iff] at empty
    simp only [List.any_eq_true, Bool.not_eq_true', not_exists, not_and,
      Bool.not_eq_false] at chars
    exact ⟨empty, fun front => hyphen (.inl front), fun back => hyphen (.inr back), chars⟩

/-- The loop of `HostName::parse`: each label is validated and appended, after
a dot when the output is not empty. -/
def appendLabels : Str → List Str → Except IdentityError Str
  | output, [] => .ok output
  | output, label :: labels => do
      validateLabel label
      let output := if output.isEmpty then output else output ++ ['.']
      appendLabels (output ++ toAsciiLowercase label) labels

/-- Past the first label every label is spelled after a dot. -/
theorem appendLabels_eq_ok_iff_of_ne_nil {output result : Str} {labels : List Str}
    (started : output ≠ []) :
    appendLabels output labels = .ok result ↔
      (∀ label ∈ labels, IsLabel label) ∧
        result = output ++ toAsciiLowercase (labels.flatMap ('.' :: ·)) := by
  induction labels generalizing output with
  | nil => simp [appendLabels, toAsciiLowercase, eq_comm]
  | cons label labels ih =>
      have nonempty : output.isEmpty = false := by simpa using started
      rw [List.forall_mem_cons, ← validateLabel_eq_ok_iff]
      cases check : validateLabel label with
      | error err => simp [appendLabels, check, bind, Except.bind]
      | ok _ =>
          simp only [appendLabels, check, bind, Except.bind, nonempty, Bool.false_eq_true,
            if_false]
          rw [ih (by simp)]
          simp [toAsciiLowercase]

/-- The loop spells the labels in lower case with single dots between. -/
theorem appendLabels_nil_eq_ok_iff {result : Str} {labels : List Str} (some_label : labels ≠ []) :
    appendLabels [] labels = .ok result ↔
      (∀ label ∈ labels, IsLabel label) ∧
        result = toAsciiLowercase (['.'].intercalate labels) := by
  obtain ⟨label, labels, rfl⟩ := List.exists_cons_of_ne_nil some_label
  rw [List.forall_mem_cons, ← validateLabel_eq_ok_iff, intercalate_cons_eq_append_flatMap]
  cases check : validateLabel label with
  | error err => simp [appendLabels, check, bind, Except.bind]
  | ok _ =>
      have valid : IsLabel label := validateLabel_eq_ok_iff.mp check
      have started : toAsciiLowercase label ≠ [] := valid.toAsciiLowercase.1
      simp only [appendLabels, check, bind, Except.bind, List.isEmpty_nil, if_true,
        List.nil_append]
      rw [appendLabels_eq_ok_iff_of_ne_nil started]
      simp [toAsciiLowercase]

/-- The loop over the labels of a text accepts hostname labels only, and
answers the text itself in lower case. -/
theorem appendLabels_splitOn_eq_ok_iff {text result : Str} :
    appendLabels [] (text.splitOn '.') = .ok result ↔
      (∀ label ∈ text.splitOn '.', IsLabel label) ∧ result = toAsciiLowercase text := by
  rw [appendLabels_nil_eq_ok_iff (List.splitOn_ne_nil '.' text), List.intercalate_splitOn]

/-- Parse the provided string, ensuring each label is well-formed. -/
def parse (input : Str) : Except IdentityError HostName :=
  let trimmed := trim input
  if length : trimmed.isEmpty ∨ byteLen trimmed > maxLen then
    .error (.hostLength maxLen)
  else
    match labels : appendLabels [] (trimmed.splitOn '.') with
    | .error err => .error err
    | .ok output =>
        have valid : IsHostSyntax trimmed := by
          have bytes := length_le_byteLen trimmed
          simp only [not_or, gt_iff_lt, Nat.not_lt] at length
          exact ⟨Nat.le_trans bytes length.2, (appendLabels_splitOn_eq_ok_iff.mp labels).1⟩
        have spelled : output = toAsciiLowercase trimmed :=
          (appendLabels_splitOn_eq_ok_iff.mp labels).2
        .ok ⟨output, spelled ▸ valid.toAsciiLowercase,
          spelled ▸ toAsciiLowercase_toAsciiLowercase trimmed⟩

/-- The parser accepts exactly the inputs whose trimmed text is a hostname, and
answers that text in lower case. -/
theorem parse_eq_ok_iff {input : Str} {host : HostName} :
    parse input = .ok host ↔
      IsHostSyntax (trim input) ∧ host.text = toAsciiLowercase (trim input) := by
  cases host with
  | mk text wellFormed lower =>
    constructor
    · intro parsed
      simp only [parse] at parsed
      split_ifs at parsed with length
      split at parsed
      · cases parsed
      · rename_i output labels
        injection parsed with same
        injection same with same
        obtain ⟨valid, spelled⟩ := appendLabels_splitOn_eq_ok_iff.mp labels
        simp only [not_or, gt_iff_lt, Nat.not_lt] at length
        exact ⟨⟨Nat.le_trans (length_le_byteLen _) length.2, valid⟩, same ▸ spelled⟩
    · intro accepted
      obtain ⟨valid, spelled⟩ := accepted
      have length : ¬ ((trim input).isEmpty ∨ byteLen (trim input) > maxLen) := by
        rw [byteLen_of_ascii valid.ascii, List.isEmpty_iff, not_or, gt_iff_lt, Nat.not_lt]
        exact ⟨valid.ne_nil, valid.1⟩
      have labels : appendLabels [] ((trim input).splitOn '.') = .ok text :=
        appendLabels_splitOn_eq_ok_iff.mpr ⟨valid.2, spelled⟩
      unfold parse
      rw [dif_neg length]
      split
      · rename_i err failed
        rw [labels] at failed
        cases failed
      · rename_i output found
        rw [labels] at found
        injection found with same
        subst same
        rfl

/-- A hostname is a fixed point of the parser. -/
theorem parse_text (host : HostName) : parse host.text = .ok host := by
  rw [parse_eq_ok_iff, host.wellFormed.trim_eq]
  exact ⟨host.wellFormed, host.lower.symm⟩

/-! ### Normal form -/

theorem text_injective : Function.Injective HostName.text := by
  intro host other same
  cases host
  cases other
  cases same
  rfl

theorem dot_notMem_of_isLabel {label : Str} (valid : IsLabel label) : '.' ∉ label := by
  intro member
  have user := isUsernameChar_of_isHostChar (valid.2.2.2 '.' member)
  exact (not_separator_of_isUsernameChar user).2.2 rfl

/-- The syntax in terms of labels joined with dots: joined labels split where
they were joined, since none holds a dot. -/
theorem isHostSyntax_iff {s : Str} :
    IsHostSyntax s ↔ 1 ≤ byteLen s ∧ byteLen s ≤ 253 ∧
      ∃ labels, labels ≠ [] ∧ s = ['.'].intercalate labels ∧ ∀ label ∈ labels, IsLabel label := by
  constructor
  · intro valid
    have bytes := byteLen_of_ascii valid.ascii
    refine ⟨?_, ?_, s.splitOn '.', List.splitOn_ne_nil '.' s, (List.intercalate_splitOn '.').symm,
      valid.2⟩
    · rw [bytes]
      exact List.length_pos_iff.mpr valid.ne_nil
    · rw [bytes]
      exact valid.1
  · intro joined
    obtain ⟨-, short, labels, some_label, rfl, valid⟩ := joined
    refine ⟨Nat.le_trans (length_le_byteLen _) short, ?_⟩
    have dotless : ∀ label ∈ labels, '.' ∉ label :=
      fun label member => dot_notMem_of_isLabel (valid label member)
    rwa [List.splitOn_intercalate '.' dotless some_label]

/-- A text is a hostname exactly if it is, up to white space around it, labels
joined with dots and short enough; the hostname is that text in lower case, byte
for byte, is read as itself, and is shared by the texts that differ in white
space and case alone. -/
theorem normal_form (s : Str) :
    ((∃ host, parse s = .ok host) ↔
      1 ≤ byteLen (trim s) ∧ byteLen (trim s) ≤ 253 ∧
        ∃ labels, labels ≠ [] ∧ trim s = ['.'].intercalate labels ∧
          ∀ label ∈ labels, IsLabel label) ∧
    ∀ host, parse s = .ok host →
      asBytes host.text = (asBytes (trim s)).map lowerByte ∧
      parse host.text = .ok host ∧
      ∀ t other, parse t = .ok other →
        (host = other ↔ eqIgnoreAsciiCase (trim s) (trim t) = true) := by
  refine ⟨?_, ?_⟩
  · rw [← isHostSyntax_iff]
    constructor
    · intro accepted
      obtain ⟨host, parsed⟩ := accepted
      exact (parse_eq_ok_iff.mp parsed).1
    · intro valid
      exact ⟨⟨toAsciiLowercase (trim s), valid.toAsciiLowercase,
        toAsciiLowercase_toAsciiLowercase _⟩, parse_eq_ok_iff.mpr ⟨valid, rfl⟩⟩
  · intro host parsed
    have text := (parse_eq_ok_iff.mp parsed).2
    refine ⟨by rw [text, asBytes_toAsciiLowercase], parse_text host, ?_⟩
    intro t other parsed'
    rw [eqIgnoreAsciiCase, beq_iff_eq, ← text, ← (parse_eq_ok_iff.mp parsed').2]
    exact text_injective.eq_iff.symm

/-- Two spellings of one host. -/
theorem normal_form_of_mixed_case :
    ∃ host, parse " Example.COM".toList = .ok host ∧
      asBytes host.text = asBytes "example.com".toList ∧
      parse "eXample.com\t".toList = .ok host := by
  obtain ⟨accepts, spelled⟩ := normal_form " Example.COM".toList
  obtain ⟨host, parsed⟩ := accepts.mpr ⟨by decide, by decide,
    ["Example".toList, "COM".toList], by decide, by decide, by decide⟩
  obtain ⟨other, parsed'⟩ := (normal_form "eXample.com\t".toList).1.mpr ⟨by decide, by decide,
    ["eXample".toList, "com".toList], by decide, by decide, by decide⟩
  obtain ⟨text, -, same⟩ := spelled host parsed
  refine ⟨host, parsed, text.trans (by decide), ?_⟩
  rw [(same _ other parsed').mpr (by decide), parsed']

end HostName

end Fingermouse
