import Mathlib.Data.List.DropRight
import Mathlib.Data.List.Infix
import Mathlib.Tactic.Common

/-!
# Text as Rust's `str` sees it

A `str` is the list of its characters, each a Unicode scalar value, and its
UTF-8 encoding is a list of bytes.  The operations below carry the names and
the documented behaviour of the standard-library methods; the lemmas are the
ones needed to reason about tokenisers and line framing built from them.

* `fromUtf8_eq_some_iff`: decoding succeeds exactly on encodings.
* `splitWhitespace_span`: the tokens of a text, read off a decomposition into
  white space and a first token.
* `append_inj_of_span`: a maximal run and what follows it are determined by
  the text.
-/

namespace Text

abbrev Str := List Char

abbrev Bytes := List UInt8

/-- A property of a text's characters is decided along the text; the library
would try all characters there are. -/
instance (priority := high) decidableForallMem (s : Str) (p : Char → Prop) [DecidablePred p] :
    Decidable (∀ c ∈ s, p c) :=
  List.decidableBAll p s

/-! ## UTF-8 -/

/-- `str::as_bytes`. -/
def asBytes (s : Str) : Bytes := s.flatMap String.utf8EncodeChar

/-- `str::from_utf8`, with `none` for `Utf8Error`. -/
def fromUtf8 (bytes : Bytes) : Option Str :=
  bytes.toByteArray.utf8Decode?.map Array.toList

/-- `str::len`: the number of bytes, not of characters. -/
def byteLen (s : Str) : Nat := (asBytes s).length

@[simp] theorem asBytes_cons (c : Char) (s : Str) :
    asBytes (c :: s) = String.utf8EncodeChar c ++ asBytes s := rfl

@[simp] theorem asBytes_append (s t : Str) :
    asBytes (s ++ t) = asBytes s ++ asBytes t :=
  List.flatMap_append

@[simp] theorem fromUtf8_asBytes (s : Str) : fromUtf8 (asBytes s) = some s := by
  have decoded : (asBytes s).toByteArray.utf8Decode? = some s.toArray :=
    List.utf8Decode?_utf8Encode
  simp [fromUtf8, decoded]

/-- Decoding succeeds exactly on the encoding of the decoded text. -/
theorem fromUtf8_eq_some_iff {bytes : Bytes} {s : Str} :
    fromUtf8 bytes = some s ↔ bytes = asBytes s := by
  constructor
  · intro decoded
    obtain ⟨chars, found, rfl⟩ := Option.map_eq_some_iff.mp decoded
    have encoded : (chars.toList).utf8Encode = bytes.toByteArray := by
      simpa [found] using
        ByteArray.utf8Encode_get_utf8Decode? (b := bytes.toByteArray) (h := by simp [found])
    exact (List.toByteArray_inj.mp encoded).symm
  · intro same
    subst same
    exact fromUtf8_asBytes s

theorem asBytes_injective : Function.Injective asBytes := by
  intro s t same
  have decoded : some s = some t := by
    rw [← fromUtf8_asBytes s, same, fromUtf8_asBytes]
  exact Option.some.inj decoded

/-! ## Bytes of ASCII characters -/

/-- An ASCII character is its own single byte. -/
theorem utf8EncodeChar_of_ascii {c : Char} (ascii : c.toNat < 128) :
    String.utf8EncodeChar c = [UInt8.ofNat c.toNat] := by
  have small : c.val.toNat ≤ 127 := Nat.le_of_lt_succ ascii
  simp only [String.utf8EncodeChar, if_pos small]
  rfl

/-- Every byte of a character outside ASCII has its high bit set. -/
theorem le_of_mem_utf8EncodeChar {c : Char} (wide : 128 ≤ c.toNat) {b : UInt8}
    (member : b ∈ String.utf8EncodeChar c) : 128 ≤ b.toNat := by
  have large : ¬ c.val.toNat ≤ 127 := Nat.not_le_of_lt wide
  simp only [String.utf8EncodeChar, if_neg large] at member
  split_ifs at member <;>
    simp only [List.mem_cons, List.not_mem_nil, or_false] at member <;>
    rcases member with rfl | rfl | rfl | rfl <;>
    simp only [UInt8.toNat_ofNat'] <;> omega

/-- A predicate that holds of ASCII codes only is a predicate of characters
and of bytes alike. -/
theorem forall_mem_asBytes_iff {p : Nat → Prop} (ascii : ∀ n, p n → n < 128) (s : Str) :
    (∀ b ∈ asBytes s, p b.toNat) ↔ ∀ c ∈ s, p c.toNat := by
  simp only [asBytes, List.mem_flatMap, forall_exists_index, and_imp]
  constructor
  · intro bytes c member
    by_cases narrow : c.toNat < 128
    · have encoded := utf8EncodeChar_of_ascii narrow
      have holds := bytes (UInt8.ofNat c.toNat) c member (by simp [encoded])
      rwa [UInt8.toNat_ofNat', Nat.mod_eq_of_lt (by omega)] at holds
    · obtain ⟨b, rest, encoded⟩ :=
        List.exists_cons_of_ne_nil (String.utf8EncodeChar_ne_nil (c := c))
      have head : b ∈ String.utf8EncodeChar c := by simp [encoded]
      have high := le_of_mem_utf8EncodeChar (Nat.le_of_not_lt narrow) head
      have low := ascii _ (bytes b c member head)
      omega
  · intro chars b c member encoded
    have holds := chars c member
    rw [utf8EncodeChar_of_ascii (ascii _ holds), List.mem_singleton] at encoded
    rw [encoded, UInt8.toNat_ofNat', Nat.mod_eq_of_lt (by have := ascii _ holds; omega)]
    exact holds

/-- An ASCII byte of an encoding is an ASCII character of the text. -/
theorem exists_mem_asBytes_iff {p : Nat → Prop} (ascii : ∀ n, p n → n < 128) (s : Str) :
    (∃ b ∈ asBytes s, p b.toNat) ↔ ∃ c ∈ s, p c.toNat := by
  simp only [asBytes, List.mem_flatMap]
  constructor
  · intro byte
    obtain ⟨b, ⟨c, member, encoded⟩, holds⟩ := byte
    have narrow : c.toNat < 128 := by
      by_contra wide
      have high := le_of_mem_utf8EncodeChar (Nat.le_of_not_lt wide) encoded
      have low := ascii _ holds
      omega
    rw [utf8EncodeChar_of_ascii narrow, List.mem_singleton] at encoded
    rw [encoded, UInt8.toNat_ofNat', Nat.mod_eq_of_lt (by omega)] at holds
    exact ⟨c, member, holds⟩
  · intro char
    obtain ⟨c, member, holds⟩ := char
    have narrow := ascii _ holds
    refine ⟨UInt8.ofNat c.toNat, ⟨c, member, ?_⟩, ?_⟩
    · rw [utf8EncodeChar_of_ascii narrow]
      exact List.mem_singleton.mpr rfl
    · rwa [UInt8.toNat_ofNat', Nat.mod_eq_of_lt (by omega)]

theorem length_le_byteLen (s : Str) : s.length ≤ byteLen s := by
  induction s with
  | nil => exact Nat.le_refl 0
  | cons c s ih =>
      have one : 1 ≤ (String.utf8EncodeChar c).length := by
        rw [String.length_utf8EncodeChar]
        exact c.utf8Size_pos
      simp only [byteLen, asBytes_cons, List.length_append, List.length_cons] at ih ⊢
      omega

/-- ASCII text has as many bytes as characters. -/
theorem byteLen_of_ascii {s : Str} (ascii : ∀ c ∈ s, c.toNat < 128) :
    byteLen s = s.length := by
  induction s with
  | nil => rfl
  | cons c s ih =>
      rw [List.forall_mem_cons] at ascii
      have tail := ih ascii.2
      simp only [byteLen, asBytes_cons, utf8EncodeChar_of_ascii ascii.1, List.length_append,
        List.length_cons, List.length_nil] at tail ⊢
      omega

/-! ## ASCII case -/

/-- `str::to_ascii_lowercase`; `Char.toLower` changes ASCII letters only. -/
def toAsciiLowercase (s : Str) : Str := s.map Char.toLower

/-- `str::eq_ignore_ascii_case`. -/
def eqIgnoreAsciiCase (s t : Str) : Bool := toAsciiLowercase s == toAsciiLowercase t

/-- A property of characters that is checked for every ASCII code. -/
theorem forall_ascii {p : Char → Prop} (check : ∀ n < 128, p (Char.ofNat n))
    (c : Char) (ascii : c.toNat < 128) : p c := by
  have holds := check c.toNat ascii
  rwa [Char.ofNat_toNat] at holds

theorem toLower_of_not_ascii {c : Char} (wide : 128 ≤ c.toNat) : c.toLower = c := by
  have outside : ¬ (c.val ≥ 'A'.val ∧ c.val ≤ 'Z'.val) := by
    intro upper
    obtain ⟨-, le⟩ := upper
    have bound := UInt32.le_iff_toNat_le.mp le
    have code : ('Z' : Char).val.toNat = 90 := rfl
    change 128 ≤ c.val.toNat at wide
    omega
  exact dif_neg outside

theorem toUpper_of_not_ascii {c : Char} (wide : 128 ≤ c.toNat) : c.toUpper = c := by
  have outside : ¬ (c.val ≥ 'a'.val ∧ c.val ≤ 'z'.val) := by
    intro lower
    obtain ⟨-, le⟩ := lower
    have bound := UInt32.le_iff_toNat_le.mp le
    have code : ('z' : Char).val.toNat = 122 := rfl
    change 128 ≤ c.val.toNat at wide
    omega
  exact dif_neg outside

/-! ## White space -/

/-- `char::is_whitespace`: the Unicode property `White_Space`. -/
def isWhitespace (c : Char) : Bool :=
  let n := c.toNat
  (0x09 ≤ n && n ≤ 0x0d) || n == 0x20 || n == 0x85 || n == 0xa0 || n == 0x1680 ||
    (0x2000 ≤ n && n ≤ 0x200a) || n == 0x2028 || n == 0x2029 || n == 0x202f ||
    n == 0x205f || n == 0x3000

/-- `str::trim`. -/
def trim (s : Str) : Str := (s.dropWhile isWhitespace).rdropWhile isWhitespace

/-- `str::trim_matches`. -/
def trimMatches (p : Char → Bool) (s : Str) : Str := (s.dropWhile p).rdropWhile p

/-- `str::trim_end_matches`. -/
def trimEndMatches (p : Char → Bool) (s : Str) : Str := s.rdropWhile p

/-- Trimming leaves alone a text that neither begins nor ends in white space. -/
theorem trim_of_forall_not {s : Str} (solid : ∀ c ∈ s, isWhitespace c = false) : trim s = s := by
  have front : s.dropWhile isWhitespace = s := by
    cases s with
    | nil => rfl
    | cons c s => simp [solid c List.mem_cons_self]
  rw [trim, front, List.rdropWhile_eq_self_iff]
  intro nonempty
  simp [solid _ (List.getLast_mem nonempty)]

theorem trim_eq_nil_iff {s : Str} : trim s = [] ↔ ∀ c ∈ s, isWhitespace c = true := by
  rw [trim, List.rdropWhile_eq_nil_iff]
  constructor
  · intro white
    have cut := List.takeWhile_append_dropWhile (p := isWhitespace) (l := s)
    rw [← cut, List.forall_mem_append]
    exact ⟨fun c member => List.mem_takeWhile_imp member, white⟩
  · intro white c member
    exact white c ((List.dropWhile_suffix isWhitespace).subset member)

theorem trim_trim (s : Str) : trim (trim s) = trim s := by
  have front : ∀ t : Str, (∀ nonempty : 0 < t.length, ¬isWhitespace t[0] = true) →
      (t.rdropWhile isWhitespace).dropWhile isWhitespace = t.rdropWhile isWhitespace := by
    intro t solid
    have kept := List.rdropWhile_prefix isWhitespace t
    rw [List.dropWhile_eq_self_iff]
    intro nonempty
    rw [kept.getElem nonempty]
    exact solid (Nat.lt_of_lt_of_le nonempty kept.length_le)
  rw [trim, trim, front _ (List.dropWhile_get_zero_not isWhitespace s),
    List.rdropWhile_idempotent]

/-! ## Splitting -/

/-- `str::splitn` with a character separator: at most `n` pieces, the last one
holding the rest of the text. -/
def splitn (sep : Char) : Nat → Str → List Str
  | 0, _ => []
  | 1, s => [s]
  | n + 2, s =>
      match s.dropWhile (· != sep) with
      | [] => [s]
      | _ :: rest => s.takeWhile (· != sep) :: splitn sep (n + 1) rest

/-- `str::split_whitespace`, which the library defines as a split at every
white-space character with the empty pieces filtered out. -/
def splitWhitespace (s : Str) : List Str :=
  (s.splitOnP isWhitespace).filter (!·.isEmpty)

/-- `str::strip_suffix`. -/
def stripSuffix (suffix s : Str) : Option Str :=
  if suffix.isSuffixOf s then some (s.take (s.length - suffix.length)) else none

/-- `str::split_inclusive`: every piece but possibly the last keeps its
terminator. -/
def splitInclusive (sep : Char) : Str → List Str
  | [] => []
  | c :: s =>
      if c = sep then [c] :: splitInclusive sep s
      else
        match splitInclusive sep s with
        | [] => [[c]]
        | piece :: pieces => (c :: piece) :: pieces

/-- The content of one piece of `str::lines`: a line feed is removed, and one
carriage return before it; a carriage return alone is not a line end. -/
def lineContent (piece : Str) : Str :=
  match stripSuffix ['\n'] piece with
  | none => piece
  | some line => (stripSuffix ['\r'] line).getD line

/-- `str::lines`. -/
def lines (s : Str) : List Str := (splitInclusive '\n' s).map lineContent

theorem stripSuffix_eq_some_iff {suffix s rest : Str} :
    stripSuffix suffix s = some rest ↔ s = rest ++ suffix := by
  unfold stripSuffix
  constructor
  · intro stripped
    split at stripped
    · rename_i ends
      obtain ⟨front, rfl⟩ := List.isSuffixOf_iff_suffix.mp ends
      simp only [List.length_append, Nat.add_sub_cancel, List.take_left', Option.some.injEq]
        at stripped
      rw [stripped]
    · cases stripped
  · intro same
    subst same
    rw [if_pos (List.isSuffixOf_iff_suffix.mpr (List.suffix_append rest suffix))]
    simp

/-! ### Maximal runs -/

/-- A maximal run of `p` and what follows it are determined by the text. -/
theorem append_inj_of_span {α : Type} {p : α → Bool} {run run' rest rest' : List α}
    (inRun : ∀ a ∈ run, p a = true) (inRun' : ∀ a ∈ run', p a = true)
    (stop : ∀ a ∈ rest.head?, p a = false) (stop' : ∀ a ∈ rest'.head?, p a = false)
    (same : run ++ rest = run' ++ rest') : run = run' ∧ rest = rest' := by
  have cut : ∀ {front back : List α}, (∀ a ∈ front, p a = true) →
      (∀ a ∈ back.head?, p a = false) → (front ++ back).takeWhile p = front := by
    intro front back inFront atBack
    rw [List.takeWhile_append_of_pos inFront]
    cases back with
    | nil => simp
    | cons a back => simp [atBack a rfl]
  have runs : run = run' := by rw [← cut inRun stop, same, cut inRun' stop']
  subst runs
  exact ⟨rfl, List.append_cancel_left same⟩

/-! ### Separated pieces -/

/-- The pieces hold every character but the separators. -/
theorem eq_or_exists_mem_splitOn {sep c : Char} {s : Str} (member : c ∈ s) :
    c = sep ∨ ∃ piece ∈ s.splitOn sep, c ∈ piece := by
  induction s with
  | nil => cases member
  | cons x s ih =>
      rw [List.splitOn_cons_eq_if_modifyHead]
      obtain ⟨first, pieces, split⟩ := List.exists_cons_of_ne_nil (List.splitOn_ne_nil sep s)
      rw [split] at ih ⊢
      by_cases atSep : x = sep
      · rcases List.mem_cons.mp member with rfl | later
        · exact .inl atSep
        · simp only [atSep, beq_self_eq_true, if_true]
          exact (ih later).imp id fun ⟨piece, inPieces, inPiece⟩ =>
            ⟨piece, List.mem_cons_of_mem _ inPieces, inPiece⟩
      · simp only [beq_iff_eq, if_neg atSep, List.modifyHead_cons]
        rcases List.mem_cons.mp member with rfl | later
        · exact .inr ⟨_, List.mem_cons_self, List.mem_cons_self⟩
        · rcases ih later with isSep | ⟨piece, inPieces, inPiece⟩
          · exact .inl isSep
          · rcases List.mem_cons.mp inPieces with rfl | other
            · exact .inr ⟨_, List.mem_cons_self, List.mem_cons_of_mem _ inPiece⟩
            · exact .inr ⟨piece, List.mem_cons_of_mem _ other, inPiece⟩

/-- A map that neither creates nor destroys separators commutes with the
split. -/
theorem splitOnP_map {p : Char → Bool} {f : Char → Char} {s : Str}
    (keeps : ∀ c ∈ s, p (f c) = p c) :
    (s.map f).splitOnP p = (s.splitOnP p).map (List.map f) := by
  induction s with
  | nil => simp
  | cons c s ih =>
      rw [List.forall_mem_cons] at keeps
      obtain ⟨first, pieces, split⟩ :=
        List.exists_cons_of_ne_nil (List.splitOnP_ne_nil p s)
      simp only [List.map_cons, List.splitOnP_cons_eq_if_modifyHead, ih keeps.2, split, keeps.1]
      cases p c <;> simp

theorem splitOn_map {sep : Char} {f : Char → Char} {s : Str}
    (keeps : ∀ c ∈ s, f c = sep ↔ c = sep) :
    (s.map f).splitOn sep = (s.splitOn sep).map (List.map f) := by
  refine splitOnP_map fun c member => ?_
  rw [Bool.eq_iff_iff, beq_iff_eq, beq_iff_eq]
  exact keeps c member

/-- Rejoining pieces spells each later one after a separator. -/
theorem intercalate_cons_eq_append_flatMap (sep : Char) (piece : Str) (pieces : List Str) :
    [sep].intercalate (piece :: pieces) = piece ++ pieces.flatMap (sep :: ·) := by
  induction pieces generalizing piece with
  | nil => simp
  | cons next pieces ih => simp [ih]

/-- Without a separator there is one piece. -/
theorem splitn_two_of_notMem {sep : Char} {s : Str} (absent : sep ∉ s) : splitn sep 2 s = [s] := by
  have gone : s.dropWhile (· != sep) = [] := by
    rw [List.dropWhile_eq_nil_iff]
    exact fun c member => by simpa using ne_of_mem_of_not_mem member absent
  simp [splitn, gone]

/-- The first separator cuts the text in two. -/
theorem splitn_two_append {sep : Char} {front back : Str} (absent : sep ∉ front) :
    splitn sep 2 (front ++ sep :: back) = [front, back] := by
  have run : ∀ c ∈ front, (c != sep) = true :=
    fun c member => by simpa using ne_of_mem_of_not_mem member absent
  simp [splitn, List.dropWhile_append_of_pos run, List.takeWhile_append_of_pos run]

/-- The piece before the first separator, if any. -/
theorem head?_splitOn_append {sep : Char} {front back : Str} (absent : sep ∉ front) :
    ((front ++ sep :: back).splitOn sep).head? = some front := by
  rw [List.splitOn_append_cons_self_of_not_mem absent]
  rfl

/-! ### Tokens -/

theorem splitWhitespace_nil : splitWhitespace [] = [] := rfl

/-- Leading white space carries no token. -/
theorem splitWhitespace_append_of_whitespace {gap : Str}
    (white : ∀ c ∈ gap, isWhitespace c = true) (s : Str) :
    splitWhitespace (gap ++ s) = splitWhitespace s := by
  induction gap with
  | nil => rfl
  | cons c gap ih =>
      rw [List.forall_mem_cons] at white
      rw [← ih white.2]
      simp [splitWhitespace, List.splitOnP_cons_eq_if_modifyHead, white.1]

/-- White space alone has no token. -/
theorem splitWhitespace_of_whitespace {gap : Str}
    (white : ∀ c ∈ gap, isWhitespace c = true) : splitWhitespace gap = [] := by
  have split := splitWhitespace_append_of_whitespace white []
  rwa [List.append_nil, splitWhitespace_nil] at split

/-- A run of solid characters up to white space or the end is the first
token. -/
theorem splitWhitespace_token {token rest : Str} (nonempty : token ≠ [])
    (solid : ∀ c ∈ token, isWhitespace c = false)
    (stop : ∀ c ∈ rest.head?, isWhitespace c = true) :
    splitWhitespace (token ++ rest) = token :: splitWhitespace rest := by
  have kept : (!token.isEmpty) = true := by simpa using nonempty
  cases rest with
  | nil =>
      rw [List.append_nil, splitWhitespace, List.splitOnP_eq_singleton solid]
      simp [kept, splitWhitespace_nil]
  | cons c rest =>
      have white := stop c rfl
      rw [splitWhitespace, List.splitOnP_append_cons_of_forall_mem solid c white]
      simp [kept, splitWhitespace, List.splitOnP_cons_eq_if_modifyHead, white]

/-- Every text is white space, or white space, a first token, and a rest that
begins with white space. -/
theorem splitWhitespace_span (s : Str) :
    ((∀ c ∈ s, isWhitespace c = true) ∧ splitWhitespace s = []) ∨
      ∃ gap token rest, s = gap ++ (token ++ rest) ∧
        (∀ c ∈ gap, isWhitespace c = true) ∧
        token ≠ [] ∧ (∀ c ∈ token, isWhitespace c = false) ∧
        (∀ c ∈ rest.head?, isWhitespace c = true) ∧
        splitWhitespace s = token :: splitWhitespace rest := by
  have gapWhite : ∀ c ∈ s.takeWhile isWhitespace, isWhitespace c = true :=
    fun c member => List.mem_takeWhile_imp member
  have cutGap := List.takeWhile_append_dropWhile (p := isWhitespace) (l := s)
  by_cases blank : s.dropWhile isWhitespace = []
  · rw [blank, List.append_nil] at cutGap
    rw [cutGap] at gapWhite
    exact .inl ⟨gapWhite, splitWhitespace_of_whitespace gapWhite⟩
  · set body := s.dropWhile isWhitespace with bodyEq
    have cutToken :=
      List.takeWhile_append_dropWhile (p := fun c => !isWhitespace c) (l := body)
    have headSolid : isWhitespace (body.head blank) = false := by
      simpa using List.head_dropWhile_not isWhitespace blank
    have nonempty : body.takeWhile (fun c => !isWhitespace c) ≠ [] := by
      obtain ⟨c, tail, bodyCons⟩ := List.exists_cons_of_ne_nil blank
      simp only [bodyCons, List.head_cons] at headSolid
      simp [bodyCons, headSolid]
    have solid : ∀ c ∈ body.takeWhile (fun c => !isWhitespace c), isWhitespace c = false :=
      fun c member => by simpa using List.mem_takeWhile_imp member
    have stop : ∀ c ∈ (body.dropWhile (fun c => !isWhitespace c)).head?,
        isWhitespace c = true := by
      intro c member
      have outside := List.head?_dropWhile_not (fun c => !isWhitespace c) body
      rw [Option.mem_def] at member
      simpa [member] using outside
    refine .inr ⟨_, _, _, ?_, gapWhite, nonempty, solid, stop, ?_⟩
    · rw [cutToken, cutGap]
    · calc
        splitWhitespace s = splitWhitespace (s.takeWhile isWhitespace ++ body) := by rw [cutGap]
        _ = splitWhitespace body := splitWhitespace_append_of_whitespace gapWhite body
        _ = splitWhitespace (body.takeWhile (fun c => !isWhitespace c) ++
              body.dropWhile (fun c => !isWhitespace c)) := by rw [cutToken]
        _ = _ := splitWhitespace_token nonempty solid stop

/-- A text with a single token is that token inside white space. -/
theorem exists_of_splitWhitespace_eq_singleton {s token : Str}
    (split : splitWhitespace s = [token]) :
    ∃ lead trail, s = lead ++ (token ++ trail) ∧ (∀ c ∈ lead, isWhitespace c = true) ∧
      (∀ c ∈ trail, isWhitespace c = true) ∧ ∀ c ∈ token, isWhitespace c = false := by
  rcases splitWhitespace_span s with ⟨-, blank⟩ | ⟨lead, first, rest, text, white, -, solid, -, cut⟩
  · cases blank ▸ split
  · rw [cut] at split
    injection split with same none
    subst same
    rcases splitWhitespace_span rest with ⟨trail, -⟩ | ⟨_, _, _, -, -, -, -, -, more⟩
    · exact ⟨lead, rest, text, white, trail, solid⟩
    · cases more ▸ none

/-- A text with two tokens is these with white space between and around. -/
theorem exists_of_splitWhitespace_eq_pair {s token token' : Str}
    (split : splitWhitespace s = [token, token']) :
    ∃ lead gap trail, s = lead ++ (token ++ (gap ++ (token' ++ trail))) ∧
      (∀ c ∈ lead, isWhitespace c = true) ∧ gap ≠ [] ∧ (∀ c ∈ gap, isWhitespace c = true) ∧
      (∀ c ∈ trail, isWhitespace c = true) ∧ ∀ c ∈ token', isWhitespace c = false := by
  rcases splitWhitespace_span s with
    ⟨-, blank⟩ | ⟨lead, first, rest, text, white, -, solid, stop, cut⟩
  · cases blank ▸ split
  · rw [cut] at split
    injection split with same second
    subst same
    obtain ⟨gap, trail, rfl, gapWhite, trailWhite, solid'⟩ :=
      exists_of_splitWhitespace_eq_singleton second
    refine ⟨lead, gap, trail, text, white, ?_, gapWhite, trailWhite, solid'⟩
    -- without a gap the second token would begin with white space
    rintro rfl
    cases token' with
    | nil =>
        rw [List.nil_append, List.nil_append, splitWhitespace_of_whitespace trailWhite] at second
        cases second
    | cons c tail =>
        have white := stop c rfl
        rw [solid' c List.mem_cons_self] at white
        cases white

end Text
