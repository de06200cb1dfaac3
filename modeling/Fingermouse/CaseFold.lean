import Fingermouse.Text

/-!
# ASCII case and separators

Lower case and splitting at a separator, on characters and on their encoding.

* `asBytes_toAsciiLowercase`, `exists_of_map_lowerByte`: case folding commutes
  with the encoding, and neither makes nor breaks an encoding.
* `splitOn_asBytes`, `exists_of_splitOn`: so does splitting at an ASCII
  character; bytes all of whose pieces are encodings are one.
* `splitWhitespace_eq_flatMap`: the tokens of a text are those of its words
  between spaces.
-/

namespace Text

/-! ## Lower case -/

/-- What holds of the ASCII characters and of the unchanged ones holds of every
character and its lower case. -/
theorem forall_toLower {p : Char → Char → Prop}
    (ascii : ∀ n < 128, p (Char.ofNat n) (Char.ofNat n).toLower)
    (wide : ∀ c, c.toLower = c → p c c) (c : Char) : p c c.toLower := by
  by_cases narrow : c.toNat < 128
  · exact forall_ascii (p := fun c => p c c.toLower) ascii c narrow
  · have same := toLower_of_not_ascii (Nat.le_of_not_lt narrow)
    rw [same]
    exact wide c same

theorem toLower_toLower (c : Char) : c.toLower.toLower = c.toLower :=
  forall_toLower (p := fun _ d => d.toLower = d) (by decide) (fun _ same => same) c

theorem isWhitespace_toLower (c : Char) : isWhitespace c.toLower = isWhitespace c :=
  forall_toLower (p := fun c d => isWhitespace d = isWhitespace c) (by decide) (fun _ _ => rfl) c

/-- Lower case moves no other character onto this one, nor this one away. -/
def Caseless (mark : Char) : Prop := ∀ c : Char, c.toLower = mark ↔ c = mark

theorem caseless_of_ascii {mark : Char}
    (ascii : ∀ n < 128, (Char.ofNat n).toLower = mark ↔ Char.ofNat n = mark) : Caseless mark :=
  forall_toLower (p := fun c d => d = mark ↔ c = mark) ascii fun _ _ => Iff.rfl

@[simp] theorem toAsciiLowercase_toAsciiLowercase (s : Str) :
    toAsciiLowercase (toAsciiLowercase s) = toAsciiLowercase s := by
  simp only [toAsciiLowercase, List.map_map]
  exact List.map_congr_left fun c _ => toLower_toLower c

@[simp] theorem toAsciiLowercase_isEmpty (s : Str) :
    (toAsciiLowercase s).isEmpty = s.isEmpty := by
  cases s <;> rfl

theorem dropWhile_toAsciiLowercase {p : Char → Bool} (keeps : ∀ c : Char, p c.toLower = p c)
    (s : Str) : (toAsciiLowercase s).dropWhile p = toAsciiLowercase (s.dropWhile p) := by
  have same : p ∘ Char.toLower = p := funext keeps
  rw [toAsciiLowercase, List.dropWhile_map, same, toAsciiLowercase]

theorem trim_toAsciiLowercase (s : Str) :
    trim (toAsciiLowercase s) = toAsciiLowercase (trim s) := by
  have back : ∀ t : Str, (toAsciiLowercase t).rdropWhile isWhitespace =
      toAsciiLowercase (t.rdropWhile isWhitespace) := by
    intro t
    have turned : (toAsciiLowercase t).reverse = toAsciiLowercase t.reverse :=
      List.map_reverse.symm
    rw [List.rdropWhile, turned, dropWhile_toAsciiLowercase isWhitespace_toLower, List.rdropWhile,
      toAsciiLowercase, toAsciiLowercase, List.map_reverse]
  rw [trim, dropWhile_toAsciiLowercase isWhitespace_toLower, back, trim]

namespace Caseless

variable {mark : Char} (caseless : Caseless mark)
include caseless

theorem head?_toAsciiLowercase (s : Str) :
    (toAsciiLowercase s).head? = some mark ↔ s.head? = some mark := by
  cases s with
  | nil => exact Iff.rfl
  | cons c s => simpa [toAsciiLowercase] using caseless c

theorem getLast?_toAsciiLowercase (s : Str) :
    (toAsciiLowercase s).getLast? = some mark ↔ s.getLast? = some mark := by
  have turned : (toAsciiLowercase s).reverse = toAsciiLowercase s.reverse := List.map_reverse.symm
  rw [← List.head?_reverse, turned, caseless.head?_toAsciiLowercase, List.head?_reverse]

theorem splitOn_toAsciiLowercase (s : Str) :
    (toAsciiLowercase s).splitOn mark = (s.splitOn mark).map toAsciiLowercase :=
  splitOn_map fun c _ => caseless c

theorem notMem_toAsciiLowercase {s : Str} (absent : mark ∉ s) : mark ∉ toAsciiLowercase s := by
  intro member
  obtain ⟨c, inText, same⟩ := List.mem_map.mp member
  exact absent ((caseless c).mp same ▸ inText)

theorem toAsciiLowercase_append_cons (front back : Str) :
    toAsciiLowercase (front ++ mark :: back) =
      toAsciiLowercase front ++ mark :: toAsciiLowercase back := by
  rw [toAsciiLowercase, List.map_append, List.map_cons, (caseless mark).mpr rfl]
  rfl

theorem splitn_two_toAsciiLowercase (s : Str) :
    splitn mark 2 (toAsciiLowercase s) = (splitn mark 2 s).map toAsciiLowercase := by
  by_cases member : mark ∈ s
  · obtain ⟨front, back, rfl, absent⟩ := List.eq_append_cons_of_mem member
    rw [splitn_two_append absent, caseless.toAsciiLowercase_append_cons,
      splitn_two_append (caseless.notMem_toAsciiLowercase absent)]
    rfl
  · rw [splitn_two_of_notMem member,
      splitn_two_of_notMem (caseless.notMem_toAsciiLowercase member)]
    rfl

end Caseless

/-! ### Bytes -/

/-- `u8::to_ascii_lowercase`. -/
def lowerByte (b : UInt8) : UInt8 := if 0x41 ≤ b ∧ b ≤ 0x5a then b + 0x20 else b

theorem lowerByte_of_wide {b : UInt8} (wide : 128 ≤ b.toNat) : lowerByte b = b := by
  refine if_neg fun upper => ?_
  have le := UInt8.le_iff_toNat_le.mp upper.2
  have code : (0x5a : UInt8).toNat = 90 := rfl
  omega

/-- What holds of the ASCII bytes and of unchanged ones holds of every byte and
its lower case. -/
theorem forall_lowerByte {p : UInt8 → UInt8 → Prop}
    (ascii : ∀ n < 128, p (UInt8.ofNat n) (lowerByte (UInt8.ofNat n))) (wide : ∀ b, p b b)
    (b : UInt8) : p b (lowerByte b) := by
  by_cases narrow : b.toNat < 128
  · have holds := ascii b.toNat narrow
    rwa [UInt8.ofNat_toNat] at holds
  · rw [lowerByte_of_wide (Nat.le_of_not_lt narrow)]
    exact wide b

theorem toNat_lowerByte_lt {b : UInt8} (narrow : b.toNat < 128) : (lowerByte b).toNat < 128 :=
  forall_lowerByte (p := fun b d => b.toNat < 128 → d.toNat < 128) (by decide) (fun _ low => low)
    b narrow

theorem utf8EncodeChar_toLower (c : Char) :
    String.utf8EncodeChar c.toLower = (String.utf8EncodeChar c).map lowerByte := by
  by_cases narrow : c.toNat < 128
  · exact forall_ascii (p := fun c =>
      String.utf8EncodeChar c.toLower = (String.utf8EncodeChar c).map lowerByte) (by decide)
      c narrow
  · have wide := Nat.le_of_not_lt narrow
    rw [toLower_of_not_ascii wide]
    exact (List.map_id _).symm.trans (List.map_congr_left fun b member =>
      (lowerByte_of_wide (le_of_mem_utf8EncodeChar wide member)).symm)

/-- Folding the text folds its bytes. -/
theorem asBytes_toAsciiLowercase (s : Str) :
    asBytes (toAsciiLowercase s) = (asBytes s).map lowerByte := by
  induction s with
  | nil => rfl
  | cons c s ih =>
      rw [asBytes_cons, List.map_append, ← utf8EncodeChar_toLower, ← ih]
      rfl

theorem utf8EncodeChar_ofNat {n : Nat} (ascii : n < 128) :
    String.utf8EncodeChar (Char.ofNat n) = [UInt8.ofNat n] := by
  have check : ∀ n < 128, String.utf8EncodeChar (Char.ofNat n) = [UInt8.ofNat n] := by decide
  exact check n ascii

theorem byteLen_toAsciiLowercase (s : Str) : byteLen (toAsciiLowercase s) = byteLen s := by
  rw [byteLen, asBytes_toAsciiLowercase, List.length_map, byteLen]

/-- Bytes that fold to one encoded character are one encoded character. -/
theorem exists_of_map_lowerByte_eq_encoded {bytes : Bytes} {c : Char}
    (folded : bytes.map lowerByte = String.utf8EncodeChar c) :
    ∃ d, bytes = String.utf8EncodeChar d := by
  by_cases narrow : c.toNat < 128
  · rw [utf8EncodeChar_of_ascii narrow] at folded
    obtain ⟨b, rfl, same⟩ := List.map_eq_singleton_iff.mp folded
    have low : b.toNat < 128 := by
      by_contra wide
      rw [lowerByte_of_wide (Nat.le_of_not_lt wide)] at same
      rw [same, UInt8.toNat_ofNat'] at wide
      omega
    refine ⟨Char.ofNat b.toNat, ?_⟩
    rw [utf8EncodeChar_ofNat low, UInt8.ofNat_toNat]
  · refine ⟨c, folded ▸ ?_⟩
    refine (List.map_id _).symm.trans (List.map_congr_left fun b member => ?_)
    have wide : 128 ≤ b.toNat := by
      by_contra low
      have high := le_of_mem_utf8EncodeChar (Nat.le_of_not_lt narrow)
        (folded ▸ List.mem_map_of_mem member)
      have fold := toNat_lowerByte_lt (not_le.mp low)
      omega
    exact (lowerByte_of_wide wide).symm

/-- Bytes that fold to an encoding are an encoding. -/
theorem exists_of_map_lowerByte {bytes : Bytes} {t : Str}
    (folded : bytes.map lowerByte = asBytes t) : ∃ s, bytes = asBytes s := by
  induction t generalizing bytes with
  | nil => exact ⟨[], List.map_eq_nil_iff.mp folded⟩
  | cons c t ih =>
      obtain ⟨front, back, rfl, first, rest⟩ := List.map_eq_append_iff.mp folded
      obtain ⟨d, rfl⟩ := exists_of_map_lowerByte_eq_encoded first
      obtain ⟨s, rfl⟩ := ih rest
      exact ⟨d :: s, rfl⟩

/-! ## Separators -/

/-- The nonempty runs of a list between separators. -/
def wordsOn {α : Type} [DecidableEq α] (sep : α) (l : List α) : List (List α) :=
  (l.splitOn sep).filter (!·.isEmpty)

section Words

variable {α : Type} [DecidableEq α]

/-- Every list is free of separators, or such a list, a separator and a list
to go on with. -/
theorem split_induction {motive : List α → Prop} (sep : α)
    (plain : ∀ l, sep ∉ l → motive l)
    (cut : ∀ front back, sep ∉ front → motive back → motive (front ++ sep :: back))
    (l : List α) : motive l := by
  induction size : l.length using Nat.strongRecOn generalizing l with
  | ind n ih =>
      by_cases member : sep ∈ l
      · obtain ⟨front, back, rfl, absent⟩ := List.eq_append_cons_of_mem member
        refine cut front back absent (ih back.length ?_ back rfl)
        simp only [List.length_append, List.length_cons] at size
        omega
      · exact plain l member

theorem wordsOn_append_cons (sep : α) (front back : List α) :
    wordsOn sep (front ++ sep :: back) = wordsOn sep front ++ wordsOn sep back := by
  rw [wordsOn, List.splitOn_append_cons_self, List.filter_append]
  rfl

theorem wordsOn_of_notMem {sep : α} {l : List α} (absent : sep ∉ l) :
    wordsOn sep l = if l.isEmpty then [] else [l] := by
  rw [wordsOn, List.splitOn_eq_singleton absent]
  cases l <;> simp

/-- A property that separators lack is found in a list where it is found in a
word. -/
theorem any_eq_any_wordsOn {sep : α} {p : α → Bool} (outside : p sep = false) (l : List α) :
    l.any p = (wordsOn sep l).any (·.any p) := by
  induction l using split_induction sep with
  | plain l absent =>
      rw [wordsOn_of_notMem absent]
      cases l <;> simp
  | cut front back absent ih =>
      rw [wordsOn_append_cons, wordsOn_of_notMem absent, List.any_append, List.any_append,
        List.any_cons, outside, ih]
      cases front <;> simp

end Words

/-! ### Through the encoding -/

theorem asBytes_isEmpty (s : Str) : (asBytes s).isEmpty = s.isEmpty := by
  cases s with
  | nil => rfl
  | cons c s =>
      rw [asBytes_cons]
      simp [String.utf8EncodeChar_ne_nil]

section Encoding

variable {sep : Char} (ascii : sep.toNat < 128)
include ascii

theorem mem_asBytes_iff {s : Str} : UInt8.ofNat sep.toNat ∈ asBytes s ↔ sep ∈ s := by
  have code : (UInt8.ofNat sep.toNat).toNat = sep.toNat := by
    rw [UInt8.toNat_ofNat', Nat.mod_eq_of_lt (by omega)]
  have found := exists_mem_asBytes_iff (p := fun n => n = sep.toNat)
    (fun n same => by omega) s
  constructor
  · intro member
    obtain ⟨c, inText, same⟩ := found.mp ⟨_, member, code⟩
    rwa [← Char.toNat_inj.mp same]
  · intro member
    obtain ⟨b, inBytes, same⟩ := found.mpr ⟨sep, member, rfl⟩
    rwa [← UInt8.toNat_inj.mp (same.trans code.symm)]

theorem asBytes_append_cons (front back : Str) :
    asBytes (front ++ sep :: back) = asBytes front ++ UInt8.ofNat sep.toNat :: asBytes back := by
  rw [asBytes_append, asBytes_cons, utf8EncodeChar_of_ascii ascii]
  rfl

/-- Splitting the text splits its bytes. -/
theorem splitOn_asBytes (s : Str) :
    (asBytes s).splitOn (UInt8.ofNat sep.toNat) = (s.splitOn sep).map asBytes := by
  induction s using split_induction sep with
  | plain s absent =>
      rw [List.splitOn_eq_singleton absent,
        List.splitOn_eq_singleton fun member => absent ((mem_asBytes_iff ascii).mp member)]
      rfl
  | cut front back absent ih =>
      rw [asBytes_append_cons ascii, List.splitOn_append_cons_self_of_not_mem absent,
        List.splitOn_append_cons_self_of_not_mem
          fun member => absent ((mem_asBytes_iff ascii).mp member), ih]
      rfl

/-- Bytes all of whose pieces are encodings are an encoding. -/
theorem exists_of_splitOn {bytes : Bytes}
    (pieces : ∀ piece ∈ bytes.splitOn (UInt8.ofNat sep.toNat), ∃ s, piece = asBytes s) :
    ∃ s, bytes = asBytes s := by
  induction bytes using split_induction (UInt8.ofNat sep.toNat) with
  | plain bytes absent =>
      rw [List.splitOn_eq_singleton absent] at pieces
      exact pieces bytes (List.mem_singleton_self _)
  | cut front back absent ih =>
      rw [List.splitOn_append_cons_self_of_not_mem absent, List.forall_mem_cons] at pieces
      obtain ⟨⟨f, rfl⟩, rest⟩ := pieces
      obtain ⟨b, rfl⟩ := ih rest
      exact ⟨f ++ sep :: b, (asBytes_append_cons ascii f b).symm⟩

/-- An encoding cut at an ASCII byte is two encodings. -/
theorem exists_of_asBytes_eq_append_cons {s : Str} {front back : Bytes}
    (same : asBytes s = front ++ UInt8.ofNat sep.toNat :: back) :
    ∃ f b, front = asBytes f ∧ back = asBytes b ∧ s = f ++ sep :: b := by
  have pieces : ∀ piece ∈ (asBytes s).splitOn (UInt8.ofNat sep.toNat), ∃ t, piece = asBytes t := by
    rw [splitOn_asBytes ascii]
    intro piece member
    obtain ⟨t, -, rfl⟩ := List.mem_map.mp member
    exact ⟨t, rfl⟩
  rw [same, List.splitOn_append_cons_self, List.forall_mem_append] at pieces
  obtain ⟨f, rfl⟩ := exists_of_splitOn ascii pieces.1
  obtain ⟨b, rfl⟩ := exists_of_splitOn ascii pieces.2
  rw [← asBytes_append_cons ascii] at same
  exact ⟨f, b, rfl, rfl, asBytes_injective same⟩

theorem wordsOn_asBytes (s : Str) :
    wordsOn (UInt8.ofNat sep.toNat) (asBytes s) = (wordsOn sep s).map asBytes := by
  have empty : ((fun bytes : Bytes => !bytes.isEmpty) ∘ asBytes) = fun t : Str => !t.isEmpty :=
    funext fun t => congrArg _ (asBytes_isEmpty t)
  rw [wordsOn, splitOn_asBytes ascii, List.filter_map, empty, wordsOn]

/-- Bytes all of whose words are encodings are an encoding. -/
theorem exists_of_wordsOn {bytes : Bytes}
    (words : ∀ word ∈ wordsOn (UInt8.ofNat sep.toNat) bytes, ∃ s, word = asBytes s) :
    ∃ s, bytes = asBytes s := by
  refine exists_of_splitOn ascii fun piece member => ?_
  by_cases empty : piece = []
  · exact ⟨[], empty⟩
  · exact words piece (List.mem_filter.mpr ⟨member, by simpa using empty⟩)

end Encoding

/-! ### Tokens -/

theorem splitWhitespace_append_cons {c : Char} (white : isWhitespace c = true)
    (front back : Str) :
    splitWhitespace (front ++ c :: back) = splitWhitespace front ++ splitWhitespace back := by
  rw [splitWhitespace, List.splitOnP_append_cons front back white, List.filter_append]
  rfl

/-- The tokens of a text are those of its words between spaces. -/
theorem splitWhitespace_eq_flatMap (s : Str) :
    splitWhitespace s = (wordsOn ' ' s).flatMap splitWhitespace := by
  induction s using split_induction ' ' with
  | plain s absent =>
      rw [wordsOn_of_notMem absent]
      cases s <;> simp [splitWhitespace_nil]
  | cut front back absent ih =>
      rw [splitWhitespace_append_cons (by decide), ih, wordsOn_append_cons,
        wordsOn_of_notMem absent, List.flatMap_append]
      cases front <;> simp [splitWhitespace_nil]

/-- Folding the text folds its tokens. -/
theorem splitWhitespace_toAsciiLowercase (s : Str) :
    splitWhitespace (toAsciiLowercase s) = (splitWhitespace s).map toAsciiLowercase := by
  have empty : ((fun t : Str => !t.isEmpty) ∘ List.map Char.toLower) = fun t => !t.isEmpty :=
    funext fun t => congrArg _ (toAsciiLowercase_isEmpty t)
  rw [splitWhitespace, toAsciiLowercase, splitOnP_map fun c _ => isWhitespace_toLower c,
    List.filter_map, empty, splitWhitespace]
  rfl

end Text
