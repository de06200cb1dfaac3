import Fingermouse.CaseFold

/-!
# Lines of a text

`str::lines` against the pieces between line feeds: the two agree up to
carriage returns before a line feed.

* `map_lines`: what does not see a final carriage return reads the same lines
  off both.
* `Recoded.map_linePieces`: and off texts that end their lines differently.
-/

namespace Text

/-- The pieces of a text between line feeds, a final empty one omitted. -/
def linePieces (s : Str) : List Str :=
  if (s.splitOn '\n').getLast? = some [] then (s.splitOn '\n').dropLast else s.splitOn '\n'

theorem linePieces_of_notMem {s : Str} (absent : '\n' ∉ s) :
    linePieces s = if s.isEmpty then [] else [s] := by
  rw [linePieces, List.splitOn_eq_singleton absent]
  cases s <;> simp

theorem linePieces_append_cons (front back : Str) :
    linePieces (front ++ '\n' :: back) = front.splitOn '\n' ++ linePieces back := by
  have pieces := List.splitOn_ne_nil '\n' back
  rw [linePieces, List.splitOn_append_cons_self, List.getLast?_append_of_ne_nil _ pieces,
    List.dropLast_append_of_ne_nil pieces, linePieces]
  split_ifs <;> rfl

theorem exists_mem_flatMap_iff {α β : Type} {p : β → Prop} {f : α → List β} {l : List α} :
    (∃ b ∈ l.flatMap f, p b) ↔ ∃ a ∈ l, ∃ b ∈ f a, p b := by
  simp only [List.mem_flatMap]
  tauto

/-- The pieces hold every character but the line feeds. -/
theorem exists_mem_linePieces_iff {p : Char → Prop} (outside : ¬p '\n') (s : Str) :
    (∃ piece ∈ linePieces s, ∃ c ∈ piece, p c) ↔ ∃ c ∈ s, p c := by
  induction s using split_induction '\n' with
  | plain s absent =>
      rw [linePieces_of_notMem absent]
      cases s <;> simp
  | cut front back absent ih =>
      rw [linePieces_append_cons, List.splitOn_eq_singleton absent]
      simp only [List.mem_append, List.mem_cons, List.not_mem_nil, or_false, or_and_right,
        exists_or, exists_eq_left, ih, outside, false_or]

theorem splitInclusive_of_notMem {sep : Char} {s : Str} (absent : sep ∉ s) :
    splitInclusive sep s = if s.isEmpty then [] else [s] := by
  induction s with
  | nil => rfl
  | cons c s ih =>
      rw [List.mem_cons, not_or] at absent
      rw [splitInclusive, if_neg (Ne.symm absent.1), ih absent.2]
      cases s <;> rfl

theorem splitInclusive_append_cons {sep : Char} {front : Str} (absent : sep ∉ front)
    (back : Str) :
    splitInclusive sep (front ++ sep :: back) = (front ++ [sep]) :: splitInclusive sep back := by
  induction front with
  | nil => rw [List.nil_append, splitInclusive, if_pos rfl, List.nil_append]
  | cons c front ih =>
      rw [List.mem_cons, not_or] at absent
      rw [List.cons_append, splitInclusive, if_neg (Ne.symm absent.1), ih absent.2]
      rfl

theorem lineContent_of_notMem {s : Str} (absent : '\n' ∉ s) : lineContent s = s := by
  have kept : stripSuffix ['\n'] s = none := by
    by_contra stripped
    obtain ⟨rest, found⟩ := Option.ne_none_iff_exists'.mp stripped
    rw [stripSuffix_eq_some_iff.mp found] at absent
    exact absent (List.mem_append_right rest (List.mem_singleton_self _))
  rw [lineContent, kept]

section Lines

variable {β : Type} {f : Str → β} (strip : ∀ front : Str, f (front ++ ['\r']) = f front)
include strip

/-- A reader that does not see a final carriage return does not see the one
that `lines` removes. -/
theorem map_lineContent (front : Str) : f (lineContent (front ++ ['\n'])) = f front := by
  have ended : stripSuffix ['\n'] (front ++ ['\n']) = some front := stripSuffix_eq_some_iff.mpr rfl
  rw [lineContent, ended]
  show f ((stripSuffix ['\r'] front).getD front) = f front
  cases stripped : stripSuffix ['\r'] front with
  | none => rw [Option.getD_none]
  | some rest => rw [Option.getD_some, stripSuffix_eq_some_iff.mp stripped, strip]

/-- Such a reader reads the same lines off the pieces between line feeds. -/
theorem map_lines (s : Str) : (lines s).map f = (linePieces s).map f := by
  induction s using split_induction '\n' with
  | plain s absent =>
      rw [lines, splitInclusive_of_notMem absent, linePieces_of_notMem absent]
      split_ifs with empty
      · rfl
      · rw [List.map_singleton, lineContent_of_notMem absent]
  | cut front back absent ih =>
      rw [lines] at ih ⊢
      rw [splitInclusive_append_cons absent, linePieces_append_cons,
        List.splitOn_eq_singleton absent, List.map_cons, List.map_cons, ih,
        map_lineContent strip]
      rfl

theorem map_splitOn_append_cr (s : Str) :
    ((s ++ ['\r']).splitOn '\n').map f = (s.splitOn '\n').map f := by
  induction s using split_induction '\n' with
  | plain s absent =>
      have absent' : '\n' ∉ s ++ ['\r'] := by simp [absent]
      rw [List.splitOn_eq_singleton absent, List.splitOn_eq_singleton absent', List.map_singleton,
        strip, List.map_singleton]
  | cut front back absent ih =>
      rw [List.append_assoc, List.cons_append, List.splitOn_append_cons_self_of_not_mem absent,
        List.splitOn_append_cons_self_of_not_mem absent, List.map_cons, ih, List.map_cons]

end Lines

/-! ## Line ends -/

def IsLineEnd (ending : Str) : Prop := ending = ['\n'] ∨ ending = ['\r', '\n']

/-- The same text but for the choice between LF and CRLF at each line end. -/
inductive Recoded : Str → Str → Prop
  | refl (s : Str) : Recoded s s
  | line (front : Str) {ending ending' back back' : Str} :
    IsLineEnd ending → IsLineEnd ending' → Recoded back back' →
    Recoded (front ++ (ending ++ back)) (front ++ (ending' ++ back'))

/-- Every line feed preceded by a carriage return. -/
def toCrlf (s : Str) : Str := s.flatMap fun c => if c = '\n' then ['\r', '\n'] else [c]

theorem toCrlf_of_notMem {s : Str} (absent : '\n' ∉ s) : toCrlf s = s := by
  have each : ∀ c ∈ s, (if c = '\n' then ['\r', '\n'] else [c]) = [c] :=
    fun c member => if_neg (ne_of_mem_of_not_mem member absent)
  rw [toCrlf, List.flatMap_congr each, List.flatMap_singleton']

theorem recoded_toCrlf (s : Str) : Recoded s (toCrlf s) := by
  induction s using split_induction '\n' with
  | plain s absent =>
      rw [toCrlf_of_notMem absent]
      exact .refl s
  | cut front back absent ih =>
      have spelled : toCrlf (front ++ '\n' :: back) = front ++ (['\r', '\n'] ++ toCrlf back) := by
        rw [toCrlf, List.flatMap_append, List.flatMap_cons, if_pos rfl, ← toCrlf, ← toCrlf,
          toCrlf_of_notMem absent]
      rw [spelled]
      exact .line front (.inl rfl) (.inr rfl) ih

/-- The pieces before a line end, read without their final carriage return. -/
theorem map_linePieces_append {β : Type} {f : Str → β}
    (strip : ∀ front : Str, f (front ++ ['\r']) = f front) {ending : Str}
    (lineEnd : IsLineEnd ending) (front back : Str) :
    (linePieces (front ++ (ending ++ back))).map f =
      (front.splitOn '\n').map f ++ (linePieces back).map f := by
  rcases lineEnd with rfl | rfl
  · rw [List.singleton_append, linePieces_append_cons, List.map_append]
  · have spelled : front ++ (['\r', '\n'] ++ back) = (front ++ ['\r']) ++ '\n' :: back := by simp
    rw [spelled, linePieces_append_cons, List.map_append, map_splitOn_append_cr strip]

theorem Recoded.map_linePieces {β : Type} {f : Str → β}
    (strip : ∀ front : Str, f (front ++ ['\r']) = f front) {s s' : Str} (recoded : Recoded s s') :
    (linePieces s).map f = (linePieces s').map f := by
  induction recoded with
  | refl s => rfl
  | line front lineEnd lineEnd' _ ih =>
      rw [map_linePieces_append strip lineEnd, map_linePieces_append strip lineEnd', ih]

/-- A text is white space wherever its recoding is. -/
theorem Recoded.whitespace_iff {s s' : Str} (recoded : Recoded s s') :
    (∀ c ∈ s, isWhitespace c = true) ↔ ∀ c ∈ s', isWhitespace c = true := by
  induction recoded with
  | refl s => rfl
  | line front lineEnd lineEnd' _ ih =>
      have white : ∀ {ending : Str}, IsLineEnd ending → ∀ c ∈ ending, isWhitespace c = true := by
        intro ending is
        rcases is with rfl | rfl <;> decide
      have always := white lineEnd
      have always' := white lineEnd'
      simp only [List.forall_mem_append, ih]
      tauto

end Text
