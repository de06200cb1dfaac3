import Fingermouse.LineEnds
import Fingermouse.User

/-!
# Responses to the letter

What the bytes of a response are, line by line.

* `profile_exact`: which payloads are profiles, and the response each gives.
* `plan_exact`: the plan section against the pieces of the plan.
* `plan_visible_iff`: which plans show a visible character.
-/

namespace Fingermouse

open Text

/-- A line as it stands, closed with CRLF. -/
def wireLine (line : Str) : Bytes := asBytes line ++ [0x0d, 0x0a]

/-- A line that ends in a printable character is pushed as it stands. -/
theorem frame_eq_wireLine {line : Str} (printable : ∀ c ∈ line, isPrintable c = true) :
    frame line = wireLine line := by
  rw [frame, wireLine, trimLineEndings_of_printable printable]

theorem flatten_map_frame {lines : List Str}
    (printable : ∀ line ∈ lines, ∀ c ∈ line, isPrintable c = true) :
    (lines.map frame).flatten = lines.flatMap wireLine := by
  rw [List.flatMap_def]
  exact congrArg List.flatten
    (List.map_congr_left fun line member => frame_eq_wireLine (printable line member))

namespace FingerProfile

/-- The lines every response begins with. -/
def headLines (profile : FingerProfile) : List Str :=
  ("User: ".toList ++ profile.username.text) ::
    profile.attributes.entries.map fun entry => attributeLine entry.1 entry.2

/-- The blank line and the footer every response ends with. -/
def footer : Bytes := asBytes "\r\nPowered by fingermouse\r\n".toList

theorem frame_footer : ([[], "Powered by fingermouse".toList].map frame).flatten = footer := by
  decide

theorem frame_headLines (profile : FingerProfile) :
    (profile.headLines.map frame).flatten = profile.headLines.flatMap wireLine := by
  rw [List.flatMap_def]
  refine congrArg List.flatten (List.map_congr_left fun line member => ?_)
  rcases List.mem_cons.mp member with rfl | shown
  · exact frame_eq_wireLine (printable_greeting profile.username)
  · obtain ⟨entry, -, rfl⟩ := List.mem_map.mp shown
    rw [frame, trimLineEndings_attributeLine, wireLine]

theorem asBytes_render_false (profile : FingerProfile) (plan : Option Str) :
    (profile.render false plan).asBytes = profile.headLines.flatMap wireLine ++ footer := by
  have lines : (profile.render false plan).lines =
      profile.headLines ++ [[], "Powered by fingermouse".toList] := by
    simp [render, headLines]
  rw [ResponseBody.asBytes_eq, lines, List.map_append, List.flatten_append, frame_headLines,
    frame_footer]

/-- The bytes of the plan section, after the line `Plan:`. -/
def planSection (plan : Option Str) : Bytes := (planLines plan).flatMap wireLine

theorem asBytes_render_true (profile : FingerProfile) (plan : Option Str) :
    (profile.render true plan).asBytes =
      profile.headLines.flatMap wireLine ++ asBytes "\r\nPlan:\r\n".toList ++ planSection plan ++
        footer := by
  have lines : (profile.render true plan).lines =
      profile.headLines ++ [[], "Plan:".toList] ++ planLines plan ++
        [[], "Powered by fingermouse".toList] := by
    simp [render, headLines]
  have mark : ([[], "Plan:".toList].map frame).flatten = asBytes "\r\nPlan:\r\n".toList := by decide
  rw [ResponseBody.asBytes_eq, lines, List.map_append, List.map_append, List.map_append,
    List.flatten_append, List.flatten_append, List.flatten_append, frame_headLines, mark,
    frame_footer, flatten_map_frame fun line member => printable_planLines member, planSection]

/-! ## Profiles -/

/-- The value of `username` normalises to the requested one. -/
def Declares (table : Toml.Table) (username : Username) : Prop :=
  ∃ declared, table.lookup usernameKey = some (.string declared) ∧
    Username.parse declared = .ok username

/-- The lines of the response to a document: the username, then every other
key with its value, in the table's order. -/
def documentLines (username : Username) (table : Toml.Table) : List Str :=
  ("User: ".toList ++ username.text) ::
    (table.entries.filter fun field => field.1 ≠ usernameKey).map fun field =>
      normaliseKey field.1 ++ ": ".toList ++ (field.2.asStr.getD []).filter isPrintable

theorem declaredIn_eq_lookup (table : Toml.Table) :
    declaredIn table.entries = (table.lookup usernameKey).bind Toml.Value.asStr := by
  show declaredIn table.entries = (table.entries.dlookup usernameKey).bind _
  induction table.entries with
  | nil => rfl
  | cons field fields ih =>
      obtain ⟨key, value⟩ := field
      by_cases named : key = usernameKey
      · subst named
        rw [List.dlookup_cons_eq, declaredIn, List.find?_cons_of_pos (by simp)]
        rfl
      · rw [List.dlookup_cons_ne _ _ (Ne.symm named), ← ih, declaredIn, declaredIn,
          List.find?_cons_of_neg (by simpa using named)]

theorem declares_iff {table : Toml.Table} {username : Username} :
    Declares table username ↔
      ∃ declared, declaredIn table.entries = some declared ∧
        Username.parse declared = .ok username := by
  have string : ∀ (value : Toml.Value) (text : Str),
      value.asStr = some text ↔ value = .string text := by
    intro value text
    cases value <;> simp [Toml.Value.asStr]
  simp only [Declares, declaredIn_eq_lookup, Option.bind_eq_some_iff, string, exists_eq_right]

/-- Of a table of strings the attributes are every field but the username. -/
theorem map_attributeEntries {β : Type} (f : Str → Str → β)
    {fields : List (Sigma fun _ : Str => Toml.Value)}
    (strings : ∀ field ∈ fields, field.2.asStr ≠ none) :
    (attributeEntries fields).map (fun entry => f entry.1 entry.2) =
      (fields.filter fun field => field.1 ≠ usernameKey).map fun field =>
        f field.1 (field.2.asStr.getD []) := by
  induction fields with
  | nil => rfl
  | cons field fields ih =>
      rw [List.forall_mem_cons] at strings
      obtain ⟨text, string⟩ := Option.ne_none_iff_exists'.mp strings.1
      have rest := ih strings.2
      rw [attributeEntries] at rest ⊢
      by_cases named : field.1 = usernameKey
      · rw [List.filterMap_cons_none (by rw [if_pos named]), rest,
          List.filter_cons_of_neg (by simpa using named)]
      · rw [List.filterMap_cons_some (by rw [if_neg named, string, Option.map_some]),
          List.filter_cons_of_pos (by simpa using named), List.map_cons, List.map_cons, rest,
          string]
        rfl

theorem nodupKeys_attributeEntries {table : Toml.Table}
    (strings : ∀ field ∈ table.entries, field.2.asStr ≠ none) :
    (attributeEntries table.entries).NodupKeys := by
  have keys : (attributeEntries table.entries).keys =
      (table.entries.filter fun field => field.1 ≠ usernameKey).keys :=
    map_attributeEntries (fun key _ => key) strings
  rw [List.NodupKeys, keys]
  exact (List.filter_sublist.map _).nodup table.nodupKeys

/-- The payloads that are profiles of the requested user, and the plain
response to each. -/
theorem profile_exact (fromStr : Str → Except Toml.Error Toml.Document) (username : Username)
    (payload : Bytes) :
    ((∃ profile, parse fromStr username payload = .ok profile) ↔
      ∃ text table, fromUtf8 payload = some text ∧ fromStr text = .ok (.table table) ∧
        (∀ field ∈ table.entries, field.2.asStr ≠ none) ∧ Declares table username) ∧
    ∀ (text : Str) (table : Toml.Table) (profile : FingerProfile) (plan : Option Str),
      fromUtf8 payload = some text → fromStr text = .ok (.table table) →
      parse fromStr username payload = .ok profile →
      (profile.render false plan).asBytes =
        (documentLines username table).flatMap wireLine ++ footer := by
  refine ⟨⟨fun accepted => ?_, fun document => ?_⟩, ?_⟩
  · obtain ⟨profile, accepted⟩ := accepted
    obtain ⟨text, table, decoded, parsed, strings, declared, -⟩ := parse_eq_ok_iff.mp accepted
    exact ⟨text, table, decoded, parsed, strings, declares_iff.mpr declared⟩
  · obtain ⟨text, table, decoded, parsed, strings, declares⟩ := document
    exact ⟨⟨username, attributeEntries table.entries, nodupKeys_attributeEntries strings⟩,
      parse_eq_ok_iff.mpr
        ⟨text, table, decoded, parsed, strings, declares_iff.mp declares, rfl, rfl⟩⟩
  · intro text table profile plan decoded parsed accepted
    obtain ⟨text', table', decoded', parsed', strings, -, named, entries⟩ :=
      parse_eq_ok_iff.mp accepted
    obtain rfl : text' = text := Option.some.inj (decoded'.symm.trans decoded)
    rw [parsed'] at parsed
    cases parsed
    rw [asBytes_render_false, headLines, entries, named, documentLines,
      map_attributeEntries attributeLine strings]
    rfl

/-- A document of two keys, its username last, gives a response of one
attribute. -/
theorem profile_exact_of_plain :
    let table := singleTable "full_name".toList "Alice Smith".toList
    let fromStr := parserOf plainDocument table
    (∃ profile, parse fromStr alice (asBytes plainDocument) = .ok profile) ∧
    ((singleProfile "full_name".toList "Alice Smith".toList).render false none).asBytes =
      asBytes "User: alice\r\nFull name: Alice Smith\r\n\r\nPowered by fingermouse\r\n".toList := by
  intro table fromStr
  have accepted : parse fromStr alice (asBytes plainDocument) =
      .ok (singleProfile "full_name".toList "Alice Smith".toList) :=
    parse_single plainDocument "Alice Smith".toList (by decide)
  have law := profile_exact fromStr alice (asBytes plainDocument)
  refine ⟨law.1.mpr ⟨plainDocument, table, fromUtf8_asBytes _, if_pos rfl, by decide,
    "alice".toList, by decide, Username.parse_text alice⟩, ?_⟩
  rw [law.2 plainDocument table _ none (fromUtf8_asBytes _) (if_pos rfl) accepted]
  decide

/-! ## Plans -/

/-- A line of a plan, reduced to its printable characters. -/
def shownLine (piece : Str) : Bytes := wireLine (piece.filter isPrintable)

/-- One line for each piece of the plan between line feeds. -/
def planReference (content : Str) : Bytes := (linePieces content).flatMap shownLine

theorem shownLine_append_cr (front : Str) : shownLine (front ++ ['\r']) = shownLine front := by
  rw [shownLine, List.filter_append]
  exact congrArg wireLine (List.append_nil _)

/-- The plan section is the reference wherever the plan is not all white
space. -/
theorem planSection_eq {content : Str} (shown : ∃ c ∈ content, isWhitespace c = false) :
    planSection (some content) = planReference content := by
  have visible : ¬(trim content).isEmpty := by
    rw [List.isEmpty_iff, trim_eq_nil_iff]
    intro white
    obtain ⟨c, member, solid⟩ := shown
    rw [white c member] at solid
    cases solid
  have lines := map_lines shownLine_append_cr content
  rw [planSection, planLines, if_neg visible, List.flatMap_map, planReference, List.flatMap_def,
    List.flatMap_def, ← lines]
  rfl

/-- Two plans whose lines read alike without final carriage returns have one
response. -/
theorem asBytes_render_congr (profile : FingerProfile) {content content' : Str}
    (shown : ∃ c ∈ content, isWhitespace c = false)
    (shown' : ∃ c ∈ content', isWhitespace c = false)
    (same : planReference content' = planReference content) :
    (profile.render true (some content')).asBytes =
      (profile.render true (some content)).asBytes := by
  rw [asBytes_render_true, asBytes_render_true, planSection_eq shown, planSection_eq shown', same]

theorem planReference_of_recoded {content content' : Str} (recoded : Recoded content content') :
    planReference content' = planReference content := by
  rw [planReference, planReference, List.flatMap_def, List.flatMap_def,
    recoded.map_linePieces shownLine_append_cr]

/-- A last line that is not empty is shown with or without its end. -/
theorem planReference_append {content ending : Str} (lineEnd : IsLineEnd ending)
    (nonempty : (content.splitOn '\n').getLast? ≠ some []) :
    planReference (content ++ ending) = planReference content := by
  have ended := map_linePieces_append shownLine_append_cr lineEnd content []
  have last : linePieces content = content.splitOn '\n' := if_neg nonempty
  rw [List.append_nil] at ended
  rw [planReference, planReference, List.flatMap_def, List.flatMap_def, ended, last]
  exact congrArg List.flatten (List.append_nil _)

/-- A plan that is not all white space is shown line by line, and the ends of
its lines do not matter: neither which of the two they are, nor whether a last
line that is not empty has one.  An empty line is a piece of its own. -/
theorem plan_exact (profile : FingerProfile) (content : Str)
    (shown : ∃ c ∈ content, isWhitespace c = false) :
    (profile.render true (some content)).asBytes =
      profile.headLines.flatMap wireLine ++ asBytes "\r\nPlan:\r\n".toList ++
        planReference content ++ footer ∧
    (∀ content', Recoded content content' →
      (profile.render true (some content')).asBytes =
        (profile.render true (some content)).asBytes) ∧
    (profile.render true (some (toCrlf content))).asBytes =
      (profile.render true (some content)).asBytes ∧
    (∀ ending, IsLineEnd ending → (content.splitOn '\n').getLast? ≠ some [] →
      (profile.render true (some (content ++ ending))).asBytes =
        (profile.render true (some content)).asBytes) ∧
    ∀ front back, content = front ++ '\n' :: '\n' :: back →
      linePieces content = front.splitOn '\n' ++ [] :: linePieces back := by
  have recoded : ∀ content', Recoded content content' →
      (profile.render true (some content')).asBytes =
        (profile.render true (some content)).asBytes := by
    intro content' recoded
    have shown' : ∃ c ∈ content', isWhitespace c = false := by
      by_contra white
      simp only [not_exists, not_and, Bool.not_eq_false] at white
      obtain ⟨c, member, solid⟩ := shown
      rw [recoded.whitespace_iff.mpr white c member] at solid
      cases solid
    exact asBytes_render_congr profile shown shown' (planReference_of_recoded recoded)
  refine ⟨by rw [asBytes_render_true, planSection_eq shown], recoded,
    recoded _ (recoded_toCrlf content), fun ending lineEnd nonempty => ?_,
    fun front back split => ?_⟩
  · obtain ⟨c, member, solid⟩ := shown
    exact asBytes_render_congr profile ⟨c, member, solid⟩
      ⟨c, List.mem_append_left ending member, solid⟩ (planReference_append lineEnd nonempty)
  · rw [split, linePieces_append_cons, ← List.nil_append ('\n' :: back), linePieces_append_cons]
    rfl

/-- Two short lines, the second one ended or not. -/
theorem plan_exact_of_two :
    let profile := singleProfile "shell".toList "zsh".toList
    (profile.render true (some "one\n\ntwo".toList)).asBytes =
      profile.headLines.flatMap wireLine ++
        asBytes "\r\nPlan:\r\none\r\n\r\ntwo\r\n\r\nPowered by fingermouse\r\n".toList ∧
    (profile.render true (some "one\n\ntwo\r\n".toList)).asBytes =
      (profile.render true (some "one\n\ntwo".toList)).asBytes := by
  have law := plan_exact (singleProfile "shell".toList "zsh".toList) "one\n\ntwo".toList
    ⟨'o', by decide, rfl⟩
  refine ⟨?_, law.2.2.2.1 _ (.inr rfl) (by decide)⟩
  rw [law.1, List.append_assoc, List.append_assoc]
  exact congrArg _ (by decide)

/-! ## Visible plans -/

/-- A character that leaves a mark, as a code. -/
def IsVisible (n : Nat) : Prop := 0x21 ≤ n ∧ n ≤ 0x7e

instance (n : Nat) : Decidable (IsVisible n) := inferInstanceAs (Decidable (_ ∧ _))

theorem exists_visible_wireLine_iff {line : Str} :
    (∃ b ∈ wireLine line, IsVisible b.toNat) ↔ ∃ c ∈ line, IsVisible c.toNat := by
  have ends : ¬∃ b ∈ ([0x0d, 0x0a] : Bytes), IsVisible b.toNat := by decide
  simp only [wireLine, List.mem_append, or_and_right, exists_or, ends, or_false]
  exact exists_mem_asBytes_iff (fun n visible => by unfold IsVisible at visible; omega) line

theorem exists_visible_planReference_iff (content : Str) :
    (∃ b ∈ planReference content, IsVisible b.toNat) ↔ ∃ c ∈ content, IsVisible c.toNat := by
  have filtered : ∀ piece : Str, (∃ b ∈ shownLine piece, IsVisible b.toNat) ↔
      ∃ c ∈ piece, IsVisible c.toNat := by
    intro piece
    simp only [shownLine, exists_visible_wireLine_iff, List.mem_filter, isPrintable_iff, and_assoc]
    refine exists_congr fun c => and_congr_right fun _ => ?_
    unfold IsVisible
    omega
  rw [← exists_mem_linePieces_iff (p := fun c => IsVisible c.toNat) (by decide) content]
  simp only [planReference, exists_mem_flatMap_iff, filtered]

/-- The plan section shows a visible character exactly where the plan is
missing, all white space, or holds a visible character itself. -/
theorem plan_visible_iff (profile : FingerProfile) (plan : Option Str) :
    (profile.render true plan).asBytes =
      profile.headLines.flatMap wireLine ++ asBytes "\r\nPlan:\r\n".toList ++ planSection plan ++
        footer ∧
    ((∃ b ∈ planSection plan, IsVisible b.toNat) ↔
      ∀ content ∈ plan, (∀ c ∈ content, isWhitespace c = true) ∨
        ∃ c ∈ content, IsVisible c.toNat) := by
  refine ⟨asBytes_render_true profile plan, ?_⟩
  cases plan with
  | none =>
      simp only [Option.not_mem_none, false_implies, implies_true, iff_true]
      exact ⟨0x6e, by decide, by decide⟩
  | some content =>
      by_cases white : ∀ c ∈ content, isWhitespace c = true
      · have empty : planSection (some content) = wireLine "(empty plan)".toList := by
          rw [planSection, planLines, if_pos (List.isEmpty_iff.mpr (trim_eq_nil_iff.mpr white))]
          exact List.append_nil _
        rw [empty]
        refine iff_of_true ⟨0x65, by decide, by decide⟩ fun other same => ?_
        cases same
        exact .inl white
      · have shown : ∃ c ∈ content, isWhitespace c = false := by
          simpa only [not_forall, Bool.not_eq_true, exists_prop] using white
        rw [planSection_eq shown, exists_visible_planReference_iff]
        refine ⟨fun visible other same => ?_, fun visible => ?_⟩
        · cases same
          exact .inr visible
        · exact (visible content rfl).resolve_left white

/-- A plan the client sees. -/
theorem plan_visible_of_word :
    ∃ b ∈ planSection (some "\n gone fishing".toList), IsVisible b.toNat :=
  (plan_visible_iff (singleProfile "shell".toList "zsh".toList) _).2.mpr
    (fun content same => by cases same; exact .inr ⟨'g', by decide, by decide⟩)

/-- A plan of one letter outside ASCII: the section is an empty line, without
the marker. -/
theorem plan_silently_blank :
    ¬∀ (profile : FingerProfile) (plan : Option Str) (before shown : Bytes),
      (profile.render true plan).asBytes = before ++ shown ++ footer →
      before = profile.headLines.flatMap wireLine ++ asBytes "\r\nPlan:\r\n".toList →
      ∃ b ∈ shown, IsVisible b.toNat := by
  intro visible
  have blank := visible (singleProfile "shell".toList "zsh".toList) (some [Char.ofNat 0xe9]) _
    [0x0d, 0x0a] (by decide) rfl
  revert blank
  decide

end FingerProfile

end Fingermouse
