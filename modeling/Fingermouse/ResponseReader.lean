import Fingermouse.Server
import Fingermouse.UserResponse

/-!
# Reading a response

The client's side of the response format: what a client can tell from the bytes
it is sent, by a reader of its own.

* `readResponse_render`: the username, the attribute lines and the plan lines
  are read back from the response to a profile whose keys are printable, and no
  message reads as a response.
-/

namespace Fingermouse

open Text

/-! ## Lines -/

/-- Lines as text, each closed with CRLF. -/
def wireText (lines : List Str) : Str := lines.flatMap fun line => line ++ ['\r', '\n']

/-- The lines of a text, provided the last one is closed. -/
def readWire : Str → Option (List Str)
  | [] => some []
  | '\r' :: '\n' :: rest => (readWire rest).map ([] :: ·)
  | c :: rest =>
      match readWire rest with
      | some (line :: lines) => some ((c :: line) :: lines)
      | _ => none

theorem readWire_append {line : Str} (closed : '\r' ∉ line) (rest : Str) :
    readWire (line ++ '\r' :: '\n' :: rest) = (readWire rest).map (line :: ·) := by
  induction line with
  | nil => simp only [List.nil_append, readWire]
  | cons c line ih =>
      rw [List.mem_cons, not_or] at closed
      rw [List.cons_append, readWire, ih closed.2]
      · cases readWire rest <;> rfl
      · intro rest' same
        cases same
        exact absurd rfl closed.1

theorem readWire_wireText {lines : List Str} (closed : ∀ line ∈ lines, '\r' ∉ line) :
    readWire (wireText lines) = some lines := by
  induction lines with
  | nil => rfl
  | cons line lines ih =>
      rw [List.forall_mem_cons] at closed
      rw [wireText, List.flatMap_cons, List.append_assoc]
      exact (readWire_append closed.1 _).trans (congrArg _ (ih closed.2))

theorem asBytes_wireText (lines : List Str) :
    asBytes (wireText lines) = lines.flatMap wireLine := by
  induction lines with
  | nil => rfl
  | cons line lines ih =>
      have ending : asBytes ['\r', '\n'] = [0x0d, 0x0a] := by decide
      rw [wireText, List.flatMap_cons, List.flatMap_cons, ← ih, asBytes_append, asBytes_append,
        ending]
      rfl

/-! ## Responses -/

/-- What a client reads in a response. -/
structure ShownRecord where
  user : Str
  attributes : List Str
  plan : Option (List Str)
deriving DecidableEq

def footerLine : Str := "Powered by fingermouse".toList

/-- The lines of a response after those of the attributes. -/
def readTail : List Str → Option (Option (List Str))
  | [] :: line :: rest =>
      if rest = [] then if line = footerLine then some none else none
      else if line = "Plan:".toList ∧ [[], footerLine] <:+ rest then
        some (some rest.dropLast.dropLast)
      else none
  | _ => none

/-- The lines of a response: the greeting, then the attributes up to an empty
line. -/
def readBody : List Str → Option ShownRecord
  | [] => none
  | greeting :: rest => do
      let user ← "User: ".toList.isPrefixOf? greeting
      let plan ← readTail (rest.dropWhile (· ≠ []))
      return ⟨user, rest.takeWhile (· ≠ []), plan⟩

def readResponse (bytes : Bytes) : Option ShownRecord := do
  let text ← fromUtf8 bytes
  let lines ← readWire text
  readBody lines

namespace FingerProfile

/-- What the response to a profile shows. -/
def shown (profile : FingerProfile) (includePlan : Bool) (plan : Option Str) : ShownRecord where
  user := profile.username.text
  attributes := profile.attributes.entries.map fun entry => attributeLine entry.1 entry.2
  plan := if includePlan then some (planLines plan) else none

theorem readTail_plain : readTail [[], footerLine] = some none := by decide

theorem readTail_plan (lines : List Str) :
    readTail ([] :: "Plan:".toList :: (lines ++ [[], footerLine])) = some (some lines) := by
  have nonempty : lines ++ [[], footerLine] ≠ [] := by simp
  have ends : [[], footerLine] <:+ lines ++ [[], footerLine] := List.suffix_append ..
  have plan : (lines ++ [[], footerLine]).dropLast.dropLast = lines := by
    rw [List.dropLast_append_of_ne_nil (by simp), List.dropLast_cons_cons, List.dropLast_singleton,
      List.dropLast_concat]
  rw [readTail, if_neg nonempty, if_pos ⟨rfl, ends⟩, plan]

/-- No attribute is an empty line. -/
theorem attributeLine_ne_nil (key value : Str) : attributeLine key value ≠ [] := by
  simp [attributeLine]

theorem readBody_append (user : Str) {attributes tail : List Str}
    (nonempty : ∀ line ∈ attributes, line ≠ []) (blank : tail.head? = some []) :
    readBody (("User: ".toList ++ user) :: (attributes ++ tail)) =
      (readTail tail).map fun plan => ⟨user, attributes, plan⟩ := by
  have prefixed : "User: ".toList.isPrefixOf? ("User: ".toList ++ user) = some user := rfl
  have lines : ∀ line ∈ attributes, decide (line ≠ []) = true := fun line member =>
    decide_eq_true (nonempty line member)
  obtain ⟨rest, rfl⟩ := List.head?_eq_some_iff.mp blank
  simp only [readBody]
  rw [List.takeWhile_append_of_pos lines, List.dropWhile_append_of_pos lines,
    List.takeWhile_cons_of_neg (by simp), List.dropWhile_cons_of_neg (by simp), List.append_nil,
    prefixed]
  cases readTail ([] :: rest) <;> rfl

/-- A client reads in the lines of a response what they show. -/
theorem readBody_render (profile : FingerProfile) (includePlan : Bool) (plan : Option Str) :
    readBody (profile.render includePlan plan).lines = some (profile.shown includePlan plan) := by
  have nonempty : ∀ line ∈ (profile.shown includePlan plan).attributes, line ≠ [] := by
    intro line member
    obtain ⟨entry, -, rfl⟩ := List.mem_map.mp member
    exact attributeLine_ne_nil entry.1 entry.2
  cases includePlan with
  | false =>
      have lines : (profile.render false plan).lines =
          ("User: ".toList ++ profile.username.text) ::
            ((profile.shown false plan).attributes ++ [[], footerLine]) := by
        unfold render
        rw [if_neg Bool.false_ne_true, List.append_nil, List.singleton_append]
        rfl
      rw [lines, readBody_append _ nonempty List.head?_cons, readTail_plain]
      rfl
  | true =>
      have lines : (profile.render true plan).lines =
          ("User: ".toList ++ profile.username.text) ::
            ((profile.shown true plan).attributes ++
              [] :: "Plan:".toList :: (planLines plan ++ [[], footerLine])) := by
        unfold render
        rw [if_pos rfl, List.append_assoc, List.append_assoc, List.append_assoc,
          List.singleton_append]
        rfl
      rw [lines, readBody_append _ nonempty List.head?_cons, readTail_plan]
      rfl

/-- The keys reach the response as they are, so they must be printable. -/
def KeysPrintable (profile : FingerProfile) : Prop :=
  ∀ entry ∈ profile.attributes.entries, ∀ c ∈ entry.1, isPrintable c = true

instance (profile : FingerProfile) : Decidable profile.KeysPrintable :=
  inferInstanceAs (Decidable (∀ entry ∈ profile.attributes.entries, ∀ c ∈ entry.1, _))

theorem printable_render {profile : FingerProfile} (keys : profile.KeysPrintable)
    (includePlan : Bool) (plan : Option Str) :
    ∀ line ∈ (profile.render includePlan plan).lines, ∀ c ∈ line, isPrintable c = true := by
  intro line member
  simp only [render, List.append_assoc, List.mem_append, List.mem_singleton] at member
  rcases member with rfl | shown | tail
  · exact printable_greeting profile.username
  · obtain ⟨entry, inTable, rfl⟩ := List.mem_map.mp shown
    have wire : IsWireLine (frame (attributeLine entry.1 entry.2)) :=
      isWireLine_attributeLine_iff.mpr (keys entry inTable)
    rwa [isWireLine_frame_iff, trimLineEndings_attributeLine] at wire
  · exact printable_tail includePlan plan line (List.mem_append.mpr tail)

/-- What a response shows can be read back from its bytes, and no message passes
for a response: a client that gets a whole reply knows what it was told. -/
theorem readResponse_render (profile : FingerProfile) (keys : profile.KeysPrintable)
    (includePlan : Bool) (plan : Option Str) :
    readResponse (profile.render includePlan plan).asBytes =
        some (profile.shown includePlan plan) ∧
      ∀ message ∈ fixedMessages, readResponse (renderMessage message) = none := by
  have printable := printable_render keys includePlan plan
  refine ⟨?_, by decide⟩
  have closed : ∀ line ∈ (profile.render includePlan plan).lines, '\r' ∉ line := by
    intro line member inLine
    exact (not_lineEnd_of_isPrintable (printable line member _ inLine)).1 rfl
  unfold readResponse
  rw [ResponseBody.asBytes_eq, flatten_map_frame printable, ← asBytes_wireText, fromUtf8_asBytes]
  exact (congrArg (· >>= readBody) (readWire_wireText closed)).trans
    (readBody_render profile includePlan plan)

/-- A plan that imitates the footer is read as a plan. -/
theorem readResponse_render_of_footer :
    readResponse ((singleProfile "shell".toList "zsh".toList).render true
      (some "\nPowered by fingermouse\n".toList)).asBytes =
        some ⟨"alice".toList, ["Shell: zsh".toList], some [[], footerLine]⟩ :=
  (readResponse_render (singleProfile "shell".toList "zsh".toList) (by decide) true _).1

end FingerProfile

end Fingermouse
