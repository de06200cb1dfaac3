import Fingermouse.Text

/-!
# CRLF framing

Responses are lines, each trimmed of its own line ends and closed with CRLF.
`isWireLine_frame_iff` says when a pushed line reaches the wire as one line of
printable ASCII.
-/

namespace Fingermouse

open Text

/-- Buffer that serialises individual lines using CRLF line endings. -/
structure CrlfBuffer where
  bytes : Bytes

/-- Remove trailing CR and/or LF characters from a line. -/
def trimLineEndings (line : Str) : Str := trimEndMatches (fun c => c == '\r' || c == '\n') line

namespace CrlfBuffer

def empty : CrlfBuffer := ⟨[]⟩

/-- Append a line, ensuring it is terminated with CRLF without duplicating
existing endings. -/
def pushLine (buffer : CrlfBuffer) (line : Str) : CrlfBuffer :=
  ⟨buffer.bytes ++ asBytes (trimLineEndings line) ++ [0x0d, 0x0a]⟩

def intoBytes (buffer : CrlfBuffer) : Bytes := buffer.bytes

end CrlfBuffer

/-- The bytes one pushed line adds. -/
def frame (line : Str) : Bytes := asBytes (trimLineEndings line) ++ [0x0d, 0x0a]

theorem intoBytes_foldl_pushLine (buffer : CrlfBuffer) (lines : List Str) :
    (lines.foldl CrlfBuffer.pushLine buffer).intoBytes =
      buffer.bytes ++ (lines.map frame).flatten := by
  induction lines generalizing buffer with
  | nil => simp [CrlfBuffer.intoBytes]
  | cons line lines ih =>
      rw [List.foldl_cons, ih, List.map_cons, List.flatten_cons]
      simp only [CrlfBuffer.pushLine, frame, List.append_assoc]

/-! ## Printable lines -/

/-- `' '..='~'`. -/
def isPrintable (c : Char) : Bool := ' ' ≤ c && c ≤ '~'

theorem isPrintable_iff {c : Char} :
    isPrintable c = true ↔ 0x20 ≤ c.toNat ∧ c.toNat ≤ 0x7e := by
  simp only [isPrintable, Bool.and_eq_true, decide_eq_true_eq, Char.le_def,
    UInt32.le_iff_toNat_le]
  rfl

/-- Printable ASCII, then CRLF: what a line looks like on the wire. -/
def IsWireLine (piece : Bytes) : Prop :=
  ∃ text : Bytes, piece = text ++ [0x0d, 0x0a] ∧ ∀ b ∈ text, 0x20 ≤ b.toNat ∧ b.toNat ≤ 0x7e

theorem isWireLine_frame_iff {line : Str} :
    IsWireLine (frame line) ↔ ∀ c ∈ trimLineEndings line, isPrintable c = true := by
  have chars := forall_mem_asBytes_iff (p := fun n => 0x20 ≤ n ∧ n ≤ 0x7e) (by omega)
    (trimLineEndings line)
  simp only [isPrintable_iff, ← chars, IsWireLine, frame]
  constructor
  · intro wire
    obtain ⟨text, same, printable⟩ := wire
    rwa [List.append_cancel_right same]
  · exact fun printable => ⟨_, rfl, printable⟩

/-- A line whose last character is no line end is not trimmed. -/
theorem trimLineEndings_eq_self {line : Str}
    (solid : ∀ c ∈ line.getLast?, c ≠ '\r' ∧ c ≠ '\n') : trimLineEndings line = line := by
  rw [trimLineEndings, trimEndMatches, List.rdropWhile_eq_self_iff]
  intro nonempty
  simpa using solid _ (List.getLast?_eq_some_getLast nonempty)

theorem not_lineEnd_of_isPrintable {c : Char} (printable : isPrintable c = true) :
    c ≠ '\r' ∧ c ≠ '\n' := by
  constructor
  · intro same
    subst same
    cases printable
  · intro same
    subst same
    cases printable

theorem trimLineEndings_of_printable {line : Str}
    (printable : ∀ c ∈ line, isPrintable c = true) : trimLineEndings line = line := by
  apply trimLineEndings_eq_self
  intro c last
  exact not_lineEnd_of_isPrintable (printable c (List.mem_of_getLast? last))

theorem isWireLine_frame {line : Str} (printable : ∀ c ∈ line, isPrintable c = true) :
    IsWireLine (frame line) := by
  rwa [isWireLine_frame_iff, trimLineEndings_of_printable printable]

end Fingermouse
