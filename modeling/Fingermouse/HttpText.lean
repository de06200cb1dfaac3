import Fingermouse.Text
import Mathlib.Data.List.Forall2
import Mathlib.Data.Nat.Digits.Defs

/-!
# HTTP responses of a stated length

The text of a response whose `content-length` header states the length of its
body, and a client that reads it off a stream.

* `readHead_append`: a head that has come in full stays as it is read.
* `read_part`: of what arrives of a response, the client reads the response
  from the whole, and nothing from less.
-/

namespace HttpText

open Text

/-- A response: the status line, the header fields and the body. -/
structure Response where
  status : Str
  headers : List (Str × Str)
  body : Bytes
deriving DecidableEq

namespace Response

/-- The lines of the head. -/
def lines (r : Response) : List Str :=
  r.status :: r.headers.map fun field => field.1 ++ ": ".toList ++ field.2

/-- All that is sent for a response. -/
def write (r : Response) : Bytes :=
  asBytes (r.lines.flatMap fun line => line ++ ['\r', '\n']) ++ asBytes ['\r', '\n'] ++ r.body

/-- No line of the head can be taken for another, and the length is stated. -/
structure Framed (r : Response) : Prop where
  status : r.status ≠ [] ∧ '\r' ∉ r.status
  headers : ∀ field ∈ r.headers,
    '\r' ∉ field.1 ∧ ':' ∉ field.1 ∧ '\r' ∉ field.2 ∧ field.2.head? ≠ some ' '
  length : r.headers.lookup "content-length".toList = some (Nat.toDigits 10 r.body.length)

end Response

/-! ## The client -/

/-- The lines of a head, up to the empty one, and what follows it. -/
def readHead (line : Bytes) : Bytes → Option (List Bytes × Bytes)
  | 0x0d :: 0x0a :: rest =>
      if line = [] then some ([], rest)
      else (readHead [] rest).map fun read => (line :: read.1, read.2)
  | b :: rest => readHead (line ++ [b]) rest
  | [] => none

/-- A header field: its name, and its value without the blanks before it. -/
def readField (line : Str) : Option (Str × Str) :=
  match line.dropWhile (· ≠ ':') with
  | [] => none
  | _ :: value => some (line.takeWhile (· ≠ ':'), value.dropWhile (· = ' '))

def readNat (digits : Str) : Option Nat :=
  if digits ≠ [] ∧ ∀ c ∈ digits, c.isDigit = true then some (Nat.ofDigitChars 10 digits 0)
  else none

/-- The response at the front of a stream, if all of it is there. -/
def read (stream : Bytes) : Option Response := do
  let (lines, rest) ← readHead [] stream
  match ← lines.mapM fromUtf8 with
  | [] => none
  | status :: fields =>
      let headers ← fields.mapM readField
      let length ← readNat (← headers.lookup "content-length".toList)
      if length ≤ rest.length then some ⟨status, headers, rest.take length⟩ else none

/-! ## Reading a head -/

theorem readHead_line {line : Bytes} (oneLine : 0x0d ∉ line) (before rest : Bytes) :
    readHead before (line ++ 0x0d :: 0x0a :: rest) =
      if before ++ line = [] then some ([], rest)
      else (readHead [] rest).map fun read => ((before ++ line) :: read.1, read.2) := by
  induction line generalizing before with
  | nil => rw [List.append_nil, List.nil_append, readHead]
  | cons b line ih =>
      rw [List.mem_cons, not_or] at oneLine
      have goesOn : ∀ tail, b = 0x0d → line ++ 0x0d :: 0x0a :: rest = 0x0a :: tail → False :=
        fun _ same _ => oneLine.1 same.symm
      rw [List.cons_append, readHead, ih oneLine.2, List.append_assoc, List.singleton_append]
      exact goesOn

/-- A head that has come in full stays as it is read. -/
theorem readHead_append {line stream : Bytes} {lines : List Bytes} {rest : Bytes}
    (read : readHead line stream = some (lines, rest)) (more : Bytes) :
    readHead line (stream ++ more) = some (lines, rest ++ more) := by
  fun_induction readHead line stream generalizing lines rest with
  | case1 stream =>
      obtain ⟨rfl, rfl⟩ := Prod.mk.inj (Option.some.inj read)
      rw [List.cons_append, List.cons_append, readHead, if_pos rfl]
  | case2 line stream going ih =>
      obtain ⟨after, found, same⟩ := Option.map_eq_some_iff.mp read
      obtain ⟨rfl, rfl⟩ := Prod.mk.inj same
      rw [List.cons_append, List.cons_append, readHead, if_neg going, ih found, Option.map_some]
  | case3 line b stream other ih =>
      -- What is added can not end a line that the stream broke off in.
      cases stream with
      | nil => cases read
      | cons c stream =>
          rw [List.cons_append, readHead, ih read]
          intro tail first next
          exact other stream first (by rw [(List.cons.inj next).1])
  | case4 => cases read

/-- The lines of a head and what follows it are read back. -/
theorem readHead_lines {lines : List Bytes} (whole : ∀ line ∈ lines, line ≠ [] ∧ 0x0d ∉ line)
    (rest : Bytes) :
    readHead [] (lines.flatMap (fun line => line ++ [0x0d, 0x0a]) ++ 0x0d :: 0x0a :: rest) =
      some (lines, rest) := by
  induction lines with
  | nil => exact readHead_line List.not_mem_nil [] rest
  | cons line lines ih =>
      obtain ⟨some, oneLine⟩ := whole line List.mem_cons_self
      have tail := ih fun line listed => whole line (List.mem_cons_of_mem _ listed)
      rw [List.flatMap_cons, List.append_assoc, List.append_assoc, List.cons_append,
        List.cons_append, List.nil_append, readHead_line oneLine, List.nil_append, if_neg some,
        tail, Option.map_some]

/-! ## Reading its lines -/

theorem readField_field {name value : Str} (plain : ':' ∉ name) (given : value.head? ≠ some ' ') :
    readField (name ++ ": ".toList ++ value) = some (name, value) := by
  have inName : ∀ c ∈ name, decide (c ≠ ':') = true := by
    intro c member
    exact decide_eq_true fun same => plain (same ▸ member)
  have trimmed : value.dropWhile (· = ' ') = value := by
    cases value with
    | nil => rfl
    | cons c value =>
        exact List.dropWhile_cons_of_neg (by simpa using given)
  have dropped : (name ++ ": ".toList ++ value).dropWhile (· ≠ ':') = ':' :: ' ' :: value := by
    rw [List.append_assoc, List.dropWhile_append_of_pos inName]
    rfl
  have taken : (name ++ ": ".toList ++ value).takeWhile (· ≠ ':') = name := by
    rw [List.append_assoc, List.takeWhile_append_of_pos inName]
    exact List.append_nil name
  rw [readField, dropped, taken]
  simp only [List.dropWhile_cons, decide_true, if_true, trimmed]

theorem readNat_toDigits (n : Nat) : readNat (Nat.toDigits 10 n) = some n := by
  rw [readNat, if_pos, Nat.ofDigitChars_ten_toDigits]
  exact ⟨Nat.toDigits_ne_nil, fun c member =>
    Nat.isDigit_of_mem_toDigits (by omega) (by omega) member⟩

/-! ## Reading a response -/

theorem mapM_map_eq_some {α β : Type} {f : β → Option α} {g : α → β} {l : List α}
    (back : ∀ a ∈ l, f (g a) = some a) : (l.map g).mapM f = some l := by
  induction l with
  | nil => rfl
  | cons a l ih =>
      rw [List.map_cons, List.mapM_cons, back a List.mem_cons_self,
        ih fun a member => back a (List.mem_cons_of_mem _ member)]
      rfl

namespace Response

variable {r : Response}

theorem Framed.separate_lines (framed : r.Framed) : ∀ line ∈ r.lines, line ≠ [] ∧ '\r' ∉ line := by
  intro line listed
  rcases List.mem_cons.mp listed with rfl | listed
  · exact framed.status
  · obtain ⟨field, given, rfl⟩ := List.mem_map.mp listed
    obtain ⟨name, -, value, -⟩ := framed.headers field given
    simp [name, value]

/-- The head and the body that a client separates. -/
theorem Framed.readHead_write (framed : r.Framed) :
    readHead [] r.write = some (r.lines.map asBytes, r.body) := by
  have ends : asBytes ['\r', '\n'] = [0x0d, 0x0a] := by decide
  have bytes : asBytes (r.lines.flatMap fun line => line ++ ['\r', '\n']) =
      (r.lines.map asBytes).flatMap fun line => line ++ [0x0d, 0x0a] := by
    rw [asBytes, List.flatMap_assoc, List.flatMap_map]
    exact List.flatMap_congr fun line _ => (asBytes_append line _).trans (by rw [ends])
  rw [write, bytes, ends, List.append_assoc]
  refine readHead_lines ?_ r.body
  intro line listed
  obtain ⟨text, given, rfl⟩ := List.mem_map.mp listed
  obtain ⟨some, oneLine⟩ := framed.separate_lines text given
  refine ⟨fun empty => some (asBytes_injective empty), fun returns => oneLine ?_⟩
  obtain ⟨c, member, same⟩ := (exists_mem_asBytes_iff (p := (· = 13)) (by omega) text).mp
    ⟨0x0d, returns, rfl⟩
  have char : c = '\r' := Char.toNat_inj.mp same
  exact char ▸ member

/-- What is read when the head is there in full. -/
theorem Framed.read_of_head (framed : r.Framed) {stream rest : Bytes}
    (head : readHead [] stream = some (r.lines.map asBytes, rest)) :
    read stream = if r.body.length ≤ rest.length then
      some ⟨r.status, r.headers, rest.take r.body.length⟩ else none := by
  have texts : (r.lines.map asBytes).mapM fromUtf8 = some r.lines :=
    mapM_map_eq_some fun line _ => fromUtf8_asBytes line
  have fields : (r.headers.map fun field => field.1 ++ ": ".toList ++ field.2).mapM readField =
      some r.headers := by
    refine mapM_map_eq_some fun field given => ?_
    obtain ⟨-, name, -, value⟩ := framed.headers field given
    exact readField_field name value
  rw [read, head]
  simp only [Option.bind_eq_bind, Option.bind_some, texts]
  simp only [Response.lines, fields, framed.length, Option.bind_some, readNat_toDigits]

/-- Of what arrives of a response, the client reads the response from the whole,
and nothing from less. -/
theorem Framed.read_part (framed : r.Framed) {part : Bytes} (arrived : part <+: r.write) :
    read part = if part = r.write then some r else none := by
  obtain ⟨more, whole⟩ := arrived
  cases found : readHead [] part with
  | none =>
      have less : part ≠ r.write := by
        intro same
        rw [same, framed.readHead_write] at found
        cases found
      rw [if_neg less, read, found]
      rfl
  | some head =>
      have extended := readHead_append found more
      rw [whole, framed.readHead_write] at extended
      obtain ⟨lines, rest⟩ := Prod.mk.inj (Option.some.inj extended)
      have headSame : readHead [] part = some (r.lines.map asBytes, head.2) := by rw [found, lines]
      rw [framed.read_of_head headSame, rest]
      -- What is missing of the stream is missing of the body.
      by_cases complete : more = []
      · subst complete
        rw [List.append_nil] at whole ⊢
        rw [List.append_nil] at rest
        rw [if_pos whole, if_pos (Nat.le_refl _), List.take_length, ← rest]
      · have missing := List.length_pos_of_ne_nil complete
        have less : part ≠ r.write := by
          intro same
          rw [← whole] at same
          exact complete (List.self_eq_append_right.mp same)
        rw [if_neg less, if_neg (by rw [List.length_append]; omega)]

end Response

end HttpText
