import Fingermouse.Text
import Mathlib.Data.Nat.Digits.Defs

/-!
# Quoted text

What `json.dumps` makes of a string, and a reader of TOML documents as plain as
a generator writes them: tables of strings and of arrays with one string to a
line.

* `readString_quoted`: the reader has every quoted string back.
* `foldlM_readLine_array`: and every array of them.
-/

namespace TomlText

open Text

/-! ## Quoting -/

/-- A character in a JSON string, with `ensure_ascii` off. -/
def jsonEscape (c : Char) : Str :=
  if c = '\x22' then ['\\', '\x22']
  else if c = '\\' then ['\\', '\\']
  else if c = '\n' then ['\\', 'n']
  else if c = '\r' then ['\\', 'r']
  else if c = '\t' then ['\\', 't']
  else if c = '\x0c' then ['\\', 'f']
  else if c = '\x08' then ['\\', 'b']
  else if c.toNat < 0x20 then
    ['\\', 'u', '0', '0', Nat.digitChar (c.toNat / 16), Nat.digitChar (c.toNat % 16)]
  else [c]

/-- `json.dumps` of a string. -/
def jsonString (text : Str) : Str := '\x22' :: text.flatMap jsonEscape ++ ['\x22']

/-! ## Reading -/

/-- A character that may stand in a document.  Carriage returns are left out, for
lines that end in a line feed alone. -/
def permitted (c : Char) : Bool := c = '\t' || c = '\n' || 0x20 ≤ c.toNat && c ≠ '\x7f'

def unescape : Char → Option Char
  | 'b' => some '\x08'
  | 't' => some '\t'
  | 'n' => some '\n'
  | 'f' => some '\x0c'
  | 'r' => some '\r'
  | '\x22' => some '\x22'
  | '\\' => some '\\'
  | _ => none

def hexValue (c : Char) : Option Nat :=
  if '0' ≤ c ∧ c ≤ '9' then some (c.toNat - 48)
  else if 'a' ≤ c ∧ c ≤ 'f' then some (c.toNat - 87)
  else if 'A' ≤ c ∧ c ≤ 'F' then some (c.toNat - 55)
  else none

/-- The character of a code in hexadecimal; surrogates are none. -/
def scalarValue (digits : Str) : Option Char :=
  (digits.mapM hexValue).bind fun values =>
    let code := values.foldl (fun code value => 16 * code + value) 0
    if code.isValidChar then some (Char.ofNat code) else none

def prepend (first : Char) (read : Str × Str) : Str × Str := (first :: read.1, read.2)

/-- A basic string after its opening quote, and what follows it. -/
def readString : Str → Option (Str × Str)
  | [] => none
  | '\x22' :: rest => some ([], rest)
  | '\\' :: 'u' :: a :: b :: c :: d :: rest =>
      (scalarValue [a, b, c, d]).bind fun first => (readString rest).map (prepend first)
  | '\\' :: escaped :: rest =>
      (unescape escaped).bind fun first => (readString rest).map (prepend first)
  | c :: rest => (readString rest).map (prepend c)

def isBare (c : Char) : Bool := c.isAlphanum || c = '-' || c = '_'

/-- A key, bare or quoted, and what follows it. -/
def readKey : Str → Option (Str × Str)
  | '\x22' :: rest => readString rest
  | line => if line.takeWhile isBare = [] then none else some (line.span isBare)

inductive TomlValue
  | string (text : Str)
  | array (members : List Str)
deriving DecidableEq

/-- A value, with the table it stands in and its key there. -/
structure Entry where
  table : Str
  key : Str
  value : TomlValue
deriving DecidableEq

/-- How far a document has been read: its entries, the table that is open, and
the array that is, with its key. -/
structure Reader where
  entries : List Entry
  table : Str
  array : Option (Str × List Str)

namespace Reader

def add (reader : Reader) (key : Str) (value : TomlValue) : Reader :=
  { reader with entries := reader.entries ++ [⟨reader.table, key, value⟩], array := none }

/-- A member of an array on a line of its own. -/
def readMember (line : Str) : Option Str :=
  match line.dropWhile (· = ' ') with
  | '\x22' :: rest =>
      match readString rest with
      | some (member, [',']) => some member
      | _ => none
  | _ => none

/-- What stands behind a key. -/
def readValue (reader : Reader) (key : Str) : Str → Option Reader
  | [' ', '=', ' ', '['] => some { reader with array := some (key, []) }
  | ' ' :: '=' :: ' ' :: '\x22' :: rest =>
      match readString rest with
      | some (text, []) => some (reader.add key (.string text))
      | _ => none
  | _ => none

/-- A line outside of an array. -/
def readStatement (reader : Reader) : Str → Option Reader
  | [] => some reader
  | '#' :: _ => some reader
  | '[' :: name =>
      if name.getLast? = some ']' then some { reader with table := name.dropLast } else none
  | line => (readKey line).bind fun read => reader.readValue read.1 read.2

/-- Read one line. -/
def readLine (reader : Reader) (line : Str) : Option Reader :=
  match reader.array with
  | some (key, members) =>
      if line = [']'] then some (reader.add key (.array members))
      else (readMember line).map fun member =>
        { reader with array := some (key, members ++ [member]) }
  | none => reader.readStatement line

end Reader

/-- The entries of a document. -/
def readToml (document : Str) : Option (List Entry) :=
  if document.all permitted then
    ((document.splitOn '\n').foldlM Reader.readLine ⟨[], [], none⟩).bind fun reader =>
      if reader.array.isNone then some reader.entries else none
  else none

/-! ## Quoted strings -/

theorem scalarValue_of_control {n : Nat} (control : n < 0x20) :
    scalarValue ['0', '0', Nat.digitChar (n / 16), Nat.digitChar (n % 16)] =
      some (Char.ofNat n) := by
  revert n
  decide

theorem readString_jsonEscape (c : Char) (text : Str) :
    readString (jsonEscape c ++ text) = (readString text).map (prepend c) := by
  unfold jsonEscape
  split_ifs with h1 h2 h3 h4 h5 h6 h7 h8
  · subst h1; rfl
  · subst h2; rfl
  · subst h3; rfl
  · subst h4; rfl
  · subst h5; rfl
  · subst h6; rfl
  · subst h7; rfl
  · have code := scalarValue_of_control h8
    rw [Char.ofNat_toNat] at code
    simp only [List.cons_append, List.nil_append, readString, code, Option.bind_some]
  · simp [readString, h2]

/-- A quoted string is read back, up to its closing quote. -/
theorem readString_quoted (text rest : Str) :
    readString (text.flatMap jsonEscape ++ '\x22' :: rest) = some (text, rest) := by
  induction text with
  | nil => rfl
  | cons c text ih =>
      rw [List.flatMap_cons, List.append_assoc, readString_jsonEscape, ih]
      rfl

/-- A text within a line: a document may hold all of it but U+007F, which JSON
does not escape. -/
abbrev Written (text : Str) : Prop := ∀ c ∈ text, c ≠ '\n' ∧ (permitted c = true ∨ c = '\x7f')

theorem Written.append {front back : Str} (left : Written front) (right : Written back) :
    Written (front ++ back) := by
  intro c member
  exact (List.mem_append.mp member).elim (left c) (right c)

theorem written_jsonEscape (c : Char) : Written (jsonEscape c) := by
  intro x member
  have control : ∀ n < 0x20, ∀ x ∈ ['\\', 'u', '0', '0', Nat.digitChar (n / 16),
      Nat.digitChar (n % 16)], x ≠ '\n' ∧ (permitted x = true ∨ x = '\x7f') := by
    decide
  have pair : ∀ e ∈ ['\x22', '\\', 'n', 'r', 't', 'f', 'b'], ∀ x ∈ ['\\', e],
      x ≠ '\n' ∧ (permitted x = true ∨ x = '\x7f') := by
    decide
  unfold jsonEscape at member
  split_ifs at member with h1 h2 h3 h4 h5 h6 h7 h8
  · exact pair '\x22' (by decide) x member
  · exact pair '\\' (by decide) x member
  · exact pair 'n' (by decide) x member
  · exact pair 'r' (by decide) x member
  · exact pair 't' (by decide) x member
  · exact pair 'f' (by decide) x member
  · exact pair 'b' (by decide) x member
  · exact control c.toNat h8 x member
  · obtain rfl := List.mem_singleton.mp member
    refine ⟨h3, ?_⟩
    by_cases delete : x = '\x7f'
    · exact .inr delete
    · left
      simp only [permitted, Bool.or_eq_true, Bool.and_eq_true, decide_eq_true_eq]
      exact .inr ⟨Nat.le_of_not_lt h8, delete⟩

theorem written_jsonString (text : Str) : Written (jsonString text) := by
  intro x member
  simp only [jsonString, List.cons_append, List.mem_cons, List.mem_append, List.mem_flatMap,
    List.not_mem_nil, or_false] at member
  rcases member with rfl | ⟨c, -, escaped⟩ | rfl
  · decide
  · exact written_jsonEscape c x escaped
  · decide

/-! ## Lines -/

namespace Reader

variable (reader : Reader)

/-- A line of an array gives its member. -/
theorem readMember_line (spaces : Nat) (member : Str) :
    readMember (List.replicate spaces ' ' ++ jsonString member ++ [',']) = some member := by
  have opens : (List.replicate spaces ' ' ++ jsonString member ++ [',']).dropWhile (· = ' ') =
      '\x22' :: (member.flatMap jsonEscape ++ '\x22' :: [',']) := by
    rw [List.append_assoc, List.dropWhile_append_of_pos (by simp [List.mem_replicate])]
    simp [jsonString]
  rw [readMember, opens]
  simp only [readString_quoted]

/-- A line of an open array adds its member. -/
theorem foldlM_readLine_members (spaces : Nat) (key : Str) (members values : List Str)
    (opened : reader.array = some (key, members)) :
    (values.map fun value => List.replicate spaces ' ' ++ jsonString value ++ [',']).foldlM
        readLine reader =
      some { reader with array := some (key, members ++ values) } := by
  induction values generalizing reader members with
  | nil =>
      rw [List.append_nil, ← opened]
      rfl
  | cons value values ih =>
      have added : reader.readLine (List.replicate spaces ' ' ++ jsonString value ++ [',']) =
          some { reader with array := some (key, members ++ [value]) } := by
        have goesOn : List.replicate spaces ' ' ++ jsonString value ++ [','] ≠ [']'] := by
          intro same
          have last := congrArg List.getLast? same
          rw [List.getLast?_concat] at last
          cases last
        rw [readLine, opened]
        simp only [if_neg goesOn, readMember_line, Option.map_some]
      rw [List.map_cons, List.foldlM_cons, added]
      simp only [bind, Option.bind_some]
      rw [ih { reader with array := some (key, members ++ [value]) } (members ++ [value]) rfl,
        List.append_assoc, List.singleton_append]

/-- An array is read back. -/
theorem foldlM_readLine_array (spaces : Nat) (values : List Str) {key opening : Str}
    (begins : reader.readLine opening = some { reader with array := some (key, []) }) :
    (opening :: (values.map fun value => List.replicate spaces ' ' ++ jsonString value ++ [',']) ++
        [[']']]).foldlM readLine reader =
      some (reader.add key (.array values)) := by
  rw [List.cons_append, List.foldlM_cons, begins]
  simp only [bind, Option.bind_some]
  rw [List.foldlM_append, foldlM_readLine_members _ spaces key [] values rfl]
  rfl

theorem readStatement_quoted (rest : Str) :
    reader.readStatement ('\x22' :: rest) =
      (readString rest).bind fun read => reader.readValue read.1 read.2 :=
  rfl

theorem readValue_quoted (key rest : Str) :
    reader.readValue key (' ' :: '=' :: ' ' :: '\x22' :: rest) =
      match readString rest with
      | some (text, []) => some (reader.add key (.string text))
      | _ => none :=
  rfl

/-- Pairs of strings are read back. -/
theorem foldlM_readLine_pairs (pairs : List (Str × Str)) (closed : reader.array = none) :
    (pairs.map fun pair => jsonString pair.1 ++ [' ', '=', ' '] ++ jsonString pair.2).foldlM
        readLine reader =
      some { reader with
        entries := reader.entries ++
          pairs.map fun pair => ⟨reader.table, pair.1, .string pair.2⟩ } := by
  induction pairs generalizing reader with
  | nil => simp
  | cons pair pairs ih =>
      have read : reader.readLine (jsonString pair.1 ++ [' ', '=', ' '] ++ jsonString pair.2) =
          some (reader.add pair.1 (.string pair.2)) := by
        rw [readLine, closed]
        simp only [jsonString, List.cons_append, List.nil_append, List.append_assoc]
        rw [readStatement_quoted, readString_quoted, Option.bind_some, readValue_quoted,
          readString_quoted]
      rw [List.map_cons, List.foldlM_cons, read]
      simp only [bind, Option.bind_some]
      rw [ih (reader.add pair.1 (.string pair.2)) rfl]
      simp [add, closed]

end Reader

/-- Lines joined as a document. -/
def joinLines (lines : List Str) : Str := ['\n'].intercalate lines ++ ['\n']

theorem joinLines_eq (first : Str) (rest : List Str) :
    joinLines (first :: rest) = ['\n'].intercalate (first :: rest ++ [[]]) := by
  simp only [joinLines, List.cons_append, intercalate_cons_eq_append_flatMap,
    List.flatMap_append, List.append_assoc]
  rfl

theorem of_mem_joinLines {first : Str} {rest : List Str} {c : Char}
    (member : c ∈ joinLines (first :: rest)) : c = '\n' ∨ ∃ line ∈ first :: rest, c ∈ line := by
  simp only [joinLines, intercalate_cons_eq_append_flatMap, List.mem_append, List.mem_flatMap,
    List.mem_cons, List.not_mem_nil, or_false] at member
  rcases member with (inFirst | ⟨line, listed, rfl | inLine⟩) | rfl
  · exact .inr ⟨first, List.mem_cons_self, inFirst⟩
  · exact .inl rfl
  · exact .inr ⟨line, List.mem_cons_of_mem _ listed, inLine⟩
  · exact .inl rfl

/-- A document without U+007F is read line by line. -/
theorem readToml_joinLines {first : Str} {rest : List Str}
    (written : ∀ line ∈ first :: rest, Written line)
    (deletes : '\x7f' ∉ joinLines (first :: rest)) :
    readToml (joinLines (first :: rest)) =
      ((first :: rest).foldlM Reader.readLine ⟨[], [], none⟩).bind fun reader =>
        if reader.array.isNone then some reader.entries else none := by
  have allowed : (joinLines (first :: rest)).all permitted = true := by
    rw [List.all_eq_true]
    intro c member
    rcases of_mem_joinLines member with rfl | ⟨line, listed, inLine⟩
    · rfl
    · exact (written line listed c inLine).2.resolve_right fun same => deletes (same ▸ member)
  have closes : ∀ reader : Reader,
      (reader.readLine []).bind (fun reader =>
        if reader.array.isNone then some reader.entries else none) =
      if reader.array.isNone then some reader.entries else none := by
    intro reader
    obtain ⟨entries, table, array⟩ := reader
    cases array <;> rfl
  rw [readToml, if_pos allowed, joinLines_eq, List.splitOn_intercalate]
  · rw [List.foldlM_append, Option.bind_eq_bind, Option.bind_assoc]
    refine congrArg _ (funext fun reader => ?_)
    simp only [List.foldlM_cons, List.foldlM_nil, bind_pure]
    exact closes reader
  · intro line listed
    rcases List.mem_append.mp listed with old | new
    · exact fun member => (written line old _ member).1 rfl
    · obtain rfl := List.mem_singleton.mp new
      exact List.not_mem_nil
  · exact List.cons_ne_nil _ _

end TomlText
