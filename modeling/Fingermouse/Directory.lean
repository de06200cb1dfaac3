import Mathlib.Data.List.Basic
import Mathlib.Tactic.Common

/-!
# Directories of files

A directory binds names to files; several names may stand for one file, and a
file that has lost its last name keeps its bytes for whoever has it open.

* `read_create`, `read_append`, `read_rename` and `read_unlink`: what each
  operation does to the contents that can be read by name.
* `Private`: a file that goes by one name only.  `Private.rename` and the lemmas
  beside it say which operations leave it so.
-/

/-- Names, and the bytes of every file there ever was. -/
structure Directory (Name Byte : Type) where
  names : Name → Option Nat
  files : List (List Byte)
  bound : ∀ name file, names name = some file → file < files.length

namespace Directory

variable {Name Byte : Type}

/-- The contents under a name. -/
def read (d : Directory Name Byte) (name : Name) : Option (List Byte) :=
  (d.names name).bind fun file => d.files[file]?

/-- Write at the end of a file. -/
def append (d : Directory Name Byte) (file : Nat) (bytes : List Byte) : Directory Name Byte where
  names := d.names
  files := d.files.modify file (· ++ bytes)
  bound other file named := by
    rw [List.length_modify]
    exact d.bound other file named

/-- The file goes by this name and by no other. -/
structure Private (d : Directory Name Byte) (name : Name) (file : Nat) : Prop where
  named : d.names name = some file
  only : ∀ other, d.names other = some file → other = name

variable {d : Directory Name Byte} {name other source target : Name} {file file' : Nat}
  {bytes : List Byte}

theorem ne_of_named (named : d.names name = some file) : file ≠ d.files.length :=
  Nat.ne_of_lt (d.bound name file named)

theorem files_append_ne (differs : file ≠ file') :
    (d.append file bytes).files[file']? = d.files[file']? := by
  rw [append, List.getElem?_modify]
  simp only [if_neg differs, id_map']

theorem read_append (elsewhere : d.names other ≠ some file) :
    (d.append file bytes).read other = d.read other := by
  unfold read
  simp only [append]
  cases named : d.names other with
  | none => rfl
  | some file' =>
      have differs : file ≠ file' := by
        intro same
        exact elsewhere (same ▸ named)
      exact files_append_ne differs

namespace Private

theorem read (own : d.Private name file) : d.read name = d.files[file]? := by
  rw [Directory.read, own.named, Option.bind_some]

theorem append (own : d.Private name file) (file' : Nat) (bytes : List Byte) :
    (d.append file' bytes).Private name file :=
  ⟨own.named, own.only⟩

/-- Files of different names are different. -/
theorem ne (own : d.Private name file) (differs : other ≠ name)
    (named : d.names other = some file') : file ≠ file' := by
  intro same
  exact differs (own.only other (same ▸ named))

end Private

/-! ## Operations on names -/

variable [DecidableEq Name]

/-- A new and empty file takes the name. -/
def create (d : Directory Name Byte) (name : Name) : Directory Name Byte where
  names other := if other = name then some d.files.length else d.names other
  files := d.files ++ [[]]
  bound other file named := by
    rw [List.length_append, List.length_singleton]
    split_ifs at named
    · cases named
      exact Nat.lt_succ_self _
    · exact Nat.lt_succ_of_lt (d.bound other file named)

/-- The file of one name goes by another, which gives up its own. -/
def rename (d : Directory Name Byte) (source target : Name) : Directory Name Byte where
  names other :=
    if other = target then d.names source else if other = source then none else d.names other
  files := d.files
  bound other file named := by
    split_ifs at named
    · exact d.bound source file named
    · exact d.bound other file named

def unlink (d : Directory Name Byte) (name : Name) : Directory Name Byte where
  names other := if other = name then none else d.names other
  files := d.files
  bound other file named := by
    split_ifs at named
    exact d.bound other file named

theorem read_create (differs : other ≠ name) : (d.create name).read other = d.read other := by
  unfold read
  simp only [create, if_neg differs]
  cases named : d.names other with
  | none => rfl
  | some file => exact List.getElem?_append_left (d.bound other file named)

theorem read_rename (differs : other ≠ source) :
    (d.rename source target).read other =
      if other = target then d.read source else d.read other := by
  unfold read
  simp only [rename, if_neg differs]
  split_ifs <;> rfl

theorem read_unlink (differs : other ≠ name) : (d.unlink name).read other = d.read other := by
  unfold read
  simp only [unlink, if_neg differs]

theorem private_create : (d.create name).Private name d.files.length := by
  refine ⟨if_pos rfl, fun other named => ?_⟩
  simp only [create] at named
  split_ifs at named with same
  · exact same
  · exact absurd rfl (ne_of_named named)

namespace Private

theorem create (own : d.Private name file) (differs : name ≠ other) :
    (d.create other).Private name file := by
  refine ⟨(if_neg differs).trans own.named, fun third named => ?_⟩
  simp only [Directory.create] at named
  split_ifs at named
  · cases named
    exact absurd rfl (ne_of_named own.named)
  · exact own.only third named

theorem rename (own : d.Private name file) (left : name ≠ source) (right : name ≠ target) :
    (d.rename source target).Private name file := by
  refine ⟨(if_neg right).trans ((if_neg left).trans own.named), fun third named => ?_⟩
  simp only [Directory.rename] at named
  split_ifs at named
  · exact absurd (own.only source named).symm left
  · exact own.only third named

theorem unlink (own : d.Private name file) (differs : name ≠ other) :
    (d.unlink other).Private name file := by
  refine ⟨(if_neg differs).trans own.named, fun third named => ?_⟩
  simp only [Directory.unlink] at named
  split_ifs at named
  exact own.only third named

end Private

end Directory
