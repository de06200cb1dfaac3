import Mathlib.Data.Finset.Card
import Mathlib.Data.List.AList

/-!
# Finite tables

`AList` is Mathlib's finite table: entries with distinct keys.  This module
adds the operations of a concurrent hash map that Mathlib lacks (`retain`, the
number of entries, a pass over the entries in an order the table does not
promise) and the insertion of an insertion-ordered map.
-/

namespace AList

variable {κ : Type} {ν : κ → Type}

/-! ## Size -/

def len (m : AList ν) : Nat := m.entries.length

theorem len_eq_length_keys (m : AList ν) : m.len = m.keys.length :=
  (List.length_map _).symm

theorem len_pos_of_mem {m : AList ν} {k : κ} (member : k ∈ m) : 0 < m.len := by
  rw [len_eq_length_keys]
  exact List.length_pos_of_mem (mem_keys.mp member)

variable [DecidableEq κ]

theorem len_erase_of_mem {m : AList ν} {k : κ} (member : k ∈ m) :
    (m.erase k).len = m.len - 1 := by
  simp only [len_eq_length_keys, keys_erase, List.length_erase_of_mem (mem_keys.mp member)]

theorem erase_of_notMem {m : AList ν} {k : κ} (absent : k ∉ m) : m.erase k = m := by
  apply AList.ext
  show m.entries.kerase k = m.entries
  exact List.kerase_of_notMem_keys fun inKeys => absent (mem_keys.mpr inKeys)

theorem erase_insert_of_notMem {m : AList ν} {k : κ} (v : ν k) (absent : k ∉ m) :
    (m.insert k v).erase k = m := by
  apply AList.ext
  show (m.insert k v).entries.kerase k = m.entries
  rw [entries_insert_of_notMem absent]
  exact List.kerase_cons_eq rfl

theorem len_erase_ge (m : AList ν) (k : κ) : m.len - 1 ≤ (m.erase k).len := by
  by_cases member : k ∈ m
  · rw [len_erase_of_mem member]
  · rw [erase_of_notMem member]
    omega

theorem len_insert_le (m : AList ν) (k : κ) (v : ν k) : (m.insert k v).len ≤ m.len + 1 := by
  show (m.entries.kinsert k v).length ≤ m.entries.length + 1
  rw [List.kinsert_def, List.length_cons]
  exact Nat.succ_le_succ (List.kerase_sublist k m.entries).length_le

/-- A table whose keys lie in a finite set is no larger than the set. -/
theorem len_le_card {m : AList ν} {s : Finset κ} (keys : ∀ k ∈ m, k ∈ s) : m.len ≤ s.card := by
  rw [len_eq_length_keys, ← List.toFinset_card_of_nodup m.keys_nodup]
  exact Finset.card_le_card fun k member => keys k (mem_keys.mpr (List.mem_toFinset.mp member))

theorem len_le_of_keys {m m' : AList ν} (keys : ∀ k ∈ m, k ∈ m') : m.len ≤ m'.len := by
  have inKeys : ∀ k ∈ m, k ∈ m'.keys.toFinset := fun k member =>
    List.mem_toFinset.mpr (mem_keys.mp (keys k member))
  rw [m'.len_eq_length_keys]
  exact (len_le_card inKeys).trans m'.keys.toFinset_card_le

theorem len_le_succ_of_keys {m m' : AList ν} (new : κ) (keys : ∀ k ∈ m, k ∈ m' ∨ k = new) :
    m.len ≤ m'.len + 1 := by
  have inKeys : ∀ k ∈ m, k ∈ Insert.insert new m'.keys.toFinset := fun k member =>
    Finset.mem_insert.mpr ((keys k member).symm.imp_right fun old =>
      List.mem_toFinset.mpr (mem_keys.mp old))
  rw [m'.len_eq_length_keys]
  exact (len_le_card inKeys).trans ((Finset.card_insert_le _ _).trans
    (Nat.succ_le_succ m'.keys.toFinset_card_le))

/-! ## Retain -/

/-- Keep the entries that satisfy `p`. -/
def retain (p : ∀ k, ν k → Bool) (m : AList ν) : AList ν :=
  ⟨m.entries.filter fun entry => p entry.1 entry.2,
    m.nodupKeys.sublist List.filter_sublist⟩

theorem mem_lookup_retain {p : ∀ k, ν k → Bool} {m : AList ν} {k : κ} {v : ν k} :
    v ∈ (m.retain p).lookup k ↔ v ∈ m.lookup k ∧ p k v = true := by
  simp only [mem_lookup_iff, retain, List.mem_filter]

theorem lookup_retain (p : ∀ k, ν k → Bool) (m : AList ν) (k : κ) :
    (m.retain p).lookup k = (m.lookup k).filter (p k) := by
  refine Option.ext fun v => ?_
  exact mem_lookup_retain.trans Option.mem_filter_iff.symm

theorem mem_of_mem_retain {p : ∀ k, ν k → Bool} {m : AList ν} {k : κ}
    (member : k ∈ m.retain p) : k ∈ m := by
  obtain ⟨v, found⟩ := Option.isSome_iff_exists.mp (lookup_isSome.mpr member)
  exact lookup_isSome.mp (Option.isSome_iff_exists.mpr ⟨v, (mem_lookup_retain.mp found).1⟩)

theorem mem_retain {p : ∀ k, ν k → Bool} {m : AList ν} {k : κ} :
    k ∈ m.retain p ↔ ∃ v ∈ m.lookup k, p k v = true := by
  rw [← lookup_isSome, Option.isSome_iff_exists]
  exact exists_congr fun v => mem_lookup_retain

omit [DecidableEq κ] in
theorem len_retain_le (p : ∀ k, ν k → Bool) (m : AList ν) : (m.retain p).len ≤ m.len :=
  List.length_filter_le _ _

/-! ## Insertion order -/

/-- Insertion into a table that remembers insertion order: an old key keeps
its place, a new one comes last. -/
def insertLast (k : κ) (v : ν k) (m : AList ν) : AList ν :=
  if absent : k ∈ m then m.replace k v
  else
    ⟨m.entries ++ [⟨k, v⟩], by
      have fresh : k ∉ m.entries.map Sigma.fst := fun inKeys => absent (mem_keys.mpr inKeys)
      simpa [List.NodupKeys, List.keys, List.nodup_append] using
        ⟨m.nodupKeys, fun a b member => by
          rintro rfl
          exact fresh (List.mem_map.mpr ⟨⟨a, b⟩, member, rfl⟩)⟩⟩

theorem insertLast_of_notMem {m : AList ν} {k : κ} (v : ν k) (absent : k ∉ m) :
    (m.insertLast k v).entries = m.entries ++ [⟨k, v⟩] := by
  simp [insertLast, absent]

theorem mem_insertLast_of_notMem {m : AList ν} {k k' : κ} (v : ν k) (absent : k ∉ m) :
    k' ∈ m.insertLast k v ↔ k' ∈ m ∨ k' = k := by
  simp only [mem_keys, keys, List.keys, insertLast_of_notMem v absent, List.map_append,
    List.mem_append, List.map_cons, List.map_nil, List.mem_singleton]

end AList
