import Fingermouse.Result
import Fingermouse.Table
import Mathlib.Data.List.Sort
import Mathlib.Data.Prod.Lex
import Mathlib.Logic.Relator

/-!
# Agreement

Maps filled pair by pair, where a key that has a value takes no other one.
Whether all pairs fit, and which map comes of them, depends on the set of pairs
alone.

* `exists_insertAll_iff`: the pairs fit exactly if no key has two values.
* `lookup_insertAll`: the map then holds these pairs.
* `sortedSet_congr`, `sortedItems_congr`: sorted, the same members are the same
  list.
-/

/-! ## Sorted lists -/

namespace List

variable {α : Type} [LinearOrder α]

def sorted (l : List α) : List α := l.insertionSort (· ≤ ·)

theorem mem_sorted_iff {l : List α} {a : α} : a ∈ l.sorted ↔ a ∈ l :=
  mem_insertionSort _

theorem sorted_congr {l l' : List α} (perm : l.Perm l') : l.sorted = l'.sorted := by
  have both : l.sorted.Perm l'.sorted :=
    ((perm_insertionSort _ l).trans perm).trans (perm_insertionSort _ l').symm
  exact both.eq_of_pairwise' (pairwise_insertionSort _ l) (pairwise_insertionSort _ l')

/-- The members of a list, each once, in order. -/
def sortedSet (l : List α) : List α := l.dedup.sorted

theorem mem_sortedSet_iff {l : List α} {a : α} : a ∈ l.sortedSet ↔ a ∈ l :=
  mem_sorted_iff.trans mem_dedup

theorem sortedSet_congr {l l' : List α} (same : ∀ a, a ∈ l ↔ a ∈ l') :
    l.sortedSet = l'.sortedSet := by
  apply sorted_congr
  rw [perm_ext_iff_of_nodup (nodup_dedup l) (nodup_dedup l')]
  simpa only [mem_dedup] using same

/-- Pairs in lexicographic order. -/
def sortedPairs {β : Type} [LinearOrder β] (l : List (α × β)) : List (α × β) :=
  (l.map toLex).sorted.map ofLex

theorem mem_sortedPairs_iff {β : Type} [LinearOrder β] {l : List (α × β)} {pair : α × β} :
    pair ∈ l.sortedPairs ↔ pair ∈ l := by
  obtain ⟨a, b⟩ := pair
  simp [sortedPairs, mem_sorted_iff]

theorem sortedPairs_perm {β : Type} [LinearOrder β] (l : List (α × β)) : l.sortedPairs.Perm l := by
  have perm := (perm_insertionSort (· ≤ ·) (l.map toLex)).map ofLex
  rwa [map_map, show ofLex ∘ toLex = id from rfl, map_id] at perm

theorem sortedPairs_congr {β : Type} [LinearOrder β] {l l' : List (α × β)} (perm : l.Perm l') :
    l.sortedPairs = l'.sortedPairs :=
  congrArg (map ofLex) (sorted_congr (perm.map toLex))

end List

/-- Whether a relation gives nothing two values depends on its pairs. -/
theorem Relator.rightUnique_congr {α β : Type} {R S : α → β → Prop}
    (same : ∀ a b, R a b ↔ S a b) : RightUnique R ↔ RightUnique S := by
  have equal : R = S := funext fun a => funext fun b => propext (same a b)
  rw [equal]

namespace AList

variable {κ β ε : Type}

/-! ## Pairs of a map -/

def items (m : AList fun _ : κ => β) : List (κ × β) :=
  m.entries.map fun entry => (entry.1, entry.2)

theorem map_fst_items (m : AList fun _ : κ => β) : m.items.map Prod.fst = m.keys := by
  simp [items, AList.keys, List.keys, Function.comp_def]

theorem nodup_items (m : AList fun _ : κ => β) : m.items.Nodup :=
  List.Nodup.of_map Prod.fst (m.map_fst_items ▸ m.keys_nodup)

variable [DecidableEq κ]

theorem mem_items_iff {m : AList fun _ : κ => β} {k : κ} {v : β} :
    (k, v) ∈ m.items ↔ m.lookup k = some v := by
  rw [← Option.mem_def, mem_lookup_iff, items, List.mem_map]
  constructor
  · intro listed
    obtain ⟨⟨k', v'⟩, member, same⟩ := listed
    cases same
    exact member
  · intro member
    exact ⟨_, member, rfl⟩

theorem rightUnique_lookup (m : AList fun _ : κ => β) :
    Relator.RightUnique fun k v => m.lookup k = some v := by
  intro k v w one other
  exact Option.some.inj (one.symm.trans other)

theorem sortedItems_congr [LinearOrder κ] [LinearOrder β] {m m' : AList fun _ : κ => β}
    (same : ∀ k v, m.lookup k = some v ↔ m'.lookup k = some v) :
    m.items.sortedPairs = m'.items.sortedPairs := by
  apply List.sortedPairs_congr
  rw [List.perm_ext_iff_of_nodup m.nodup_items m'.nodup_items]
  intro pair
  obtain ⟨k, v⟩ := pair
  rw [mem_items_iff, mem_items_iff]
  exact same k v

/-! ## Filling a map -/

/-- The map of a list of pairs; the last pair of a key counts. -/
def ofPairs (pairs : List (κ × β)) : AList fun _ : κ => β :=
  pairs.foldl (fun m pair => m.insert pair.1 pair.2) ∅

theorem lookup_insert_eq_some_iff {m : AList fun _ : κ => β} {k k' : κ} {v v' : β} :
    (m.insert k v).lookup k' = some v' ↔ k' = k ∧ v' = v ∨ k' ≠ k ∧ m.lookup k' = some v' := by
  by_cases same : k' = k
  · subst same
    simp [lookup_insert, eq_comm]
  · simp [lookup_insert_ne same, same]

section Checked

variable [DecidableEq β]

/-- Insert a pair unless its key has another value. -/
def insertChecked (conflict : κ → β → β → ε) (m : AList fun _ : κ => β) (pair : κ × β) :
    Except ε (AList fun _ : κ => β) :=
  match m.lookup pair.1 with
  | some existing =>
      if existing ≠ pair.2 then .error (conflict pair.1 existing pair.2)
      else .ok (m.insert pair.1 pair.2)
  | none => .ok (m.insert pair.1 pair.2)

/-- Insert pairs in their order, up to the first that does not fit. -/
def insertAll (conflict : κ → β → β → ε) (m : AList fun _ : κ => β) (pairs : List (κ × β)) :
    Except ε (AList fun _ : κ => β) :=
  pairs.foldlM (insertChecked conflict) m

/-- The pairs of a map and those of a list. -/
def Joined (m : AList fun _ : κ => β) (pairs : List (κ × β)) (k : κ) (v : β) : Prop :=
  m.lookup k = some v ∨ (k, v) ∈ pairs

variable {conflict : κ → β → β → ε} {m m' : AList fun _ : κ => β} {pairs : List (κ × β)}

theorem insertChecked_eq_ok_iff {k : κ} {v : β} :
    insertChecked conflict m (k, v) = .ok m' ↔
      (∀ existing, m.lookup k = some existing → existing = v) ∧ m.insert k v = m' := by
  unfold insertChecked
  cases found : m.lookup k with
  | none => simp
  | some existing => by_cases same : existing = v <;> simp [same]

theorem insertAll_cons_eq_ok_iff {pair : κ × β} :
    insertAll conflict m (pair :: pairs) = .ok m' ↔
      ∃ next, insertChecked conflict m pair = .ok next ∧
        insertAll conflict next pairs = .ok m' := by
  unfold insertAll
  rw [List.foldlM_cons, Except.bind_eq_ok_iff]

/-- One pair that fits adds itself. -/
theorem joined_insert {k : κ} {v : β}
    (fits : ∀ existing, m.lookup k = some existing → existing = v) (k' : κ) (v' : β) :
    Joined (m.insert k v) pairs k' v' ↔ Joined m ((k, v) :: pairs) k' v' := by
  unfold Joined
  rw [lookup_insert_eq_some_iff, List.mem_cons, Prod.mk.injEq]
  by_cases same : k' = k
  · subst same
    constructor
    · intro held
      tauto
    · intro held
      rcases held with old | new | listed
      · exact .inl (.inl ⟨rfl, fits v' old⟩)
      · exact .inl (.inl new)
      · exact .inr listed
  · tauto

/-- A map that has been filled holds what it held before and the pairs. -/
theorem lookup_insertAll (filled : insertAll conflict m pairs = .ok m') (k : κ) (v : β) :
    m'.lookup k = some v ↔ Joined m pairs k v := by
  induction pairs generalizing m with
  | nil =>
      cases filled
      simp [Joined]
  | cons pair pairs ih =>
      obtain ⟨next, inserted, rest⟩ := insertAll_cons_eq_ok_iff.mp filled
      obtain ⟨fits, rfl⟩ := insertChecked_eq_ok_iff.mp inserted
      rw [ih rest, joined_insert fits]

/-- The pairs fit exactly if no key comes with two values, from wherever. -/
theorem exists_insertAll_iff :
    (∃ m', insertAll conflict m pairs = .ok m') ↔ Relator.RightUnique (Joined m pairs) := by
  constructor
  · intro fills
    obtain ⟨m', filled⟩ := fills
    exact (Relator.rightUnique_congr (lookup_insertAll filled)).mp (rightUnique_lookup m')
  · intro unique
    induction pairs generalizing m with
    | nil => exact ⟨m, rfl⟩
    | cons pair pairs ih =>
        have fits : ∀ existing, m.lookup pair.1 = some existing → existing = pair.2 :=
          fun existing old => unique (.inl old) (.inr List.mem_cons_self)
        obtain ⟨m', filled⟩ := ih ((Relator.rightUnique_congr (joined_insert fits)).mpr unique)
        exact ⟨m', insertAll_cons_eq_ok_iff.mpr
          ⟨_, insertChecked_eq_ok_iff.mpr ⟨fits, rfl⟩, filled⟩⟩

theorem eq_foldl_of_insertAll (filled : insertAll conflict m pairs = .ok m') :
    pairs.foldl (fun m pair => m.insert pair.1 pair.2) m = m' := by
  induction pairs generalizing m with
  | nil => exact Except.ok.inj filled
  | cons pair pairs ih =>
      obtain ⟨next, inserted, rest⟩ := insertAll_cons_eq_ok_iff.mp filled
      obtain ⟨-, rfl⟩ := insertChecked_eq_ok_iff.mp inserted
      exact ih rest

/-- The map of pairs that give no key two values holds these pairs. -/
theorem lookup_ofPairs (unique : Relator.RightUnique fun k v => (k, v) ∈ pairs) (k : κ) (v : β) :
    (ofPairs pairs).lookup k = some v ↔ (k, v) ∈ pairs := by
  have joined : ∀ k v, Joined ∅ pairs k v ↔ (k, v) ∈ pairs := by
    simp [Joined]
  have fill : ∃ m', insertAll (fun _ _ _ => ()) ∅ pairs = .ok m' :=
    exists_insertAll_iff.mpr ((Relator.rightUnique_congr joined).mpr unique)
  obtain ⟨m', filled⟩ := fill
  rw [ofPairs, eq_foldl_of_insertAll filled, lookup_insertAll filled, joined]

/-- Sorting the items of a map leaves the map as it is. -/
theorem lookup_ofPairs_sortedPairs [LinearOrder κ] [LinearOrder β] (m : AList fun _ : κ => β)
    (k : κ) (v : β) : (ofPairs m.items.sortedPairs).lookup k = some v ↔ m.lookup k = some v := by
  have item : ∀ k v, (k, v) ∈ m.items.sortedPairs ↔ m.lookup k = some v := by
    intro k v
    rw [List.mem_sortedPairs_iff, mem_items_iff]
  rw [lookup_ofPairs ((Relator.rightUnique_congr item).mpr (rightUnique_lookup m)), item]

end Checked

end AList
