import Mathlib.Algebra.GroupWithZero.Nat
import Mathlib.Data.List.Induction
import Mathlib.Tactic.Common

/-!
# Runs of an answering machine

A machine answers each input and moves on.  `trace` pairs every input of a run
with its answer, `final` is the state the run ends in, and `final_invariant`
is the one induction over runs: what every step keeps, every run keeps.
`total_le` bounds a sum over a run by a potential that pays for every step.
-/

namespace Mealy

variable {σ α β : Type} (step : σ → α → β × σ)

/-- Every input of the run with its answer, in order. -/
def trace : σ → List α → List (α × β)
  | _, [] => []
  | s, a :: rest => (a, (step s a).1) :: trace (step s a).2 rest

/-- The state a run ends in. -/
def final : σ → List α → σ
  | s, [] => s
  | s, a :: rest => final (step s a).2 rest

@[simp] theorem trace_nil (s : σ) : trace step s [] = [] := rfl

@[simp] theorem final_nil (s : σ) : final step s [] = s := rfl

@[simp] theorem trace_cons (s : σ) (a : α) (rest : List α) :
    trace step s (a :: rest) = (a, (step s a).1) :: trace step (step s a).2 rest := rfl

@[simp] theorem final_cons (s : σ) (a : α) (rest : List α) :
    final step s (a :: rest) = final step (step s a).2 rest := rfl

theorem final_append (s : σ) (front back : List α) :
    final step s (front ++ back) = final step (final step s front) back := by
  induction front generalizing s with
  | nil => rfl
  | cons a front ih => exact ih (step s a).2

theorem trace_append (s : σ) (front back : List α) :
    trace step s (front ++ back) = trace step s front ++ trace step (final step s front) back := by
  induction front generalizing s with
  | nil => rfl
  | cons a front ih => exact congrArg _ (ih (step s a).2)

variable {step}

/-- An answer of the trace is the one the machine gave after the inputs
before. -/
theorem exists_of_mem_trace {s : σ} {inputs : List α} {a : α} {b : β}
    (member : (a, b) ∈ trace step s inputs) :
    ∃ front back, inputs = front ++ a :: back ∧ (step (final step s front) a).1 = b := by
  induction inputs generalizing s with
  | nil => cases member
  | cons first rest ih =>
      rcases List.mem_cons.mp member with same | later
      · cases same
        exact ⟨[], rest, rfl, rfl⟩
      · obtain ⟨front, back, rfl, answer⟩ := ih later
        exact ⟨first :: front, back, rfl, answer⟩

/-- What every step of a run keeps, the run keeps.  The condition may speak of
the inputs before the step. -/
theorem final_invariant {s : σ} {inputs : List α} (inv : List α → σ → Prop) (init : inv [] s)
    (keep : ∀ front a back, inputs = front ++ a :: back → inv front (final step s front) →
      inv (front ++ [a]) (step (final step s front) a).2) :
    inv inputs (final step s inputs) := by
  induction inputs using List.reverseRecOn with
  | nil => exact init
  | append_singleton inputs a ih =>
      have before : inv inputs (final step s inputs) := ih fun front b back split =>
        keep front b (back ++ [a]) (by rw [split, List.append_assoc, List.cons_append])
      rw [final_append]
      exact keep inputs a [] rfl before

/-! ## Conditions on every step -/

variable (step) in
/-- Every step of the run satisfies `p` in the state before it. -/
def AllSteps (p : σ → α → Prop) : σ → List α → Prop
  | _, [] => True
  | s, a :: rest => p s a ∧ AllSteps p (step s a).2 rest

instance AllSteps.decidable {p : σ → α → Prop} [∀ s a, Decidable (p s a)] :
    ∀ (s : σ) (inputs : List α), Decidable (AllSteps step p s inputs)
  | _, [] => .isTrue trivial
  | s, a :: rest =>
      have := AllSteps.decidable (p := p) (step s a).2 rest
      inferInstanceAs (Decidable (p s a ∧ AllSteps step p (step s a).2 rest))

theorem AllSteps.of_append {p : σ → α → Prop} {s : σ} {front back : List α} {a : α}
    (all : AllSteps step p s (front ++ a :: back)) : p (final step s front) a := by
  induction front generalizing s with
  | nil => exact all.1
  | cons first front ih => exact ih all.2

theorem AllSteps.front {p : σ → α → Prop} {s : σ} {front back : List α}
    (all : AllSteps step p s (front ++ back)) : AllSteps step p s front := by
  induction front generalizing s with
  | nil => trivial
  | cons first front ih => exact ⟨all.1, ih all.2⟩

/-- Where every step that satisfies `p` keeps an invariant, and the invariant
makes `p` imply `q`, a run that satisfies `p` satisfies `q`. -/
theorem AllSteps.imp {p q : σ → α → Prop} {inv : σ → Prop} {s : σ} {inputs : List α}
    (all : AllSteps step p s inputs) (init : inv s)
    (keep : ∀ s a, inv s → p s a → q s a ∧ inv (step s a).2) : AllSteps step q s inputs := by
  induction inputs generalizing s with
  | nil => trivial
  | cons a rest ih =>
      obtain ⟨holds, next⟩ := keep s a init all.1
      exact ⟨holds, ih all.2 next⟩

/-- An invariant holds before every step. -/
theorem AllSteps.of_invariant {inv : σ → Prop} {s : σ} (init : inv s)
    (keep : ∀ s a, inv s → inv (step s a).2) (inputs : List α) :
    AllSteps step (fun s _ => inv s) s inputs := by
  induction inputs generalizing s with
  | nil => trivial
  | cons a rest ih => exact ⟨init, ih (keep s a init)⟩

/-! ## Sums over a run -/

variable (step) in
/-- The sum of a quantity over the steps of a run. -/
def total (f : σ → α → Nat) : σ → List α → Nat
  | _, [] => 0
  | s, a :: rest => f s a + total f (step s a).2 rest

theorem total_const (f : α → Nat) (s : σ) (inputs : List α) :
    total step (fun _ a => f a) s inputs = (inputs.map f).sum := by
  induction inputs generalizing s with
  | nil => rfl
  | cons a rest ih => rw [total, ih, List.map_cons, List.sum_cons]

/-- Where every step pays its cost from a potential, from what it earns and from
what it delivers, so does the run. -/
theorem total_le {p : σ → α → Prop} {cost earned : σ → α → Nat} (potential delivered : σ → Nat)
    (pays : ∀ s a, p s a → cost s a + potential (step s a).2 + delivered s ≤
      potential s + earned s a + delivered (step s a).2)
    {s : σ} {inputs : List α} (all : AllSteps step p s inputs) :
    total step cost s inputs + potential (final step s inputs) + delivered s ≤
      potential s + total step earned s inputs + delivered (final step s inputs) := by
  induction inputs generalizing s with
  | nil => simp only [total, final_nil, Nat.zero_add, Nat.add_zero, Nat.le_refl]
  | cons a rest ih =>
      have first := pays s a all.1
      have later := ih all.2
      simp only [total, final_cons]
      omega

end Mealy
