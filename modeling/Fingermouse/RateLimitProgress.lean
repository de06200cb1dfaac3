import Fingermouse.RateLimitTasks
import Mathlib.Algebra.BigOperators.Ring.List

/-!
# Progress of concurrent checks

The loop of `enforce_capacity` has no bound of its own: a task that picked a
candidate may find it gone, removed by another, and look again.  What bounds it
is a potential, four map calls for each entry the task has not seen removed and
those of one last turn; only an entry update of a check adds to it, and each
check makes one.

* `toDo_step`: what a step takes from the potential of a task in flight.
* `waiting_step`: the updates still to come.
* `drains`: without new checks, every schedule that is fair for long enough
  ends all those in flight.
-/

namespace Fingermouse

open Chrono

namespace RateLimiter

/-! ## What is left to do -/

/-- The map calls up to the end of the loop, its turns apart. -/
def Phase.calls : Phase → Nat
  | .readClock => 7
  | .retain _ => 6
  | .update _ => 5
  | .enforce _ .firstLen => 4
  | .enforce _ .loopLen => 3
  | .enforce _ .scanOthers => 2
  | .enforce _ .scanAll => 1
  | .enforce _ (.remove _) => 4

theorem Phase.calls_pos (phase : Phase) : 0 < phase.calls := by
  cases phase with
  | enforce outcome stage => cases stage <;> exact Nat.succ_pos _
  | _ => exact Nat.succ_pos _

theorem Phase.calls_le (phase : Phase) : phase.calls ≤ 7 := by
  cases phase with
  | enforce outcome stage => cases stage <;> simp [Phase.calls]
  | _ => simp [Phase.calls]

/-- The entries a task has not seen removed: a candidate counts as removed, by
this task or by another. -/
def Phase.leaves (entries : Entries) : Phase → Entries
  | .enforce _ (.remove key) => entries.erase key
  | _ => entries

/-- The check has yet to update its entry. -/
def Phase.waits : Phase → Bool
  | .enforce .. => false
  | _ => true

/-- The entry updates that a step reports. -/
def Event.updates : Event → Nat
  | .updated .. => 1
  | _ => 0

/-- The step is one of the task. -/
def Action.turns (id : Nat) : Action → Nat
  | .start .. => 0
  | .turn other .. => if other = id then 1 else 0

def Action.starts : Action → Nat
  | .start .. => 1
  | .turn .. => 0

namespace System

/-- The turns a task can still take, if no entry is updated meanwhile. -/
def toDo (id : Nat) (s : System) : Nat :=
  match s.tasks.lookup id with
  | none => 0
  | some task => 4 * (task.phase.leaves s.limiter.entries).len + task.phase.calls

/-- The checks that have yet to update their entry. -/
def waiting (s : System) : AList fun _ : Nat => Task :=
  s.tasks.retain fun _ task => task.phase.waits

theorem toDo_of_lookup {s : System} {id : Nat} {ip : IpAddr} {phase : Phase}
    (found : s.tasks.lookup id = some ⟨ip, phase⟩) :
    s.toDo id = 4 * (phase.leaves s.limiter.entries).len + phase.calls := by
  simp only [toDo, found]

theorem toDo_of_none {s : System} {id : Nat} (ended : s.tasks.lookup id = none) :
    s.toDo id = 0 := by
  simp only [toDo, ended]

theorem mem_leaves {phase : Phase} {entries : Entries} {key : IpAddr} :
    key ∈ phase.leaves entries ↔
      (∀ outcome, phase ≠ .enforce outcome (.remove key)) ∧ key ∈ entries := by
  cases phase with
  | enforce outcome stage =>
      cases stage with
      | remove other => simp [Phase.leaves, AList.mem_erase, eq_comm]
      | _ => simp [Phase.leaves]
  | _ => simp [Phase.leaves]

theorem toDo_le (s : System) (id : Nat) : s.toDo id ≤ 4 * s.limiter.entries.len + 7 := by
  unfold toDo
  split
  · exact Nat.zero_le _
  · rename_i task _
    have leaves : (task.phase.leaves s.limiter.entries).len ≤ s.limiter.entries.len :=
      AList.len_le_of_keys fun _ member => (mem_leaves.mp member).2
    have calls := task.phase.calls_le
    omega

/-! ## Turns -/

section Turns

variable {s : System} {ip : IpAddr} {phase : Phase} {event : Event} {next : Option Phase}
  {left : Entries}

/-- A step adds the key of the updated entry, or none. -/
theorem Moves.mem (moves : s.Moves ip phase event next left) {key : IpAddr} (member : key ∈ left) :
    key ∈ s.limiter.entries ∨ key = ip ∧ event.updates = 1 := by
  cases moves with
  | prune prunes =>
      obtain ⟨_, -, rfl⟩ := pruneStale_eq_some_iff.mp prunes
      exact .inl (AList.mem_of_mem_retain member)
  | lose lost =>
      rcases (AList.mem_insert _).mp member with rfl | old
      · exact .inr ⟨rfl, rfl⟩
      · exact .inl old
  | count counted =>
      rcases (AList.mem_insert _).mp member with rfl | old
      · exact .inr ⟨rfl, rfl⟩
      · exact .inl old
  | evict => exact .inl (AList.mem_erase.mp member).2
  | _ => exact .inl member

/-- What any task has not seen removed grows by the updated entry alone. -/
theorem Moves.leaves (moves : s.Moves ip phase event next left) (other : Phase) :
    (other.leaves left).len ≤ (other.leaves s.limiter.entries).len + event.updates := by
  have keys : ∀ key ∈ other.leaves left, key ∈ other.leaves s.limiter.entries ∨
      key = ip ∧ event.updates = 1 := by
    intro key member
    rw [mem_leaves] at member ⊢
    exact (moves.mem member.2).imp_left fun old => ⟨member.1, old⟩
  by_cases counted : event.updates = 1
  · rw [counted]
    exact AList.len_le_succ_of_keys ip fun key member => (keys key member).imp_right And.left
  · refine (AList.len_le_of_keys fun key member => ?_).trans (Nat.le_add_right _ _)
    exact (keys key member).resolve_right fun new => counted new.2

/-- A scan picks an entry of the map. -/
theorem mem_of_advance {id : Nat} {reading : DateTime} {order : IterOrder} {outcome : Outcome}
    {key : IpAddr}
    (picked : (s.advance id ip reading order phase).2.tasks.lookup id =
      some ⟨ip, .enforce outcome (.remove key)⟩) : key ∈ s.limiter.entries := by
  have chosen : ∀ {outcome' : Outcome} {other : IpAddr}, other ∈ s.limiter.entries →
      (s.choose id ip outcome' other).2.tasks.lookup id =
        some ⟨ip, .enforce outcome (.remove key)⟩ → key ∈ s.limiter.entries := by
    intro outcome' other member
    unfold choose
    split_ifs
    · intro ended
      rw [(resumes_exit rfl id).1] at ended
      cases ended
    · intro goesOn
      rw [(resumes_goto rfl id ip _).1] at goesOn
      cases goesOn
      exact member
  obtain ⟨next, moves, resumes, -⟩ := advance_moves s id ip reading order phase
  obtain ⟨phase', rfl, same⟩ := Option.map_eq_some_iff.mp (resumes.1.symm.trans picked)
  cases same
  generalize event : (s.advance id ip reading order phase).1 = e at moves
  generalize (s.advance id ip reading order phase).2.limiter.entries = left at moves
  cases moves with
  | pick _ stage =>
      rcases stage with rfl | rfl
      · simp only [advance] at picked
        split at picked
        · rename_i selected
          exact chosen (mem_of_oldestKeyExcluding selected) picked
        · rw [(resumes_goto rfl id ip _).1] at picked
          cases picked
      · simp only [advance] at picked
        split at picked
        · rename_i selected
          exact chosen (mem_of_oldestKeyExcluding selected) picked
        · rw [(resumes_exit rfl id).1] at picked
          cases picked

/-- A turn of a task comes out of its own potential, but for an update. -/
theorem toDo_advance {id : Nat} {reading : DateTime} {order : IterOrder}
    (found : s.tasks.lookup id = some ⟨ip, phase⟩) :
    1 + (s.advance id ip reading order phase).2.toDo id ≤
      s.toDo id + 4 * (s.advance id ip reading order phase).1.updates := by
  rw [toDo_of_lookup found]
  obtain ⟨next, moves, resumes, -⟩ := advance_moves s id ip reading order phase
  have grows := moves.leaves .readClock
  cases next with
  | none =>
      have paid := phase.calls_pos
      rw [toDo_of_none resumes.1]
      omega
  | some phase' =>
      have goesOn := resumes.1
      rw [toDo_of_lookup goesOn]
      generalize (s.advance id ip reading order phase).1 = event at moves grows ⊢
      generalize entries : (s.advance id ip reading order phase).2.limiter.entries = left at *
      cases moves with
      | pick key stage =>
          have member := mem_of_advance goesOn
          have shrinks := AList.len_erase_of_mem member
          have some := AList.len_pos_of_mem member
          rcases stage with rfl | rfl
          all_goals
            simp only [Phase.leaves, Phase.calls] at *
            omega
      | _ =>
          simp only [Phase.leaves, Phase.calls, Event.updates] at *
          omega

/-- A turn of another task adds to the potential by an update alone. -/
theorem toDo_turn_ne (s : System) {id other : Nat} (ne : id ≠ other) (reading : DateTime)
    (order : IterOrder) :
    (s.step (.turn other reading order)).2.toDo id ≤
      s.toDo id + 4 * (s.step (.turn other reading order)).1.updates := by
  simp only [step]
  split
  · exact Nat.le_add_right _ _
  · rename_i acting acts
    obtain ⟨next, moves, resumes, -⟩ :=
      advance_moves s other acting.ip reading order acting.phase
    have kept := resumes.2 id ne
    cases found : s.tasks.lookup id with
    | none =>
        rw [toDo_of_none (kept.trans found)]
        exact Nat.zero_le _
    | some task =>
        have grows := moves.leaves task.phase
        rw [toDo_of_lookup found, toDo_of_lookup (kept.trans found)]
        omega

theorem len_turn (s : System) (id : Nat) (reading : DateTime) (order : IterOrder) :
    (s.step (.turn id reading order)).2.limiter.entries.len ≤
      s.limiter.entries.len + (s.step (.turn id reading order)).1.updates := by
  simp only [step]
  split
  · exact Nat.le_add_right _ _
  · rename_i task _
    obtain ⟨next, moves, -⟩ := advance_moves s id task.ip reading order task.phase
    exact moves.leaves .readClock

@[simp] theorem start_limiter (s : System) (id : Nat) (ip : IpAddr) :
    (s.step (.start id ip)).2.limiter = s.limiter := by
  simp only [step]
  split_ifs <;> rfl

theorem toDo_start_ne (s : System) {id other : Nat} (ne : id ≠ other) (ip : IpAddr) :
    (s.step (.start other ip)).2.toDo id = s.toDo id := by
  simp only [step]
  split_ifs
  · rfl
  · simp only [toDo, (resumes_goto (s := s) rfl other ip .readClock).2 id ne, goto_limiter]

theorem mem_start {id other : Nat} {ip : IpAddr} :
    id ∈ (s.step (.start other ip)).2.tasks ↔ id = other ∨ id ∈ s.tasks := by
  simp only [step]
  split_ifs with taken
  · refine ⟨.inr, ?_⟩
    rintro (rfl | old)
    · exact taken
    · exact old
  · exact AList.mem_insert _

/-- While a task is in flight, its turns come out of its potential, which grows
by the updates of entries alone. -/
theorem toDo_step {id : Nat} (inFlight : id ∈ s.tasks) (action : Action) :
    action.turns id + (s.step action).2.toDo id ≤
      s.toDo id + 4 * (s.step action).1.updates := by
  cases action with
  | start other ip =>
      by_cases own : id = other
      · subst own
        simp only [step, if_pos inFlight, Action.turns]
        omega
      · rw [toDo_start_ne s own, Action.turns]
        omega
  | turn other reading order =>
      by_cases own : id = other
      · subst own
        obtain ⟨⟨ip, phase⟩, found⟩ :=
          Option.isSome_iff_exists.mp (AList.lookup_isSome.mpr inFlight)
        simp only [step, found, Action.turns, if_true]
        exact toDo_advance found
      · have grows := toDo_turn_ne s own reading order
        rw [Action.turns, if_neg (Ne.symm own)]
        omega

end Turns

/-! ## Updates to come -/

theorem mem_waiting {s : System} {id : Nat} :
    id ∈ s.waiting ↔ ∃ task ∈ s.tasks.lookup id, task.phase.waits = true := AList.mem_retain

/-- A step updates an entry and waits no more, or does neither. -/
theorem Moves.waits {s : System} {ip : IpAddr} {phase : Phase} {event : Event}
    {next : Option Phase} {left : Entries} (moves : s.Moves ip phase event next left) :
    (event.updates = 1 ∧ phase.waits = true ∧ ∀ phase' ∈ next, phase'.waits = false) ∨
      (event.updates = 0 ∧ ∀ phase' ∈ next, phase'.waits = true → phase.waits = true) := by
  cases moves with
  | lose lost => exact .inl ⟨rfl, rfl, by rintro _ ⟨⟩⟩
  | count counted => exact .inl ⟨rfl, rfl, by rintro _ ⟨⟩; rfl⟩
  | read now => exact .inr ⟨rfl, fun _ _ _ => rfl⟩
  | prune prunes => exact .inr ⟨rfl, fun _ _ _ => rfl⟩
  | _ => exact .inr ⟨rfl, by rintro _ ⟨⟩ ⟨⟩⟩

/-- What the turn of a task updates comes out of the checks that wait to. -/
theorem waiting_advance {s : System} {id : Nat} {ip : IpAddr} {phase : Phase}
    (found : s.tasks.lookup id = some ⟨ip, phase⟩) (reading : DateTime) (order : IterOrder) :
    (s.advance id ip reading order phase).1.updates +
      (s.advance id ip reading order phase).2.waiting.len ≤ s.waiting.len := by
  obtain ⟨next, moves, resumes, -⟩ := advance_moves s id ip reading order phase
  have others : ∀ other ≠ id, other ∈ (s.advance id ip reading order phase).2.waiting →
      other ∈ s.waiting := by
    intro other ne member
    rw [mem_waiting, resumes.2 other ne] at member
    exact mem_waiting.mpr member
  have own : id ∈ (s.advance id ip reading order phase).2.waiting →
      ∃ phase' ∈ next, phase'.waits = true := by
    intro member
    obtain ⟨task, present, waits⟩ := mem_waiting.mp member
    rw [resumes.1] at present
    obtain ⟨phase', goesOn, rfl⟩ := Option.map_eq_some_iff.mp present
    exact ⟨phase', goesOn, waits⟩
  rcases moves.waits with ⟨updates, waits, settled⟩ | ⟨silent, goesOn⟩
  · have member : id ∈ s.waiting := mem_waiting.mpr ⟨_, found, waits⟩
    have keys : (s.advance id ip reading order phase).2.waiting.len ≤ (s.waiting.erase id).len := by
      refine AList.len_le_of_keys fun other waiting => ?_
      have ne : other ≠ id := by
        rintro rfl
        obtain ⟨phase', goesOn, waits'⟩ := own waiting
        rw [settled phase' goesOn] at waits'
        cases waits'
      exact AList.mem_erase.mpr ⟨ne, others other ne waiting⟩
    have fewer := AList.len_erase_of_mem member
    have some := AList.len_pos_of_mem member
    omega
  · rw [silent, Nat.zero_add]
    refine AList.len_le_of_keys fun other waiting => ?_
    by_cases same : other = id
    · subst same
      obtain ⟨phase', present, waits⟩ := own waiting
      exact mem_waiting.mpr ⟨_, found, goesOn phase' present waits⟩
    · exact others other same waiting

/-- Each check updates its entry once, and only a new check adds one to come. -/
theorem waiting_step (s : System) (action : Action) :
    (s.step action).1.updates + (s.step action).2.waiting.len ≤
      s.waiting.len + action.starts := by
  cases action with
  | start id ip =>
      simp only [step, Action.starts]
      split_ifs with taken
      · exact (Nat.zero_add _).le.trans (Nat.le_add_right _ _)
      · refine (Nat.zero_add _).le.trans (AList.len_le_succ_of_keys id fun other member => ?_)
        rw [mem_waiting] at member ⊢
        by_cases own : other = id
        · exact .inr own
        · rw [(resumes_goto (s := s) rfl id ip .readClock).2 other own] at member
          exact .inl member
  | turn id reading order =>
      simp only [step, Action.starts]
      split
      · exact (Nat.zero_add _).le
      · rename_i task found
        exact waiting_advance found reading order

/-! ## Runs -/

/-- The turns of a task in flight come out of the entries, the checks in flight
and those that are new: others keep it from ending by their entry updates alone,
of which every check makes one. -/
theorem turns_le {s : System} {id : Nat} {schedule : List Action}
    (inFlight : Mealy.AllSteps step (fun s _ => id ∈ s.tasks) s schedule) :
    (schedule.map (Action.turns id)).sum ≤
      4 * (s.limiter.entries.len + s.tasks.len + (schedule.map Action.starts).sum) + 7 := by
  have pays : ∀ (s : System) (action : Action), id ∈ s.tasks →
      action.turns id + ((s.step action).2.toDo id + 4 * (s.step action).2.waiting.len) + 0 ≤
        s.toDo id + 4 * s.waiting.len + 4 * action.starts + 0 := by
    intro s action present
    have own := toDo_step present action
    have all := waiting_step s action
    omega
  have run := Mealy.total_le (fun s : System => s.toDo id + 4 * s.waiting.len) (fun _ => 0) pays
    inFlight
  rw [Mealy.total_const, Mealy.total_const, List.sum_map_mul_left] at run
  have start := s.toDo_le id
  have waiting : s.waiting.len ≤ s.tasks.len := AList.len_retain_le _ _
  omega

/-- Without a new check, what is in flight after a step was so before. -/
theorem mem_of_mem_step {s : System} {id : Nat} {action : Action} (quiet : action.starts = 0)
    (member : id ∈ (s.step action).2.tasks) : id ∈ s.tasks := by
  cases action with
  | start => cases quiet
  | turn other reading order =>
      simp only [step] at member
      split at member
      · exact member
      · rename_i task found
        obtain ⟨next, -, resumes, -⟩ := advance_moves s other task.ip reading order task.phase
        rw [← AList.lookup_isSome] at member ⊢
        by_cases own : id = other
        · rw [own, found]
          rfl
        · rwa [resumes.2 id own] at member

/-- Without a new check, what is in flight at the end has been so throughout. -/
theorem allSteps_of_mem_final {s : System} {id : Nat} {schedule : List Action}
    (quiet : ∀ action ∈ schedule, action.starts = 0)
    (member : id ∈ (Mealy.final step s schedule).tasks) :
    id ∈ s.tasks ∧ Mealy.AllSteps step (fun s _ => id ∈ s.tasks) s schedule := by
  induction schedule generalizing s with
  | nil => exact ⟨member, trivial⟩
  | cons action schedule ih =>
      obtain ⟨first, later⟩ := List.forall_mem_cons.mp quiet
      obtain ⟨present, throughout⟩ := ih later member
      have before := mem_of_mem_step first present
      exact ⟨before, before, throughout⟩

/-- Where no check is new, a schedule that gives every one in flight enough turns
ends them all, whatever their interleaving. -/
theorem drains (s : System) (schedule : List Action)
    (quiet : ∀ action ∈ schedule, action.starts = 0)
    (fair : ∀ id ∈ s.tasks, 4 * (s.limiter.entries.len + s.tasks.len) + 7 <
      (schedule.map (Action.turns id)).sum) :
    (Mealy.final step s schedule).Quiescent := by
  unfold Quiescent
  rw [AList.len_eq_length_keys, List.length_eq_zero_iff, List.eq_nil_iff_forall_not_mem]
  intro id inKeys
  obtain ⟨present, throughout⟩ := allSteps_of_mem_final quiet (AList.mem_keys.mpr inKeys)
  have turns := turns_le throughout
  have none : (schedule.map Action.starts).sum = 0 :=
    List.sum_eq_zero_iff_forall_eq_nat.mpr (List.forall_mem_map.mpr quiet)
  have enough := fair id present
  omega

/-- Two checks in turns over a capacity of one: each may find its candidate gone,
and both end. -/
theorem drains_of_two :
    let turn (id : Nat) : Action := .turn id (.fromSecs 0) .stored
    (Mealy.final step (after ⟨1, .fromSecs 60, 1⟩ [.start 0 (.v4 1), .start 1 (.v4 2)])
      (List.replicate 16 [turn 0, turn 1]).flatten).Quiescent := by
  refine drains _ _ (by decide) fun id member => ?_
  have cases' : id ∈ [1, 0] := AList.mem_keys.mp member
  revert id
  decide

end System

end RateLimiter

end Fingermouse
