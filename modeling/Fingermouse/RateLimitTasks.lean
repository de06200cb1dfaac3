import Fingermouse.Mealy
import Fingermouse.RateLimit

/-!
# Tasks of the rate limiter

The server runs one task per connection against one shared limiter.  A task
makes a check in several steps, each one atomic call of the concurrent map:
read the clock, retain, update the entry, then the eviction loop's length
test, scan and removal.  A schedule interleaves the steps of any number of
tasks, with any clock readings.

* `step_cases` and `Moves`: what one step of a schedule can do.
* `solo_check`: the steps of one task, with none of another's in between, are
  the sequential check.
-/

namespace Fingermouse

open Chrono

namespace RateLimiter

/-! ## Tasks -/

/-- Where a task stands in `enforce_capacity`. -/
inductive Enforcing
  | firstLen
  | loopLen
  | scanOthers
  | scanAll
  | remove (key : IpAddr)
deriving DecidableEq

/-- The map call a task makes next. -/
inductive Phase
  | readClock
  | retain (now : DateTime)
  | update (now : DateTime)
  | enforce (outcome : Outcome) (stage : Enforcing)
deriving DecidableEq

/-- An in-flight check. -/
structure Task where
  ip : IpAddr
  phase : Phase
deriving DecidableEq

structure System where
  limiter : RateLimiter
  tasks : AList fun _ : Nat => Task

/-- A scheduling decision: a new check, or a task's next step with the clock
reading and the pass order it meets there. -/
inductive Action
  | start (id : Nat) (ip : IpAddr)
  | turn (id : Nat) (reading : DateTime) (order : IterOrder)

/-- The task a decision is about. -/
def Action.task : Action → Nat
  | .start id _ => id
  | .turn id _ _ => id

/-- What a step does that the accounting counts. -/
inductive Event
  | silent
  /-- The entry update of a check: whether it created or reset the entry, and
  the outcome unless it panicked. -/
  | updated (ip : IpAddr) (fresh : Bool) (outcome : Option Outcome)
  /-- A check ended; without an outcome it panicked. -/
  | finished (ip : IpAddr) (outcome : Option Outcome)
deriving DecidableEq

namespace System

def init (settings : RateLimitSettings) : System := ⟨withClock settings, ∅⟩

/-- The task moves on. -/
def goto (s : System) (id : Nat) (ip : IpAddr) (phase : Phase) : System :=
  { s with tasks := s.tasks.insert id ⟨ip, phase⟩ }

/-- The task ends. -/
def exit (s : System) (id : Nat) : System := { s with tasks := s.tasks.erase id }

def setEntries (s : System) (entries : Entries) : System :=
  { s with limiter := { s.limiter with entries } }

/-- The entry update creates or resets the entry. -/
def fresh (s : System) (ip : IpAddr) (now : DateTime) : Bool :=
  (s.limiter.entries.lookup ip).all fun entry =>
    decide (s.limiter.window ≤ now.since entry.windowStart)

/-- After a scan: break at the task's own key, else remove the candidate. -/
def choose (s : System) (id : Nat) (ip : IpAddr) (outcome : Outcome) (key : IpAddr) :
    Event × System :=
  if key = ip then (.finished ip (some outcome), s.exit id)
  else (.silent, s.goto id ip (.enforce outcome (.remove key)))

/-- One step of a task. -/
def advance (s : System) (id : Nat) (ip : IpAddr) (reading : DateTime) (order : IterOrder) :
    Phase → Event × System
  | .readClock => (.silent, s.goto id ip (.retain reading))
  | .retain now =>
      match s.limiter.pruneStale now with
      | none => (.finished ip none, s.exit id)
      | some pruned => (.silent, (s.setEntries pruned.entries).goto id ip (.update now))
  | .update now =>
      let counted := s.limiter.account ip now
      let next := s.setEntries counted.2.entries
      (.updated ip (s.fresh ip now) counted.1,
        match counted.1 with
        | none => next.exit id
        | some outcome => next.goto id ip (.enforce outcome .firstLen))
  | .enforce outcome .firstLen =>
      if s.limiter.entries.len ≤ s.limiter.settings.maxEntries then
        (.finished ip (some outcome), s.exit id)
      else (.silent, s.goto id ip (.enforce outcome .loopLen))
  | .enforce outcome .loopLen =>
      if s.limiter.settings.maxEntries < s.limiter.entries.len then
        (.silent, s.goto id ip (.enforce outcome .scanOthers))
      else (.finished ip (some outcome), s.exit id)
  | .enforce outcome .scanOthers =>
      match oldestKeyExcluding s.limiter.entries order (some ip) with
      | some key => s.choose id ip outcome key
      | none => (.silent, s.goto id ip (.enforce outcome .scanAll))
  | .enforce outcome .scanAll =>
      match oldestKeyExcluding s.limiter.entries order none with
      | some key => s.choose id ip outcome key
      | none => (.finished ip (some outcome), s.exit id)
  | .enforce outcome (.remove key) =>
      (.silent,
        (s.setEntries (s.limiter.entries.erase key)).goto id ip (.enforce outcome .loopLen))

/-- One step of a schedule; a decision that fits no task changes nothing. -/
def step (s : System) : Action → Event × System
  | .start id ip => if id ∈ s.tasks then (.silent, s) else (.silent, s.goto id ip .readClock)
  | .turn id reading order =>
      match s.tasks.lookup id with
      | none => (.silent, s)
      | some task => s.advance id task.ip reading order task.phase

/-- The system a schedule leads to. -/
abbrev after (settings : RateLimitSettings) (schedule : List Action) : System :=
  Mealy.final step (init settings) schedule

/-- What happened along a schedule, in order. -/
def history (settings : RateLimitSettings) (schedule : List Action) : List Event :=
  (Mealy.trace step (init settings) schedule).map Prod.snd

/-- No check is in flight. -/
def Quiescent (s : System) : Prop := s.tasks.len = 0

instance (s : System) : Decidable s.Quiescent := inferInstanceAs (Decidable (s.tasks.len = 0))

/-! ## What a step can do -/

@[simp] theorem goto_limiter (s : System) (id : Nat) (ip : IpAddr) (phase : Phase) :
    (s.goto id ip phase).limiter = s.limiter := rfl

@[simp] theorem setEntries_entries (s : System) (entries : Entries) :
    (s.setEntries entries).limiter.entries = entries := rfl

/-- The tasks other than one are as they were, and that one is as given. -/
def Resumes (s next : System) (id : Nat) (task : Option Task) : Prop :=
  next.tasks.lookup id = task ∧ ∀ other ≠ id, next.tasks.lookup other = s.tasks.lookup other

theorem resumes_goto {s next : System} (same : next.tasks = s.tasks) (id : Nat) (ip : IpAddr)
    (phase : Phase) : Resumes s (next.goto id ip phase) id (some ⟨ip, phase⟩) := by
  refine ⟨AList.lookup_insert _, fun other ne => ?_⟩
  rw [goto, AList.lookup_insert_ne ne, same]

theorem resumes_exit {s next : System} (same : next.tasks = s.tasks) (id : Nat) :
    Resumes s (next.exit id) id none := by
  refine ⟨AList.lookup_erase id _, fun other ne => ?_⟩
  rw [exit, AList.lookup_erase_ne ne, same]

/-- What one step of a task can do to the entries, by the phase it is in: the
event, the phase it goes to (none where it ends) and the entries it leaves. -/
inductive Moves (s : System) (ip : IpAddr) : Phase → Event → Option Phase → Entries → Prop
  | read (now : DateTime) :
    Moves s ip .readClock .silent (some (.retain now)) s.limiter.entries
  | panic {now : DateTime} :
    Moves s ip (.retain now) (.finished ip none) none s.limiter.entries
  | prune {now : DateTime} {pruned : RateLimiter} :
    s.limiter.pruneStale now = some pruned →
    Moves s ip (.retain now) .silent (some (.update now)) pruned.entries
  | lose {now : DateTime} :
    (s.limiter.account ip now).1 = none →
    Moves s ip (.update now) (.updated ip (s.fresh ip now) none) none
      (s.limiter.account ip now).2.entries
  | count {now : DateTime} {outcome : Outcome} :
    (s.limiter.account ip now).1 = some outcome →
    Moves s ip (.update now) (.updated ip (s.fresh ip now) (some outcome))
      (some (.enforce outcome .firstLen)) (s.limiter.account ip now).2.entries
  | fit {outcome : Outcome} {stage : Enforcing} :
    s.limiter.entries.len ≤ s.limiter.settings.maxEntries →
    Moves s ip (.enforce outcome stage) (.finished ip (some outcome)) none s.limiter.entries
  | enter {outcome : Outcome} :
    Moves s ip (.enforce outcome .firstLen) .silent (some (.enforce outcome .loopLen))
      s.limiter.entries
  | exceeds {outcome : Outcome} :
    s.limiter.settings.maxEntries < s.limiter.entries.len →
    Moves s ip (.enforce outcome .loopLen) .silent (some (.enforce outcome .scanOthers))
      s.limiter.entries
  | alone {outcome : Outcome} :
    s.limiter.entries.len ≤ 1 →
    Moves s ip (.enforce outcome .scanOthers) .silent (some (.enforce outcome .scanAll))
      s.limiter.entries
  | pick {outcome : Outcome} {stage : Enforcing} (key : IpAddr) :
    stage = .scanOthers ∨ stage = .scanAll →
    Moves s ip (.enforce outcome stage) .silent (some (.enforce outcome (.remove key)))
      s.limiter.entries
  | stop {outcome : Outcome} :
    Moves s ip (.enforce outcome .scanAll) (.finished ip (some outcome)) none s.limiter.entries
  | evict {outcome : Outcome} {key : IpAddr} :
    Moves s ip (.enforce outcome (.remove key)) .silent (some (.enforce outcome .loopLen))
      (s.limiter.entries.erase key)

theorem advance_moves (s : System) (id : Nat) (ip : IpAddr) (reading : DateTime)
    (order : IterOrder) (phase : Phase) :
    ∃ next, Moves s ip phase (s.advance id ip reading order phase).1 next
        (s.advance id ip reading order phase).2.limiter.entries ∧
      Resumes s (s.advance id ip reading order phase).2 id (next.map (Task.mk ip)) ∧
      (s.advance id ip reading order phase).2.limiter.settings = s.limiter.settings := by
  cases phase with
  | readClock => exact ⟨_, .read reading, resumes_goto rfl .., rfl⟩
  | retain now =>
      simp only [advance]
      split
      · exact ⟨none, .panic, resumes_exit rfl id, rfl⟩
      · rename_i pruned prunes
        have moves : Moves s ip (.retain now) .silent (some (.update now)) pruned.entries :=
          .prune prunes
        exact ⟨_, moves, resumes_goto rfl .., rfl⟩
  | update now =>
      simp only [advance]
      split
      · rename_i lost
        rw [lost]
        exact ⟨none, .lose lost, resumes_exit rfl id, rfl⟩
      · rename_i outcome counted
        rw [counted]
        exact ⟨_, .count counted, resumes_goto rfl .., rfl⟩
  | enforce outcome stage =>
      cases stage with
      | firstLen =>
          simp only [advance]
          split_ifs with fits
          · exact ⟨none, .fit fits, resumes_exit rfl id, rfl⟩
          · exact ⟨_, .enter, resumes_goto rfl .., rfl⟩
      | loopLen =>
          simp only [advance]
          split_ifs with exceeds
          · exact ⟨_, .exceeds exceeds, resumes_goto rfl .., rfl⟩
          · exact ⟨none, .fit (not_lt.mp exceeds), resumes_exit rfl id, rfl⟩
      | scanOthers =>
          simp only [advance]
          split
          · rename_i key selected
            have ne : key ≠ ip := fun same =>
              (exists_of_oldestKeyExcluding selected).1 (congrArg some same.symm)
            simp only [choose, if_neg ne]
            exact ⟨_, .pick key (.inl rfl), resumes_goto rfl .., rfl⟩
          · rename_i nothing
            exact ⟨_, .alone (len_le_one_of_oldestKeyExcluding nothing), resumes_goto rfl .., rfl⟩
      | scanAll =>
          simp only [advance]
          split
          · rename_i key selected
            unfold choose
            split_ifs
            · exact ⟨none, .stop, resumes_exit rfl id, rfl⟩
            · exact ⟨_, .pick key (.inr rfl), resumes_goto rfl .., rfl⟩
          · exact ⟨none, .stop, resumes_exit rfl id, rfl⟩
      | remove key => exact ⟨_, .evict, resumes_goto rfl .., rfl⟩

/-- A step changes nothing, starts a check, or is one step of a task. -/
theorem step_cases (s : System) (action : Action) :
    s.step action = (.silent, s) ∨
      (s.tasks.lookup action.task = none ∧
        ∃ ip, s.step action = (.silent, s.goto action.task ip .readClock)) ∨
      ∃ ip phase next, s.tasks.lookup action.task = some ⟨ip, phase⟩ ∧
        Moves s ip phase (s.step action).1 next (s.step action).2.limiter.entries ∧
        Resumes s (s.step action).2 action.task (next.map (Task.mk ip)) ∧
        (s.step action).2.limiter.settings = s.limiter.settings := by
  cases action with
  | start id ip =>
      simp only [step]
      split_ifs with taken
      · exact .inl rfl
      · exact .inr (.inl ⟨AList.lookup_eq_none.mpr taken, ip, rfl⟩)
  | turn id reading order =>
      simp only [step]
      split
      · exact .inl rfl
      · rename_i task found
        obtain ⟨next, moves⟩ := advance_moves s id task.ip reading order task.phase
        exact .inr (.inr ⟨task.ip, task.phase, next, found, moves⟩)

@[simp] theorem step_settings (s : System) (action : Action) :
    (s.step action).2.limiter.settings = s.limiter.settings := by
  rcases step_cases s action with same | ⟨-, ip, same⟩ | ⟨_, _, _, -, -, -, same⟩
  · rw [same]
  · rw [same]
    rfl
  · exact same

@[simp] theorem after_settings (settings : RateLimitSettings) (schedule : List Action) :
    (after settings schedule).limiter.settings = (withClock settings).settings := by
  refine Mealy.final_invariant
    (fun _ (s : System) => s.limiter.settings = (withClock settings).settings) rfl ?_
  intro front action back _ before
  rw [step_settings, before]

theorem history_append (settings : RateLimitSettings) (front : List Action) (action : Action) :
    history settings (front ++ [action]) =
      history settings front ++ [((after settings front).step action).1] := by
  simp only [history, Mealy.trace_append, List.map_append, Mealy.trace_cons, Mealy.trace_nil,
    List.map_cons, List.map_nil]

/-! ## One task alone -/

@[simp] theorem goto_goto (s : System) (id : Nat) (ip : IpAddr) (phase phase' : Phase) :
    (s.goto id ip phase).goto id ip phase' = s.goto id ip phase' := by
  simp only [goto, AList.insert_insert]

@[simp] theorem setEntries_goto (s : System) (id : Nat) (ip : IpAddr) (phase : Phase)
    (entries : Entries) :
    (s.goto id ip phase).setEntries entries = (s.setEntries entries).goto id ip phase := rfl

theorem exit_goto {s : System} {id : Nat} (absent : id ∉ s.tasks) (ip : IpAddr) (phase : Phase) :
    (s.goto id ip phase).exit id = s := by
  simp only [goto, exit, AList.erase_insert_of_notMem _ absent]

theorem step_turn (s : System) (id : Nat) (ip : IpAddr) (phase : Phase) (reading : DateTime)
    (order : IterOrder) :
    (s.goto id ip phase).step (.turn id reading order) =
      (s.goto id ip phase).advance id ip reading order phase := by
  simp only [step, goto, AList.lookup_insert]

/-- A number of turns of one task lead from one state to another and end the
check with the given outcome. -/
def Completes (id : Nat) (now : DateTime) (order : IterOrder) (ip : IpAddr)
    (outcome : Option Outcome) (s last : System) : Prop :=
  ∃ turns, Mealy.final step s (List.replicate turns (.turn id now order)) = last ∧
    .finished ip outcome ∈
      (Mealy.trace step s (List.replicate turns (.turn id now order))).map Prod.snd

theorem Completes.turn {id : Nat} {now : DateTime} {order : IterOrder} {ip : IpAddr}
    {outcome : Option Outcome} {s next last : System} {event : Event}
    (first : s.step (.turn id now order) = (event, next))
    (rest : Completes id now order ip outcome next last) :
    Completes id now order ip outcome s last := by
  obtain ⟨turns, final, finished⟩ := rest
  refine ⟨turns + 1, ?_, ?_⟩
  · rw [List.replicate_succ, Mealy.final_cons, first, final]
  · rw [List.replicate_succ, Mealy.trace_cons, List.map_cons, first]
    exact List.mem_cons_of_mem _ finished

theorem Completes.last {id : Nat} {now : DateTime} {order : IterOrder} {ip : IpAddr}
    {outcome : Option Outcome} {s last : System}
    (ends : s.step (.turn id now order) = (.finished ip outcome, last)) :
    Completes id now order ip outcome s last := by
  refine ⟨1, ?_, ?_⟩
  · rw [List.replicate_one, Mealy.final_cons, ends, Mealy.final_nil]
  · rw [List.replicate_one, Mealy.trace_cons, ends]
    exact List.mem_cons_self

/-- From its scans on, a task alone goes on to remove the victim, or is done
where there is none. -/
theorem completes_scan {s final : System} {id : Nat} {ip : IpAddr} {now : DateTime}
    {order : IterOrder} {outcome : Outcome} (absent : id ∉ s.tasks)
    (remove : ∀ key ∈ s.limiter.entries, victim ip order s.limiter.entries = some key →
      Completes id now order ip (some outcome) (s.goto id ip (.enforce outcome (.remove key)))
        final)
    (stop : victim ip order s.limiter.entries = none → final = s) :
    Completes id now order ip (some outcome) (s.goto id ip (.enforce outcome .scanOthers))
      final := by
  cases others : oldestKeyExcluding s.limiter.entries order (some ip) with
  | some key =>
      have ne : key ≠ ip := fun same =>
        (exists_of_oldestKeyExcluding others).1 (congrArg some same.symm)
      have scan : (s.goto id ip (.enforce outcome .scanOthers)).step (.turn id now order) =
          (.silent, s.goto id ip (.enforce outcome (.remove key))) := by
        rw [step_turn]
        simp only [advance, goto_limiter, others, choose, if_neg ne, goto_goto]
      exact .turn scan (remove key (mem_of_oldestKeyExcluding others)
        (by simp [victim, others, ne]))
  | none =>
      have scan : (s.goto id ip (.enforce outcome .scanOthers)).step (.turn id now order) =
          (.silent, s.goto id ip (.enforce outcome .scanAll)) := by
        rw [step_turn]
        simp only [advance, goto_limiter, others, goto_goto]
      apply Completes.turn scan
      cases all : oldestKeyExcluding s.limiter.entries order none with
      | none =>
          rw [stop (by simp [victim, others, all])]
          apply Completes.last
          rw [step_turn]
          simp only [advance, goto_limiter, all, exit_goto absent]
      | some key =>
          by_cases same : key = ip
          · rw [stop (by simp [victim, others, all, same])]
            apply Completes.last
            rw [step_turn]
            simp only [advance, goto_limiter, all, choose, if_pos same, exit_goto absent]
          · have pick : (s.goto id ip (.enforce outcome .scanAll)).step (.turn id now order) =
                (.silent, s.goto id ip (.enforce outcome (.remove key))) := by
              rw [step_turn]
              simp only [advance, goto_limiter, all, choose, if_neg same, goto_goto]
            exact .turn pick (remove key (mem_of_oldestKeyExcluding all)
              (by simp [victim, others, all, same]))

/-- The loop of `enforce_capacity`, step by step, is `evictLoop`; the number of
entries is fuel enough for it. -/
theorem completes_evictLoop {s : System} {id : Nat} {ip : IpAddr} {now : DateTime}
    {order : IterOrder} {outcome : Outcome} {turns : Nat} (absent : id ∉ s.tasks)
    (fuel : s.limiter.entries.len ≤ turns) :
    Completes id now order ip (some outcome) (s.goto id ip (.enforce outcome .loopLen))
      (s.setEntries (evictLoop s.limiter.settings.maxEntries ip order turns
        s.limiter.entries)) := by
  induction turns generalizing s with
  | zero =>
      apply Completes.last
      rw [step_turn, advance, goto_limiter, if_neg (by omega), exit_goto absent]
      rfl
  | succ turns ih =>
      by_cases exceeds : s.limiter.settings.maxEntries < s.limiter.entries.len
      · have test : (s.goto id ip (.enforce outcome .loopLen)).step (.turn id now order) =
            (.silent, s.goto id ip (.enforce outcome .scanOthers)) := by
          rw [step_turn, advance, goto_limiter, if_pos exceeds, goto_goto]
        apply Completes.turn test
        rw [evictLoop, if_pos exceeds]
        refine completes_scan absent (fun key member chosen => ?_) fun nothing => ?_
        · have shrinks : (s.setEntries (s.limiter.entries.erase key)).limiter.entries.len ≤
              turns := by
            rw [setEntries_entries, AList.len_erase_of_mem member]
            omega
          have removal : (s.goto id ip (.enforce outcome (.remove key))).step
              (.turn id now order) =
                (.silent, (s.setEntries (s.limiter.entries.erase key)).goto id ip
                  (.enforce outcome .loopLen)) := by
            rw [step_turn]
            simp only [advance, goto_limiter, setEntries_goto, goto_goto]
          rw [chosen]
          exact .turn removal (ih absent shrinks)
        · rw [nothing]
          rfl
      · apply Completes.last
        rw [step_turn, advance, goto_limiter, if_neg exceeds, exit_goto absent, evictLoop,
          if_neg exceeds]
        rfl

/-- From its first length test on, a task alone enforces the capacity. -/
theorem completes_enforceCapacity {s : System} {id : Nat} {ip : IpAddr} {now : DateTime}
    {order : IterOrder} {outcome : Outcome} (absent : id ∉ s.tasks) :
    Completes id now order ip (some outcome) (s.goto id ip (.enforce outcome .firstLen))
      { s with limiter := s.limiter.enforceCapacity ip order } := by
  unfold enforceCapacity
  split_ifs with fits
  · apply Completes.last
    rw [step_turn, advance, goto_limiter, if_pos fits, exit_goto absent]
  · have enter : (s.goto id ip (.enforce outcome .firstLen)).step (.turn id now order) =
        (.silent, s.goto id ip (.enforce outcome .loopLen)) := by
      rw [step_turn, advance, goto_limiter, if_neg fits, goto_goto]
    exact .turn enter (completes_evictLoop absent le_rfl)

/-- A task whose steps no other task's come between makes the sequential check:
the same outcome and the same limiter. -/
theorem solo_check {s : System} {id : Nat} (absent : id ∉ s.tasks) (check : Check) :
    (s.step (.start id check.ip)).2 = s.goto id check.ip .readClock ∧
      Completes id check.now check.order check.ip (s.limiter.checkInner check).1
        (s.goto id check.ip .readClock)
        { s with limiter := (s.limiter.checkInner check).2 } := by
  obtain ⟨ip, now, order⟩ := check
  refine ⟨by simp only [step, if_neg absent], ?_⟩
  have read : (s.goto id ip .readClock).step (.turn id now order) =
      (.silent, s.goto id ip (.retain now)) := by
    rw [step_turn, advance, goto_goto]
  apply Completes.turn read
  cases prunes : s.limiter.pruneStale now with
  | none =>
      rw [checkInner_of_panics (pruneStale_eq_none_iff.mp prunes)]
      apply Completes.last
      rw [step_turn]
      simp only [advance, goto_limiter, prunes, exit_goto absent]
  | some pruned =>
      obtain ⟨outcome, counted, -⟩ := Option.map_eq_some_iff.mp (account_spec prunes ip).1
      have check_eq : s.limiter.checkInner ⟨ip, now, order⟩ =
          (some outcome, (pruned.account ip now).2.enforceCapacity ip order) := by
        have split : pruned.account ip now = (some outcome, (pruned.account ip now).2) :=
          Prod.ext counted rfl
        simp only [checkInner, prunes]
        rw [split]
      have retain : (s.goto id ip (.retain now)).step (.turn id now order) =
          (.silent, (s.setEntries pruned.entries).goto id ip (.update now)) := by
        rw [step_turn]
        simp only [advance, goto_limiter, prunes, setEntries_goto, goto_goto]
      have same : (s.setEntries pruned.entries).limiter = pruned := by
        obtain ⟨_, -, rfl⟩ := pruneStale_eq_some_iff.mp prunes
        rfl
      have update : ((s.setEntries pruned.entries).goto id ip (.update now)).step
          (.turn id now order) =
            (.updated ip ((s.setEntries pruned.entries).fresh ip now) (some outcome),
              (s.setEntries (pruned.account ip now).2.entries).goto id ip
                (.enforce outcome .firstLen)) := by
        rw [step_turn]
        simp only [advance, goto_limiter, same, counted, setEntries_goto, goto_goto]
        rfl
      rw [check_eq]
      refine .turn retain (.turn update ?_)
      obtain ⟨_, -, rfl⟩ := pruneStale_eq_some_iff.mp prunes
      exact completes_enforceCapacity absent

end System

end RateLimiter

end Fingermouse
