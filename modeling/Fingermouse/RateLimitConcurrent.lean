import Fingermouse.RateLimitTasks

/-!
# Concurrent checks

Invariants of the shared limiter over every schedule of tasks.

* `capacity_and_accounting`: no increment is lost, and the map fits its
  capacity whenever no check is in flight.
* `no_over_eviction`: evictions keep to maps over capacity, in schedules where
  the map never comes down to its capacity between another task's length test
  and its removal.
-/

namespace Fingermouse

open Chrono

namespace RateLimiter

namespace System

/-! ## Accounting -/

/-- The running count of an address: a fresh entry starts over, an accepted
check adds one. -/
def tally (ip : IpAddr) (count : Nat) : Event → Nat
  | .updated other fresh outcome =>
      if other = ip then
        (if fresh then 0 else count) + (if outcome = some (.ok ()) then 1 else 0)
      else count
  | _ => count

/-- The accepted checks of an address since its entry was created or last
reset. -/
def acceptedSince (ip : IpAddr) (events : List Event) : Nat := events.foldl (tally ip) 0

/-- Every live entry holds the number of accepted checks since it was fresh. -/
def Accounts (s : System) (events : List Event) : Prop :=
  ∀ ip entry, s.limiter.entries.lookup ip = some entry →
    entry.count.toNat = acceptedSince ip events ∧
      entry.count ≤ s.limiter.settings.maxRequests

theorem freshen_count (s : System) (ip : IpAddr) (now : DateTime) {count : Nat}
    (counted : ∀ entry ∈ s.limiter.entries.lookup ip, entry.count.toNat = count ∧
      entry.count ≤ s.limiter.settings.maxRequests) :
    (freshen s.limiter.window (s.limiter.entries.lookup ip) now).count.toNat =
        (if s.fresh ip now then 0 else count) ∧
      (freshen s.limiter.window (s.limiter.entries.lookup ip) now).count ≤
        s.limiter.settings.maxRequests := by
  refine ⟨?_, freshen_count_le fun entry found => (counted entry found).2⟩
  cases found : s.limiter.entries.lookup ip with
  | none =>
      simp only [freshen, fresh, found, Option.getD_none, ite_self, Option.all_none, if_true]
      rfl
  | some entry =>
      simp only [freshen, fresh, found, Option.getD_some, Option.all_some, decide_eq_true_eq]
      split_ifs
      · rfl
      · exact (counted entry found).1

theorem acceptedSince_append (ip : IpAddr) (events : List Event) (event : Event) :
    acceptedSince ip (events ++ [event]) = tally ip (acceptedSince ip events) event := by
  simp only [acceptedSince, List.foldl_append, List.foldl_cons, List.foldl_nil]

/-- A step that counts nothing and at most removes entries. -/
theorem Accounts.of_sub {s next : System} {events : List Event} {event : Event}
    (accounts : s.Accounts events) (settings : next.limiter.settings = s.limiter.settings)
    (sub : ∀ ip entry, next.limiter.entries.lookup ip = some entry →
      s.limiter.entries.lookup ip = some entry)
    (uncounted : ∀ ip count, tally ip count event = count) :
    next.Accounts (events ++ [event]) := by
  intro ip entry found
  rw [acceptedSince_append, uncounted, settings]
  exact accounts ip entry (sub ip entry found)

/-- The entry update counts what it reports. -/
theorem Accounts.of_update {s next : System} {events : List Event} {ip : IpAddr} {now : DateTime}
    (accounts : s.Accounts events) (settings : next.limiter.settings = s.limiter.settings)
    (entries : next.limiter.entries = (s.limiter.account ip now).2.entries) :
    next.Accounts (events ++ [.updated ip (s.fresh ip now) (s.limiter.account ip now).1]) := by
  intro other entry found
  rw [entries] at found
  rw [acceptedSince_append, settings]
  simp only [account] at found ⊢
  by_cases own : ip = other
  · subst own
    obtain rfl := Option.some.inj ((AList.lookup_insert _).symm.trans found)
    obtain ⟨count, bounded⟩ := freshen_count s ip now (accounts ip)
    obtain ⟨grows, limit⟩ := touch_count s.limiter.settings.maxRequests s.limiter.window
      (s.limiter.entries.lookup ip) now
    refine ⟨?_, limit bounded⟩
    rw [grows, count]
    exact (if_pos rfl).symm
  · rw [AList.lookup_insert_ne (Ne.symm own)] at found
    obtain ⟨count, bounded⟩ := accounts other entry found
    exact ⟨count.trans (if_neg own).symm, bounded⟩

theorem Accounts.step {s : System} {events : List Event} (accounts : s.Accounts events)
    (action : Action) : (s.step action).2.Accounts (events ++ [(s.step action).1]) := by
  rcases step_cases s action with
    same | ⟨-, ip, same⟩ | ⟨ip, phase, next, -, moves, -, settings⟩
  · rw [same]
    exact accounts.of_sub rfl (fun _ _ found => found) fun _ _ => rfl
  · rw [same]
    exact accounts.of_sub rfl (fun _ _ found => found) fun _ _ => rfl
  · generalize (s.step action).1 = event at moves ⊢
    generalize entries : (s.step action).2.limiter.entries = left at moves
    cases moves with
    | prune prunes =>
        obtain ⟨_, -, rfl⟩ := pruneStale_eq_some_iff.mp prunes
        refine accounts.of_sub settings (fun ip entry found => ?_) fun _ _ => rfl
        rw [entries, AList.lookup_retain] at found
        exact (Option.filter_eq_some_iff.mp found).1
    | lose lost => exact lost ▸ accounts.of_update settings entries
    | count counted => exact counted ▸ accounts.of_update settings entries
    | @evict outcome key =>
        refine accounts.of_sub settings (fun ip entry found => ?_) fun _ _ => rfl
        rw [entries] at found
        by_cases taken : ip = key
        · rw [taken, AList.lookup_erase] at found
          cases found
        · rwa [AList.lookup_erase_ne taken] at found
    | _ => exact accounts.of_sub settings (fun _ _ found => entries ▸ found) fun _ _ => rfl

theorem accounts_after (settings : RateLimitSettings) (schedule : List Action) :
    (after settings schedule).Accounts (history settings schedule) := by
  refine Mealy.final_invariant (fun front (s : System) => s.Accounts (history settings front))
    (fun ip entry found => by cases found) ?_
  intro front action back _ before
  rw [history_append]
  exact before.step action

/-! ## Capacity -/

theorem Resumes.forall {s next : System} {id : Nat} {task : Option Task} {p : Task → Prop}
    (resumes : Resumes s next id task) (before : ∀ i t, s.tasks.lookup i = some t → p t)
    (new : ∀ t ∈ task, p t) : ∀ i t, next.tasks.lookup i = some t → p t := by
  intro i t found
  by_cases own : i = id
  · rw [own, resumes.1] at found
    exact new t found
  · rw [resumes.2 i own] at found
    exact before i t found

theorem Resumes.exists {s next : System} {id : Nat} {task : Option Task} {p : Task → Prop}
    (resumes : Resumes s next id task) (others : ∀ t ∈ s.tasks.lookup id, ¬p t)
    (before : ∃ i t, s.tasks.lookup i = some t ∧ p t) :
    ∃ i t, next.tasks.lookup i = some t ∧ p t := by
  obtain ⟨i, t, found, holds⟩ := before
  have ne : i ≠ id := by
    intro same
    subst same
    exact others t found holds
  exact ⟨i, t, (resumes.2 i ne).trans found, holds⟩

/-- A task about to update its entry has pruned, so its reading leaves room for
the window and the update cannot panic. -/
def HasRoom (s : System) : Prop :=
  ∀ id task, s.tasks.lookup id = some task →
    ∀ now, task.phase = .update now → now.checkedSub s.limiter.window ≠ none

theorem step_window (s : System) (action : Action) :
    (s.step action).2.limiter.window = s.limiter.window := by
  rw [window_eq, step_settings, ← window_eq]

theorem HasRoom.step {s : System} (room : s.HasRoom) (action : Action) :
    (s.step action).2.HasRoom := by
  unfold HasRoom
  rw [step_window]
  rcases step_cases s action with
    same | ⟨-, ip, same⟩ | ⟨ip, phase, next, found, moves, resumes, -⟩
  · rw [same]
    exact room
  · rw [same]
    refine (resumes_goto (s := s) rfl action.task ip .readClock).forall room ?_
    rintro _ ⟨⟩ now updating
    cases updating
  · apply resumes.forall room
    rintro _ member now updating
    obtain ⟨phase', rfl, rfl⟩ := Option.map_eq_some_iff.mp member
    obtain rfl : phase' = .update now := updating
    generalize (s.step action).2.limiter.entries = left at moves
    generalize (s.step action).1 = event at moves
    cases moves with
    | prune prunes =>
        obtain ⟨cutoff, fits, -⟩ := pruneStale_eq_some_iff.mp prunes
        rw [fits]
        exact Option.some_ne_none cutoff

/-- A task in this phase reads the length again before it ends.  The scan of
all keys is left out: it may break, and starts from a map that fits. -/
def covers : Phase → Bool
  | .enforce _ .scanAll => false
  | .enforce _ _ => true
  | _ => false

/-- The map fits, or some task will still look. -/
def Covered (s : System) : Prop :=
  s.limiter.entries.len ≤ s.limiter.settings.maxEntries ∨
    ∃ id task, s.tasks.lookup id = some task ∧ covers task.phase = true

theorem account_ne_none {limiter : RateLimiter} {ip : IpAddr} {now : DateTime}
    (room : now.checkedSub limiter.window ≠ none) : (limiter.account ip now).1 ≠ none := by
  obtain ⟨cutoff, fits⟩ := Option.ne_none_iff_exists'.mp room
  intro panics
  have touched := (touch_counter limiter.settings.maxRequests (limiter.entries.lookup ip)
    limiter.window_nonneg fits).1
  rw [account] at panics
  rw [panics] at touched
  cases touched

theorem Covered.step {s : System} (covered : s.Covered) (room : s.HasRoom) (action : Action) :
    (s.step action).2.Covered := by
  rcases step_cases s action with
    same | ⟨absent, ip, same⟩ | ⟨ip, phase, next, found, moves, resumes, settings⟩
  · rw [same]
    exact covered
  · rw [same]
    refine covered.imp_right fun others =>
      (resumes_goto rfl action.task ip .readClock).exists (fun t own => ?_) others
    rw [absent] at own
    cases own
  · -- A step that leaves a covering task, or a map that fits, needs nothing of the others.
    have handOver : ∀ phase', next = some phase' → covers phase' = true →
        (s.step action).2.Covered := fun phase' same covering =>
      .inr ⟨action.task, ⟨ip, phase'⟩, by rw [resumes.1, same]; rfl, covering⟩
    have pass : covers phase = false →
        (s.step action).2.limiter.entries.len ≤ s.limiter.entries.len →
        (s.step action).2.Covered := by
      intro idle shrinks
      rcases covered with fits | others
      · exact .inl (by rw [settings]; omega)
      · refine .inr (resumes.exists (fun t own => ?_) others)
        rw [found] at own
        cases own
        rw [idle]
        exact Bool.false_ne_true
    generalize (s.step action).1 = event at moves
    unfold Covered at *
    rw [settings] at *
    generalize (s.step action).2.limiter.entries = left at *
    cases moves with
    | read now => exact pass rfl le_rfl
    | panic => exact pass rfl le_rfl
    | prune prunes =>
        obtain ⟨_, -, rfl⟩ := pruneStale_eq_some_iff.mp prunes
        exact pass rfl (AList.len_retain_le _ _)
    | lose lost => exact absurd lost (account_ne_none (room _ _ found _ rfl))
    | count => exact handOver _ rfl rfl
    | fit fits => exact .inl fits
    | enter => exact handOver _ rfl rfl
    | exceeds => exact handOver _ rfl rfl
    | alone small => exact .inl (le_trans small s.limiter.capacity)
    | pick => exact handOver _ rfl rfl
    | stop => exact pass rfl le_rfl
    | evict => exact handOver _ rfl rfl

/-- No increment is lost and no count passes the limit, in any schedule; and
once no check is in flight the map fits its capacity. -/
theorem capacity_and_accounting (settings : RateLimitSettings) (schedule : List Action) :
    (∀ ip entry, (after settings schedule).limiter.entries.lookup ip = some entry →
      entry.count.toNat = acceptedSince ip (history settings schedule) ∧
        entry.count ≤ settings.maxRequests) ∧
    ((after settings schedule).Quiescent →
      (after settings schedule).limiter.entries.len ≤ max 1 settings.maxEntries) := by
  refine ⟨fun ip entry found => ?_, fun quiescent => ?_⟩
  · have accounts := accounts_after settings schedule ip entry found
    rwa [after_settings, withClock_maxRequests] at accounts
  · have covered : (after settings schedule).HasRoom ∧ (after settings schedule).Covered := by
      refine Mealy.final_invariant (fun _ (s : System) => s.HasRoom ∧ s.Covered)
        ⟨fun _ _ found => (by cases found), .inl (Nat.zero_le _)⟩ ?_
      intro front action back _ both
      obtain ⟨room, covered⟩ := both
      exact ⟨room.step action, covered.step room action⟩
    rcases covered.2 with fits | ⟨id, task, found, -⟩
    · rwa [after_settings, withClock_maxEntries] at fits
    · have inFlight : 0 < (after settings schedule).tasks.len :=
        AList.len_pos_of_mem (AList.lookup_isSome.mp (by rw [found]; rfl))
      unfold Quiescent at quiescent
      omega

/-! ## Over-eviction -/

/-- The task has seen the map over its capacity and has not yet removed an
entry. -/
def decided : Phase → Bool
  | .enforce _ .scanOthers => true
  | .enforce _ .scanAll => true
  | .enforce _ (.remove _) => true
  | _ => false

/-- If the step brings the map down to its capacity, no other task stands
between its length test and its removal. -/
def CleanDrop (s : System) (action : Action) : Prop :=
  s.limiter.settings.maxEntries < s.limiter.entries.len →
    (s.step action).2.limiter.entries.len ≤ s.limiter.settings.maxEntries →
    ∀ entry ∈ s.tasks.entries, entry.1 ≠ action.task → decided entry.2.phase = false

instance (s : System) (action : Action) : Decidable (s.CleanDrop action) :=
  inferInstanceAs (Decidable (_ → _ → ∀ entry ∈ s.tasks.entries, _ → _))

/-- The decision lets a task make its removal. -/
def removes (s : System) : Action → Bool
  | .start .. => false
  | .turn id .. => (s.tasks.lookup id).any fun task =>
      match task.phase with
      | .enforce _ (.remove _) => true
      | _ => false

/-- While a task is decided the map is over its capacity. -/
def Justified (s : System) : Prop :=
  ∀ id task, s.tasks.lookup id = some task → decided task.phase = true →
    s.limiter.settings.maxEntries < s.limiter.entries.len

theorem Justified.step {s : System} {action : Action} (justified : s.Justified)
    (clean : s.CleanDrop action) : (s.step action).2.Justified := by
  unfold Justified
  rw [step_settings]
  rcases step_cases s action with
    same | ⟨-, ip, same⟩ | ⟨ip, phase, next, found, moves, resumes, -⟩
  · rw [same]
    exact justified
  · rw [same]
    refine (resumes_goto (s := s) rfl action.task ip .readClock).forall justified ?_
    rintro _ ⟨⟩ ⟨⟩
  · have own := justified action.task ⟨ip, phase⟩ found
    have others : ∀ id task, id ≠ action.task → s.tasks.lookup id = some task →
        decided task.phase = true →
        s.limiter.settings.maxEntries < (s.step action).2.limiter.entries.len := by
      intro id task ne present deciding
      by_contra fits
      have idle := clean (justified id task present deciding) (not_lt.mp fits) ⟨id, task⟩
        (AList.mem_lookup_iff.mp present) ne
      rw [deciding] at idle
      cases idle
    intro id task present deciding
    by_cases ne : id = action.task
    · rw [ne, resumes.1, Option.map_eq_some_iff] at present
      obtain ⟨phase', rfl, rfl⟩ := present
      generalize (s.step action).1 = event at moves
      generalize (s.step action).2.limiter.entries = left at *
      cases moves with
      | exceeds full => exact full
      | alone small =>
          have := own rfl
          have := s.limiter.capacity
          omega
      | pick key stage => exact own (by rcases stage with rfl | rfl <;> rfl)
      | _ => cases deciding
    · rw [resumes.2 id ne] at present
      exact others id task ne present deciding

/-- Once some check has counted, the map is not empty, or a check that has
pruned is about to count. -/
def Populated (s : System) (events : List Event) : Prop :=
  (∃ ip fresh outcome, .updated ip fresh outcome ∈ events) →
    0 < s.limiter.entries.len ∨
      ∃ id task, s.tasks.lookup id = some task ∧ ∃ now, task.phase = .update now

theorem Populated.step {s : System} {action : Action} {events : List Event}
    (populated : s.Populated events) (justified : s.Justified) :
    (s.step action).2.Populated (events ++ [(s.step action).1]) := by
  rcases step_cases s action with
    same | ⟨absent, ip, same⟩ | ⟨ip, phase, next, found, moves, resumes, -⟩
  · rw [same]
    intro reported
    obtain ⟨ip, fresh, outcome, member⟩ := reported
    exact populated ⟨ip, fresh, outcome, by simpa using member⟩
  · rw [same]
    intro reported
    obtain ⟨ip', fresh, outcome, member⟩ := reported
    refine (populated ⟨ip', fresh, outcome, by simpa using member⟩).imp_right fun others =>
      (resumes_goto rfl action.task ip .readClock).exists (fun t own => ?_) others
    rw [absent] at own
    cases own
  · -- A step of a task that is not about to count, and reports no count, passes the
    -- duty on as long as it leaves the map populated.
    have pass : (∀ now, phase ≠ .update now) →
        (0 < s.limiter.entries.len → 0 < (s.step action).2.limiter.entries.len) →
        (∀ ip fresh outcome, (s.step action).1 ≠ .updated ip fresh outcome) →
        (s.step action).2.Populated (events ++ [(s.step action).1]) := by
      intro idle keeps unreported reported
      obtain ⟨ip', fresh, outcome, member⟩ := reported
      have earlier : .updated ip' fresh outcome ∈ events := by
        rcases List.mem_append.mp member with old | new
        · exact old
        · exact absurd (List.mem_singleton.mp new).symm (unreported ip' fresh outcome)
      rcases populated ⟨ip', fresh, outcome, earlier⟩ with some | others
      · exact .inl (keeps some)
      · refine .inr (resumes.exists (fun t own => ?_) others)
        rw [found] at own
        cases own
        intro counting
        obtain ⟨now, updating⟩ := counting
        exact idle now updating
    have counted : ∀ now, 0 < (s.limiter.account ip now).2.entries.len := fun now =>
      AList.len_pos_of_mem ((AList.mem_insert _).mpr (.inl rfl))
    have own := justified action.task ⟨ip, phase⟩ found
    generalize (s.step action).1 = event at moves pass ⊢
    unfold Populated at pass ⊢
    generalize entries : (s.step action).2.limiter.entries = left at moves pass ⊢
    cases moves with
    | @prune now pruned prunes =>
        exact fun _ => .inr ⟨action.task, ⟨ip, .update now⟩, resumes.1, now, rfl⟩
    | lose => exact fun _ => .inl (counted _)
    | count => exact fun _ => .inl (counted _)
    | @evict outcome key =>
        refine pass (fun _ updating => by cases updating) (fun _ => ?_)
          fun _ _ _ reported => by cases reported
        have := own rfl
        have := s.limiter.capacity
        have := AList.len_erase_ge s.limiter.entries key
        omega
    | _ =>
        exact pass (fun _ updating => by cases updating) id fun _ _ _ reported => by cases reported

theorem over_of_removes {s : System} {action : Action} (justified : s.Justified)
    (removing : s.removes action = true) :
    s.limiter.settings.maxEntries < s.limiter.entries.len := by
  cases action with
  | start => cases removing
  | turn id =>
      simp only [removes, Option.any_eq_true] at removing
      obtain ⟨⟨ip, phase⟩, found, stage⟩ := removing
      apply justified id _ found
      split at stage
      · rename_i same
        rw [same]
        rfl
      · cases stage

/-- In a schedule that never brings the map down to its capacity under another
task's pending removal, every removal meets a map over its capacity, and once
some check has counted and none is in flight the map is not empty. -/
theorem no_over_eviction (settings : RateLimitSettings) (schedule : List Action)
    (clean : Mealy.AllSteps step CleanDrop (init settings) schedule) :
    Mealy.AllSteps step (fun s action => s.removes action = true →
      s.limiter.settings.maxEntries < s.limiter.entries.len) (init settings) schedule ∧
    ((after settings schedule).Quiescent →
      (∃ ip fresh outcome, .updated ip fresh outcome ∈ history settings schedule) →
      0 < (after settings schedule).limiter.entries.len) := by
  have start : (init settings).Justified := fun _ _ found => by cases found
  refine ⟨clean.imp start fun s action justified drop =>
    ⟨over_of_removes justified, justified.step drop⟩, fun quiescent counted => ?_⟩
  have invariant : (after settings schedule).Justified ∧
      (after settings schedule).Populated (history settings schedule) := by
    refine Mealy.final_invariant
      (fun past (s : System) => s.Justified ∧ s.Populated (history settings past))
      ⟨start, fun ⟨_, _, _, member⟩ => by cases member⟩ ?_
    intro front action back split both
    obtain ⟨justified, populated⟩ := both
    rw [history_append]
    exact ⟨justified.step (split ▸ clean).of_append, populated.step justified⟩
  rcases invariant.2 counted with some | ⟨id, task, found, -⟩
  · exact some
  · have inFlight : 0 < (after settings schedule).tasks.len :=
      AList.len_pos_of_mem (AList.lookup_isSome.mp (by rw [found]; rfl))
    unfold Quiescent at quiescent
    omega

/-- One check after the other over a capacity of one: the second evicts the
first one's entry and leaves its own. -/
theorem no_over_eviction_of_sequential :
    let settings : RateLimitSettings := ⟨1, .fromSecs 60, 1⟩
    let turn (id : Nat) : Action := .turn id (.fromSecs 0) .stored
    let schedule := [.start 0 (.v4 1), turn 0, turn 0, turn 0, turn 0, .start 1 (.v4 2), turn 1,
      turn 1, turn 1, turn 1, turn 1, turn 1, turn 1, turn 1]
    0 < (after settings schedule).limiter.entries.len :=
  (no_over_eviction _ _ (by decide)).2 (by decide)
    ⟨.v4 1, true, some (.ok ()), by decide⟩

/-- Two checks over a capacity of one: both see two entries, each picks the
other's, and after both removals the map is empty. -/
theorem over_eviction :
    ¬∀ (settings : RateLimitSettings) (schedule : List Action),
      Mealy.AllSteps step (fun s action => s.removes action = true →
        s.limiter.settings.maxEntries < s.limiter.entries.len) (init settings) schedule ∧
      ((after settings schedule).Quiescent →
        (∃ ip fresh outcome, .updated ip fresh outcome ∈ history settings schedule) →
        0 < (after settings schedule).limiter.entries.len) := by
  intro law
  let turn (id : Nat) : Action := .turn id (.fromSecs 0) .stored
  have both := law ⟨1, .fromSecs 60, 1⟩
    [.start 0 (.v4 1), .start 1 (.v4 2), turn 0, turn 0, turn 0, turn 1, turn 1, turn 1,
      turn 0, turn 0, turn 0, turn 1, turn 1, turn 1, turn 0, turn 1, turn 0, turn 1]
  have counted := both.2 (by decide) ⟨.v4 1, true, some (.ok ()), by decide⟩
  revert counted
  decide

end System

end RateLimiter

end Fingermouse
