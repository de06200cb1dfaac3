import Fingermouse.Mealy
import Fingermouse.RateLimit

/-!
# Runs of the rate limiter

Sequences of checks against one limiter, from `withClock` on.

* `outcomes_eq_reference`: while the addresses fit the capacity, one address
  sees the outcomes of a fixed-window counter of its own.
* `refusal_stands`: a refusal outlives everything but an eviction.
* `rolling_window`: the rolling-window bound, for runs in which every restart
  finds the accepted checks old enough.
-/

namespace Fingermouse

open Chrono

namespace RateLimiter

/-- Clock readings never step back. -/
def Monotone (run : List Check) : Prop := run.Pairwise fun a b => a.now ≤ b.now

instance (run : List Check) : Decidable (Monotone run) :=
  inferInstanceAs (Decidable (run.Pairwise fun a b => a.now ≤ b.now))

/-- The limiter after a run. -/
abbrev after (limiter : RateLimiter) (run : List Check) : RateLimiter :=
  Mealy.final checkInner limiter run

/-- Every check of a run with its outcome. -/
abbrev answers (limiter : RateLimiter) (run : List Check) : List (Check × Option Outcome) :=
  Mealy.trace checkInner limiter run

/-- The outcomes one address sees. -/
def outcomesOf (ip : IpAddr) (answered : List (Check × Option Outcome)) : List (Option Outcome) :=
  (answered.filter fun answer => answer.1.ip = ip).map Prod.snd

/-- The clock readings of one address's checks. -/
def readingsOf (ip : IpAddr) (run : List Check) : List Int :=
  (run.filter fun check => check.ip = ip).map fun check => check.now.nanos

/-- The clock readings at which an address was accepted. -/
def acceptedAt (ip : IpAddr) (answered : List (Check × Option Outcome)) : List Int :=
  (answered.filter fun answer => answer.1.ip = ip ∧ answer.2 = some (.ok ())).map
    fun answer => answer.1.now.nanos

@[simp] theorem after_settings (limiter : RateLimiter) (run : List Check) :
    (limiter.after run).settings = limiter.settings := by
  induction run generalizing limiter with
  | nil => rfl
  | cons check run ih => exact (ih _).trans (checkInner_settings limiter check)

@[simp] theorem after_window (limiter : RateLimiter) (run : List Check) :
    (limiter.after run).window = limiter.window := by
  rw [window_eq, after_settings, ← window_eq]

/-! ## Client isolation -/

/-- The stored counter is the one of a limiter that sees this address only, or
it is gone and the other's window is over at the given reading. -/
def Tracks (limiter : RateLimiter) (ip : IpAddr) (counter : Option (FixedWindow.Counter Int))
    (latest : Int) : Prop :=
  limiter.slot ip = counter ∨
    (limiter.slot ip = none ∧ FixedWindow.Restarts limiter.window.nanos counter latest)

theorem Tracks.later {limiter : RateLimiter} {ip : IpAddr}
    {counter : Option (FixedWindow.Counter Int)} {latest now : Int}
    (tracks : limiter.Tracks ip counter latest) (ordered : latest ≤ now) :
    limiter.Tracks ip counter now := by
  rcases tracks with same | ⟨gone, restarts⟩
  · exact .inl same
  · exact .inr ⟨gone, fun c found => le_trans (restarts c found) (by omega)⟩

/-- A check of the address answers as the tracked counter does. -/
theorem Tracks.counterCheck {limiter : RateLimiter} {ip : IpAddr}
    {counter : Option (FixedWindow.Counter Int)} {now : Int}
    (tracks : limiter.Tracks ip counter now) :
    limiter.counterCheck (limiter.slot ip) now = limiter.counterCheck counter now := by
  rcases tracks with same | ⟨gone, restarts⟩
  · rw [same]
  · rw [gone]
    exact (FixedWindow.check_of_restarts restarts).symm

/-- A check of another address that evicts nothing leaves the tracked counter
alone. -/
theorem Tracks.other {limiter : RateLimiter} {check : Check} {ip : IpAddr}
    {counter : Option (FixedWindow.Counter Int)}
    (tracks : limiter.Tracks ip counter check.now.nanos) (ne : ip ≠ check.ip)
    (kept : ¬limiter.Evicts check ip) :
    (limiter.checkInner check).2.Tracks ip counter check.now.nanos := by
  unfold Tracks
  rw [checkInner_window]
  rcases checkInner_other limiter check ne with same | ⟨gone, restarts | evicted⟩
  · rw [same]
    exact tracks
  · refine .inr ⟨gone, ?_⟩
    rcases tracks with same | ⟨-, elapsed⟩
    · rwa [← same]
    · exact elapsed
  · exact absurd evicted kept

/-- Along a run that does not evict it, an address sees the outcomes of its
tracked counter. -/
theorem outcomes_of_kept {limiter : RateLimiter} {run : List Check} {ip : IpAddr}
    {counter : Option (FixedWindow.Counter Int)} {latest : Int}
    (tracks : limiter.Tracks ip counter latest) (begun : ∀ check ∈ run, latest ≤ check.now.nanos)
    (monotone : Monotone run)
    (room : ∀ check ∈ run, check.now.checkedSub limiter.window ≠ none)
    (kept : ∀ front check back, run = front ++ check :: back →
      ¬(limiter.after front).Evicts check ip) :
    (outcomesOf ip (limiter.answers run)).map (Option.map Outcome.verdict) =
      (Mealy.trace limiter.counterCheck counter (readingsOf ip run)).map (some ·.2) := by
  induction run generalizing limiter counter latest with
  | nil => rfl
  | cons check run ih =>
      have now := tracks.later (begun check (List.mem_cons_self ..))
      obtain ⟨ordered, monotone⟩ := List.pairwise_cons.mp monotone
      have rest := fun counter (tracks : (limiter.checkInner check).2.Tracks ip counter _) =>
        ih tracks ordered monotone
          (fun later member => by
            rw [checkInner_window]
            exact room later (List.mem_cons_of_mem _ member))
          fun front later back split => kept (check :: front) later back (congrArg _ split)
      rw [checkInner_counterCheck] at rest
      by_cases own : check.ip = ip
      · subst own
        rcases checkInner_own limiter check with ⟨panics, -⟩ | ⟨answer, slot⟩
        · exact absurd panics (room check (List.mem_cons_self ..))
        · rw [now.counterCheck] at answer slot
          have tail := rest _ (.inl slot)
          simp only [outcomesOf, answers, readingsOf] at tail ⊢
          simp only [Mealy.trace_cons, List.filter_cons, decide_true, if_true, List.map_cons,
            answer, tail]
      · have tail := rest counter (now.other (Ne.symm own) (kept [] check run rfl))
        simp only [outcomesOf, answers, readingsOf] at tail ⊢
        simp only [Mealy.trace_cons, List.filter_cons, own, decide_false, Bool.false_eq_true,
          if_false, tail]

/-- Along a run whose addresses fit the capacity, an address sees the outcomes
of its tracked counter. -/
theorem outcomes_track {limiter : RateLimiter} {run : List Check} {seen : Finset IpAddr}
    {ip : IpAddr} {counter : Option (FixedWindow.Counter Int)} {latest : Int}
    (tracks : limiter.Tracks ip counter latest) (begun : ∀ check ∈ run, latest ≤ check.now.nanos)
    (monotone : Monotone run)
    (room : ∀ check ∈ run, check.now.checkedSub limiter.window ≠ none)
    (stored : ∀ other ∈ limiter.entries, other ∈ seen) (checked : ∀ check ∈ run, check.ip ∈ seen)
    (few : seen.card ≤ limiter.settings.maxEntries) :
    (outcomesOf ip (limiter.answers run)).map (Option.map Outcome.verdict) =
      (Mealy.trace limiter.counterCheck counter (readingsOf ip run)).map (some ·.2) := by
  refine outcomes_of_kept tracks begun monotone room fun front check back split => ?_
  have held : ∀ other ∈ (limiter.after front).entries, other ∈ seen := by
    refine Mealy.final_invariant
      (fun _ (now : RateLimiter) => ∀ other ∈ now.entries, other ∈ seen) stored ?_
    intro first earlier later inner before other member
    rcases mem_checkInner member with rfl | old
    · exact checked earlier (by simp [split, inner])
    · exact before other old
  exact not_evicts seen held (checked check (by simp [split])) (by rwa [after_settings]) ip

/-- The limiter that sees one address only: one counter, never pruned and never
evicted. -/
def reference (settings : RateLimitSettings) (readings : List Int) :
    List (FixedWindow.Verdict Int) :=
  (Mealy.trace
    (FixedWindow.check settings.maxRequests.toNat (chronoDuration settings.window).nanos)
    none readings).map Prod.snd

/-- Client isolation: while the addresses fit the capacity, each sees exactly
the outcomes, waiting times included, of a limiter that sees its checks only.
Verdicts are outcomes up to notation (`Outcome.verdict_injective`). -/
theorem outcomes_eq_reference (settings : RateLimitSettings) (run : List Check) (ip : IpAddr)
    (monotone : Monotone run)
    (room : ∀ check ∈ run, check.now.checkedSub (withClock settings).window ≠ none)
    (few : (run.map Check.ip).toFinset.card ≤ (withClock settings).settings.maxEntries) :
    (outcomesOf ip ((withClock settings).answers run)).map (Option.map Outcome.verdict) =
      (reference settings (readingsOf ip run)).map some := by
  have tracks : (withClock settings).Tracks ip none minUtc := .inl rfl
  rw [outcomes_track tracks (fun check _ => check.now.bounds.1) monotone room
    (fun other member => absurd member (AList.notMem_empty other))
    (fun check member => List.mem_toFinset.mpr (List.mem_map_of_mem member)) few]
  simp only [reference, counterCheck, withClock_maxRequests, withClock_window, List.map_map]
  rfl

/-- Two clients share the limiter; the first is refused within its window and
accepted at its boundary instant. -/
theorem outcomes_eq_reference_of_two :
    let settings : RateLimitSettings := ⟨1, .fromSecs 60, 2⟩
    let first := IpAddr.v4 1
    let run : List Check :=
      [⟨first, .fromSecs 0, .stored⟩, ⟨.v4 2, .fromSecs 0, .stored⟩,
        ⟨first, .fromSecs 59, .stored⟩, ⟨first, .fromSecs 60, .stored⟩]
    (outcomesOf first ((withClock settings).answers run)).map (Option.map Outcome.verdict) =
        (reference settings (readingsOf first run)).map some ∧
      reference settings (readingsOf first run) = [.accepted, .refused 1000000000, .accepted] :=
  ⟨outcomes_eq_reference _ _ _ (by decide) (by decide) (by decide), by decide⟩

/-! ## Refusals stand -/

/-- The address has used up a window that lasts until the deadline. -/
def Locked (limiter : RateLimiter) (ip : IpAddr) (deadline : Int) : Prop :=
  ∃ c, limiter.slot ip = some c ∧ limiter.settings.maxRequests.toNat ≤ c.count ∧
    deadline ≤ c.start + limiter.window.nanos

/-- A refusal locks the address until the announced wait is over. -/
theorem locked_of_refused {limiter : RateLimiter} {check : Check} {retryIn : Duration}
    (refused : (limiter.checkInner check).1 = some (.error (.limitExceeded retryIn))) :
    (limiter.checkInner check).2.Locked check.ip (check.now.nanos + retryIn.nanos) := by
  obtain ⟨c, found, full, ends⟩ :=
    FixedWindow.deadline_of_refused (counterCheck_of_refused refused)
  refine ⟨c, found, ?_, ?_⟩
  · rwa [checkInner_settings]
  · rw [checkInner_window, ends]

/-- Before the deadline a check that does not evict the address keeps it
locked, and does not accept it. -/
theorem Locked.checkInner {limiter : RateLimiter} {check : Check} {ip : IpAddr} {deadline : Int}
    (locked : limiter.Locked ip deadline) (early : check.now.nanos < deadline)
    (kept : ¬limiter.Evicts check ip) :
    (limiter.checkInner check).2.Locked ip deadline ∧
      (check.ip = ip → (limiter.checkInner check).1 ≠ some (.ok ())) := by
  obtain ⟨c, found, full, ends⟩ := locked
  have within : check.now.nanos < c.start + limiter.window.nanos := by omega
  unfold Locked
  rw [checkInner_settings, checkInner_window]
  by_cases own : check.ip = ip
  · subst own
    have verdict := FixedWindow.check_of_full full within
    rcases checkInner_own limiter check with ⟨-, same⟩ | ⟨answer, next⟩
    · rw [same]
      exact ⟨⟨c, found, full, ends⟩, fun _ accepted => by cases accepted⟩
    · rw [found, counterCheck, verdict] at answer next
      refine ⟨⟨c, next, full, ends⟩, fun _ accepted => ?_⟩
      rw [accepted] at answer
      cases answer
  · refine ⟨?_, fun same => absurd same own⟩
    rcases checkInner_other limiter check (Ne.symm own) with same | ⟨-, restarts | evicted⟩
    · exact ⟨c, same.trans found, full, ends⟩
    · have elapsed := restarts c found
      omega
    · exact absurd evicted kept

theorem Locked.after {limiter : RateLimiter} {run : List Check} {ip : IpAddr} {deadline : Int}
    (locked : limiter.Locked ip deadline) (early : ∀ check ∈ run, check.now.nanos < deadline)
    (kept : ∀ front check back, run = front ++ check :: back →
      ¬(limiter.after front).Evicts check ip) :
    (limiter.after run).Locked ip deadline := by
  refine Mealy.final_invariant (fun _ (now : RateLimiter) => now.Locked ip deadline) locked ?_
  intro front check back split before
  have member : check ∈ run := by simp [split]
  exact (before.checkInner (early check member) (kept front check back split)).1

/-- A limiter stores addresses it has checked only. -/
theorem mem_after {settings : RateLimitSettings} {run : List Check} {ip : IpAddr}
    (member : ip ∈ ((withClock settings).after run).entries) : ip ∈ run.map Check.ip := by
  have stored : ∀ ip ∈ ((withClock settings).after run).entries, ip ∈ run.map Check.ip := by
    refine Mealy.final_invariant
      (fun front (now : RateLimiter) => ∀ ip ∈ now.entries, ip ∈ front.map Check.ip)
      (fun ip member => absurd member (AList.notMem_empty ip)) ?_
    intro front check back _ before ip member
    rw [List.map_append, List.mem_append]
    rcases mem_checkInner member with rfl | old
    · exact .inr (List.mem_singleton_self _)
    · exact .inl (before ip old)
  exact stored ip member

/-- Within a run whose addresses fit the capacity no check evicts. -/
theorem not_evicts_of_few {settings : RateLimitSettings} {run front back : List Check}
    {check : Check}
    (few : (run.map Check.ip).toFinset.card ≤ (withClock settings).settings.maxEntries)
    (split : run = front ++ check :: back) (ip : IpAddr) :
    ¬((withClock settings).after front).Evicts check ip := by
  refine not_evicts (run.map Check.ip).toFinset (fun other member => ?_) ?_ ?_ ip
  · have := mem_after member
    simp only [split, List.map_append, List.mem_toFinset, List.mem_append]
    exact .inl this
  · simp [split]
  · rwa [after_settings]

/-- A refusal stands until the announced wait is over: only an eviction of the
address in between lets a check through earlier, and none happens while the
addresses fit the capacity. -/
theorem refusal_stands (settings : RateLimitSettings) (before between : List Check)
    (refused later : Check) (retryIn : Duration)
    (monotone : Monotone (before ++ refused :: (between ++ [later])))
    (same : later.ip = refused.ip)
    (limited : (checkInner ((withClock settings).after before) refused).1 =
      some (.error (.limitExceeded retryIn)))
    (early : later.now.nanos < refused.now.nanos + retryIn.nanos) :
    ((checkInner ((withClock settings).after (before ++ refused :: between)) later).1 =
        some (.ok ()) →
      ∃ front evictor back, between = front ++ evictor :: back ∧
        ((withClock settings).after (before ++ refused :: front)).Evicts evictor refused.ip) ∧
    (((before ++ refused :: between).map Check.ip).toFinset.card ≤
        (withClock settings).settings.maxEntries →
      (checkInner ((withClock settings).after (before ++ refused :: between)) later).1 ≠
        some (.ok ())) := by
  have locked := locked_of_refused limited
  have earlier : ∀ check ∈ between,
      check.now.nanos < refused.now.nanos + retryIn.nanos := by
    intro check member
    have tail := (List.pairwise_cons.mp (List.pairwise_append.mp monotone).2.1).2
    have ordered :=
      (List.pairwise_append.mp tail).2.2 check member later (List.mem_singleton_self _)
    exact lt_of_le_of_lt ordered early
  have step : ∀ front, (withClock settings).after (before ++ refused :: front) =
      (checkInner ((withClock settings).after before) refused).2.after front := by
    intro front
    rw [after, Mealy.final_append, Mealy.final_cons]
  have stands : (∀ front evictor back, between = front ++ evictor :: back →
        ¬((withClock settings).after (before ++ refused :: front)).Evicts evictor refused.ip) →
      (checkInner ((withClock settings).after (before ++ refused :: between)) later).1 ≠
        some (.ok ()) := by
    intro kept
    have still := locked.after earlier fun front evictor back split =>
      step front ▸ kept front evictor back split
    rw [← step, ← same] at still
    exact (still.checkInner early (not_evicts_own _ later)).2 rfl
  refine ⟨fun accepted => ?_, fun few => stands fun front evictor back split => ?_⟩
  · by_contra none
    exact stands (fun front evictor back split evicts => none ⟨front, evictor, back, split, evicts⟩)
      accepted
  · have whole : before ++ refused :: between =
        (before ++ refused :: front) ++ evictor :: back := by
      rw [split, List.append_assoc]
      rfl
    exact not_evicts_of_few few whole refused.ip

/-- Two addresses fit the capacity: the second one's traffic does not lift the
first one's refusal. -/
theorem refusal_stands_of_two :
    let limiter := withClock ⟨1, .fromSecs 60, 2⟩
    let first := IpAddr.v4 1
    (checkInner (limiter.after [⟨first, .fromSecs 0, .stored⟩, ⟨first, .fromSecs 1, .stored⟩,
      ⟨.v4 2, .fromSecs 2, .stored⟩]) ⟨first, .fromSecs 3, .stored⟩).1 ≠ some (.ok ()) :=
  (refusal_stands ⟨1, .fromSecs 60, 2⟩ [⟨.v4 1, .fromSecs 0, .stored⟩]
    [⟨.v4 2, .fromSecs 2, .stored⟩] ⟨.v4 1, .fromSecs 1, .stored⟩ ⟨.v4 1, .fromSecs 3, .stored⟩
    (.fromSecs 59) (by decide) rfl rfl (by decide)).2 (by decide)

/-- A capacity of one: another client's check evicts the refused client's
entry, whose next check is accepted within the announced wait. -/
theorem refusal_lifted_by_eviction :
    ¬∀ (settings : RateLimitSettings) (before between : List Check) (refused later : Check)
      (retryIn : Duration),
      Monotone (before ++ refused :: (between ++ [later])) → later.ip = refused.ip →
      (checkInner ((withClock settings).after before) refused).1 =
        some (.error (.limitExceeded retryIn)) →
      later.now.nanos < refused.now.nanos + retryIn.nanos →
      (checkInner ((withClock settings).after (before ++ refused :: between)) later).1 ≠
        some (.ok ()) := by
  intro stands
  refine stands ⟨1, .fromSecs 60, 1⟩ [⟨.v4 1, .fromSecs 0, .stored⟩]
    [⟨.v4 2, .fromSecs 2, .stored⟩] ⟨.v4 1, .fromSecs 1, .stored⟩ ⟨.v4 1, .fromSecs 3, .stored⟩
    (.fromSecs 59) (by decide) rfl rfl (by decide) rfl

/-! ## The rolling window -/

/-- If the check restarts its address's window, all checks of the address
accepted so far are at least one window old. -/
def CleanRestart (settings : RateLimitSettings) (front : List Check) (check : Check) : Prop :=
  FixedWindow.Restarts ((withClock settings).after front).window.nanos
      (((withClock settings).after front).slot check.ip) check.now.nanos →
    ∀ a ∈ acceptedAt check.ip ((withClock settings).answers front),
      a + settings.window.nanos ≤ check.now.nanos

instance (settings : RateLimitSettings) (front : List Check) (check : Check) :
    Decidable (CleanRestart settings front check) :=
  inferInstanceAs (Decidable (_ → ∀ a ∈ _, a + _ ≤ _))

theorem acceptedAt_append (ip : IpAddr) (front back : List (Check × Option Outcome)) :
    acceptedAt ip (front ++ back) = acceptedAt ip front ++ acceptedAt ip back := by
  simp only [acceptedAt, List.filter_append, List.map_append]

theorem acceptedAt_singleton (ip : IpAddr) (check : Check) (outcome : Option Outcome) :
    acceptedAt ip [(check, outcome)] =
      if check.ip = ip ∧ outcome = some (.ok ()) then [check.now.nanos] else [] := by
  simp only [acceptedAt, List.filter_cons, List.filter_nil]
  split_ifs <;> simp_all

/-- Stored windows start no later than the last reading. -/
theorem start_le_of_after {settings : RateLimitSettings} {run : List Check} {bound : Int}
    (readings : ∀ check ∈ run, check.now.nanos ≤ bound) (ip : IpAddr) :
    ∀ c ∈ ((withClock settings).after run).slot ip, c.start ≤ bound := by
  refine Mealy.final_invariant (fun _ (now : RateLimiter) => ∀ c ∈ now.slot ip, c.start ≤ bound)
    (fun c found => by cases found) ?_
  intro front check back split before
  by_cases own : check.ip = ip
  · subst own
    rcases checkInner_own ((withClock settings).after front) check with ⟨-, same⟩ | ⟨-, next⟩
    · rw [same]
      exact before
    · rw [next]
      exact FixedWindow.start_le_of_check before (readings check (by simp [split]))
  · rcases checkInner_other ((withClock settings).after front) check (Ne.symm own) with
      same | ⟨gone, -⟩
    · rw [same]
      exact before
    · rw [gone]
      intro c found
      cases found

/-- One check keeps the rolling-window bound of an address. -/
theorem rollingSafe_checkInner {limiter : RateLimiter} {check : Check} {ip : IpAddr} {span : Int}
    {past : List Int}
    (safe : FixedWindow.RollingSafe limiter.settings.maxRequests.toNat span past (limiter.slot ip))
    (started : ∀ c ∈ limiter.slot ip, c.start ≤ check.now.nanos)
    (clean : check.ip = ip →
      FixedWindow.Restarts limiter.window.nanos (limiter.slot ip) check.now.nanos →
      ∀ a ∈ past, a + span ≤ check.now.nanos) :
    FixedWindow.RollingSafe limiter.settings.maxRequests.toNat span
      (past ++ acceptedAt ip [(check, (limiter.checkInner check).1)])
      ((limiter.checkInner check).2.slot ip) := by
  rw [acceptedAt_singleton]
  by_cases own : check.ip = ip
  · subst own
    rcases checkInner_own limiter check with ⟨-, same⟩ | ⟨answer, next⟩
    · rw [same, if_neg (by simp), List.append_nil]
      exact safe
    · have kept : FixedWindow.RollingSafe limiter.settings.maxRequests.toNat span
          (if (limiter.counterCheck (limiter.slot check.ip) check.now.nanos).1 = .accepted then
            past ++ [check.now.nanos] else past)
          (limiter.counterCheck (limiter.slot check.ip) check.now.nanos).2 :=
        safe.check started (clean rfl)
      rw [next]
      by_cases ok : (limiter.counterCheck (limiter.slot check.ip) check.now.nanos).1 = .accepted
      · rw [if_pos ok] at kept
        rwa [if_pos ⟨rfl, (Outcome.eq_ok_iff answer).mpr ok⟩]
      · rw [if_neg ok] at kept
        rwa [if_neg fun both => ok ((Outcome.eq_ok_iff answer).mp both.2), List.append_nil]
  · rw [if_neg fun both => own both.1, List.append_nil]
    rcases checkInner_other limiter check (Ne.symm own) with same | ⟨gone, -⟩
    · rw [same]
      exact safe
    · rw [gone]
      exact safe.forget

/-- Accepted readings are readings of the run's checks, with room for the
window. -/
theorem exists_of_mem_acceptedAt {limiter : RateLimiter} {run : List Check} {ip : IpAddr} {a : Int}
    (accepted : a ∈ acceptedAt ip (limiter.answers run)) :
    ∃ earlier ∈ run, earlier.now.nanos = a ∧
      earlier.now.checkedSub limiter.window ≠ none := by
  simp only [acceptedAt, List.mem_map, List.mem_filter, decide_eq_true_eq] at accepted
  obtain ⟨⟨earlier, outcome⟩, ⟨member, -, rfl⟩, rfl⟩ := accepted
  obtain ⟨front, back, split, answer⟩ := Mealy.exists_of_mem_trace member
  refine ⟨earlier, by simp [split], rfl, fun panics => ?_⟩
  rw [← after_window limiter front] at panics
  rw [checkInner_of_panics panics] at answer
  cases answer

/-- Repeated at one reading, a check is accepted until the count reaches the
limit. -/
theorem acceptedAt_replicate (limiter : RateLimiter) (check : Check) (n : Nat)
    (room : check.now.checkedSub limiter.window ≠ none)
    (fits : (FixedWindow.current limiter.window.nanos (limiter.slot check.ip)
      check.now.nanos).count + n ≤ limiter.settings.maxRequests.toNat) :
    acceptedAt check.ip (limiter.answers (List.replicate n check)) =
      List.replicate n check.now.nanos := by
  induction n generalizing limiter with
  | zero => rfl
  | succ n ih =>
      rcases checkInner_own limiter check with ⟨panics, -⟩ | ⟨answer, next⟩
      · exact absurd panics room
      · have grows := FixedWindow.count_current_check_le limiter.settings.maxRequests.toNat
          limiter.window.nanos check.now.nanos (limiter.slot check.ip)
        have tail := ih (limiter.checkInner check).2
          (by rwa [checkInner_window])
          (by
            rw [next, checkInner_window, checkInner_settings]
            exact le_trans (Nat.add_le_add_right grows n) (by omega))
        have accepted : (limiter.checkInner check).1 = some (.ok ()) := by
          rw [Outcome.eq_ok_iff answer]
          exact FixedWindow.check_accepted_iff.mpr (by omega)
        rw [List.replicate_succ, List.replicate_succ, answers, Mealy.trace_cons,
          ← List.singleton_append, acceptedAt_append, tail, acceptedAt_singleton,
          if_pos ⟨rfl, accepted⟩, List.singleton_append]

/-- Clean restarts keep the rolling-window bound along a run. -/
theorem rollingSafe_after {settings : RateLimitSettings} {run : List Check} {ip : IpAddr}
    (monotone : Monotone run)
    (clean : ∀ front check back, run = front ++ check :: back → check.ip = ip →
      CleanRestart settings front check) :
    FixedWindow.RollingSafe settings.maxRequests.toNat (settings.window.nanos : Int)
      (acceptedAt ip ((withClock settings).answers run))
      (((withClock settings).after run).slot ip) := by
  refine Mealy.final_invariant
    (fun front (now : RateLimiter) => FixedWindow.RollingSafe settings.maxRequests.toNat
      (settings.window.nanos : Int) (acceptedAt ip ((withClock settings).answers front))
      (now.slot ip))
    (FixedWindow.RollingSafe.init ..) ?_
  intro front check back split safe
  have readings : ∀ earlier ∈ front, earlier.now.nanos ≤ check.now.nanos := by
    rw [split] at monotone
    exact fun earlier member =>
      (List.pairwise_append.mp monotone).2.2 earlier member check (List.mem_cons_self ..)
  have limit : ((withClock settings).after front).settings.maxRequests = settings.maxRequests := by
    rw [after_settings, withClock_maxRequests]
  rw [← limit] at safe ⊢
  rw [answers, Mealy.trace_append, acceptedAt_append]
  apply rollingSafe_checkInner safe (start_le_of_after readings ip)
  rintro rfl
  exact clean front check back split rfl

/-- A restart that finds an accepted check too young is followed, on
repetition, by more accepted checks than the window allows. -/
theorem exceeds_of_not_clean {settings : RateLimitSettings} {front : List Check} {check : Check}
    (monotone : Monotone (front ++ [check])) (unclean : ¬CleanRestart settings front check) :
    ∃ t, settings.maxRequests.toNat <
      FixedWindow.acceptedWithin (settings.window.nanos : Int)
        (acceptedAt check.ip ((withClock settings).answers
          (front ++ List.replicate settings.maxRequests.toNat check))) t := by
  simp only [CleanRestart, not_forall, not_le] at unclean
  obtain ⟨restarts, a, accepted, young⟩ := unclean
  obtain ⟨earlier, member, rfl, room⟩ := exists_of_mem_acceptedAt accepted
  have ordered : earlier.now ≤ check.now :=
    (List.pairwise_append.mp monotone).2.2 earlier member check (List.mem_singleton_self _)
  have repeated := acceptedAt_replicate ((withClock settings).after front) check
    settings.maxRequests.toNat
    (by
      rw [after_window]
      exact fun panics => room
        (DateTime.checkedSub_of_le (window_nonneg _) ordered panics))
    (by
      rw [FixedWindow.current_of_restarts restarts, after_settings, withClock_maxRequests,
        Nat.zero_add])
  refine ⟨earlier.now.nanos, ?_⟩
  have ordered := DateTime.le_iff.mp ordered
  have first : 0 < FixedWindow.acceptedWithin (settings.window.nanos : Int)
      (acceptedAt check.ip ((withClock settings).answers front)) earlier.now.nanos :=
    List.countP_pos_iff.mpr ⟨_, accepted, by simp only [decide_eq_true_eq]; omega⟩
  rw [answers, Mealy.trace_append, acceptedAt_append, repeated, FixedWindow.acceptedWithin,
    List.countP_append, List.countP_replicate]
  rw [FixedWindow.acceptedWithin] at first
  rw [if_pos (by simp only [decide_eq_true_eq]; omega)]
  exact Nat.lt_add_of_pos_left first

/-- In every run on a clock that does not step back, an address whose restarts
all find its accepted checks at least one window old is never accepted more
than `max_requests` times within a window, wherever the window lies.  Where a
restart comes earlier, repeating that very check exceeds the bound. -/
theorem rolling_window (settings : RateLimitSettings) :
    (∀ (run : List Check) (ip : IpAddr), Monotone run →
      (∀ front check back, run = front ++ check :: back → check.ip = ip →
        CleanRestart settings front check) →
      ∀ t, FixedWindow.acceptedWithin (settings.window.nanos : Int)
        (acceptedAt ip ((withClock settings).answers run)) t ≤ settings.maxRequests.toNat) ∧
    ∀ (front : List Check) (check : Check), Monotone (front ++ [check]) →
      ¬CleanRestart settings front check →
      ∃ t, settings.maxRequests.toNat < FixedWindow.acceptedWithin (settings.window.nanos : Int)
        (acceptedAt check.ip ((withClock settings).answers
          (front ++ List.replicate settings.maxRequests.toNat check))) t := by
  refine ⟨fun run ip monotone clean => ?_, fun front check monotone unclean => ?_⟩
  · exact (rollingSafe_after monotone clean).bounded
  · exact exceeds_of_not_clean monotone unclean

/-- A restart at the boundary instant is clean: the check accepted one window
earlier has left every interval that holds the new one. -/
theorem rolling_window_of_boundary :
    FixedWindow.acceptedWithin 10000000000
      (acceptedAt (.v4 1) ((withClock ⟨1, .fromSecs 10, 1⟩).answers
        [⟨.v4 1, .fromSecs 0, .stored⟩, ⟨.v4 1, .fromSecs 10, .stored⟩])) 0 ≤ 1 := by
  refine (rolling_window ⟨1, .fromSecs 10, 1⟩).1 _ _ (by decide) ?_ 0
  intro front check back split _
  rcases front with _ | ⟨first, _ | ⟨second, rest⟩⟩
  · cases split
    intro _ a accepted
    cases accepted
  · cases split
    decide
  · simp at split

/-- Two checks a window: accepted at seconds 0 and 9, then, the window having
restarted, at 10 and 11 again. -/
theorem window_straddled :
    ¬∀ (settings : RateLimitSettings) (run : List Check) (ip : IpAddr) (t : Int), Monotone run →
      (run.map Check.ip).toFinset.card ≤ settings.maxEntries →
      FixedWindow.acceptedWithin (settings.window.nanos : Int)
        (acceptedAt ip ((withClock settings).answers run)) t ≤ settings.maxRequests.toNat := by
  intro bounded
  have three := bounded ⟨2, .fromSecs 10, 1⟩
    [⟨.v4 1, .fromSecs 0, .stored⟩, ⟨.v4 1, .fromSecs 9, .stored⟩,
      ⟨.v4 1, .fromSecs 10, .stored⟩, ⟨.v4 1, .fromSecs 11, .stored⟩]
    (.v4 1) 9000000000 (by decide) (by decide)
  revert three
  decide

end RateLimiter

end Fingermouse
