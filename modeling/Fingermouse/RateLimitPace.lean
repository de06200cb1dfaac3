import Fingermouse.RateLimitRuns

/-!
# Pace of the rate limiter

What a client can count on, and what it can get, over sequential runs of checks
on a clock that does not step back.

* `refusal_earned`: a check is refused only after `max_requests` accepted checks
  of its own address within the last window, whatever other addresses do.
* `sustained_rate`: over any number of windows an address is accepted at most
  one window's worth more than the rate allows, while the addresses fit the
  capacity.
-/

namespace Fingermouse

open Chrono

namespace RateLimiter

/-- Readings along a run on such a clock come no later than the next one. -/
theorem readings_le {run front back : List Check} {check : Check} (monotone : Monotone run)
    (split : run = front ++ check :: back) :
    ∀ earlier ∈ front, earlier.now.nanos ≤ check.now.nanos := by
  rw [split] at monotone
  exact fun earlier member =>
    (List.pairwise_append.mp monotone).2.2 earlier member check (List.mem_cons_self ..)

/-- What a check adds to the accepted readings of its own address. -/
theorem acceptedAt_own {check : Check} {outcome : Option Outcome}
    {verdict : FixedWindow.Verdict Int} (answer : outcome.map Outcome.verdict = some verdict)
    (past : List Int) :
    past ++ acceptedAt check.ip [(check, outcome)] =
      if verdict = .accepted then past ++ [check.now.nanos] else past := by
  rw [acceptedAt_singleton]
  by_cases ok : verdict = .accepted
  · rw [if_pos ⟨rfl, (Outcome.eq_ok_iff answer).mpr ok⟩, if_pos ok]
  · rw [if_neg fun both => ok ((Outcome.eq_ok_iff answer).mp both.2), if_neg ok, List.append_nil]

/-! ## Earned refusals -/

/-- Whatever is pruned and evicted, every check a stored entry counts was
accepted since the entry's start. -/
theorem earned_after {settings : RateLimitSettings} {run : List Check} {ip : IpAddr}
    (monotone : Monotone run) :
    FixedWindow.Earned (acceptedAt ip ((withClock settings).answers run))
      (((withClock settings).after run).slot ip) := by
  refine Mealy.final_invariant
    (fun front (now : RateLimiter) => FixedWindow.Earned
      (acceptedAt ip ((withClock settings).answers front)) (now.slot ip))
    (FixedWindow.Earned.none _) ?_
  intro front check back split earned
  rw [answers, Mealy.trace_append, acceptedAt_append]
  by_cases own : check.ip = ip
  · subst own
    rcases checkInner_own ((withClock settings).after front) check with
      ⟨-, same⟩ | ⟨answer, next⟩
    · rw [same]
      exact earned.append _
    · rw [next, Mealy.trace_cons, Mealy.trace_nil, acceptedAt_own answer]
      exact earned.check (start_le_of_after (readings_le monotone split) check.ip)
  · rcases checkInner_other ((withClock settings).after front) check (Ne.symm own) with
      same | ⟨gone, -⟩
    · rw [same]
      exact earned.append _
    · rw [gone]
      exact FixedWindow.Earned.none _

/-- A check is refused only if `max_requests` checks of its own address have
been accepted within the last window: neither other addresses nor evictions cost
a client any of its requests. -/
theorem refusal_earned (settings : RateLimitSettings) (run front back : List Check)
    (check : Check) (retryIn : Duration) (monotone : Monotone run)
    (split : run = front ++ check :: back)
    (refused : (checkInner ((withClock settings).after front) check).1 =
      some (.error (.limitExceeded retryIn))) :
    settings.maxRequests.toNat ≤ (acceptedAt check.ip ((withClock settings).answers front)).countP
      fun a => check.now.nanos < a + (withClock settings).window.nanos := by
  have prefixed : Monotone front := by
    rw [split] at monotone
    exact (List.pairwise_append.mp monotone).1
  have earned : FixedWindow.Earned (acceptedAt check.ip ((withClock settings).answers front)) _ :=
    earned_after prefixed
  have verdict := congrArg Prod.fst (counterCheck_of_refused refused)
  have full := earned.limit_le verdict
  rwa [after_settings, after_window, withClock_maxRequests] at full

/-- One check a minute: the second of a client within it is refused, the first
being less than a minute old. -/
theorem refusal_earned_of_minute :
    let settings : RateLimitSettings := ⟨1, .fromSecs 60, 2⟩
    let front : List Check := [⟨.v4 1, .fromSecs 0, .stored⟩, ⟨.v4 2, .fromSecs 30, .stored⟩]
    1 ≤ (acceptedAt (.v4 1) ((withClock settings).answers front)).countP
      fun a => (DateTime.fromSecs 59).nanos < a + (withClock settings).window.nanos :=
  refusal_earned ⟨1, .fromSecs 60, 2⟩ _ _ [] ⟨.v4 1, .fromSecs 59, .stored⟩ (.fromSecs 1)
    (by decide) rfl (by decide)

/-! ## The sustained rate -/

/-- The address has a counter of its own, which the limiter tracks and which keeps
the sustained rate. -/
def Paced (settings : RateLimitSettings) (ip : IpAddr) (front : List Check)
    (limiter : RateLimiter) : Prop :=
  ∃ counter latest, (latest = minUtc ∨ ∃ check ∈ front, check.now.nanos = latest) ∧
    limiter.Tracks ip counter latest ∧
    (∀ c ∈ counter, c.start ≤ latest) ∧
    FixedWindow.Sustained settings.maxRequests.toNat (withClock settings).window.nanos
      (acceptedAt ip ((withClock settings).answers front)) counter

/-- A check that does not evict the address keeps its tracked counter at the
sustained rate. -/
theorem Tracks.sustained {limiter : RateLimiter} {check : Check} {ip : IpAddr}
    {counter : Option (FixedWindow.Counter Int)} {latest : Int} {past : List Int}
    (tracks : limiter.Tracks ip counter latest) (started : ∀ c ∈ counter, c.start ≤ latest)
    (sustained : FixedWindow.Sustained limiter.settings.maxRequests.toNat limiter.window.nanos past
      counter)
    (later : latest ≤ check.now.nanos) (kept : ¬limiter.Evicts check ip) :
    ∃ next, (limiter.checkInner check).2.Tracks ip next check.now.nanos ∧
      (∀ c ∈ next, c.start ≤ check.now.nanos) ∧
      FixedWindow.Sustained limiter.settings.maxRequests.toNat limiter.window.nanos
        (past ++ acceptedAt ip [(check, (limiter.checkInner check).1)]) next := by
  have now := tracks.later later
  have begun : ∀ c ∈ counter, c.start ≤ check.now.nanos := fun c found =>
    (started c found).trans later
  by_cases own : check.ip = ip
  · subst own
    rcases checkInner_own limiter check with ⟨-, same⟩ | ⟨answer, next⟩
    · rw [same, acceptedAt_singleton, if_neg (by simp), List.append_nil]
      exact ⟨counter, now, begun, sustained⟩
    · rw [now.counterCheck] at answer next
      rw [acceptedAt_own answer]
      exact ⟨_, .inl next, FixedWindow.start_le_of_check begun le_rfl,
        sustained.check (window_nonneg _) begun⟩
  · rw [acceptedAt_singleton, if_neg fun both => own both.1, List.append_nil]
    exact ⟨counter, now.other (Ne.symm own) kept, begun, sustained⟩

/-- A check that does not evict the address keeps its pace. -/
theorem Paced.step {settings : RateLimitSettings} {ip : IpAddr} {front : List Check}
    {check : Check} (paced : Paced settings ip front ((withClock settings).after front))
    (ordered : ∀ earlier ∈ front, earlier.now.nanos ≤ check.now.nanos)
    (kept : ¬((withClock settings).after front).Evicts check ip) :
    Paced settings ip (front ++ [check])
      (((withClock settings).after front).checkInner check).2 := by
  obtain ⟨counter, latest, read, tracks, started, sustained⟩ := paced
  have later : latest ≤ check.now.nanos := by
    rcases read with rfl | ⟨earlier, member, rfl⟩
    · exact check.now.bounds.1
    · exact ordered earlier member
  rw [← withClock_maxRequests, ← after_settings _ front, ← after_window _ front] at sustained
  obtain ⟨next, tracks, started, sustained⟩ := tracks.sustained started sustained later kept
  rw [after_settings, after_window, withClock_maxRequests] at sustained
  unfold Paced
  rw [answers, Mealy.trace_append, acceptedAt_append, Mealy.trace_cons, Mealy.trace_nil]
  exact ⟨next, check.now.nanos, .inr ⟨check, by simp, rfl⟩, tracks, started, sustained⟩

/-- Over any number of windows on end, an address is accepted at most one
window's worth of checks more than `max_requests` for each, while the addresses
fit the capacity. -/
theorem sustained_rate (settings : RateLimitSettings) (run : List Check) (ip : IpAddr)
    (monotone : Monotone run)
    (few : (run.map Check.ip).toFinset.card ≤ (withClock settings).settings.maxEntries)
    (t : Int) (windows : Nat) :
    FixedWindow.acceptedWithin (windows • (withClock settings).window.nanos)
      (acceptedAt ip ((withClock settings).answers run)) t ≤
        (windows + 1) * settings.maxRequests.toNat := by
  have paced : Paced settings ip run ((withClock settings).after run) := by
    refine Mealy.final_invariant (Paced settings ip) ?_ ?_
    · exact ⟨none, minUtc, .inl rfl, .inl rfl, nofun, FixedWindow.Sustained.init ..⟩
    · intro front check back split paced
      exact paced.step (readings_le monotone split) (not_evicts_of_few few split ip)
  obtain ⟨_, _, _, _, _, sustained⟩ := paced
  exact sustained.bounded t windows

/-- Two checks a window: of four checks that straddle a restart, the three
accepted within one window's time are within two windows' worth. -/
theorem sustained_rate_of_straddled :
    FixedWindow.acceptedWithin (1 • 10000000000)
      (acceptedAt (.v4 1) ((withClock ⟨2, .fromSecs 10, 1⟩).answers
        [⟨.v4 1, .fromSecs 0, .stored⟩, ⟨.v4 1, .fromSecs 9, .stored⟩,
          ⟨.v4 1, .fromSecs 10, .stored⟩, ⟨.v4 1, .fromSecs 11, .stored⟩])) 9000000000 ≤ 4 :=
  sustained_rate ⟨2, .fromSecs 10, 1⟩ _ (.v4 1) (by decide) (by decide) 9000000000 1

end RateLimiter

end Fingermouse
