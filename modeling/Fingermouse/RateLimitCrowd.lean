import Fingermouse.RateLimitPace
import Fingermouse.RateLimitStore

/-!
# What an eviction costs

An eviction takes an oldest entry of the others, from a map over its capacity.
So an address loses its entry before its window is over only to a crowd: as many
other addresses as the map holds, all checked within one window.

* `eviction_costs`: the crowd at an eviction.
* `outcomes_uncrowded`: without a crowd an address sees the outcomes of a
  limiter of its own, however many addresses the run has.
* `evasion_costs`: who exceeds the rate between two readings has had a crowd
  between them.
-/

namespace Fingermouse

open Chrono

namespace RateLimiter

/-- The other addresses checked up to a check, that one included, no more than
one window before it. -/
def crowd (settings : RateLimitSettings) (ip : IpAddr) (front : List Check) (check : Check) :
    Finset IpAddr :=
  (((front ++ [check]).filter fun other => other.ip ≠ ip ∧
    check.now.nanos ≤ other.now.nanos + (withClock settings).window.nanos).map Check.ip).toFinset

theorem mem_crowd {settings : RateLimitSettings} {ip other : IpAddr} {front : List Check}
    {check : Check} :
    other ∈ crowd settings ip front check ↔
      ∃ seen ∈ front ++ [check], seen.ip = other ∧ other ≠ ip ∧
        check.now.nanos ≤ seen.now.nanos + (withClock settings).window.nanos := by
  simp only [crowd, List.mem_toFinset, List.mem_map, List.mem_filter, decide_eq_true_eq]
  constructor
  · rintro ⟨seen, ⟨member, ne, recent⟩, rfl⟩
    exact ⟨seen, member, rfl, ne, recent⟩
  · rintro ⟨seen, member, rfl, ne, recent⟩
    exact ⟨seen, ⟨member, ne, recent⟩, rfl⟩

/-- No check of the run finds a crowd. -/
def Uncrowded (settings : RateLimitSettings) (ip : IpAddr) (run : List Check) : Prop :=
  ∀ i : Fin run.length,
    (crowd settings ip (run.take i) (run.get i)).card < max 1 settings.maxEntries

instance (settings : RateLimitSettings) (ip : IpAddr) (run : List Check) :
    Decidable (Uncrowded settings ip run) :=
  inferInstanceAs (Decidable (∀ i : Fin run.length,
    (crowd settings ip (run.take i) (run.get i)).card < _))

theorem Uncrowded.card_lt {settings : RateLimitSettings} {ip : IpAddr} {front back : List Check}
    {check : Check} (uncrowded : Uncrowded settings ip (front ++ check :: back)) :
    (crowd settings ip front check).card < max 1 settings.maxEntries := by
  have here := uncrowded ⟨front.length, by simp⟩
  simpa using here

/-! ## Evictions -/

/-- Every stored window starts at the reading of a check of its address. -/
theorem exists_of_slot {settings : RateLimitSettings} {run : List Check} (ip : IpAddr) :
    ∀ c ∈ ((withClock settings).after run).slot ip,
      ∃ check ∈ run, check.ip = ip ∧ check.now.nanos = c.start := by
  refine Mealy.final_invariant
    (fun (front : List Check) (now : RateLimiter) => ∀ c ∈ now.slot ip,
      ∃ check ∈ front, check.ip = ip ∧ check.now.nanos = c.start)
    (fun c found => by cases found) ?_
  intro front check back _ before c found
  have older : ∀ c' ∈ ((withClock settings).after front).slot ip, c'.start = c.start →
      ∃ check' ∈ front ++ [check], check'.ip = ip ∧ check'.now.nanos = c.start := by
    intro c' stored same
    obtain ⟨earlier, member, own, start⟩ := before c' stored
    exact ⟨earlier, List.mem_append_left _ member, own, start.trans same⟩
  by_cases own : check.ip = ip
  · subst own
    rcases checkInner_own ((withClock settings).after front) check with ⟨-, same⟩ | ⟨-, next⟩
    · rw [same] at found
      exact older c found rfl
    · rw [next] at found
      rcases FixedWindow.start_of_check c found with reading | ⟨c', stored, same⟩
      · exact ⟨check, by simp, rfl, reading.symm⟩
      · exact older c' stored same
  · rcases checkInner_other ((withClock settings).after front) check (Ne.symm own) with
      same | ⟨gone, -⟩
    · rw [same] at found
      exact older c found rfl
    · rw [gone] at found
      cases found

theorem sound_after (settings : RateLimitSettings) (run : List Check) :
    ((withClock settings).after run).Sound := by
  refine Mealy.final_invariant (fun _ (now : RateLimiter) => now.Sound) Sound.withClock ?_
  intro front check back _ before
  exact before.checkInner check

/-- An eviction takes an oldest entry of the others, from a map over its capacity. -/
theorem Sound.evicts {limiter : RateLimiter} {check : Check} {ip : IpAddr} (sound : limiter.Sound)
    (evicts : limiter.Evicts check ip) :
    ∃ pruned entry, limiter.pruneStale check.now = some pruned ∧
      limiter.settings.maxEntries < (pruned.account check.ip check.now).2.entries.len ∧
      (pruned.account check.ip check.now).2.entries.lookup ip = some entry ∧
      ∀ other found, other ≠ check.ip →
        (pruned.account check.ip check.now).2.entries.lookup other = some found →
        entry.windowStart ≤ found.windowStart := by
  obtain ⟨pruned, prunes, counted, lost⟩ := evicts
  have near := (sound.counted prunes check.ip).1
  have settings : (pruned.account check.ip check.now).2.settings = limiter.settings := by
    obtain ⟨_, -, rfl⟩ := pruneStale_eq_some_iff.mp prunes
    rfl
  have after : (limiter.checkInner check).2 =
      (pruned.account check.ip check.now).2.enforceCapacity check.ip check.order := by
    rcases checkInner_cases limiter check with ⟨panics, -⟩ | ⟨_, _, prunes', -, same⟩
    · rw [panics] at prunes
      cases prunes
    · obtain rfl := Option.some.inj (prunes'.symm.trans prunes)
      rw [same]
  refine ⟨pruned, ?_⟩
  rw [after, enforceCapacity_entries] at lost
  rw [← settings] at near ⊢
  generalize (pruned.account check.ip check.now).2 = state at *
  rcases turns_cases near with ⟨same, -⟩ | ⟨key, entry, same, -, found, least⟩
  · rw [same] at lost
    exact absurd counted lost
  · have exceeds : state.settings.maxEntries < state.entries.len := by
      by_contra fits
      have none : state.turns check = ([], .lengthTest) := evictTurns_of_le (not_lt.mp fits)
      rw [none] at same
      cases same
    have taken : key = ip := by
      by_contra ne
      rw [same] at lost
      exact lost (AList.mem_erase.mpr ⟨Ne.symm ne, counted⟩)
    subst taken
    exact ⟨entry, prunes, exceeds, found, least⟩

/-- An address that loses its entry to a check has at least as many others, checked
within one window up to that check, as the map holds. -/
theorem eviction_costs {settings : RateLimitSettings} {front : List Check} {check : Check}
    {ip : IpAddr} (evicts : ((withClock settings).after front).Evicts check ip) :
    max 1 settings.maxEntries ≤ (crowd settings ip front check).card := by
  have own : check.ip ≠ ip := by
    rintro rfl
    exact not_evicts_own _ _ evicts
  have sound := sound_after settings front
  obtain ⟨pruned, entry, prunes, exceeds, found, least⟩ := sound.evicts evicts
  have young : check.now.nanos ≤ entry.windowStart.nanos + (withClock settings).window.nanos := by
    obtain ⟨cutoff, cut, rfl⟩ := pruneStale_eq_some_iff.mp prunes
    simp only [account, AList.lookup_insert_ne (Ne.symm own)] at found
    have recent := (AList.mem_lookup_retain.mp found).2
    rw [decide_eq_true_eq, DateTime.le_iff, DateTime.checkedSub_eq_some_iff.mp cut,
      after_window] at recent
    omega
  have members : ∀ other ∈ (pruned.account check.ip check.now).2.entries,
      other ∈ insert ip (crowd settings ip front check) := by
    intro other member
    rw [Finset.mem_insert, mem_crowd]
    by_cases ne : other = ip
    · exact .inl ne
    by_cases latest : other = check.ip
    · refine .inr ⟨check, by simp, latest.symm, ne, ?_⟩
      have nonneg := (withClock settings).window_nonneg
      omega
    · obtain ⟨stored, lookup⟩ := Option.isSome_iff_exists.mp (AList.lookup_isSome.mpr member)
      have kept := (sound.counted prunes check.ip).2.2 other stored latest lookup
      have slot : stored.counter ∈ ((withClock settings).after front).slot other := by
        rw [slot, kept]
        rfl
      obtain ⟨seen, before, same, start⟩ := exists_of_slot other _ slot
      refine .inr ⟨seen, List.mem_append_left _ before, same, ne, ?_⟩
      have older := DateTime.le_iff.mp (least other stored latest lookup)
      rw [start]
      show _ ≤ stored.windowStart.nanos + _
      omega
  have size := (AList.len_le_card members).trans (Finset.card_insert_le _ _)
  rw [after_settings, withClock_maxEntries] at exceeds
  omega

/-! ## Isolation -/

/-- An address that no check finds a crowd for sees exactly the outcomes, waiting
times included, of a limiter that sees its checks only, however many addresses
the run has. -/
theorem outcomes_uncrowded (settings : RateLimitSettings) (run : List Check) (ip : IpAddr)
    (monotone : Monotone run)
    (room : ∀ check ∈ run, check.now.checkedSub (withClock settings).window ≠ none)
    (uncrowded : Uncrowded settings ip run) :
    (outcomesOf ip ((withClock settings).answers run)).map (Option.map Outcome.verdict) =
      (reference settings (readingsOf ip run)).map some := by
  have tracks : (withClock settings).Tracks ip none minUtc := .inl rfl
  have kept : ∀ front check back, run = front ++ check :: back →
      ¬((withClock settings).after front).Evicts check ip := by
    rintro front check back rfl evicts
    exact uncrowded.card_lt.not_ge (eviction_costs evicts)
  rw [outcomes_of_kept tracks (fun check _ => check.now.bounds.1) monotone room kept]
  simp only [reference, counterCheck, withClock_maxRequests, withClock_window, List.map_map]
  rfl

/-- Three addresses over a capacity of two, never three within one window: the
first is refused once. -/
theorem outcomes_uncrowded_of_three :
    let settings : RateLimitSettings := ⟨1, .fromSecs 60, 2⟩
    let first := IpAddr.v4 1
    let run : List Check :=
      [⟨.v4 2, .fromSecs 0, .stored⟩, ⟨first, .fromSecs 61, .stored⟩,
        ⟨.v4 3, .fromSecs 62, .stored⟩, ⟨first, .fromSecs 120, .stored⟩,
        ⟨first, .fromSecs 121, .stored⟩]
    (outcomesOf first ((withClock settings).answers run)).map (Option.map Outcome.verdict) =
      (reference settings (readingsOf first run)).map some :=
  outcomes_uncrowded _ _ _ (by decide) (by decide) (by decide)

/-! ## The rate between two readings -/

/-- A run on a clock that does not step back, split at a reading. -/
theorem Monotone.split {run : List Check} (monotone : Monotone run) (t : Int) :
    ∃ before rest, run = before ++ rest ∧ (∀ check ∈ before, check.now.nanos < t) ∧
      ∀ check ∈ rest, t ≤ check.now.nanos := by
  induction run with
  | nil =>
      exact ⟨[], [], rfl, List.forall_mem_nil _, List.forall_mem_nil _⟩
  | cons check run ih =>
      obtain ⟨ordered, monotone⟩ := List.pairwise_cons.mp monotone
      by_cases early : check.now.nanos < t
      · obtain ⟨before, rest, rfl, earlier, later⟩ := ih monotone
        exact ⟨check :: before, rest, rfl, List.forall_mem_cons.mpr ⟨early, earlier⟩, later⟩
      · refine ⟨[], check :: run, rfl, List.forall_mem_nil _,
          List.forall_mem_cons.mpr ⟨not_lt.mp early, ?_⟩⟩
        intro later member
        exact (not_lt.mp early).trans (DateTime.le_iff.mp (ordered later member))

/-- Along a run that does not evict it, an address keeps the sustained rate. -/
theorem sustained_of_kept {limiter : RateLimiter} {run : List Check} {ip : IpAddr}
    {counter : Option (FixedWindow.Counter Int)} {latest : Int} {past : List Int}
    (tracks : limiter.Tracks ip counter latest) (started : ∀ c ∈ counter, c.start ≤ latest)
    (sustained : FixedWindow.Sustained limiter.settings.maxRequests.toNat limiter.window.nanos past
      counter)
    (begun : ∀ check ∈ run, latest ≤ check.now.nanos) (monotone : Monotone run)
    (kept : ∀ front check back, run = front ++ check :: back →
      ¬(limiter.after front).Evicts check ip) (t : Int) (windows : Nat) :
    FixedWindow.acceptedWithin (windows • limiter.window.nanos)
      (past ++ acceptedAt ip (limiter.answers run)) t ≤
        (windows + 1) * limiter.settings.maxRequests.toNat := by
  induction run generalizing limiter counter latest past with
  | nil =>
      show FixedWindow.acceptedWithin _ (past ++ []) t ≤ _
      rw [List.append_nil]
      exact sustained.bounded t windows
  | cons check run ih =>
      obtain ⟨ordered, monotone⟩ := List.pairwise_cons.mp monotone
      obtain ⟨next, tracks, started, sustained⟩ := tracks.sustained started sustained
        (begun check (List.mem_cons_self ..)) (kept [] check run rfl)
      rw [← checkInner_settings limiter check, ← checkInner_window limiter check] at sustained
      have rest := ih tracks started sustained ordered monotone
        fun front later back split => kept (check :: front) later back (congrArg _ split)
      rwa [checkInner_settings, checkInner_window, List.append_assoc, ← acceptedAt_append] at rest

/-- What is accepted between two readings is accepted by the checks between them. -/
theorem acceptedWithin_between {limiter : RateLimiter} {before during later : List Check}
    {ip : IpAddr} {t span : Int} (earlier : ∀ check ∈ before, check.now.nanos < t)
    (beyond : ∀ check ∈ later, t + span ≤ check.now.nanos) :
    FixedWindow.acceptedWithin span (acceptedAt ip (limiter.answers (before ++ (during ++ later))))
        t =
      FixedWindow.acceptedWithin span
        (acceptedAt ip ((limiter.after before).answers during)) t := by
  have none : ∀ {limiter : RateLimiter} {run : List Check},
      (∀ check ∈ run, ¬(t ≤ check.now.nanos ∧ check.now.nanos < t + span)) →
        FixedWindow.acceptedWithin span (acceptedAt ip (limiter.answers run)) t = 0 := by
    intro limiter run outside
    refine List.countP_eq_zero.mpr fun a accepted => ?_
    obtain ⟨check, member, rfl, -⟩ := exists_of_mem_acceptedAt accepted
    simpa using outside check member
  have front : FixedWindow.acceptedWithin span (acceptedAt ip (limiter.answers before)) t = 0 :=
    none fun check member both => (earlier check member).not_ge both.1
  have back : FixedWindow.acceptedWithin span
      (acceptedAt ip (((limiter.after before).after during).answers later)) t = 0 :=
    none fun check member both => (beyond check member).not_gt both.2
  simp only [answers, after, FixedWindow.acceptedWithin] at front back ⊢
  rw [Mealy.trace_append, Mealy.trace_append, acceptedAt_append, acceptedAt_append,
    List.countP_append, List.countP_append, front, back]
  omega

/-- Who is accepted more often between two readings, any number of windows apart,
than the rate and one window's worth allow has had a crowd at some check between
them: as many other addresses as the map holds. -/
theorem evasion_costs (settings : RateLimitSettings) (run : List Check) (ip : IpAddr)
    (monotone : Monotone run) (t : Int) (windows : Nat)
    (exceeds : (windows + 1) * settings.maxRequests.toNat <
      FixedWindow.acceptedWithin (windows • (withClock settings).window.nanos)
        (acceptedAt ip ((withClock settings).answers run)) t) :
    ∃ front check back, run = front ++ check :: back ∧ t ≤ check.now.nanos ∧
      check.now.nanos < t + windows • (withClock settings).window.nanos ∧
      max 1 settings.maxEntries ≤ (crowd settings ip front check).card := by
  by_contra calm
  obtain ⟨before, rest, rfl, earlier, begun⟩ := monotone.split t
  have monotone := (List.pairwise_append.mp monotone).2.1
  obtain ⟨during, later, rfl, within, beyond⟩ :=
    Monotone.split monotone (t + windows • (withClock settings).window.nanos)
  rw [acceptedWithin_between earlier beyond] at exceeds
  have sound := sound_after settings before
  have counts : ∀ c ∈ ((withClock settings).after before).slot ip,
      c.count ≤ ((withClock settings).after before).settings.maxRequests.toNat := by
    intro c found
    obtain ⟨entry, stored, rfl⟩ := Option.map_eq_some_iff.mp found
    exact sound.counts ip entry stored
  obtain ⟨past, sustained⟩ := FixedWindow.Sustained.of_counter
    (window_nonneg ((withClock settings).after before)) counts
  have started : ∀ c ∈ ((withClock settings).after before).slot ip, c.start ≤ t := by
    intro c found
    obtain ⟨check, member, -, start⟩ := exists_of_slot ip c found
    exact start ▸ (earlier check member).le
  have kept : ∀ front check back, during = front ++ check :: back →
      ¬(((withClock settings).after before).after front).Evicts check ip := by
    rintro front check back rfl evicts
    rw [RateLimiter.after, RateLimiter.after, ← Mealy.final_append] at evicts
    refine calm ⟨before ++ front, check, back ++ later, by simp, ?_, ?_, eviction_costs evicts⟩
    · exact begun check (by simp)
    · exact within check (by simp)
  have bounded := sustained_of_kept (.inl rfl) started sustained
    (fun check member => begun check (List.mem_append_left _ member))
    (List.pairwise_append.mp monotone).1 kept t windows
  rw [after_settings, after_window, withClock_maxRequests, FixedWindow.acceptedWithin,
    List.countP_append] at bounded
  rw [FixedWindow.acceptedWithin] at exceeds
  omega

/-- One check a window, a capacity of one: a client is accepted three times within
one window, another one having been checked after each of its first two. -/
theorem evasion_costs_of_two :
    let settings : RateLimitSettings := ⟨1, .fromSecs 60, 1⟩
    let first := IpAddr.v4 1
    let run : List Check :=
      [⟨first, .fromSecs 0, .stored⟩, ⟨.v4 2, .fromSecs 1, .stored⟩,
        ⟨first, .fromSecs 2, .stored⟩, ⟨.v4 2, .fromSecs 3, .stored⟩,
        ⟨first, .fromSecs 4, .stored⟩]
    ∃ front check back, run = front ++ check :: back ∧ 0 ≤ check.now.nanos ∧
      check.now.nanos < 0 + 1 • (withClock settings).window.nanos ∧
      max 1 settings.maxEntries ≤ (crowd settings first front check).card :=
  evasion_costs ⟨1, .fromSecs 60, 1⟩ _ _ (by decide) 0 1 (by decide)

end RateLimiter

end Fingermouse
