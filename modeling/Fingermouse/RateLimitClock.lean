import Fingermouse.Config
import Fingermouse.RateLimitRuns

/-!
# The rate limiter and its clock

What the limiter's arithmetic does at the limits of its types and on a clock
that steps back.

* `window_kept_iff`: which configured windows are enforced at every reading of
  the years 1970 to 9999.
* `wait_le_window_iff`: which refusals announce at most one window.
* `wait_honoured`: a client that waits as announced is accepted.
-/

namespace Fingermouse

open Chrono

namespace RateLimiter

/-! ## The configured window -/

/-- The window in force is the configured one wherever `chrono` can represent
it. -/
theorem chronoDuration_nanos {window : Duration} (fits : (window.nanos : Int) ≤ maxDelta) :
    (chronoDuration window).nanos = window.nanos := by
  rw [chronoDuration, TimeDelta.fromStd, dif_pos fits]
  rfl

/-- A window out of `chrono`'s range is silently one of a second. -/
theorem chronoDuration_of_gt {window : Duration} (large : maxDelta < (window.nanos : Int)) :
    chronoDuration window = .oneSecond := by
  rw [chronoDuration, TimeDelta.fromStd, dif_neg large.not_ge]
  rfl

theorem chronoDuration_nanos_iff (window : Duration) :
    (chronoDuration window).nanos = window.nanos ↔ (window.nanos : Int) ≤ maxDelta := by
  refine ⟨fun same => ?_, chronoDuration_nanos⟩
  rw [← same]
  exact (chronoDuration window).bounds.2

theorem chronoDuration_fromSecs_iff {secs : UInt64} :
    (chronoDuration (.fromSecs secs)).nanos = secs.toNat * 1000000000 ↔
      secs.toNat ≤ 9223372036854775 := by
  have fits := chronoDuration_nanos_iff (.fromSecs secs)
  simp only [Duration.fromSecs, Nat.cast_mul, Nat.cast_ofNat, maxDelta] at fits ⊢
  rw [fits]
  omega

/-- A reading leaves room for a window that starts no earlier than the first
instant. -/
theorem checkedSub_ne_none_iff (now : DateTime) {window : TimeDelta} (nonneg : 0 ≤ window.nanos) :
    now.checkedSub window ≠ none ↔ window.nanos ≤ now.nanos - minUtc := by
  have := now.bounds
  unfold DateTime.checkedSub
  split_ifs with fits
  · simp only [ne_eq, reduceCtorEq, not_false_eq_true, true_iff]
    omega
  · simp only [ne_eq, not_true_eq_false, false_iff]
    omega

/-- The check answers and counts as a fixed window of the given length does;
in particular it does not panic. -/
structure Enforces (limiter : RateLimiter) (window : Int) (check : Check) : Prop where
  exact : limiter.window.nanos = window
  answer : (limiter.checkInner check).1.map Outcome.verdict =
    some (FixedWindow.check limiter.settings.maxRequests.toNat window (limiter.slot check.ip)
      check.now.nanos).1
  counter : (limiter.checkInner check).2.slot check.ip =
    (FixedWindow.check limiter.settings.maxRequests.toNat window (limiter.slot check.ip)
      check.now.nanos).2

theorem enforces_iff {limiter : RateLimiter} {window : Int} {check : Check} :
    limiter.Enforces window check ↔
      limiter.window.nanos = window ∧ window ≤ check.now.nanos - minUtc := by
  have room := checkedSub_ne_none_iff check.now limiter.window_nonneg
  refine ⟨fun enforces => ⟨enforces.exact, ?_⟩, fun fits => ?_⟩
  · rw [← enforces.exact, ← room]
    intro panics
    have answer := enforces.answer
    rw [checkInner_of_panics panics] at answer
    cases answer
  · obtain ⟨exact, early⟩ := fits
    rw [← exact, ← room] at early
    rcases checkInner_own limiter check with ⟨panics, -⟩ | ⟨answer, counter⟩
    · exact absurd panics early
    · rw [counterCheck, exact] at answer counter
      exact ⟨exact, answer, counter⟩

/-- A clock reading of the years 1970 to 9999. -/
def PresentDay (now : DateTime) : Prop :=
  0 ≤ now.nanos ∧ now.nanos < 253402300800 * 1000000000

instance (now : DateTime) : Decidable (PresentDay now) :=
  inferInstanceAs (Decidable (_ ∧ _))

/-- `chrono` represents the window, and the instant one window before the
reading. -/
def WindowFits (secs : UInt64) (now : DateTime) : Prop :=
  secs.toNat ≤ 9223372036854775 ∧ (secs.toNat * 1000000000 : Int) ≤ now.nanos - minUtc

/-- In every run at present-day readings, every check enforces the window. -/
def KeepsWindow (settings : RateLimitSettings) (secs : UInt64) : Prop :=
  ∀ (run : List Check) (check : Check), (∀ c ∈ run, PresentDay c.now) → PresentDay check.now →
    ((withClock settings).after run).Enforces (secs.toNat * 1000000000) check

theorem enforces_after_iff {maxRequests : UInt32} {secs : UInt64} {maxEntries : Nat}
    {run : List Check} {check : Check} :
    ((withClock ⟨maxRequests, .fromSecs secs, maxEntries⟩).after run).Enforces
      (secs.toNat * 1000000000) check ↔ WindowFits secs check.now := by
  rw [enforces_iff, after_window, withClock_window, chronoDuration_fromSecs_iff, WindowFits]

/-- The window of an accepted configuration is enforced at a reading exactly
where the clock arithmetic fits, and at all present-day readings exactly up to
8334601228800 seconds. -/
theorem window_kept_iff (cli : CliOptions) (config : ServerConfig)
    (built : ServerConfig.fromCli cli = .ok config) :
    (∀ (run : List Check) (check : Check),
      ((withClock config.rate).after run).Enforces
          ((max cli.rateWindowSecs 1).toNat * 1000000000) check ↔
        WindowFits (max cli.rateWindowSecs 1) check.now) ∧
    (KeepsWindow config.rate (max cli.rateWindowSecs 1) ↔
      cli.rateWindowSecs.toNat ≤ 8334601228800) := by
  have raised : (max cli.rateWindowSecs 1).toNat = max cli.rateWindowSecs.toNat 1 := by
    rw [UInt64.toNat_max]
    rfl
  rw [ServerConfig.fromCli_rate built]
  refine ⟨fun run check => enforces_after_iff, fun keeps => ?_, fun small run check _ present => ?_⟩
  · -- The earliest present-day reading leaves the least room.
    have first := enforces_after_iff.mp (keeps [] ⟨.v4 0, .fromSecs 0, .stored⟩
      (fun c member => by cases member) (by decide))
    have early := first.2
    simp only [DateTime.fromSecs, minUtc, UInt32.toNat_zero] at early
    omega
  · rw [enforces_after_iff, WindowFits, minUtc]
    have := present.1
    omega

/-- The default window of a minute is kept. -/
theorem window_kept_of_default : KeepsWindow ServerConfig.ofDefault.rate 60 :=
  (window_kept_iff .default .ofDefault ServerConfig.fromCli_default).2.mpr (by decide)

/-- A window of 10^13 seconds, accepted as an option, starts before the first
instant of `chrono`: the check of a client in 2025 panics. -/
theorem window_overflows :
    ¬∀ (cli : CliOptions) (config : ServerConfig), ServerConfig.fromCli cli = .ok config →
      KeepsWindow config.rate (max cli.rateWindowSecs 1) := by
  intro kept
  have built : ServerConfig.fromCli { CliOptions.default with rateWindowSecs := 10000000000000 } =
      .ok { ServerConfig.ofDefault with
        rate := ⟨30, .fromSecs 10000000000000, 8192⟩ } := by
    have host : HostName.parse CliOptions.default.defaultHost = .ok ServerConfig.localhost :=
      HostName.parse_text ServerConfig.localhost
    simp only [ServerConfig.fromCli, host]
    rfl
  have enforces := kept _ _ built [] ⟨.v4 1, .fromSecs 1735689600, .stored⟩
    (fun c member => by cases member) (by decide)
  have answer := enforces.answer
  rw [checkInner_of_panics (by decide)] at answer
  cases answer

/-! ## Waits on a clock that steps back -/

/-- The reading does not precede the stored window of the checked address.  A
window out of `chrono`'s range is exempt: the second that replaces it leaves
room for any step back. -/
def StartedBy (limiter : RateLimiter) (check : Check) : Prop :=
  (limiter.settings.window.nanos : Int) ≤ maxDelta →
    ∀ entry ∈ limiter.entries.lookup check.ip, entry.windowStart ≤ check.now

instance (limiter : RateLimiter) (check : Check) : Decidable (limiter.StartedBy check) :=
  inferInstanceAs (Decidable (_ → ∀ entry ∈ limiter.entries.lookup check.ip,
    entry.windowStart ≤ check.now))

theorem forall_slot_iff {limiter : RateLimiter} {ip : IpAddr} {now : DateTime} :
    (∀ c ∈ limiter.slot ip, c.start ≤ now.nanos) ↔
      ∀ entry ∈ limiter.entries.lookup ip, entry.windowStart ≤ now := by
  simp only [slot, Option.mem_map, forall_exists_index, and_imp, forall_apply_eq_imp_iff₂]
  rfl

/-- One refusal announces at most the configured window exactly where its
reading does not precede the stored window. -/
theorem wait_le_iff {limiter : RateLimiter} {check : Check} {retryIn : Duration}
    (refused : (limiter.checkInner check).1 = some (.error (.limitExceeded retryIn))) :
    retryIn.nanos ≤ limiter.settings.window.nanos ↔ limiter.StartedBy check := by
  have verdict := congrArg Prod.fst (counterCheck_of_refused refused)
  by_cases fits : (limiter.settings.window.nanos : Int) ≤ maxDelta
  · have bound := FixedWindow.retry_le_iff limiter.window_nonneg verdict
    rw [forall_slot_iff, limiter.window_eq, chronoDuration_nanos fits, Int.ofNat_le] at bound
    rw [bound, StartedBy, forall_prop_of_true fits]
  · -- No two instants are far enough apart to make a second this long.
    refine iff_of_true ?_ fun fits' => absurd fits' fits
    have started : (FixedWindow.current limiter.window.nanos (limiter.slot check.ip)
        check.now.nanos).start ≤ maxUtc := by
      rw [slot, ← freshen_counter]
      exact (freshen limiter.window (limiter.entries.lookup check.ip)
        check.now).windowStart.bounds.2
    have retry := (FixedWindow.retry_of_refused verdict).2
    rw [limiter.window_eq, chronoDuration_of_gt (not_le.mp fits)] at retry started
    have := check.now.bounds
    simp only [TimeDelta.oneSecond, minUtc, maxUtc, maxDelta] at *
    omega

/-- In every run whose readings do not precede the windows they meet, no
refusal announces more than the configured window; in any run, a refusal does
exactly where its own reading does precede the stored window. -/
theorem wait_le_window_iff (settings : RateLimitSettings) :
    (∀ run : List Check, Mealy.AllSteps checkInner StartedBy (withClock settings) run →
      ∀ (check : Check) (retryIn : Duration),
        (check, some (.error (.limitExceeded retryIn))) ∈ (withClock settings).answers run →
        retryIn.nanos ≤ settings.window.nanos) ∧
    ∀ (run : List Check) (check : Check) (retryIn : Duration),
      (checkInner ((withClock settings).after run) check).1 =
        some (.error (.limitExceeded retryIn)) →
      (retryIn.nanos ≤ settings.window.nanos ↔
        ((withClock settings).after run).StartedBy check) := by
  have window : ∀ run, ((withClock settings).after run).settings.window = settings.window := by
    intro run
    rw [after_settings, withClock]
    split_ifs <;> rfl
  refine ⟨fun run steps check retryIn answered => ?_, fun run check retryIn refused => ?_⟩
  · obtain ⟨front, back, rfl, refused⟩ := Mealy.exists_of_mem_trace answered
    rw [← window front]
    exact (wait_le_iff refused).mpr steps.of_append
  · rw [← window run]
    exact wait_le_iff refused

/-- One request a minute: refused five seconds later, the client waits for the
rest of the minute. -/
theorem wait_within_minute :
    let settings : RateLimitSettings := ⟨1, .fromSecs 60, 8⟩
    let refused : Check := ⟨.v4 1, .fromSecs 5, .stored⟩
    let answered := (withClock settings).answers [⟨.v4 1, .fromSecs 0, .stored⟩, refused]
    (refused, some (.error (.limitExceeded (.fromSecs 55)))) ∈ answered ∧
      (Duration.fromSecs 55).nanos ≤ settings.window.nanos := by
  have answered : (⟨.v4 1, .fromSecs 5, .stored⟩, some (.error (.limitExceeded (.fromSecs 55)))) ∈
      (withClock ⟨1, .fromSecs 60, 8⟩).answers
        [⟨.v4 1, .fromSecs 0, .stored⟩, ⟨.v4 1, .fromSecs 5, .stored⟩] :=
    List.mem_cons_of_mem _ (List.mem_singleton_self _)
  exact ⟨answered, (wait_le_window_iff ⟨1, .fromSecs 60, 8⟩).1 _ (by decide) _ _ answered⟩

/-- The clock steps back by 50 seconds after an accepted check: the client is
told to wait for 110 seconds, nearly two windows. -/
theorem wait_exceeds_window :
    ¬∀ (settings : RateLimitSettings) (run : List Check) (check : Check) (retryIn : Duration),
      (check, some (.error (.limitExceeded retryIn))) ∈ (withClock settings).answers run →
      retryIn.nanos ≤ settings.window.nanos := by
  intro bounded
  have long := bounded ⟨1, .fromSecs 60, 8⟩
    [⟨.v4 1, .fromSecs 100, .stored⟩, ⟨.v4 1, .fromSecs 50, .stored⟩]
    ⟨.v4 1, .fromSecs 50, .stored⟩ (.fromSecs 110)
    (List.mem_cons_of_mem _ (List.mem_singleton_self _))
  revert long
  decide

/-! ## Waits that are honoured -/

/-- The counter of an address that makes no check stays, or goes. -/
theorem slot_after_of_absent (limiter : RateLimiter) {run : List Check} {ip : IpAddr}
    (absent : ∀ check ∈ run, check.ip ≠ ip) :
    (limiter.after run).slot ip = limiter.slot ip ∨ (limiter.after run).slot ip = none := by
  refine Mealy.final_invariant
    (fun _ (now : RateLimiter) => now.slot ip = limiter.slot ip ∨ now.slot ip = none)
    (.inl rfl) ?_
  intro front check back split before
  have other : ip ≠ check.ip := (absent check (by simp [split])).symm
  rcases checkInner_other (limiter.after front) check other with same | ⟨gone, -⟩
  · rw [same]
    exact before
  · exact .inr gone

/-- The wait of a refusal comes out of the clock arithmetic, never out of the
fallback of `to_std`. -/
theorem exists_remaining_of_refused {limiter : RateLimiter} {check : Check} {retryIn : Duration}
    (refused : (limiter.checkInner check).1 = some (.error (.limitExceeded retryIn))) :
    ∃ pruned remaining, limiter.pruneStale check.now = some pruned ∧
      pruned.window.checkedSub (check.now.since
        (freshen pruned.window (pruned.entries.lookup check.ip) check.now).windowStart) =
          some remaining ∧
      remaining.toStd = some retryIn := by
  cases prunes : limiter.pruneStale check.now with
  | none =>
      simp only [checkInner, prunes] at refused
      cases refused
  | some pruned =>
      rw [checkInner_fst prunes] at refused
      have window : pruned.window = limiter.window := by
        obtain ⟨_, -, rfl⟩ := pruneStale_eq_some_iff.mp prunes
        rfl
      obtain ⟨cutoff, room, -⟩ := pruneStale_eq_some_iff.mp prunes
      rw [← window] at room
      obtain ⟨remaining, std, exact, std_eq, -⟩ :=
        exists_remaining (pruned.entries.lookup check.ip) pruned.window_nonneg room
      refine ⟨pruned, remaining, rfl, exact, ?_⟩
      simp only [account, touch] at refused
      split_ifs at refused with full
      · simp only [exact] at refused
        cases refused
        rw [std_eq, Option.getD_some]
      · cases refused

/-- The counter a refusal leaves ends when the announced wait does. -/
theorem deadline_of_refused {limiter : RateLimiter} {check : Check} {retryIn : Duration}
    (refused : (limiter.checkInner check).1 = some (.error (.limitExceeded retryIn))) :
    ∀ c ∈ (limiter.checkInner check).2.slot check.ip,
      c.start + (limiter.checkInner check).2.window.nanos = check.now.nanos + retryIn.nanos := by
  have verdict := congrArg Prod.fst (counterCheck_of_refused refused)
  intro c found
  rcases checkInner_own limiter check with ⟨-, same⟩ | ⟨-, next⟩
  · rw [same] at refused
    cases refused
  · obtain ⟨d, left, -, ends⟩ := FixedWindow.deadline_of_refused (Prod.ext verdict next.symm)
    obtain rfl : c = d := Option.some.inj (found.symm.trans left)
    rw [checkInner_window, ends]

/-- A check that finds its address's window over is accepted. -/
theorem accepted_of_restarts {limiter : RateLimiter} {check : Check}
    (positive : 0 < limiter.settings.maxRequests)
    (room : check.now.checkedSub limiter.window ≠ none)
    (restarts : FixedWindow.Restarts limiter.window.nanos (limiter.slot check.ip)
      check.now.nanos) :
    (limiter.checkInner check).1 = some (.ok ()) := by
  rcases checkInner_own limiter check with ⟨panics, -⟩ | ⟨answer, -⟩
  · exact absurd panics room
  · rw [Outcome.eq_ok_iff answer, counterCheck, FixedWindow.check_accepted_iff,
      FixedWindow.current_of_restarts restarts]
    exact positive

/-- A refusal asks for a positive wait, computed by the clock arithmetic and
not by the fallback of `to_std`, and a client that makes no check until the
wait is over is accepted, whatever the checks of others did meanwhile. -/
theorem wait_honoured (settings : RateLimitSettings) (before between : List Check)
    (refused later : Check) (retryIn : Duration) (positive : 0 < settings.maxRequests)
    (limited : (checkInner ((withClock settings).after before) refused).1 =
      some (.error (.limitExceeded retryIn)))
    (absent : ∀ check ∈ between, check.ip ≠ refused.ip) (same : later.ip = refused.ip)
    (waited : refused.now.nanos + retryIn.nanos ≤ later.now.nanos) :
    0 < retryIn.nanos ∧
    (∃ pruned remaining,
      ((withClock settings).after before).pruneStale refused.now = some pruned ∧
      pruned.window.checkedSub (refused.now.since
        (freshen pruned.window (pruned.entries.lookup refused.ip) refused.now).windowStart) =
          some remaining ∧
      remaining.toStd = some retryIn) ∧
    (checkInner ((withClock settings).after (before ++ refused :: between)) later).1 =
      some (.ok ()) := by
  have verdict := congrArg Prod.fst (counterCheck_of_refused limited)
  have asked : (0 : Int) < retryIn.nanos := by
    refine FixedWindow.retry_pos ?_ verdict
    rw [after_settings, withClock_maxRequests]
    exact positive
  refine ⟨Int.natCast_pos.mp asked, exists_remaining_of_refused limited, ?_⟩
  have step : (withClock settings).after (before ++ refused :: between) =
      (checkInner ((withClock settings).after before) refused).2.after between := by
    rw [after, Mealy.final_append, Mealy.final_cons]
  rw [step]
  apply accepted_of_restarts
  · rwa [after_settings, checkInner_settings, after_settings, withClock_maxRequests]
  · -- The refused check had room for the window, and the later one reads no less.
    rw [after_window, checkInner_window]
    have ordered : refused.now ≤ later.now := DateTime.le_iff.mpr (by omega)
    intro panics
    rw [checkInner_of_panics (DateTime.checkedSub_of_le (window_nonneg _) ordered panics)]
      at limited
    cases limited
  · rw [after_window, same]
    rcases slot_after_of_absent (checkInner ((withClock settings).after before) refused).2 absent
      with kept | gone
    · rw [kept]
      intro c found
      have ends := deadline_of_refused limited c found
      omega
    · rw [gone]
      intro c found
      cases found

/-- One request a minute: the client refused at second 5 comes back at second
60, another one having called in between. -/
theorem wait_honoured_of_minute :
    let settings : RateLimitSettings := ⟨1, .fromSecs 60, 8⟩
    0 < (Duration.fromSecs 55).nanos ∧
    (∃ pruned remaining,
      ((withClock settings).after [⟨.v4 1, .fromSecs 0, .stored⟩]).pruneStale (.fromSecs 5) =
        some pruned ∧
      pruned.window.checkedSub ((DateTime.fromSecs 5).since
        (freshen pruned.window (pruned.entries.lookup (.v4 1)) (.fromSecs 5)).windowStart) =
          some remaining ∧
      remaining.toStd = some (.fromSecs 55)) ∧
    (checkInner ((withClock settings).after [⟨.v4 1, .fromSecs 0, .stored⟩,
      ⟨.v4 1, .fromSecs 5, .stored⟩, ⟨.v4 2, .fromSecs 6, .stored⟩])
      ⟨.v4 1, .fromSecs 60, .stored⟩).1 = some (.ok ()) :=
  wait_honoured ⟨1, .fromSecs 60, 8⟩ [⟨.v4 1, .fromSecs 0, .stored⟩]
    [⟨.v4 2, .fromSecs 6, .stored⟩] ⟨.v4 1, .fromSecs 5, .stored⟩ ⟨.v4 1, .fromSecs 60, .stored⟩
    (.fromSecs 55) (by decide) rfl (by decide) rfl (by decide)

end RateLimiter

end Fingermouse
