import Mathlib.Algebra.Order.Group.Basic
import Mathlib.Data.List.Basic
import Mathlib.Tactic.Abel
import Mathlib.Tactic.Common

/-!
# Fixed-window counters

One pair of a window start and a count limits one client: the pair restarts
once its window is over, and refuses when the count has reached the limit.
The clock is any ordered group.

* `check_of_full` and `deadline_of_refused`: all refusals out of one window
  name one deadline, and every check before it is refused.
* `RollingSafe.check`: the counter keeps the rolling-window bound through a
  check, provided a restart finds every accepted reading old enough.
* `Earned.check`: a counter that refuses has accepted its limit in its window.
* `Sustained.check`: over any number of windows the counter accepts at most one
  window's worth more than the rate allows.
-/

namespace FixedWindow

/-- What a limiter stores for one client. -/
structure Counter (τ : Type) where
  start : τ
  count : Nat
deriving DecidableEq

/-- The answer to a check; a refusal says how long to wait. -/
inductive Verdict (τ : Type)
  | accepted
  | refused (retry : τ)
deriving DecidableEq

variable {τ : Type} [AddCommGroup τ] [LinearOrder τ]

/-! ## The counter -/

/-- No window covers the reading: a check there starts a new one. -/
def Restarts (window : τ) (slot : Option (Counter τ)) (now : τ) : Prop :=
  ∀ c ∈ slot, window ≤ now - c.start

instance (window : τ) (slot : Option (Counter τ)) (now : τ) :
    Decidable (Restarts window slot now) :=
  inferInstanceAs (Decidable (∀ c ∈ slot, window ≤ now - c.start))

/-- The counter a check works on. -/
def current (window : τ) (slot : Option (Counter τ)) (now : τ) : Counter τ :=
  match slot with
  | none => ⟨now, 0⟩
  | some c => if window ≤ now - c.start then ⟨now, 0⟩ else c

/-- One check: the verdict and the counter it leaves. -/
def check (limit : Nat) (window : τ) (slot : Option (Counter τ)) (now : τ) :
    Verdict τ × Option (Counter τ) :=
  let c := current window slot now
  if limit ≤ c.count then (.refused (window - (now - c.start)), some c)
  else (.accepted, some { c with count := c.count + 1 })

theorem current_of_restarts {window now : τ} {slot : Option (Counter τ)}
    (restarts : Restarts window slot now) : current window slot now = ⟨now, 0⟩ := by
  cases slot with
  | none => rfl
  | some c => exact if_pos (restarts c rfl)

/-- A check works on a new counter or on the stored one within its window. -/
theorem current_cases (window now : τ) (slot : Option (Counter τ)) :
    (Restarts window slot now ∧ current window slot now = ⟨now, 0⟩) ∨
      ∃ c, slot = some c ∧ now - c.start < window ∧ current window slot now = c := by
  by_cases restarts : Restarts window slot now
  · exact .inl ⟨restarts, current_of_restarts restarts⟩
  · simp only [Restarts, not_forall, not_le] at restarts
    obtain ⟨c, rfl, within⟩ := restarts
    exact .inr ⟨c, rfl, within, if_neg within.not_ge⟩

theorem check_accepted_iff {limit : Nat} {window now : τ} {slot : Option (Counter τ)} :
    (check limit window slot now).1 = .accepted ↔ (current window slot now).count < limit := by
  simp only [check]
  split_ifs with full
  · simp [full]
  · simpa using full

/-- The counter a check works on is no older than its window. -/
theorem age_current_le {window : τ} (nonneg : 0 ≤ window) (now : τ) (slot : Option (Counter τ)) :
    now - (current window slot now).start ≤ window := by
  rcases current_cases window now slot with ⟨-, same⟩ | ⟨c, -, within, same⟩
  · rwa [same, sub_self]
  · rw [same]
    exact within.le

/-- A counter whose window is over is as good as none. -/
theorem check_of_restarts {limit : Nat} {window now : τ} {slot : Option (Counter τ)}
    (restarts : Restarts window slot now) :
    check limit window slot now = check limit window none now := by
  simp only [check, current_of_restarts restarts]
  rfl

/-- A stored window starts where it did before, or at the reading of the check. -/
theorem start_of_check {limit : Nat} {window now : τ} {slot : Option (Counter τ)} :
    ∀ c ∈ (check limit window slot now).2, c.start = now ∨ ∃ old ∈ slot, old.start = c.start := by
  have current_start : (current window slot now).start = now ∨
      ∃ old ∈ slot, old.start = (current window slot now).start := by
    rcases current_cases window now slot with ⟨-, same⟩ | ⟨c, found, -, same⟩
    · exact .inl (by rw [same])
    · exact .inr ⟨c, found, by rw [same]⟩
  intro c found
  simp only [check] at found
  split_ifs at found <;> cases found <;> exact current_start

theorem start_le_of_check {limit : Nat} {window now bound : τ} {slot : Option (Counter τ)}
    (started : ∀ c ∈ slot, c.start ≤ bound) (reading : now ≤ bound) :
    ∀ c ∈ (check limit window slot now).2, c.start ≤ bound := by
  intro c found
  rcases start_of_check c found with same | ⟨old, stored, same⟩
  · rwa [same]
  · rw [← same]
    exact started old stored

/-- Repeating a check at one reading raises the count by one at most. -/
theorem count_current_check_le (limit : Nat) (window now : τ) (slot : Option (Counter τ)) :
    (current window (check limit window slot now).2 now).count ≤
      (current window slot now).count + 1 := by
  rcases current_cases window now (check limit window slot now).2 with
    ⟨-, same⟩ | ⟨c, found, -, same⟩
  · rw [same]
    exact Nat.zero_le _
  · rw [same]
    simp only [check] at found
    split_ifs at found <;> cases found
    · exact Nat.le_succ _
    · exact le_rfl

/-! ## Deadlines -/

section Deadlines

/-- A refusal leaves a full counter whose window ends when the wait does. -/
theorem deadline_of_refused {limit : Nat} {window now retry : τ} {slot next : Option (Counter τ)}
    (refused : check limit window slot now = (.refused retry, next)) :
    ∃ c, next = some c ∧ limit ≤ c.count ∧ now + retry = c.start + window := by
  simp only [check] at refused
  split_ifs at refused with full
  · simp only [Prod.mk.injEq, Verdict.refused.injEq] at refused
    obtain ⟨rfl, rfl⟩ := refused
    exact ⟨_, rfl, full, by abel⟩
  · simp at refused

/-- A refusal announces what is left of the window. -/
theorem retry_of_refused {limit : Nat} {window now retry : τ} {slot : Option (Counter τ)}
    (refused : (check limit window slot now).1 = .refused retry) :
    limit ≤ (current window slot now).count ∧
      retry = window - (now - (current window slot now).start) := by
  simp only [check] at refused
  split_ifs at refused with full
  cases refused
  exact ⟨full, rfl⟩

variable [IsOrderedAddMonoid τ]

/-- A wait exceeds the window exactly where the stored window starts after the
reading. -/
theorem retry_le_iff {limit : Nat} {window now retry : τ} {slot : Option (Counter τ)}
    (nonneg : 0 ≤ window) (refused : (check limit window slot now).1 = .refused retry) :
    retry ≤ window ↔ ∀ c ∈ slot, c.start ≤ now := by
  rw [(retry_of_refused refused).2, sub_le_self_iff, sub_nonneg]
  rcases current_cases window now slot with ⟨restarts, same⟩ | ⟨c, rfl, -, same⟩
  · rw [same]
    refine iff_of_true le_rfl fun c found => ?_
    exact sub_nonneg.mp (le_trans nonneg (restarts c found))
  · rw [same]
    refine ⟨fun started d found => ?_, fun started => started c rfl⟩
    cases found
    exact started

/-- Where the limit admits a check at all, every refusal asks for a wait. -/
theorem retry_pos {limit : Nat} {window now retry : τ} {slot : Option (Counter τ)}
    (positive : 0 < limit) (refused : (check limit window slot now).1 = .refused retry) :
    0 < retry := by
  obtain ⟨full, rfl⟩ := retry_of_refused refused
  rcases current_cases window now slot with ⟨-, same⟩ | ⟨c, -, within, same⟩
  · rw [same] at full
    exact absurd full positive.not_ge
  · rw [same, sub_pos]
    exact within

/-- Within its window a full counter refuses, and its answers add up to one
deadline. -/
theorem check_of_full {limit : Nat} {window now : τ} {c : Counter τ} (full : limit ≤ c.count)
    (early : now < c.start + window) :
    check limit window (some c) now = (.refused (c.start + window - now), some c) := by
  have within : ¬window ≤ now - c.start := by
    rw [not_le]
    exact sub_lt_iff_lt_add'.mpr early
  have retry : window - (now - c.start) = c.start + window - now := by abel
  simp only [check, current, if_neg within, if_pos full, retry]

end Deadlines

/-! ## The rolling window -/

/-- Accepted readings within a half-open interval of the given length. -/
def acceptedWithin (span : τ) (past : List τ) (t : τ) : Nat :=
  past.countP fun a => t ≤ a ∧ a < t + span

/-- No interval holds more accepted readings than the limit, and the counter
knows all those that a coming check may share an interval with. -/
structure RollingSafe (limit : Nat) (span : τ) (past : List τ) (slot : Option (Counter τ)) :
    Prop where
  bounded : ∀ t, acceptedWithin span past t ≤ limit
  counted : ∀ c ∈ slot, past.countP (fun a => c.start < a + span) ≤ c.count

theorem RollingSafe.init (limit : Nat) (span : τ) : RollingSafe limit span [] none :=
  ⟨fun _ => Nat.zero_le _, fun _ found => by cases found⟩

/-- Losing the counter loses no safety: the next check restarts. -/
theorem RollingSafe.forget {limit : Nat} {span : τ} {past : List τ} {slot : Option (Counter τ)}
    (safe : RollingSafe limit span past slot) : RollingSafe limit span past none :=
  ⟨safe.bounded, fun _ found => by cases found⟩

variable [IsOrderedAddMonoid τ]

/-- Readings that share an interval with a reading not before the counter's
start are readings the counter knows. -/
theorem acceptedWithin_le_counted {span now t : τ} {c : Counter τ} (past : List τ)
    (started : c.start ≤ now) (covers : now < t + span) :
    acceptedWithin span past t ≤ past.countP (fun a => c.start < a + span) := by
  refine List.countP_mono_left fun a _ within => ?_
  simp only [decide_eq_true_eq] at within ⊢
  calc c.start ≤ now := started
    _ < t + span := covers
    _ ≤ a + span := by
      have := within.1
      gcongr

/-- A check keeps the bound, provided a restart finds every accepted reading
at least one interval old. -/
theorem RollingSafe.check {limit : Nat} {window span now : τ} {past : List τ}
    {slot : Option (Counter τ)} (safe : RollingSafe limit span past slot)
    (started : ∀ c ∈ slot, c.start ≤ now)
    (clean : Restarts window slot now → ∀ a ∈ past, a + span ≤ now) :
    RollingSafe limit span
      (if (FixedWindow.check limit window slot now).1 = .accepted then past ++ [now] else past)
      (FixedWindow.check limit window slot now).2 := by
  have known : (current window slot now).start ≤ now ∧
      past.countP (fun a => (current window slot now).start < a + span) ≤
        (current window slot now).count := by
    rcases current_cases window now slot with ⟨restarts, same⟩ | ⟨c, found, -, same⟩
    · rw [same]
      refine ⟨le_rfl, Nat.le_of_eq (List.countP_eq_zero.mpr fun a member => ?_)⟩
      simpa using clean restarts a member
    · rw [same]
      exact ⟨started c found, safe.counted c found⟩
  obtain ⟨begun, counted⟩ := known
  simp only [FixedWindow.check]
  split_ifs with full accepted accepted
  · cases accepted
  · exact ⟨safe.bounded, fun c found => by cases found; exact counted⟩
  · refine ⟨fun t => ?_, fun c found => ?_⟩
    · simp only [acceptedWithin, List.countP_append, List.countP_singleton]
      by_cases covers : now < t + span
      · have fits := acceptedWithin_le_counted past begun covers
        simp only [acceptedWithin] at fits
        split <;> omega
      · have bounded := safe.bounded t
        simp only [acceptedWithin] at bounded
        simpa [covers] using bounded
    · cases found
      simp only [List.countP_append, List.countP_singleton]
      split <;> omega
  · exact absurd rfl accepted

/-! ## Earned refusals -/

/-- Every check a counter counts was accepted since the counter's start. -/
def Earned (past : List τ) (slot : Option (Counter τ)) : Prop :=
  ∀ c ∈ slot, c.count ≤ past.countP (fun a => c.start ≤ a)

omit [AddCommGroup τ] [IsOrderedAddMonoid τ] in
theorem Earned.none (past : List τ) : Earned past none := nofun

omit [AddCommGroup τ] [IsOrderedAddMonoid τ] in
theorem Earned.append {past : List τ} {slot : Option (Counter τ)} (earned : Earned past slot)
    (more : List τ) : Earned (past ++ more) slot := by
  intro c found
  rw [List.countP_append]
  exact le_trans (earned c found) (Nat.le_add_right ..)

omit [IsOrderedAddMonoid τ] in
theorem Earned.check {limit : Nat} {window now : τ} {past : List τ} {slot : Option (Counter τ)}
    (earned : Earned past slot) (started : ∀ c ∈ slot, c.start ≤ now) :
    Earned
      (if (FixedWindow.check limit window slot now).1 = .accepted then past ++ [now] else past)
      (FixedWindow.check limit window slot now).2 := by
  have known : (current window slot now).start ≤ now ∧
      (current window slot now).count ≤
        past.countP (fun a => (current window slot now).start ≤ a) := by
    rcases current_cases window now slot with ⟨-, same⟩ | ⟨c, found, -, same⟩
    · rw [same]
      exact ⟨le_rfl, Nat.zero_le _⟩
    · rw [same]
      exact ⟨started c found, earned c found⟩
  obtain ⟨begun, counted⟩ := known
  simp only [FixedWindow.check]
  split_ifs with full accepted accepted
  · cases accepted
  · rintro c ⟨⟩
    exact counted
  · rintro c ⟨⟩
    simp only [List.countP_append, List.countP_singleton, begun, decide_true, if_true]
    omega
  · exact absurd rfl accepted

/-- A refusal has been earned: within the window before it the limit has been
used up. -/
theorem Earned.limit_le {limit : Nat} {window now retry : τ} {past : List τ}
    {slot : Option (Counter τ)} (earned : Earned past slot)
    (refused : (FixedWindow.check limit window slot now).1 = .refused retry) :
    limit ≤ past.countP (fun a => now < a + window) := by
  have full := (retry_of_refused refused).1
  rcases current_cases window now slot with ⟨-, same⟩ | ⟨c, found, within, same⟩
  · rw [same] at full
    exact le_trans full (Nat.zero_le _)
  · rw [same] at full
    refine le_trans full (le_trans (earned c found) (List.countP_mono_left fun a _ since => ?_))
    simp only [decide_eq_true_eq] at since ⊢
    calc now = now - c.start + c.start := (sub_add_cancel now c.start).symm
      _ < window + c.start := by gcongr
      _ ≤ window + a := by gcongr
      _ = a + window := add_comm window a

/-! ## The sustained rate -/

/-- The accepted readings split into those before the counter's window and those
in it, the former no more than the limit for each window length they span. -/
structure Sustained (limit : Nat) (window : τ) (past : List τ) (slot : Option (Counter τ)) :
    Prop where
  bounded : ∀ t (k : Nat), acceptedWithin (k • window) past t ≤ (k + 1) * limit
  fresh : slot = none → past = []
  spaced : ∀ c ∈ slot, c.count ≤ limit ∧ ∃ old recent, past = old ++ recent ∧
    recent.length = c.count ∧ (∀ a ∈ recent, a ≤ c.start + window) ∧
    ∀ t (k : Nat), c.start < t + k • window → old.countP (fun a => t ≤ a) ≤ k * limit

omit [IsOrderedAddMonoid τ] in
theorem Sustained.init (limit : Nat) (window : τ) : Sustained limit window [] none :=
  ⟨fun _ _ => Nat.zero_le _, fun _ => rfl, nofun⟩

/-- Any counter within its limit can be taken to have counted the start of its
window over and over. -/
theorem Sustained.of_counter {limit : Nat} {window : τ} {slot : Option (Counter τ)}
    (nonneg : 0 ≤ window) (counts : ∀ c ∈ slot, c.count ≤ limit) :
    ∃ past, Sustained limit window past slot := by
  cases slot with
  | none => exact ⟨[], .init limit window⟩
  | some c =>
      have fits := counts c rfl
      refine ⟨List.replicate c.count c.start, fun t k => ?_, by rintro ⟨⟩, ?_⟩
      · calc acceptedWithin (k • window) (List.replicate c.count c.start) t
            ≤ (List.replicate c.count c.start).length := List.countP_le_length
          _ = c.count := List.length_replicate
          _ ≤ (k + 1) * limit := le_trans fits (Nat.le_mul_of_pos_left limit k.succ_pos)
      · rintro _ ⟨⟩
        refine ⟨fits, [], _, rfl, List.length_replicate, ?_, fun _ _ _ => Nat.zero_le _⟩
        intro a member
        rw [List.eq_of_mem_replicate member]
        exact le_add_of_nonneg_right nonneg

/-- A window that starts once the one before is over finds one window's worth
of readings more behind it. -/
theorem Sustained.restart {limit : Nat} {window now : τ} {past : List τ}
    {slot : Option (Counter τ)} (nonneg : 0 ≤ window)
    (sustained : Sustained limit window past slot) (restarts : Restarts window slot now) (t : τ)
    (k : Nat) (begins : now < t + k • window) : past.countP (fun a => t ≤ a) ≤ k * limit := by
  cases slot with
  | none =>
      rw [sustained.fresh rfl]
      exact Nat.zero_le _
  | some c =>
      obtain ⟨count, old, recent, rfl, size, within, spans⟩ := sustained.spaced c rfl
      have elapsed : c.start + window ≤ now := le_sub_iff_add_le'.mp (restarts c rfl)
      rw [List.countP_append]
      cases k with
      | zero =>
          rw [zero_nsmul, add_zero] at begins
          have before := spans t 0 (by
            rw [zero_nsmul, add_zero]
            exact lt_of_le_of_lt (le_trans (le_add_of_nonneg_right nonneg) elapsed) begins)
          have none : recent.countP (fun a => t ≤ a) = 0 := by
            rw [List.countP_eq_zero]
            intro a member
            rw [decide_eq_true_eq, not_le]
            exact lt_of_le_of_lt (le_trans (within a member) elapsed) begins
          omega
      | succ k =>
          have before := spans t k (by
            rw [succ_nsmul, ← add_assoc] at begins
            exact lt_of_add_lt_add_right (lt_of_le_of_lt elapsed begins))
          have window := List.countP_le_length (p := fun a => decide (t ≤ a)) (l := recent)
          rw [Nat.succ_mul]
          omega

/-- The readings so far, split at the window a check works on. -/
theorem Sustained.split {limit : Nat} {window : τ} {past : List τ}
    {slot : Option (Counter τ)} (nonneg : 0 ≤ window)
    (sustained : Sustained limit window past slot) (now : τ) :
    (current window slot now).count ≤ limit ∧ ∃ old recent, past = old ++ recent ∧
      recent.length = (current window slot now).count ∧
      (∀ a ∈ recent, a ≤ (current window slot now).start + window) ∧
      ∀ t (k : Nat), (current window slot now).start < t + k • window →
        old.countP (fun a => t ≤ a) ≤ k * limit := by
  rcases current_cases window now slot with ⟨restarts, same⟩ | ⟨c, found, -, same⟩
  · rw [same]
    exact ⟨Nat.zero_le _, past, [], (List.append_nil past).symm, rfl, nofun,
      sustained.restart nonneg restarts⟩
  · rw [same]
    exact sustained.spaced c found

/-- A check on a clock that does not step back keeps the sustained rate. -/
theorem Sustained.check {limit : Nat} {window now : τ} {past : List τ}
    {slot : Option (Counter τ)} (nonneg : 0 ≤ window)
    (sustained : Sustained limit window past slot) (started : ∀ c ∈ slot, c.start ≤ now) :
    Sustained limit window
      (if (FixedWindow.check limit window slot now).1 = .accepted then past ++ [now] else past)
      (FixedWindow.check limit window slot now).2 := by
  have begun : (current window slot now).start ≤ now := by
    rcases current_cases window now slot with ⟨-, same⟩ | ⟨c, found, -, same⟩
    · rw [same]
    · rw [same]
      exact started c found
  have aged : now ≤ (current window slot now).start + window :=
    sub_le_iff_le_add'.mp (age_current_le nonneg now slot)
  obtain ⟨count, old, recent, rfl, size, within, spans⟩ := sustained.split nonneg now
  simp only [FixedWindow.check]
  split_ifs with full accepted accepted
  · cases accepted
  · refine ⟨sustained.bounded, nofun, ?_⟩
    rintro c ⟨⟩
    exact ⟨count, old, recent, rfl, size, within, spans⟩
  · refine ⟨fun t k => ?_, nofun, ?_⟩
    · rw [acceptedWithin, List.countP_append, List.countP_singleton]
      by_cases inside : t ≤ now ∧ now < t + k • window
      · have before : (old ++ recent).countP (fun a => decide (t ≤ a ∧ a < t + k • window)) ≤
            (old ++ recent).countP (fun a => decide (t ≤ a)) :=
          List.countP_mono_left fun a _ both => decide_eq_true (of_decide_eq_true both).1
        have spanned := spans t k (lt_of_le_of_lt begun inside.2)
        have latest := List.countP_le_length (p := fun a => decide (t ≤ a)) (l := recent)
        rw [List.countP_append (p := fun a => decide (t ≤ a))] at before
        rw [if_pos (decide_eq_true inside), Nat.succ_mul]
        omega
      · have bounded := sustained.bounded t k
        rwa [if_neg fun both => inside (of_decide_eq_true both), Nat.add_zero]
    · rintro c ⟨⟩
      refine ⟨not_le.mp full, old, recent ++ [now], by rw [List.append_assoc], ?_, ?_, spans⟩
      · rw [List.length_append, size, List.length_singleton]
      · intro a member
        rcases List.mem_append.mp member with earlier | last
        · exact within a earlier
        · rw [List.mem_singleton.mp last]
          exact aged
  · exact absurd rfl accepted

end FixedWindow
