import Mathlib.Algebra.Group.Nat.Defs
import Mathlib.Algebra.Order.Group.Int
import Mathlib.Tactic.Common

/-!
# Instants and spans of time

The instants and durations the limiter computes with, as `chrono` and the
standard library bound them.  Each carries its range, and an operation whose
overflow panics returns `none` there.  Leap seconds are left out: no clock
reading holds one.
-/

namespace Chrono

/-- The first instant of year -262143, in nanoseconds from the Unix epoch. -/
def minUtc : Int := -8334601228800000000000

/-- The last nanosecond of year 262142. -/
def maxUtc : Int := 8210266876799999999999

/-- A `DateTime<Utc>`. -/
structure DateTime where
  nanos : Int
  bounds : minUtc ≤ nanos ∧ nanos ≤ maxUtc
deriving DecidableEq

/-- `i64::MAX` milliseconds, the bound of a signed span either way. -/
def maxDelta : Int := 9223372036854775807000000

/-- A `chrono::Duration`. -/
structure TimeDelta where
  nanos : Int
  bounds : -maxDelta ≤ nanos ∧ nanos ≤ maxDelta
deriving DecidableEq

/-- A `std::time::Duration`: `u64` seconds and nanoseconds below a second. -/
structure Duration where
  nanos : Nat
  bound : nanos < 2 ^ 64 * 1000000000
deriving DecidableEq

theorem DateTime.nanos_injective : Function.Injective DateTime.nanos := by
  intro a b same
  cases a
  cases b
  cases same
  rfl

theorem TimeDelta.nanos_injective : Function.Injective TimeDelta.nanos := by
  intro a b same
  cases a
  cases b
  cases same
  rfl

theorem Duration.nanos_injective : Function.Injective Duration.nanos := by
  intro a b same
  cases a
  cases b
  cases same
  rfl

instance : LinearOrder DateTime := LinearOrder.lift' _ DateTime.nanos_injective

instance : LinearOrder TimeDelta := LinearOrder.lift' _ TimeDelta.nanos_injective

theorem DateTime.le_iff {a b : DateTime} : a ≤ b ↔ a.nanos ≤ b.nanos := Iff.rfl

/-! ## Constants and conversions -/

def Duration.fromSecs (secs : UInt64) : Duration :=
  ⟨secs.toNat * 1000000000, by have := secs.toNat_lt; omega⟩

def Duration.fromMillis (millis : UInt64) : Duration :=
  ⟨millis.toNat * 1000000, by have := millis.toNat_lt; omega⟩

def TimeDelta.oneSecond : TimeDelta := ⟨1000000000, by decide⟩

/-- The instant a number of seconds after the Unix epoch. -/
def DateTime.fromSecs (secs : UInt32) : DateTime :=
  ⟨secs.toNat * 1000000000, by
    have := secs.toNat_lt
    simp only [minUtc, maxUtc]
    omega⟩

/-- `from_std`: a span beyond `i64::MAX` milliseconds is out of range. -/
def TimeDelta.fromStd (d : Duration) : Option TimeDelta :=
  if fits : (d.nanos : Int) ≤ maxDelta then
    some ⟨d.nanos, by simp only [maxDelta] at *; omega⟩
  else none

/-- `to_std`: a negative span is out of range. -/
def TimeDelta.toStd (d : TimeDelta) : Option Duration :=
  if 0 ≤ d.nanos then
    some ⟨d.nanos.toNat, by have := d.bounds; simp only [maxDelta] at this; omega⟩
  else none

theorem TimeDelta.fromStd_eq_some_iff {d : Duration} {t : TimeDelta} :
    TimeDelta.fromStd d = some t ↔ t.nanos = d.nanos := by
  unfold TimeDelta.fromStd
  constructor
  · intro fits
    split_ifs at fits
    cases fits
    rfl
  · intro same
    have fits : (d.nanos : Int) ≤ maxDelta := same ▸ t.bounds.2
    rw [dif_pos fits, Option.some.injEq]
    exact TimeDelta.nanos_injective same.symm

/-- A span that is not negative survives `to_std`. -/
theorem TimeDelta.toStd_of_nonneg {d : TimeDelta} (nonneg : 0 ≤ d.nanos) :
    ∃ std, d.toStd = some std ∧ (std.nanos : Int) = d.nanos :=
  ⟨_, if_pos nonneg, Int.toNat_of_nonneg nonneg⟩

/-! ## Checked arithmetic -/

/-- `DateTime - TimeDelta`. -/
def DateTime.checkedSub (t : DateTime) (d : TimeDelta) : Option DateTime :=
  if fits : minUtc ≤ t.nanos - d.nanos ∧ t.nanos - d.nanos ≤ maxUtc then some ⟨_, fits⟩ else none

/-- `DateTime - DateTime`, which never overflows. -/
def DateTime.since (t s : DateTime) : TimeDelta :=
  ⟨t.nanos - s.nanos, by
    have := t.bounds
    have := s.bounds
    simp only [minUtc, maxUtc, maxDelta] at *
    omega⟩

/-- `TimeDelta - TimeDelta`. -/
def TimeDelta.checkedSub (a b : TimeDelta) : Option TimeDelta :=
  if fits : -maxDelta ≤ a.nanos - b.nanos ∧ a.nanos - b.nanos ≤ maxDelta then some ⟨_, fits⟩
  else none

@[simp] theorem DateTime.since_nanos (t s : DateTime) :
    (t.since s).nanos = t.nanos - s.nanos := rfl

theorem DateTime.checkedSub_eq_some_iff {t r : DateTime} {d : TimeDelta} :
    t.checkedSub d = some r ↔ r.nanos = t.nanos - d.nanos := by
  unfold DateTime.checkedSub
  constructor
  · intro fits
    split_ifs at fits
    cases fits
    rfl
  · intro same
    have fits := r.bounds
    rw [same] at fits
    rw [dif_pos fits, Option.some.injEq]
    exact DateTime.nanos_injective same.symm

/-- A later reading has room for whatever span an earlier one has. -/
theorem DateTime.checkedSub_of_le {a b : DateTime} {d : TimeDelta} (nonneg : 0 ≤ d.nanos)
    (ordered : a ≤ b) (panics : b.checkedSub d = none) : a.checkedSub d = none := by
  unfold DateTime.checkedSub at panics ⊢
  split_ifs at panics with fits
  refine dif_neg fun room => fits ?_
  have := b.bounds
  have := DateTime.le_iff.mp ordered
  omega

/-- Where a reading leaves room for the window, no age of an entry overflows
what remains of it. -/
theorem TimeDelta.checkedSub_since {now cutoff : DateTime} {window : TimeDelta}
    (room : now.checkedSub window = some cutoff) (start : DateTime) :
    ∃ remaining, window.checkedSub (now.since start) = some remaining ∧
      remaining.nanos = window.nanos - (now.nanos - start.nanos) := by
  have fits : -maxDelta ≤ window.nanos - (now.since start).nanos ∧
      window.nanos - (now.since start).nanos ≤ maxDelta := by
    have cut := DateTime.checkedSub_eq_some_iff.mp room
    have := cutoff.bounds
    have := now.bounds
    have := start.bounds
    simp only [DateTime.since_nanos, minUtc, maxUtc, maxDelta] at *
    omega
  exact ⟨_, dif_pos fits, rfl⟩

end Chrono
