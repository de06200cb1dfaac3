import Fingermouse.Chrono
import Fingermouse.FixedWindow
import Fingermouse.Table

/-!
# The rate limiter

One check of the source: drop stale entries, count against the client's entry,
evict down to capacity.  The map's iteration order is the caller's to choose,
since a concurrent hash map promises none; a panic of the clock arithmetic is
an answer of its own.

* `checkInner_own`: for the checked address the check is one step of a
  fixed-window counter, whatever the pruning did.
* `checkInner_other`: another address keeps its entry, or loses it to pruning
  once its window is over, or to an eviction.
-/

namespace Fingermouse

open Chrono

/-! ## Data -/

inductive IpAddr
  | v4 (bits : BitVec 32)
  | v6 (bits : BitVec 128)
deriving DecidableEq

/-- Tunable rate limiting parameters. -/
structure RateLimitSettings where
  /-- Maximum number of requests permitted during a single window. -/
  maxRequests : UInt32
  /-- Duration of the rolling window applied per client. -/
  window : Duration
  /-- Maximum number of distinct client entries retained simultaneously. -/
  maxEntries : Nat
deriving DecidableEq

inductive RateLimitError
  | limitExceeded (retryIn : Duration)
deriving DecidableEq

structure RateEntry where
  windowStart : DateTime
  count : UInt32
deriving DecidableEq

/-- An entry with its key. -/
abbrev StoredEntry := Sigma fun _ : IpAddr => RateEntry

abbrev Entries := AList fun _ : IpAddr => RateEntry

/-- The answer of a check that does not panic. -/
abbrev Outcome := Except RateLimitError Unit

def chronoDuration (window : Duration) : TimeDelta :=
  (TimeDelta.fromStd window).getD .oneSecond

/-- The limiter without its clock, whose readings come with the checks.  The
two laws hold from construction on: every method changes the entries only. -/
structure RateLimiter where
  settings : RateLimitSettings
  window : TimeDelta
  entries : Entries
  window_eq : window = chronoDuration settings.window
  capacity : 0 < settings.maxEntries

namespace RateLimiter

def withClock (settings : RateLimitSettings) : RateLimiter :=
  let settings := if settings.maxEntries = 0 then { settings with maxEntries := 1 } else settings
  { settings
    window := chronoDuration settings.window
    entries := ∅
    window_eq := rfl
    capacity := by
      simp only [settings]
      split_ifs with zero
      · exact Nat.one_pos
      · exact Nat.pos_of_ne_zero zero }

@[simp] theorem withClock_maxRequests (settings : RateLimitSettings) :
    (withClock settings).settings.maxRequests = settings.maxRequests := by
  simp only [withClock]
  split_ifs <;> rfl

@[simp] theorem withClock_maxEntries (settings : RateLimitSettings) :
    (withClock settings).settings.maxEntries = max 1 settings.maxEntries := by
  simp only [withClock]
  split_ifs with zero
  · simp [zero]
  · show settings.maxEntries = _
    omega

@[simp] theorem withClock_window (settings : RateLimitSettings) :
    (withClock settings).window = chronoDuration settings.window := by
  simp only [withClock]
  split_ifs <;> rfl

/-- The order in which one pass visits the entries; the map promises none. -/
structure IterOrder where
  visit : List StoredEntry → List StoredEntry
  perm : ∀ entries, (visit entries).Perm entries

/-- The pass in the order the entries are stored in. -/
def IterOrder.stored : IterOrder := ⟨id, fun _ => .refl _⟩

/-- A call of `check`: the client, the clock reading and the pass order. -/
structure Check where
  ip : IpAddr
  now : DateTime
  order : IterOrder

/-! ## The check -/

/-- Drop the entries that started before the window; `none` is the panic of
`now - window`. -/
def pruneStale (limiter : RateLimiter) (now : DateTime) : Option RateLimiter := do
  let cutoff ← now.checkedSub limiter.window
  return { limiter with
    entries := limiter.entries.retain fun _ entry => decide (cutoff ≤ entry.windowStart) }

/-- The entry a check counts against: inserted where there is none, reset where
its window is over. -/
def freshen (window : TimeDelta) (slot : Option RateEntry) (now : DateTime) : RateEntry :=
  let entry := slot.getD ⟨now, 0⟩
  if window ≤ now.since entry.windowStart then ⟨now, 0⟩ else entry

/-- What the entry guard does to one entry; no outcome is the panic of
`window - elapsed`. -/
def touch (maxRequests : UInt32) (window : TimeDelta) (slot : Option RateEntry) (now : DateTime) :
    Option Outcome × RateEntry :=
  let entry := freshen window slot now
  if maxRequests ≤ entry.count then
    let outcome := do
      let remaining ← window.checkedSub (now.since entry.windowStart)
      return .error (.limitExceeded (remaining.toStd.getD (.fromSecs 1)))
    (outcome, entry)
  else (some (.ok ()), { entry with count := entry.count + 1 })

/-- The block of `check_inner` that holds the entry of `ip`. -/
def account (limiter : RateLimiter) (ip : IpAddr) (now : DateTime) :
    Option Outcome × RateLimiter :=
  let touched :=
    touch limiter.settings.maxRequests limiter.window (limiter.entries.lookup ip) now
  (touched.1, { limiter with entries := limiter.entries.insert ip touched.2 })

/-- One step of the pass in `oldest_key_excluding`. -/
def visitEntry (excluded : Option IpAddr) (selected : Option (IpAddr × DateTime))
    (entry : StoredEntry) : Option (IpAddr × DateTime) :=
  if excluded = some entry.1 then selected
  else
    match selected with
    | some (_, currentStart) =>
        if entry.2.windowStart < currentStart then some (entry.1, entry.2.windowStart)
        else selected
    | none => some (entry.1, entry.2.windowStart)

def oldestKeyExcluding (entries : Entries) (order : IterOrder) (excluded : Option IpAddr) :
    Option IpAddr :=
  ((order.visit entries.entries).foldl (visitEntry excluded) none).map Prod.fst

/-- The key a turn of the eviction loop removes; without one the loop breaks. -/
def victim (protectedIp : IpAddr) (order : IterOrder) (entries : Entries) : Option IpAddr :=
  let candidate := (oldestKeyExcluding entries order (some protectedIp)).or
    (oldestKeyExcluding entries order none)
  -- Skip eviction of the entry the check just refreshed.
  candidate.filter (· ≠ protectedIp)

/-- The loop of `enforce_capacity`; every turn removes an entry, so the number
of entries is turns enough. -/
def evictLoop (maxEntries : Nat) (protectedIp : IpAddr) (order : IterOrder) :
    Nat → Entries → Entries
  | 0, entries => entries
  | turns + 1, entries =>
      if maxEntries < entries.len then
        match victim protectedIp order entries with
        | none => entries
        | some key => evictLoop maxEntries protectedIp order turns (entries.erase key)
      else entries

def enforceCapacity (limiter : RateLimiter) (protectedIp : IpAddr) (order : IterOrder) :
    RateLimiter :=
  if limiter.entries.len ≤ limiter.settings.maxEntries then limiter
  else
    { limiter with
      entries := evictLoop limiter.settings.maxEntries protectedIp order limiter.entries.len
        limiter.entries }

/-- Record an access, enforcing the configured rate limits.  A check that
panics has no outcome. -/
def checkInner (limiter : RateLimiter) (check : Check) : Option Outcome × RateLimiter :=
  match limiter.pruneStale check.now with
  | none => (none, limiter)
  | some pruned =>
      match pruned.account check.ip check.now with
      | (none, counted) => (none, counted)
      | (some outcome, counted) => (some outcome, counted.enforceCapacity check.ip check.order)

/-! ## One entry is a fixed-window counter -/

end RateLimiter

def RateEntry.counter (entry : RateEntry) : FixedWindow.Counter Int :=
  ⟨entry.windowStart.nanos, entry.count.toNat⟩

def Outcome.verdict : Outcome → FixedWindow.Verdict Int
  | .ok () => .accepted
  | .error (.limitExceeded retryIn) => .refused retryIn.nanos

theorem Outcome.verdict_eq_accepted_iff {outcome : Outcome} :
    outcome.verdict = .accepted ↔ outcome = .ok () := by
  rcases outcome with ⟨⟨retryIn⟩⟩ | ⟨⟩ <;> simp [verdict]

theorem Outcome.eq_ok_iff {outcome : Option Outcome} {verdict : FixedWindow.Verdict Int}
    (answer : outcome.map Outcome.verdict = some verdict) :
    outcome = some (.ok ()) ↔ verdict = .accepted := by
  obtain ⟨outcome, rfl, rfl⟩ := Option.map_eq_some_iff.mp answer
  rw [verdict_eq_accepted_iff, Option.some.injEq]

/-- Verdicts tell outcomes apart, waiting times included. -/
theorem Outcome.verdict_injective : Function.Injective Outcome.verdict := by
  rintro (⟨⟨a⟩⟩ | ⟨⟩) (⟨⟨b⟩⟩ | ⟨⟩) same
  · simp only [verdict, FixedWindow.Verdict.refused.injEq, Int.natCast_inj] at same
    rw [Duration.nanos_injective same]
  · cases same
  · cases same
  · rfl

namespace RateLimiter

/-- The counter stored for an address. -/
def slot (limiter : RateLimiter) (ip : IpAddr) : Option (FixedWindow.Counter Int) :=
  (limiter.entries.lookup ip).map RateEntry.counter

/-- The fixed-window check that the limiter's settings stand for. -/
def counterCheck (limiter : RateLimiter) :
    Option (FixedWindow.Counter Int) → Int →
      FixedWindow.Verdict Int × Option (FixedWindow.Counter Int) :=
  FixedWindow.check limiter.settings.maxRequests.toNat limiter.window.nanos

theorem window_nonneg (limiter : RateLimiter) : 0 ≤ limiter.window.nanos := by
  rw [limiter.window_eq, chronoDuration]
  cases fits : TimeDelta.fromStd limiter.settings.window with
  | none => decide
  | some window =>
      rw [Option.getD_some, TimeDelta.fromStd_eq_some_iff.mp fits]
      exact Int.natCast_nonneg _

theorem freshen_counter (window : TimeDelta) (entry : Option RateEntry) (now : DateTime) :
    (freshen window entry now).counter =
      FixedWindow.current window.nanos (entry.map RateEntry.counter) now.nanos := by
  cases entry with
  | none =>
      simp only [freshen, Option.getD_none, ite_self]
      rfl
  | some entry =>
      simp only [freshen, Option.getD_some, apply_ite RateEntry.counter]
      rfl

theorem freshen_count_le {window : TimeDelta} {slot : Option RateEntry} {now : DateTime}
    {limit : UInt32} (counted : ∀ entry ∈ slot, entry.count ≤ limit) :
    (freshen window slot now).count ≤ limit := by
  have zero : (0 : UInt32) ≤ limit := by
    rw [UInt32.le_iff_toNat_le]
    exact Nat.zero_le _
  cases slot with
  | none =>
      simp only [freshen, Option.getD_none, ite_self]
      exact zero
  | some entry =>
      simp only [freshen, Option.getD_some]
      split_ifs
      · exact zero
      · exact counted entry rfl

/-- A count below the limit does not wrap when it grows. -/
theorem count_succ {count maxRequests : UInt32} (below : count.toNat < maxRequests.toNat) :
    (count + 1).toNat = count.toNat + 1 := by
  have := maxRequests.toNat_lt
  rw [UInt32.toNat_add]
  exact Nat.mod_eq_of_lt (by simp; omega)

/-- Where the reading leaves room for the window, what remains of it is exact
and not negative, so that `to_std` succeeds. -/
theorem exists_remaining {window : TimeDelta} (entry : Option RateEntry) {now cutoff : DateTime}
    (nonneg : 0 ≤ window.nanos) (room : now.checkedSub window = some cutoff) :
    ∃ remaining std,
      window.checkedSub (now.since (freshen window entry now).windowStart) = some remaining ∧
        remaining.toStd = some std ∧
        (std.nanos : Int) =
          window.nanos - (now.nanos - (freshen window entry now).windowStart.nanos) := by
  obtain ⟨remaining, exact, nanos⟩ :=
    TimeDelta.checkedSub_since room (freshen window entry now).windowStart
  have young := FixedWindow.age_current_le nonneg now.nanos (entry.map RateEntry.counter)
  rw [← freshen_counter] at young
  have left : 0 ≤ remaining.nanos := nanos ▸ sub_nonneg.mpr young
  obtain ⟨std, std_eq, std_nanos⟩ := TimeDelta.toStd_of_nonneg left
  exact ⟨remaining, std, exact, std_eq, std_nanos.trans nanos⟩

/-- Where the reading leaves room for the window, the entry guard makes one
fixed-window check and does not panic. -/
theorem touch_counter (maxRequests : UInt32) {window : TimeDelta} (entry : Option RateEntry)
    {now cutoff : DateTime} (nonneg : 0 ≤ window.nanos)
    (room : now.checkedSub window = some cutoff) :
    let verdict := FixedWindow.check maxRequests.toNat window.nanos
      (entry.map RateEntry.counter) now.nanos
    (touch maxRequests window entry now).1.map Outcome.verdict = some verdict.1 ∧
      some (touch maxRequests window entry now).2.counter = verdict.2 := by
  have same := freshen_counter window entry now
  simp only [touch, FixedWindow.check, ← same]
  have full : maxRequests ≤ (freshen window entry now).count ↔
      maxRequests.toNat ≤ (freshen window entry now).counter.count := UInt32.le_iff_toNat_le
  by_cases refused : maxRequests ≤ (freshen window entry now).count
  · obtain ⟨remaining, std, exact, std_eq, nanos⟩ := exists_remaining entry nonneg room
    rw [if_pos refused, if_pos (full.mp refused), exact]
    refine ⟨?_, rfl⟩
    show some (FixedWindow.Verdict.refused ((remaining.toStd.getD _).nanos : Int)) = _
    rw [std_eq, Option.getD_some, nanos]
    rfl
  · have below : (freshen window entry now).count.toNat < maxRequests.toNat :=
      not_le.mp fun less => refused (full.mpr less)
    rw [if_neg refused, if_neg fun less => refused (full.mpr less)]
    refine ⟨rfl, ?_⟩
    show some (FixedWindow.Counter.mk _ _) = _
    rw [count_succ below]
    rfl

/-- The entry guard counts exactly the checks it accepts, and no further than
the limit. -/
theorem touch_count (maxRequests : UInt32) (window : TimeDelta) (slot : Option RateEntry)
    (now : DateTime) :
    (touch maxRequests window slot now).2.count.toNat = (freshen window slot now).count.toNat +
        (if (touch maxRequests window slot now).1 = some (.ok ()) then 1 else 0) ∧
      ((freshen window slot now).count ≤ maxRequests →
        (touch maxRequests window slot now).2.count ≤ maxRequests) := by
  simp only [touch]
  by_cases full : maxRequests ≤ (freshen window slot now).count
  · rw [if_pos full]
    refine ⟨?_, id⟩
    rw [if_neg, Nat.add_zero]
    cases window.checkedSub (now.since (freshen window slot now).windowStart) <;> simp
  · rw [if_neg full]
    rw [UInt32.le_iff_toNat_le, not_le] at full
    refine ⟨by simpa using count_succ full, fun _ => ?_⟩
    rw [UInt32.le_iff_toNat_le, count_succ full]
    exact full

/-! ## Pruning -/

theorem pruneStale_eq_some_iff {limiter pruned : RateLimiter} {now : DateTime} :
    limiter.pruneStale now = some pruned ↔
      ∃ cutoff, now.checkedSub limiter.window = some cutoff ∧
        pruned = { limiter with
          entries := limiter.entries.retain fun _ entry =>
            decide (cutoff ≤ entry.windowStart) } := by
  simp only [pruneStale, Option.bind_eq_bind, Option.bind_eq_some_iff, Option.pure_def,
    Option.some.injEq, @eq_comm _ pruned]

theorem pruneStale_eq_none_iff {limiter : RateLimiter} {now : DateTime} :
    limiter.pruneStale now = none ↔ now.checkedSub limiter.window = none := by
  cases room : now.checkedSub limiter.window <;> simp [pruneStale, room]

/-- Pruning takes a counter only once its window is over. -/
theorem slot_pruneStale {limiter pruned : RateLimiter} {now : DateTime}
    (prunes : limiter.pruneStale now = some pruned) (ip : IpAddr) :
    pruned.slot ip = limiter.slot ip ∨
      (pruned.slot ip = none ∧
        FixedWindow.Restarts limiter.window.nanos (limiter.slot ip) now.nanos) := by
  obtain ⟨cutoff, room, rfl⟩ := pruneStale_eq_some_iff.mp prunes
  have cut := DateTime.checkedSub_eq_some_iff.mp room
  simp only [slot, AList.lookup_retain]
  cases found : limiter.entries.lookup ip with
  | none => exact .inl rfl
  | some entry =>
      by_cases live : cutoff ≤ entry.windowStart
      · exact .inl (by rw [Option.filter_some, if_pos (decide_eq_true live)])
      · refine .inr ⟨by rw [Option.filter_some, if_neg (by simpa using live)]; rfl, ?_⟩
        rintro _ ⟨⟩
        have old : entry.windowStart.nanos < cutoff.nanos := not_le.mp live
        show limiter.window.nanos ≤ now.nanos - entry.windowStart.nanos
        omega

/-! ## Eviction -/

/-- What the pass holds after visiting some entries: the oldest of those it may
select, or nothing where it may select none. -/
def IsOldest (excluded : Option IpAddr) (visited : List StoredEntry) :
    Option (IpAddr × DateTime) → Prop
  | none => ∀ entry ∈ visited, excluded = some entry.1
  | some (key, start) =>
      excluded ≠ some key ∧ (∃ entry, ⟨key, entry⟩ ∈ visited ∧ entry.windowStart = start) ∧
        ∀ entry ∈ visited, excluded ≠ some entry.1 → start ≤ entry.2.windowStart

theorem IsOldest.visitEntry {excluded : Option IpAddr}
    {visited : List StoredEntry} {selected : Option (IpAddr × DateTime)}
    (oldest : IsOldest excluded visited selected) (entry : StoredEntry) :
    IsOldest excluded (visited ++ [entry]) (visitEntry excluded selected entry) := by
  unfold RateLimiter.visitEntry
  split_ifs with skipped
  · cases selected with
    | none =>
        intro other member
        rcases List.mem_append.mp member with old | new
        · exact oldest other old
        · rwa [List.mem_singleton.mp new]
    | some selected =>
        obtain ⟨allowed, ⟨found, member, start⟩, least⟩ := oldest
        refine ⟨allowed, ⟨found, List.mem_append_left _ member, start⟩, fun other member ne => ?_⟩
        rcases List.mem_append.mp member with old | new
        · exact least other old ne
        · rw [List.mem_singleton.mp new] at ne
          exact absurd skipped ne
  · have here : ⟨entry.1, entry.2⟩ ∈ visited ++ [entry] :=
      List.mem_append_right _ (List.mem_singleton_self _)
    cases selected with
    | none =>
        refine ⟨skipped, ⟨entry.2, here, rfl⟩, fun other member ne => ?_⟩
        rcases List.mem_append.mp member with old | new
        · exact absurd (oldest other old) ne
        · rw [List.mem_singleton.mp new]
    | some selected =>
        obtain ⟨allowed, ⟨found, member, start⟩, least⟩ := oldest
        dsimp only
        split_ifs with earlier
        · refine ⟨skipped, ⟨entry.2, here, rfl⟩, fun other member ne => ?_⟩
          rcases List.mem_append.mp member with old | new
          · exact le_trans earlier.le (least other old ne)
          · rw [List.mem_singleton.mp new]
        · refine ⟨allowed, ⟨found, List.mem_append_left _ member, start⟩,
            fun other member ne => ?_⟩
          rcases List.mem_append.mp member with old | new
          · exact least other old ne
          · rw [List.mem_singleton.mp new]
            exact not_lt.mp earlier

theorem IsOldest.foldl {excluded : Option IpAddr}
    {visited : List StoredEntry} {selected : Option (IpAddr × DateTime)}
    (oldest : IsOldest excluded visited selected)
    (pass : List StoredEntry) :
    IsOldest excluded (visited ++ pass)
      (pass.foldl (RateLimiter.visitEntry excluded) selected) := by
  induction pass generalizing visited selected with
  | nil => rwa [List.append_nil]
  | cons entry pass ih =>
      rw [List.foldl_cons, List.append_cons]
      exact ih (oldest.visitEntry entry)

theorem isOldest_pass (excluded : Option IpAddr) (pass : List StoredEntry) :
    IsOldest excluded pass (pass.foldl (RateLimiter.visitEntry excluded) none) := by
  have start : IsOldest excluded [] none := fun _ member => by cases member
  exact start.foldl pass

/-- The pass selects an oldest entry outside the excluded key. -/
theorem exists_of_oldestKeyExcluding {entries : Entries} {order : IterOrder}
    {excluded : Option IpAddr} {key : IpAddr}
    (selected : oldestKeyExcluding entries order excluded = some key) :
    excluded ≠ some key ∧ ∃ entry, entries.lookup key = some entry ∧
      ∀ other found, entries.lookup other = some found → excluded ≠ some other →
        entry.windowStart ≤ found.windowStart := by
  obtain ⟨⟨_, start⟩, held, rfl⟩ := Option.map_eq_some_iff.mp selected
  have oldest := isOldest_pass excluded (order.visit entries.entries)
  rw [held] at oldest
  obtain ⟨allowed, ⟨entry, member, rfl⟩, least⟩ := oldest
  have visited : ∀ e, e ∈ order.visit entries.entries ↔ e ∈ entries.entries :=
    fun _ => (order.perm entries.entries).mem_iff
  refine ⟨allowed, entry, AList.mem_lookup_iff.mpr ((visited _).mp member), ?_⟩
  intro other found present ne
  exact least ⟨other, found⟩ ((visited _).mpr (AList.mem_lookup_iff.mp present)) ne

/-- The pass selects nothing only where every key is excluded. -/
theorem eq_of_oldestKeyExcluding_eq_none {entries : Entries} {order : IterOrder}
    {excluded : Option IpAddr} (selected : oldestKeyExcluding entries order excluded = none)
    {key : IpAddr} (member : key ∈ entries) : excluded = some key := by
  have oldest := isOldest_pass excluded (order.visit entries.entries)
  rw [Option.map_eq_none_iff.mp selected] at oldest
  obtain ⟨entry, found⟩ := Option.isSome_iff_exists.mp (AList.lookup_isSome.mpr member)
  exact oldest ⟨key, entry⟩
    ((order.perm entries.entries).mem_iff.mpr (AList.mem_lookup_iff.mp found))

theorem mem_of_oldestKeyExcluding {entries : Entries} {order : IterOrder}
    {excluded : Option IpAddr} {key : IpAddr}
    (selected : oldestKeyExcluding entries order excluded = some key) : key ∈ entries := by
  obtain ⟨-, entry, found, -⟩ := exists_of_oldestKeyExcluding selected
  exact AList.lookup_isSome.mp (by rw [found]; rfl)

/-- The pass that excludes one key selects nothing only in a map of at most
that key. -/
theorem len_le_one_of_oldestKeyExcluding {entries : Entries} {order : IterOrder} {ip : IpAddr}
    (nothing : oldestKeyExcluding entries order (some ip) = none) : entries.len ≤ 1 := by
  refine AList.len_le_card (s := {ip}) fun key member => ?_
  rw [Finset.mem_singleton]
  exact (Option.some.inj (eq_of_oldestKeyExcluding_eq_none nothing member)).symm

theorem victim_ne {protectedIp key : IpAddr} {order : IterOrder} {entries : Entries}
    (chosen : victim protectedIp order entries = some key) : key ≠ protectedIp := by
  simpa using (Option.filter_eq_some_iff.mp chosen).2

/-- The loop removes entries and changes none. -/
theorem lookup_evictLoop (maxEntries : Nat) (protectedIp : IpAddr) (order : IterOrder)
    (turns : Nat) (entries : Entries) (ip : IpAddr) :
    (evictLoop maxEntries protectedIp order turns entries).lookup ip = entries.lookup ip ∨
      (ip ≠ protectedIp ∧
        (evictLoop maxEntries protectedIp order turns entries).lookup ip = none) := by
  induction turns generalizing entries with
  | zero => exact .inl rfl
  | succ turns ih =>
      unfold evictLoop
      split_ifs with exceeds
      · cases chosen : victim protectedIp order entries with
        | none => exact .inl rfl
        | some key =>
            by_cases taken : ip = key
            · subst taken
              have gone : (entries.erase ip).lookup ip = none := AList.lookup_erase ip entries
              rcases ih (entries.erase ip) with same | lost
              · exact .inr ⟨victim_ne chosen, same.trans gone⟩
              · exact .inr lost
            · have kept : (entries.erase key).lookup ip = entries.lookup ip :=
                AList.lookup_erase_ne taken
              rw [← kept]
              exact ih (entries.erase key)
      · exact .inl rfl

theorem lookup_enforceCapacity (limiter : RateLimiter) (protectedIp : IpAddr) (order : IterOrder)
    (ip : IpAddr) :
    (limiter.enforceCapacity protectedIp order).entries.lookup ip = limiter.entries.lookup ip ∨
      (ip ≠ protectedIp ∧
        (limiter.enforceCapacity protectedIp order).entries.lookup ip = none) := by
  unfold enforceCapacity
  split_ifs with fits
  · exact .inl rfl
  · exact lookup_evictLoop _ protectedIp order _ limiter.entries ip

/-! ## One check -/

/-- After pruning, the entry guard of the same check does not panic and makes
one fixed-window check. -/
theorem account_spec {limiter pruned : RateLimiter} {now : DateTime}
    (prunes : limiter.pruneStale now = some pruned) (ip : IpAddr) :
    (pruned.account ip now).1.map Outcome.verdict =
        some (limiter.counterCheck (limiter.slot ip) now.nanos).1 ∧
      (pruned.account ip now).2.slot ip =
        (limiter.counterCheck (limiter.slot ip) now.nanos).2 ∧
      ∀ other ≠ ip, (pruned.account ip now).2.slot other = pruned.slot other := by
  have transparent : limiter.counterCheck (pruned.slot ip) now.nanos =
      limiter.counterCheck (limiter.slot ip) now.nanos := by
    rcases slot_pruneStale prunes ip with same | ⟨gone, restarts⟩
    · rw [same]
    · rw [gone]
      exact (FixedWindow.check_of_restarts restarts).symm
  obtain ⟨cutoff, room, same⟩ := pruneStale_eq_some_iff.mp prunes
  have touched := touch_counter limiter.settings.maxRequests (pruned.entries.lookup ip)
    limiter.window_nonneg room
  rw [← transparent]
  subst same
  refine ⟨touched.1, ?_, fun other ne => ?_⟩
  · simp only [slot, account, AList.lookup_insert, Option.map_some]
    exact touched.2
  · simp only [slot, account, AList.lookup_insert_ne ne]

/-- A check answers what the entry guard does. -/
theorem checkInner_fst {limiter pruned : RateLimiter} {check : Check}
    (prunes : limiter.pruneStale check.now = some pruned) :
    (limiter.checkInner check).1 = (pruned.account check.ip check.now).1 := by
  rcases counted : pruned.account check.ip check.now with ⟨_ | outcome, limiter'⟩
  · simp only [checkInner, prunes, counted]
  · simp only [checkInner, prunes, counted]

/-- A check panics and changes nothing, or its reading leaves room for the
window and it prunes, counts and enforces the capacity. -/
theorem checkInner_cases (limiter : RateLimiter) (check : Check) :
    (limiter.pruneStale check.now = none ∧ limiter.checkInner check = (none, limiter)) ∨
      ∃ pruned outcome, limiter.pruneStale check.now = some pruned ∧
        outcome.verdict = (limiter.counterCheck (limiter.slot check.ip) check.now.nanos).1 ∧
        limiter.checkInner check =
          (some outcome,
            (pruned.account check.ip check.now).2.enforceCapacity check.ip check.order) := by
  cases prunes : limiter.pruneStale check.now with
  | none => exact .inl ⟨rfl, by simp only [checkInner, prunes]⟩
  | some pruned =>
      obtain ⟨outcome, answered, verdict⟩ :=
        Option.map_eq_some_iff.mp (account_spec prunes check.ip).1
      refine .inr ⟨pruned, outcome, rfl, verdict, ?_⟩
      simp only [checkInner, prunes]
      split
      · simp_all
      · simp_all

@[simp] theorem enforceCapacity_settings (limiter : RateLimiter) (protectedIp : IpAddr)
    (order : IterOrder) :
    (limiter.enforceCapacity protectedIp order).settings = limiter.settings := by
  unfold enforceCapacity
  split_ifs <;> rfl

@[simp] theorem checkInner_settings (limiter : RateLimiter) (check : Check) :
    (limiter.checkInner check).2.settings = limiter.settings := by
  rcases checkInner_cases limiter check with ⟨-, same⟩ | ⟨pruned, outcome, prunes, -, same⟩
  · rw [same]
  · obtain ⟨_, -, rfl⟩ := pruneStale_eq_some_iff.mp prunes
    rw [same, enforceCapacity_settings]
    rfl

@[simp] theorem checkInner_window (limiter : RateLimiter) (check : Check) :
    (limiter.checkInner check).2.window = limiter.window := by
  rw [window_eq, checkInner_settings, ← window_eq]

@[simp] theorem checkInner_counterCheck (limiter : RateLimiter) (check : Check) :
    (limiter.checkInner check).2.counterCheck = limiter.counterCheck := by
  simp only [counterCheck, checkInner_settings, checkInner_window]

/-- A check whose reading leaves no room for the window panics and changes
nothing. -/
theorem checkInner_of_panics {limiter : RateLimiter} {check : Check}
    (panics : check.now.checkedSub limiter.window = none) :
    limiter.checkInner check = (none, limiter) := by
  simp only [checkInner, pruneStale_eq_none_iff.mpr panics]

/-- For the checked address a check is one fixed-window check of its counter,
unless it panics and leaves the limiter as it was. -/
theorem checkInner_own (limiter : RateLimiter) (check : Check) :
    (check.now.checkedSub limiter.window = none ∧ limiter.checkInner check = (none, limiter)) ∨
      ((limiter.checkInner check).1.map Outcome.verdict =
          some (limiter.counterCheck (limiter.slot check.ip) check.now.nanos).1 ∧
        (limiter.checkInner check).2.slot check.ip =
          (limiter.counterCheck (limiter.slot check.ip) check.now.nanos).2) := by
  rcases checkInner_cases limiter check with
    ⟨panics, same⟩ | ⟨pruned, outcome, prunes, verdict, same⟩
  · exact .inl ⟨pruneStale_eq_none_iff.mp panics, same⟩
  · refine .inr ?_
    rw [same, Option.map_some, verdict, ← (account_spec prunes check.ip).2.1]
    refine ⟨rfl, ?_⟩
    rcases lookup_enforceCapacity (pruned.account check.ip check.now).2 check.ip check.order
      check.ip with kept | ⟨ne, -⟩
    · exact congrArg _ kept
    · exact absurd rfl ne

/-- A refusal is the verdict on the address's counter, and leaves it as the
verdict says. -/
theorem counterCheck_of_refused {limiter : RateLimiter} {check : Check} {retryIn : Duration}
    (refused : (limiter.checkInner check).1 = some (.error (.limitExceeded retryIn))) :
    limiter.counterCheck (limiter.slot check.ip) check.now.nanos =
      (.refused (retryIn.nanos : Int), (limiter.checkInner check).2.slot check.ip) := by
  rcases checkInner_own limiter check with ⟨-, same⟩ | ⟨answer, next⟩
  · rw [same] at refused
    cases refused
  · rw [refused] at answer
    exact Prod.ext (Option.some.inj answer).symm next.symm

/-- The check's capacity enforcement takes the entry of `ip`. -/
def Evicts (limiter : RateLimiter) (check : Check) (ip : IpAddr) : Prop :=
  ∃ pruned, limiter.pruneStale check.now = some pruned ∧
    ip ∈ (pruned.account check.ip check.now).2.entries ∧
    ip ∉ (limiter.checkInner check).2.entries

/-- A check never evicts the address it has just counted. -/
theorem not_evicts_own (limiter : RateLimiter) (check : Check) :
    ¬limiter.Evicts check check.ip := by
  intro evicts
  obtain ⟨pruned, prunes, counted, lost⟩ := evicts
  rcases checkInner_cases limiter check with ⟨panics, -⟩ | ⟨pruned', outcome, prunes', -, same⟩
  · rw [panics] at prunes
    cases prunes
  · obtain rfl : pruned' = pruned := Option.some.inj (prunes'.symm.trans prunes)
    rcases lookup_enforceCapacity (pruned'.account check.ip check.now).2 check.ip check.order
      check.ip with kept | ⟨ne, -⟩
    · rw [same, ← AList.lookup_isSome, kept, AList.lookup_isSome] at lost
      exact lost counted
    · exact ne rfl

/-- Another address keeps its counter, or loses it to pruning once its window
is over, or to an eviction. -/
theorem checkInner_other (limiter : RateLimiter) (check : Check) {ip : IpAddr}
    (ne : ip ≠ check.ip) :
    (limiter.checkInner check).2.slot ip = limiter.slot ip ∨
      ((limiter.checkInner check).2.slot ip = none ∧
        (FixedWindow.Restarts limiter.window.nanos (limiter.slot ip) check.now.nanos ∨
          limiter.Evicts check ip)) := by
  rcases checkInner_cases limiter check with ⟨-, same⟩ | ⟨pruned, outcome, prunes, -, same⟩
  · exact .inl (by rw [same])
  · have counted := (account_spec prunes check.ip).2.2 ip ne
    rcases lookup_enforceCapacity (pruned.account check.ip check.now).2 check.ip check.order ip
      with kept | ⟨-, gone⟩
    · have after : (limiter.checkInner check).2.slot ip = pruned.slot ip := by
        rw [same, ← counted]
        exact congrArg _ kept
      rcases slot_pruneStale prunes ip with live | ⟨stale, restarts⟩
      · exact .inl (after.trans live)
      · exact .inr ⟨after.trans stale, .inl restarts⟩
    · have lost : (limiter.checkInner check).2.slot ip = none := by
        rw [same, slot, gone]
        rfl
      cases present : pruned.slot ip with
      | none =>
          rcases slot_pruneStale prunes ip with live | ⟨-, restarts⟩
          · exact .inl (lost.trans (present.symm.trans live))
          · exact .inr ⟨lost, .inl restarts⟩
      | some c =>
          refine .inr ⟨lost, .inr ⟨pruned, prunes, ?_, ?_⟩⟩
          · rw [← AList.lookup_isSome]
            rw [present, slot, Option.map_eq_some_iff] at counted
            obtain ⟨entry, found, -⟩ := counted
            rw [found]
            rfl
          · rw [same, ← AList.lookup_eq_none]
            exact gone

/-- Counting adds the entry of its own address at most. -/
theorem mem_account {limiter pruned : RateLimiter} {ip other : IpAddr} {now : DateTime}
    (prunes : limiter.pruneStale now = some pruned)
    (member : other ∈ (pruned.account ip now).2.entries) :
    other = ip ∨ other ∈ limiter.entries := by
  obtain ⟨_, -, rfl⟩ := pruneStale_eq_some_iff.mp prunes
  rcases AList.mem_insert _ |>.mp member with own | kept
  · exact .inl own
  · exact .inr (AList.mem_of_mem_retain kept)

theorem mem_checkInner {limiter : RateLimiter} {check : Check} {ip : IpAddr}
    (member : ip ∈ (limiter.checkInner check).2.entries) :
    ip = check.ip ∨ ip ∈ limiter.entries := by
  rcases checkInner_cases limiter check with ⟨-, same⟩ | ⟨pruned, outcome, prunes, -, same⟩
  · rw [same] at member
    exact .inr member
  · rw [same] at member
    refine mem_account prunes (AList.lookup_isSome.mp ?_)
    have found := AList.lookup_isSome.mpr member
    rcases lookup_enforceCapacity (pruned.account check.ip check.now).2 check.ip check.order ip
      with kept | ⟨-, gone⟩
    · rwa [kept] at found
    · rw [gone] at found
      cases found

/-- No check evicts while the addresses seen fit the capacity. -/
theorem not_evicts {limiter : RateLimiter} {check : Check} (seen : Finset IpAddr)
    (within : ∀ ip ∈ limiter.entries, ip ∈ seen) (own : check.ip ∈ seen)
    (few : seen.card ≤ limiter.settings.maxEntries) (ip : IpAddr) : ¬limiter.Evicts check ip := by
  intro evicts
  obtain ⟨pruned, prunes, counted, lost⟩ := evicts
  rcases checkInner_cases limiter check with ⟨panics, -⟩ | ⟨pruned', outcome, prunes', -, same⟩
  · rw [panics] at prunes
    cases prunes
  · obtain rfl : pruned' = pruned := Option.some.inj (prunes'.symm.trans prunes)
    have small : (pruned'.account check.ip check.now).2.entries.len ≤
        (pruned'.account check.ip check.now).2.settings.maxEntries := by
      obtain ⟨_, -, rfl⟩ := pruneStale_eq_some_iff.mp prunes
      refine le_trans (AList.len_le_card fun other member => ?_) few
      rcases mem_account prunes member with rfl | old
      · exact own
      · exact within other old
    rw [same, enforceCapacity, if_pos small] at lost
    exact lost counted

end RateLimiter

end Fingermouse
