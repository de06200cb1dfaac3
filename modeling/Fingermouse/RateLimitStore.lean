import Fingermouse.RateLimitRuns

/-!
# The rate limiter's store

What sequential checks keep of the map, and how the loop of `enforce_capacity`
ends.

* `evictLoop_eq_foldl`: the recorded turns are the turns the loop makes.
* `Sound.checkInner`: a check keeps the capacity and every count.
* `store_kept`: the loop of a check ends by its length test after removing at
  most one entry, an oldest one of the others.
-/

namespace Fingermouse

open Chrono

namespace RateLimiter

/-! ## The turns of the loop -/

/-- How the loop of `enforce_capacity` ends: by its length test, or by one of
its two breaks.  A record may also run out of turns. -/
inductive LoopExit
  | lengthTest
  | noCandidate
  | protectedCandidate
  | turnsSpent
deriving DecidableEq

/-- The key a turn of the loop selects. -/
def candidate (protectedIp : IpAddr) (order : IterOrder) (entries : Entries) : Option IpAddr :=
  (oldestKeyExcluding entries order (some protectedIp)).or
    (oldestKeyExcluding entries order none)

/-- The turns of `evictLoop` as a record: the removed keys in order, and how
the loop ends. -/
def evictTurns (maxEntries : Nat) (protectedIp : IpAddr) (order : IterOrder) :
    Nat → Entries → List IpAddr × LoopExit
  | 0, entries => ([], if maxEntries < entries.len then .turnsSpent else .lengthTest)
  | turns + 1, entries =>
      if maxEntries < entries.len then
        match candidate protectedIp order entries with
        | none => ([], .noCandidate)
        | some key =>
            if key = protectedIp then ([], .protectedCandidate)
            else
              let rest := evictTurns maxEntries protectedIp order turns (entries.erase key)
              (key :: rest.1, rest.2)
      else ([], .lengthTest)

theorem victim_eq (protectedIp : IpAddr) (order : IterOrder) (entries : Entries) :
    victim protectedIp order entries =
      (candidate protectedIp order entries).filter (· ≠ protectedIp) := rfl

/-- The loop removes the recorded keys and no others. -/
theorem evictLoop_eq_foldl (maxEntries : Nat) (protectedIp : IpAddr) (order : IterOrder)
    (turns : Nat) (entries : Entries) :
    evictLoop maxEntries protectedIp order turns entries =
      (evictTurns maxEntries protectedIp order turns entries).1.foldl
        (fun left key => left.erase key) entries := by
  induction turns generalizing entries with
  | zero => rfl
  | succ turns ih =>
      simp only [evictLoop, evictTurns, victim_eq]
      split_ifs with exceeds
      · cases candidate protectedIp order entries with
        | none => rfl
        | some key =>
            by_cases own : key = protectedIp
            · simp [own, Option.filter_some]
            · simp only [Option.filter_some, ne_eq, own, not_false_eq_true, decide_true, if_true,
                if_false]
              exact ih (entries.erase key)
      · rfl

theorem evictTurns_of_le {maxEntries : Nat} {protectedIp : IpAddr} {order : IterOrder}
    {turns : Nat} {entries : Entries} (fits : entries.len ≤ maxEntries) :
    evictTurns maxEntries protectedIp order turns entries = ([], .lengthTest) := by
  cases turns with
  | zero => rw [evictTurns, if_neg fits.not_gt]
  | succ turns => rw [evictTurns, if_neg fits.not_gt]

/-- In a map of two entries or more a turn selects an oldest entry of the
others, in whatever order the pass visits them. -/
theorem exists_candidate {entries : Entries} (protectedIp : IpAddr) (order : IterOrder)
    (many : 1 < entries.len) :
    ∃ key entry, candidate protectedIp order entries = some key ∧ key ≠ protectedIp ∧
      entries.lookup key = some entry ∧
      ∀ other found, other ≠ protectedIp → entries.lookup other = some found →
        entry.windowStart ≤ found.windowStart := by
  cases selected : oldestKeyExcluding entries order (some protectedIp) with
  | none => exact absurd (len_le_one_of_oldestKeyExcluding selected) many.not_ge
  | some key =>
      obtain ⟨allowed, entry, found, least⟩ := exists_of_oldestKeyExcluding selected
      refine ⟨key, entry, by rw [candidate, selected]; rfl, ?_, found, ?_⟩
      · exact fun same => allowed (congrArg some same.symm)
      · intro other start ne present
        exact least other start present fun same => ne (Option.some.inj same).symm

/-- One entry over capacity the loop makes one turn. -/
theorem evictTurns_of_succ {maxEntries : Nat} {entries : Entries} (protectedIp : IpAddr)
    (order : IterOrder) (turns : Nat) (positive : 0 < maxEntries)
    (exceeds : entries.len = maxEntries + 1) :
    ∃ key entry, evictTurns maxEntries protectedIp order (turns + 1) entries =
        ([key], .lengthTest) ∧ key ≠ protectedIp ∧ entries.lookup key = some entry ∧
      ∀ other found, other ≠ protectedIp → entries.lookup other = some found →
        entry.windowStart ≤ found.windowStart := by
  have many : 1 < entries.len := by omega
  obtain ⟨key, entry, selected, ne, found, least⟩ := exists_candidate protectedIp order many
  have member : key ∈ entries := AList.lookup_isSome.mp (by rw [found]; rfl)
  have left : (entries.erase key).len ≤ maxEntries := by
    rw [AList.len_erase_of_mem member]
    omega
  refine ⟨key, entry, ?_, ne, found, least⟩
  rw [evictTurns, if_pos (by omega), selected]
  simp only [ne, if_false, evictTurns_of_le left]

/-! ## One check -/

/-- The map holds no more entries than the capacity, and no entry counts
further than the limit. -/
structure Sound (limiter : RateLimiter) : Prop where
  fits : limiter.entries.len ≤ limiter.settings.maxEntries
  counts : ∀ ip entry, limiter.entries.lookup ip = some entry →
    entry.count ≤ limiter.settings.maxRequests

/-- The turns of the loop on the map a check has counted in. -/
def turns (counted : RateLimiter) (check : Check) : List IpAddr × LoopExit :=
  evictTurns counted.settings.maxEntries check.ip check.order counted.entries.len counted.entries

theorem enforceCapacity_entries (counted : RateLimiter) (check : Check) :
    (counted.enforceCapacity check.ip check.order).entries =
      (counted.turns check).1.foldl (fun left key => left.erase key) counted.entries := by
  unfold enforceCapacity turns
  split_ifs with fits
  · rw [evictTurns_of_le fits]
    rfl
  · exact evictLoop_eq_foldl ..

/-- One entry over capacity at most, the loop ends by its length test after
one turn at most. -/
theorem turns_cases {counted : RateLimiter} {check : Check}
    (near : counted.entries.len ≤ counted.settings.maxEntries + 1) :
    (counted.turns check = ([], .lengthTest) ∧
      counted.entries.len ≤ counted.settings.maxEntries) ∨
    ∃ key entry, counted.turns check = ([key], .lengthTest) ∧ key ≠ check.ip ∧
      counted.entries.lookup key = some entry ∧
      ∀ other found, other ≠ check.ip → counted.entries.lookup other = some found →
        entry.windowStart ≤ found.windowStart := by
  rcases Nat.le_or_eq_of_le_succ near with fits | exceeds
  · exact .inl ⟨evictTurns_of_le fits, fits⟩
  · have enough : counted.entries.len = (counted.entries.len - 1) + 1 := by omega
    rw [turns, enough]
    exact .inr (evictTurns_of_succ check.ip check.order _ counted.capacity exceeds)

/-- What the eviction of one check does: `counted` is the limiter its loop
starts from. -/
structure EvictsOldest (limiter counted : RateLimiter) (check : Check) : Prop where
  ends : (counted.turns check).2 = .lengthTest
  once : (counted.turns check).1.length ≤ 1
  spares : check.ip ∉ (counted.turns check).1
  removes : (limiter.checkInner check).2.entries =
    (counted.turns check).1.foldl (fun left key => left.erase key) counted.entries
  oldest : ∀ key ∈ (counted.turns check).1, ∃ removed,
    counted.entries.lookup key = some removed ∧ ∀ other entry, other ≠ check.ip →
      (limiter.checkInner check).2.entries.lookup other = some entry →
      removed.windowStart ≤ entry.windowStart
  unchanged : ∀ other entry, other ≠ check.ip →
    (limiter.checkInner check).2.entries.lookup other = some entry →
    limiter.entries.lookup other = some entry

/-- Pruning and counting add one entry at most, keep the bound on every count
and change no other entry. -/
theorem Sound.counted {limiter pruned : RateLimiter} {now : DateTime} (sound : limiter.Sound)
    (prunes : limiter.pruneStale now = some pruned) (ip : IpAddr) :
    (pruned.account ip now).2.entries.len ≤ limiter.settings.maxEntries + 1 ∧
    (∀ other entry, (pruned.account ip now).2.entries.lookup other = some entry →
      entry.count ≤ limiter.settings.maxRequests) ∧
    ∀ other entry, other ≠ ip → (pruned.account ip now).2.entries.lookup other = some entry →
      limiter.entries.lookup other = some entry := by
  obtain ⟨cutoff, -, rfl⟩ := pruneStale_eq_some_iff.mp prunes
  have old : ∀ {other entry}, (limiter.entries.retain fun _ entry =>
      decide (cutoff ≤ entry.windowStart)).lookup other = some entry →
      limiter.entries.lookup other = some entry :=
    fun found => (AList.mem_lookup_retain.mp found).1
  refine ⟨?_, fun other entry found => ?_, fun other entry ne found => ?_⟩
  · calc (AList.insert ip _ (limiter.entries.retain _)).len
        ≤ (limiter.entries.retain _).len + 1 := AList.len_insert_le ..
      _ ≤ limiter.entries.len + 1 := Nat.succ_le_succ (AList.len_retain_le ..)
      _ ≤ limiter.settings.maxEntries + 1 := Nat.succ_le_succ sound.fits
  · by_cases own : other = ip
    · subst own
      simp only [account, AList.lookup_insert, Option.some.injEq] at found
      rw [← found]
      refine (touch_count ..).2 (freshen_count_le fun entry stored => ?_)
      exact sound.counts other entry (old stored)
    · simp only [account, AList.lookup_insert_ne own] at found
      exact sound.counts other entry (old found)
  · simp only [account, AList.lookup_insert_ne ne] at found
    exact old found

/-- The loop leaves no more entries than the capacity. -/
theorem len_foldl_turns_le {counted : RateLimiter} {check : Check}
    (near : counted.entries.len ≤ counted.settings.maxEntries + 1) :
    ((counted.turns check).1.foldl (fun left key => left.erase key) counted.entries).len ≤
      counted.settings.maxEntries := by
  rcases turns_cases near with ⟨same, fits⟩ | ⟨key, entry, same, -, found, -⟩
  · rw [same]
    exact fits
  · have member : key ∈ counted.entries := AList.lookup_isSome.mp (by rw [found]; rfl)
    rw [same]
    show (counted.entries.erase key).len ≤ _
    rw [AList.len_erase_of_mem member]
    omega

theorem evictsOldest_of_near {limiter counted : RateLimiter} {check : Check}
    (near : counted.entries.len ≤ counted.settings.maxEntries + 1)
    (removes : (limiter.checkInner check).2.entries =
      (counted.turns check).1.foldl (fun left key => left.erase key) counted.entries)
    (kept : ∀ other entry, (limiter.checkInner check).2.entries.lookup other = some entry →
      counted.entries.lookup other = some entry)
    (unchanged : ∀ other entry, other ≠ check.ip → counted.entries.lookup other = some entry →
      limiter.entries.lookup other = some entry) :
    EvictsOldest limiter counted check where
  ends := by
    rcases turns_cases near with ⟨same, -⟩ | ⟨key, entry, same, -⟩ <;> rw [same]
  once := by
    rcases turns_cases near with ⟨same, -⟩ | ⟨key, entry, same, -⟩ <;> rw [same] <;> simp
  spares := by
    rcases turns_cases near with ⟨same, -⟩ | ⟨key, entry, same, ne, -⟩
    · rw [same]
      exact List.not_mem_nil
    · rw [same, List.mem_singleton]
      exact ne.symm
  removes := removes
  oldest := by
    intro key member
    rcases turns_cases near with ⟨same, -⟩ | ⟨victim, entry, same, -, found, least⟩
    · rw [same] at member
      cases member
    · rw [same, List.mem_singleton] at member
      subst member
      exact ⟨entry, found, fun other left ne stays => least other left ne (kept other left stays)⟩
  unchanged := fun other entry ne stays => unchanged other entry ne (kept other entry stays)

/-- A check that answers keeps the store sound, holds its address, and evicts
an oldest entry of the others at most. -/
theorem Sound.step {limiter : RateLimiter} {check : Check} {outcome : Outcome}
    (sound : limiter.Sound) (answered : (limiter.checkInner check).1 = some outcome) :
    ∃ pruned, limiter.pruneStale check.now = some pruned ∧
      (limiter.checkInner check).2.Sound ∧ check.ip ∈ (limiter.checkInner check).2.entries ∧
      EvictsOldest limiter (pruned.account check.ip check.now).2 check := by
  rcases checkInner_cases limiter check with ⟨-, same⟩ | ⟨pruned, _, prunes, -, same⟩
  · rw [same] at answered
    cases answered
  · obtain ⟨near, counts, unchanged⟩ := sound.counted prunes check.ip
    have settings : (pruned.account check.ip check.now).2.settings = limiter.settings := by
      obtain ⟨_, -, rfl⟩ := pruneStale_eq_some_iff.mp prunes
      rfl
    have inserted : check.ip ∈ (pruned.account check.ip check.now).2.entries :=
      (AList.mem_insert _).mpr (.inl rfl)
    have after : (limiter.checkInner check).2 =
        (pruned.account check.ip check.now).2.enforceCapacity check.ip check.order := by rw [same]
    refine ⟨pruned, prunes, ?_⟩
    generalize (pruned.account check.ip check.now).2 = counted at *
    have kept : ∀ other entry, (limiter.checkInner check).2.entries.lookup other = some entry →
        counted.entries.lookup other = some entry := by
      intro other entry found
      rw [after] at found
      rcases lookup_enforceCapacity counted check.ip check.order other with same | ⟨-, gone⟩
      · rwa [same] at found
      · rw [gone] at found
        cases found
    refine ⟨⟨?_, fun other entry found => ?_⟩, ?_, ?_⟩
    · rw [checkInner_settings, after, enforceCapacity_entries, ← settings]
      rw [← settings] at near
      exact len_foldl_turns_le near
    · rw [checkInner_settings]
      exact counts other entry (kept other entry found)
    · rcases lookup_enforceCapacity counted check.ip check.order check.ip with same | ⟨ne, -⟩
      · rwa [after, ← AList.lookup_isSome, same, AList.lookup_isSome]
      · exact absurd rfl ne
    · rw [← settings] at near
      have removes : (limiter.checkInner check).2.entries =
          (counted.turns check).1.foldl (fun left key => left.erase key) counted.entries := by
        rw [after, enforceCapacity_entries]
      exact evictsOldest_of_near near removes kept unchanged

theorem Sound.withClock {settings : RateLimitSettings} : (RateLimiter.withClock settings).Sound :=
  ⟨Nat.zero_le _, fun _ _ found => by cases found⟩

theorem Sound.checkInner {limiter : RateLimiter} (sound : limiter.Sound) (check : Check) :
    (limiter.checkInner check).2.Sound := by
  cases answered : (limiter.checkInner check).1 with
  | none =>
      rcases checkInner_cases limiter check with ⟨-, same⟩ | ⟨_, _, -, -, same⟩
      · rwa [same]
      · rw [same] at answered
        cases answered
  | some outcome =>
      obtain ⟨_, -, next, -⟩ := sound.step answered
      exact next

/-- After every check of a run that answers, the map holds at most
`max 1 max_entries` entries, the checked address among them, and no count
exceeds the limit; the loop of the check ended by its length test, having
removed an oldest entry of the others at most. -/
theorem store_kept (settings : RateLimitSettings) (run : List Check) (check : Check)
    (outcome : Outcome)
    (answered : (checkInner ((withClock settings).after run) check).1 = some outcome) :
    let before := (withClock settings).after run
    let left := (before.checkInner check).2
    left.entries.len ≤ max 1 settings.maxEntries ∧
    check.ip ∈ left.entries ∧
    (∀ ip entry, left.entries.lookup ip = some entry → entry.count ≤ settings.maxRequests) ∧
    ∃ pruned, before.pruneStale check.now = some pruned ∧
      EvictsOldest before (pruned.account check.ip check.now).2 check := by
  have sound : ((withClock settings).after run).Sound := by
    refine Mealy.final_invariant (fun _ (now : RateLimiter) => now.Sound) Sound.withClock ?_
    intro front check back _ before
    exact before.checkInner check
  obtain ⟨pruned, prunes, next, present, evicts⟩ := sound.step answered
  have fits := next.fits
  have counts := next.counts
  simp only [checkInner_settings, after_settings, withClock_maxEntries, withClock_maxRequests]
    at fits counts
  exact ⟨fits, present, counts, pruned, prunes, evicts⟩

/-- A capacity of zero is one: the second client's check leaves its own entry. -/
theorem store_kept_of_zero :
    let before := (withClock ⟨5, .fromSecs 60, 0⟩).after [⟨.v4 1, .fromSecs 0, .stored⟩]
    let check : Check := ⟨.v4 2, .fromSecs 1, .stored⟩
    let left := (before.checkInner check).2
    left.entries.len ≤ 1 ∧ .v4 2 ∈ left.entries ∧
    (∀ ip entry, left.entries.lookup ip = some entry → entry.count ≤ 5) ∧
    ∃ pruned, before.pruneStale (.fromSecs 1) = some pruned ∧
      EvictsOldest before (pruned.account (.v4 2) (.fromSecs 1)).2 check :=
  store_kept ⟨5, .fromSecs 60, 0⟩ [⟨.v4 1, .fromSecs 0, .stored⟩] ⟨.v4 2, .fromSecs 1, .stored⟩
    (.ok ()) rfl

end RateLimiter

end Fingermouse
