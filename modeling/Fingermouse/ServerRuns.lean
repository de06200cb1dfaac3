import Fingermouse.Disclosure
import Fingermouse.RateLimitPace

/-!
# Runs of the server

Sequences of connections, each served while no other is, from the start of the
server on.

* `streams_alone`: while the addresses fit the limiter's capacity, what a client
  is sent does not depend on any other client.
-/

namespace Fingermouse

open Text Chrono RateLimiter
open ConnectionHandler (wired)

/-- A connection: its check, what the client sends, and the objects of the store
at the time. -/
structure Visit where
  check : Check
  input : Bytes
  store : ObjectStore

namespace Visit

section Running

variable (encodePart : Str → Str) (fromStr : Str → Except Toml.Error Toml.Document)
  (config : ServerConfig)

/-- The stream a connection leaves; there is none where the check panics. -/
def answer (visit : Visit) (outcome : Option Outcome) : Option (Except Str Unit × TcpStream) :=
  outcome.map fun checked =>
    (wired encodePart fromStr config visit.store).connect checked visit.input

/-- Serve one connection. -/
def serve (limiter : RateLimiter) (visit : Visit) :
    Option (Except Str Unit × TcpStream) × RateLimiter :=
  let checked := limiter.checkInner visit.check
  (visit.answer encodePart fromStr config checked.1, checked.2)

/-- The streams of the connections from one address. -/
def streamsTo (ip : IpAddr) (limiter : RateLimiter) (visits : List Visit) :
    List (Option (Except Str Unit × TcpStream)) :=
  ((Mealy.trace (serve encodePart fromStr config) limiter visits).filter fun served =>
    served.1.check.ip = ip).map Prod.snd

end Running

/-! ## Outcomes and streams -/

variable {encodePart : Str → Str} {fromStr : Str → Except Toml.Error Toml.Document}
  {config : ServerConfig}

/-- The visits of one address. -/
def visitsOf (ip : IpAddr) (visits : List Visit) : List Visit :=
  visits.filter fun visit => visit.check.ip = ip

/-- The streams to an address are those its visits get with the outcomes it
sees. -/
theorem streamsTo_eq (ip : IpAddr) (limiter : RateLimiter) (visits : List Visit) :
    streamsTo encodePart fromStr config ip limiter visits =
      List.zipWith (answer encodePart fromStr config) (visitsOf ip visits)
        (outcomesOf ip (limiter.answers (visits.map Visit.check))) := by
  induction visits generalizing limiter with
  | nil => rfl
  | cons visit visits ih =>
      have rest := ih (limiter.checkInner visit.check).2
      simp only [streamsTo, outcomesOf, visitsOf, answers, List.map_cons, Mealy.trace_cons,
        List.filter_cons] at rest ⊢
      split_ifs
      · rw [List.map_cons, List.map_cons, List.zipWith_cons_cons]
        exact congrArg _ rest
      · exact rest

end Visit

namespace RateLimiter

theorem readingsOf_filter (ip : IpAddr) (run : List Check) :
    readingsOf ip (run.filter fun check => check.ip = ip) = readingsOf ip run := by
  simp only [readingsOf, List.filter_filter, Bool.and_self]

/-- While the addresses fit the capacity, an address sees the outcomes it would
see alone. -/
theorem outcomesOf_alone {settings : RateLimitSettings} {run : List Check} (ip : IpAddr)
    (monotone : Monotone run)
    (room : ∀ check ∈ run, check.now.checkedSub (withClock settings).window ≠ none)
    (few : (run.map Check.ip).toFinset.card ≤ (withClock settings).settings.maxEntries) :
    outcomesOf ip ((withClock settings).answers run) =
      outcomesOf ip ((withClock settings).answers (run.filter fun check => check.ip = ip)) := by
  have track : ∀ part : List Check, part.Sublist run →
      (outcomesOf ip ((withClock settings).answers part)).map (Option.map Outcome.verdict) =
        (Mealy.trace (withClock settings).counterCheck none (readingsOf ip part)).map
          (some ·.2) := by
    intro part sub
    have tracks : (withClock settings).Tracks ip none minUtc := .inl rfl
    refine outcomes_track tracks (fun check _ => check.now.bounds.1) (monotone.sublist sub)
      (fun check member => room check (sub.subset member))
      (fun other member => absurd member (AList.notMem_empty other)) (fun check member => ?_) few
    exact List.mem_toFinset.mpr (List.mem_map_of_mem (sub.subset member))
  apply List.map_injective_iff.mpr (Option.map_injective Outcome.verdict_injective)
  rw [track run (List.Sublist.refl run), track _ List.filter_sublist, readingsOf_filter]

end RateLimiter

namespace Visit

/-- What a client is sent, connection by connection, is what it would be sent if
no other client ever connected, while the addresses fit the capacity of the
limiter. -/
theorem streams_alone (encodePart : Str → Str)
    (fromStr : Str → Except Toml.Error Toml.Document) (config : ServerConfig)
    (visits : List Visit) (ip : IpAddr) (monotone : Monotone (visits.map Visit.check))
    (room : ∀ visit ∈ visits,
      visit.check.now.checkedSub (withClock config.rate).window ≠ none)
    (few : (visits.map fun visit => visit.check.ip).toFinset.card ≤
      (withClock config.rate).settings.maxEntries) :
    streamsTo encodePart fromStr config ip (withClock config.rate) visits =
      streamsTo encodePart fromStr config ip (withClock config.rate) (visitsOf ip visits) := by
  have own : visitsOf ip (visitsOf ip visits) = visitsOf ip visits := by
    simp only [visitsOf, List.filter_filter, Bool.and_self]
  have checks : (visitsOf ip visits).map Visit.check =
      (visits.map Visit.check).filter fun check => check.ip = ip := by
    rw [visitsOf, List.filter_map]
    rfl
  rw [streamsTo_eq, streamsTo_eq, own, checks, ← outcomesOf_alone ip monotone]
  · intro check member
    obtain ⟨visit, inVisits, rfl⟩ := List.mem_map.mp member
    exact room visit inVisits
  · rwa [List.map_map]

section Alice

open ConnectionHandler (aliceStore aliceLine)
open FingerProfile (parserOf plainDocument singleTable)

/-- Two clients ask for Alice, the second one twice, in the same minute. -/
def aliceVisits : List Visit :=
  [(1, 0), (2, 1), (2, 2)].map fun visit =>
    ⟨⟨.v4 visit.1, .fromSecs visit.2, .stored⟩, aliceLine, aliceStore (.error .notFound)⟩

theorem streams_alone_of_alice :
    let parser := parserOf plainDocument (singleTable "full_name".toList "Alice Smith".toList)
    let limiter := withClock ServerConfig.ofDefault.rate
    streamsTo id parser .ofDefault (.v4 1) limiter aliceVisits =
      streamsTo id parser .ofDefault (.v4 1) limiter (aliceVisits.take 1) :=
  streams_alone id _ .ofDefault aliceVisits (.v4 1) (by decide) (by decide) (by decide)

end Alice

end Visit

end Fingermouse
