import Fingermouse.HttpText
import Fingermouse.Mealy

/-!
# The metrics endpoint

`telemetry.rs`: the loop that serves the metrics, and the handle by which its
owner ends it.  A schedule interleaves the two with what the peers do.

* `peers_read`: whatever becomes of a connection, its peer reads the metrics as they
  were when its own request was taken, or no response.
* `stops_for_owner`: no error ends the loop; it stops for the signal, which always
  finds it there.
* `shutdown_waits`: a peer that sends nothing keeps the owner from coming back
  from `shutdown`, and nobody else can.
-/

namespace Fingermouse.Telemetry

open Text

/-! ## The response -/

/-- The headers that `respond_with_metrics` formats. -/
def metricsHeaders (contentLength : Nat) : Str :=
  ("HTTP/1.1 200 OK\r\ncontent-type: text/plain; version=0.0.4\r\n" ++
    "cache-control: no-cache\r\nconnection: close\r\ncontent-length: ").toList ++
  Nat.toDigits 10 contentLength ++ "\r\n\r\n".toList

/-- All that `respond_with_metrics` writes for the metrics rendered. -/
def metricsBytes (metrics : Str) : Bytes :=
  asBytes (metricsHeaders (asBytes metrics).length) ++ asBytes metrics

/-- The response as HTTP has it. -/
def metricsResponse (metrics : Str) : HttpText.Response where
  status := "HTTP/1.1 200 OK".toList
  headers :=
    [("content-type".toList, "text/plain; version=0.0.4".toList),
      ("cache-control".toList, "no-cache".toList),
      ("connection".toList, "close".toList),
      ("content-length".toList, Nat.toDigits 10 (asBytes metrics).length)]
  body := asBytes metrics

/-! ## The loop and its owner -/

/-- Where the task is. -/
inductive Stage
  /-- `select!` between the signal and the listener. -/
  | select
  /-- The `sleep` of `handle_accept_error`. -/
  | sleep
  /-- `discard_request`. -/
  | read
  /-- `respond_with_metrics`, with what has been sent and what has not; after all
  of it the socket is shut down. -/
  | write (sent rest : Bytes)
  | stopped
deriving DecidableEq

/-- What the owner of the `MetricsEndpoint` does with it. -/
inductive Owner
  | holds
  /-- `shutdown` awaits the task. -/
  | joins
  | joined
  | dropped
deriving DecidableEq

structure MetricsEndpoint where
  stage : Stage
  owner : Owner
  /-- The signal is in the channel. -/
  signalled : Bool
  /-- What the peers before were sent. -/
  closed : List Bytes

inductive Action
  | shutdown
  | drop
  | join
  /-- `select!` sees the signal. -/
  | signal
  | accept
  | acceptError
  | wake
  /-- The peer sends something, or ends its stream; the metrics are then these. -/
  | receive (metrics : Str)
  | send (more : Nat)
  /-- The read, a write or the shutdown of the socket fails. -/
  | fail
deriving DecidableEq

namespace MetricsEndpoint

/-- What `spawn_metrics_endpoint` gives. -/
def spawned : MetricsEndpoint := ⟨.select, .holds, false, []⟩

/-- `sender.send(())`, and the warning where the receiver is gone. -/
def sendSignal (e : MetricsEndpoint) (owner : Owner) (closedText : Str) :
    Option Str × MetricsEndpoint :=
  (if e.stage = .stopped then some closedText else none, { e with owner, signalled := true })

def closedDuringJoin : Str :=
  "metrics endpoint shutdown channel already closed during join".toList

def closedOnDrop : Str :=
  "metrics endpoint shutdown channel already closed on drop".toList

/-- What the owner does. -/
def act (e : MetricsEndpoint) : Action → Option Str × MetricsEndpoint
  | .shutdown =>
      if e.owner = .holds then e.sendSignal .joins closedDuringJoin else (none, e)
  | .drop =>
      match e.owner with
      | .holds => e.sendSignal .dropped closedOnDrop
      | .joins => (none, { e with owner := .dropped }) -- The sender is taken already.
      | _ => (none, e)
  | .join =>
      if e.owner = .joins ∧ e.stage = .stopped then (none, { e with owner := .joined })
      else (none, e)
  | _ => (none, e)

/-- What the loop does. -/
def turn (e : MetricsEndpoint) (action : Action) : Option Str × MetricsEndpoint :=
  match e.stage, action with
  | .select, .signal => (none, if e.signalled then { e with stage := .stopped } else e)
  | .select, .accept => (none, { e with stage := .read })
  | .select, .acceptError => (some "metrics accept failed".toList, { e with stage := .sleep })
  | .sleep, .wake => (none, { e with stage := .select })
  | .read, .receive metrics => (none, { e with stage := .write [] (metricsBytes metrics) })
  | .read, .fail =>
      (some "failed to read metrics request".toList,
        { e with stage := .select, closed := [] :: e.closed })
  | .write sent rest, .send more =>
      if rest = [] then (none, { e with stage := .select, closed := sent :: e.closed })
      else
        (none, { e with
          stage := .write (sent ++ rest.take (more + 1)) (rest.drop (more + 1)) })
  | .write sent _, .fail =>
      (some "failed to respond with metrics".toList,
        { e with stage := .select, closed := sent :: e.closed })
  | _, _ => (none, e)

/-- A step of the schedule, and what it logs. -/
def step (e : MetricsEndpoint) (action : Action) : Option Str × MetricsEndpoint :=
  match action with
  | .shutdown | .drop | .join => e.act action
  | _ => e.turn action

/-- The state that a schedule leads to. -/
abbrev after (schedule : List Action) : MetricsEndpoint := Mealy.final step spawned schedule

/-- What each peer has been sent, latest first. -/
def streams (e : MetricsEndpoint) : List Bytes :=
  match e.stage with
  | .read => [] :: e.closed
  | .write sent _ => sent :: e.closed
  | _ => e.closed

end MetricsEndpoint

/-! ## The response is read back -/

/-- Lines of which the last one ends with a number. -/
theorem flatMap_lines {a b c d e front back : Str} (number crlf : Str)
    (before : a ++ crlf ++ (b ++ crlf) ++ (c ++ crlf) ++ (d ++ crlf) ++ e = front)
    (after : crlf ++ crlf = back) :
    ([a, b, c, d, e ++ number].flatMap fun line => line ++ crlf) ++ crlf =
      front ++ number ++ back := by
  rw [← before, ← after]
  simp only [List.flatMap_cons, List.flatMap_nil, List.append_nil, List.append_assoc]

/-- The source writes the response out as HTTP has it. -/
theorem metricsBytes_eq (metrics : Str) :
    metricsBytes metrics = (metricsResponse metrics).write := by
  have front : "HTTP/1.1 200 OK".toList ++ ['\r', '\n'] ++
      ("content-type".toList ++ ": ".toList ++ "text/plain; version=0.0.4".toList ++
        ['\r', '\n']) ++
      ("cache-control".toList ++ ": ".toList ++ "no-cache".toList ++ ['\r', '\n']) ++
      ("connection".toList ++ ": ".toList ++ "close".toList ++ ['\r', '\n']) ++
      ("content-length".toList ++ ": ".toList) =
      ("HTTP/1.1 200 OK\r\ncontent-type: text/plain; version=0.0.4\r\n" ++
        "cache-control: no-cache\r\nconnection: close\r\ncontent-length: ").toList := by
    decide +kernel
  have head : ((metricsResponse metrics).lines.flatMap fun line => line ++ ['\r', '\n']) ++
      ['\r', '\n'] = metricsHeaders (asBytes metrics).length :=
    flatMap_lines _ _ front (by decide)
  rw [metricsBytes, ← head, asBytes_append]
  rfl

theorem framed_metricsResponse (metrics : Str) : (metricsResponse metrics).Framed where
  status := by
    change "HTTP/1.1 200 OK".toList ≠ [] ∧ '\r' ∉ "HTTP/1.1 200 OK".toList
    decide
  headers := by
    have digit : ∀ c ∈ Nat.toDigits 10 (asBytes metrics).length, c.isDigit = true :=
      fun c member => Nat.isDigit_of_mem_toDigits (by omega) (by omega) member
    have name : '\r' ∉ "content-length".toList ∧ ':' ∉ "content-length".toList := by decide
    have fixed : ∀ field ∈ [("content-type".toList, "text/plain; version=0.0.4".toList),
        ("cache-control".toList, "no-cache".toList), ("connection".toList, "close".toList)],
        '\r' ∉ field.1 ∧ ':' ∉ field.1 ∧ '\r' ∉ field.2 ∧ field.2.head? ≠ some ' ' := by
      decide
    change ∀ field ∈ [_, _, _] ++ [_], _
    rw [List.forall_mem_append, List.forall_mem_singleton]
    refine ⟨fixed, name.1, name.2, fun returns => ?_, fun blank => ?_⟩
    · exact absurd (digit _ returns) (by decide)
    · exact absurd (digit _ (List.mem_of_mem_head? blank)) (by decide)
  length := by
    rfl

/-- A client can tell whether it has all of the response. -/
theorem read_metricsBytes {metrics : Str} {part : Bytes} (arrived : part <+: metricsBytes metrics) :
    HttpText.read part = if part = metricsBytes metrics then some (metricsResponse metrics)
      else none := by
  rw [metricsBytes_eq] at arrived ⊢
  exact (framed_metricsResponse metrics).read_part arrived

namespace MetricsEndpoint

/-! ## One step -/

/-- What a step can do. -/
inductive Moves (e : MetricsEndpoint) : Action → Option Str → MetricsEndpoint → Prop
  | idle {action : Action} : Moves e action none e
  | shutdown :
    e.owner = .holds →
    Moves e .shutdown (e.sendSignal .joins closedDuringJoin).1
      (e.sendSignal .joins closedDuringJoin).2
  | drop :
    e.owner = .holds →
    Moves e .drop (e.sendSignal .dropped closedOnDrop).1 (e.sendSignal .dropped closedOnDrop).2
  | leave : e.owner = .joins → Moves e .drop none { e with owner := .dropped }
  | join :
    e.owner = .joins → e.stage = .stopped → Moves e .join none { e with owner := .joined }
  | signal :
    e.stage = .select → e.signalled = true → Moves e .signal none { e with stage := .stopped }
  | accept : e.stage = .select → Moves e .accept none { e with stage := .read }
  | acceptError :
    e.stage = .select →
    Moves e .acceptError (some "metrics accept failed".toList) { e with stage := .sleep }
  | wake : e.stage = .sleep → Moves e .wake none { e with stage := .select }
  | receive {metrics : Str} :
    e.stage = .read →
    Moves e (.receive metrics) none { e with stage := .write [] (metricsBytes metrics) }
  | write {more : Nat} {sent rest : Bytes} (count : Nat) :
    e.stage = .write sent rest →
    Moves e (.send more) none
      { e with stage := .write (sent ++ rest.take count) (rest.drop count) }
  | finish {more : Nat} {sent : Bytes} :
    e.stage = .write sent [] →
    Moves e (.send more) none { e with stage := .select, closed := sent :: e.closed }
  | failRead :
    e.stage = .read →
    Moves e .fail (some "failed to read metrics request".toList)
      { e with stage := .select, closed := [] :: e.closed }
  | failWrite {sent rest : Bytes} :
    e.stage = .write sent rest →
    Moves e .fail (some "failed to respond with metrics".toList)
      { e with stage := .select, closed := sent :: e.closed }

theorem act_moves (e : MetricsEndpoint) (action : Action) :
    Moves e action (e.act action).1 (e.act action).2 := by
  cases action with
  | shutdown =>
      rw [act]
      split_ifs with holds
      · exact .shutdown holds
      · exact .idle
  | drop =>
      cases owner : e.owner <;> simp only [act, owner]
      case holds => exact .drop owner
      case joins => exact .leave owner
      all_goals exact .idle
  | join =>
      rw [act]
      split_ifs with ends
      · exact .join ends.1 ends.2
      · exact .idle
  | _ => exact .idle

theorem turn_moves (e : MetricsEndpoint) (action : Action) :
    Moves e action (e.turn action).1 (e.turn action).2 := by
  fun_cases turn e action with
  | case1 stage =>
      simp only
      split_ifs with signalled
      · exact .signal stage signalled
      · exact .idle
  | case2 stage => exact .accept stage
  | case3 stage => exact .acceptError stage
  | case4 stage => exact .wake stage
  | case5 metrics stage => exact .receive stage
  | case6 stage => exact .failRead stage
  | case7 sent more stage => exact .finish stage
  | case8 sent rest more stage => exact .write (more + 1) stage
  | case9 sent rest stage => exact .failWrite stage
  | case10 => exact .idle

theorem step_moves (e : MetricsEndpoint) (action : Action) :
    Moves e action (e.step action).1 (e.step action).2 := by
  cases action with
  | shutdown | drop | join => exact act_moves e _
  | _ => exact turn_moves e _

/-- A signal that finds the loop running logs nothing. -/
theorem Moves.log {e e' : MetricsEndpoint} {action : Action} {log : Option Str}
    (moves : Moves e action log e') (runs : e.owner = .holds → e.stage ≠ .stopped) :
    log ≠ some closedDuringJoin ∧ log ≠ some closedOnDrop := by
  have sends (owner : Owner) (text : Str) (holds : e.owner = .holds) :
      (e.sendSignal owner text).1 = none := if_neg (runs holds)
  cases moves with
  | shutdown holds | drop holds =>
      rw [sends _ _ holds]
      exact ⟨nofun, nofun⟩
  | acceptError | failRead | failWrite =>
      rw [Ne, Option.some.injEq, Ne, Option.some.injEq]
      decide
  | _ => exact ⟨nofun, nofun⟩

/-! ## What a run keeps -/

/-- The request of the connection that comes after those sent `earlier` is taken
after the steps in `front`, when the metrics are these. -/
def Takes (schedule : List Action) (earlier : List Bytes) (front : List Action) (metrics : Str) :
    Prop :=
  (∃ back, schedule = front ++ .receive metrics :: back) ∧
    (after front).stage = .read ∧ (after front).closed = earlier

/-- What a peer may have been sent: a part of the response to its own request. -/
def Sent (schedule : List Action) (earlier : List Bytes) (stream : Bytes) : Prop :=
  stream = [] ∨ ∃ front metrics, Takes schedule earlier front metrics ∧
    stream <+: metricsBytes metrics

/-- What holds of the owner and the loop after the steps in `front`. -/
structure Sound (front : List Action) (e : MetricsEndpoint) : Prop where
  stopped : e.stage = .stopped → e.signalled = true
  signalled : e.signalled = true ↔ e.owner ≠ .holds
  joined : e.owner = .joined → e.stage = .stopped
  asked : e.owner ≠ .holds → .shutdown ∈ front ∨ .drop ∈ front

/-- What holds of the streams after the steps in `front`. -/
structure Streams (front : List Action) (e : MetricsEndpoint) : Prop where
  writes : ∀ sent rest, e.stage = .write sent rest →
    ∃ before metrics, Takes front e.closed before metrics ∧ sent ++ rest = metricsBytes metrics
  closed : ∀ later stream earlier, e.closed = later ++ stream :: earlier →
    Sent front earlier stream

variable {front : List Action} {e e' : MetricsEndpoint} {action : Action} {log : Option Str}

theorem Takes.append {earlier : List Bytes} {before : List Action} {metrics : Str}
    (takes : Takes front earlier before metrics) (action : Action) :
    Takes (front ++ [action]) earlier before metrics := by
  obtain ⟨⟨back, rfl⟩, taken⟩ := takes
  exact ⟨⟨back ++ [action], List.append_assoc ..⟩, taken⟩

theorem Sent.append {earlier : List Bytes} {stream : Bytes} (sent : Sent front earlier stream)
    (action : Action) : Sent (front ++ [action]) earlier stream :=
  sent.imp id fun ⟨before, metrics, takes, part⟩ => ⟨before, metrics, takes.append action, part⟩

/-- The streams of the peers before, with one more. -/
theorem forall_sent_cons {closed : List Bytes} {sent : Bytes} (first : Sent front closed sent)
    (rest : ∀ later stream earlier, closed = later ++ stream :: earlier →
      Sent front earlier stream) (later : List Bytes) (stream : Bytes) (earlier : List Bytes)
    (split : sent :: closed = later ++ stream :: earlier) : Sent front earlier stream := by
  cases later with
  | nil =>
      obtain ⟨rfl, rfl⟩ := List.cons.inj split
      exact first
  | cons _ later => exact rest later stream earlier (List.cons.inj split).2

/-- The loop goes on. -/
theorem Sound.goesOn (sound : Sound front e) (runs : e.stage ≠ .stopped) {stage : Stage}
    (still : stage ≠ .stopped) (closed : List Bytes) (action : Action) :
    Sound (front ++ [action]) { e with stage, closed } where
  stopped := fun stops => absurd stops still
  signalled := sound.signalled
  joined := fun joined => absurd (sound.joined joined) runs
  asked := fun asked => (sound.asked asked).imp (List.mem_append_left _) (List.mem_append_left _)

theorem Sound.step (sound : Sound front e) (moves : Moves e action log e') :
    Sound (front ++ [action]) e' := by
  have asked : e.owner ≠ .holds → .shutdown ∈ front ++ [action] ∨ .drop ∈ front ++ [action] :=
    fun asked => (sound.asked asked).imp (List.mem_append_left _) (List.mem_append_left _)
  have now : action ∈ front ++ [action] := List.mem_append_right _ (List.mem_singleton_self _)
  cases moves with
  | idle => exact ⟨sound.stopped, sound.signalled, sound.joined, asked⟩
  | shutdown => exact ⟨fun _ => rfl, iff_of_true rfl nofun, nofun, fun _ => .inl now⟩
  | drop => exact ⟨fun _ => rfl, iff_of_true rfl nofun, nofun, fun _ => .inr now⟩
  | leave joins =>
      have left : e.owner ≠ .holds := by
        rw [joins]
        exact nofun
      exact ⟨sound.stopped, iff_of_true (sound.signalled.mpr left) nofun, nofun,
        fun _ => asked left⟩
  | join joins stopped =>
      have left : e.owner ≠ .holds := by
        rw [joins]
        exact nofun
      exact ⟨sound.stopped, iff_of_true (sound.signalled.mpr left) nofun, fun _ => stopped,
        fun _ => asked left⟩
  | signal selects signalled =>
      exact ⟨fun _ => signalled, sound.signalled, fun _ => rfl, asked⟩
  | accept stage | acceptError stage | wake stage | receive stage | write count stage
  | finish stage | failRead stage | failWrite stage =>
      refine sound.goesOn ?_ ?_ _ _
      · rw [stage]
        exact nofun
      · exact nofun

theorem Streams.step (streams : Streams front e) (now : after front = e)
    (moves : Moves e action log e') : Streams (front ++ [action]) e' := by
  have writes : ∀ sent rest, e.stage = .write sent rest → ∃ before metrics,
      Takes (front ++ [action]) e.closed before metrics ∧ sent ++ rest = metricsBytes metrics := by
    intro sent rest stage
    obtain ⟨before, metrics, takes, whole⟩ := streams.writes sent rest stage
    exact ⟨before, metrics, takes.append action, whole⟩
  have closed : ∀ later stream earlier, e.closed = later ++ stream :: earlier →
      Sent (front ++ [action]) earlier stream :=
    fun later stream earlier split => (streams.closed later stream earlier split).append action
  cases moves with
  | idle | shutdown | drop | leave | join => exact ⟨writes, closed⟩
  | signal | accept | acceptError | wake => exact ⟨nofun, closed⟩
  | receive reads =>
      refine ⟨fun sent rest stage => ?_, closed⟩
      obtain ⟨rfl, rfl⟩ := Stage.write.inj stage
      have same : (after front).closed = e.closed := by rw [now]
      exact ⟨front, _, ⟨⟨[], rfl⟩, now ▸ reads, same⟩, List.nil_append _⟩
  | write count stage =>
      refine ⟨fun sent rest later => ?_, closed⟩
      obtain ⟨before, metrics, takes, whole⟩ := writes _ _ stage
      obtain ⟨rfl, rfl⟩ := Stage.write.inj later
      refine ⟨before, metrics, takes, ?_⟩
      rw [List.append_assoc, List.take_append_drop, whole]
  | finish stage | failWrite stage =>
      refine ⟨nofun, forall_sent_cons (.inr ?_) closed⟩
      obtain ⟨before, metrics, takes, whole⟩ := writes _ _ stage
      exact ⟨before, metrics, takes, ⟨_, whole⟩⟩
  | failRead => exact ⟨nofun, forall_sent_cons (.inl rfl) closed⟩

/-- A connection that is answered goes on so until it is over. -/
theorem Moves.answers {closed : List Bytes} (moves : Moves e action log e')
    (answers : (∃ sent rest, e.stage = .write sent rest) ∧ e.closed = closed ∨
      closed.length < e.closed.length) :
    (∃ sent rest, e'.stage = .write sent rest) ∧ e'.closed = closed ∨
      closed.length < e'.closed.length := by
  rcases answers with ⟨⟨sent, rest, writing⟩, rfl⟩ | past
  · cases moves with
    | idle | shutdown | drop | leave => exact .inl ⟨⟨sent, rest, writing⟩, rfl⟩
    | write => exact .inl ⟨⟨_, _, rfl⟩, rfl⟩
    | finish | failWrite => exact .inr (Nat.lt_succ_self _)
    | join _ stage | signal stage | accept stage | acceptError stage | wake stage | receive stage
    | failRead stage => cases writing.symm.trans stage
  · right
    cases moves with
    | finish | failRead | failWrite => exact Nat.lt_succ_of_lt past
    | _ => exact past

/-- The loop does not come back to the request of a connection that it answers. -/
theorem closed_ne_of_reads {metrics : Str} (later : List Action)
    (reads : (after front).stage = .read)
    (reads' : (after (front ++ .receive metrics :: later)).stage = .read) :
    (after (front ++ .receive metrics :: later)).closed ≠ (after front).closed := by
  have taken : (after front).step (.receive metrics) =
      (none, { after front with stage := .write [] (metricsBytes metrics) }) := by
    simp only [step, turn, reads]
  let begun : MetricsEndpoint := { after front with stage := .write [] (metricsBytes metrics) }
  have answers : (∃ sent rest, (Mealy.final step begun later).stage = .write sent rest) ∧
      (Mealy.final step begun later).closed = (after front).closed ∨
      (after front).closed.length < (Mealy.final step begun later).closed.length :=
    Mealy.final_invariant
      (fun _ (e : MetricsEndpoint) =>
        (∃ sent rest, e.stage = .write sent rest) ∧ e.closed = (after front).closed ∨
          (after front).closed.length < e.closed.length) (.inl ⟨⟨_, _, rfl⟩, rfl⟩)
      fun _ action _ _ before => (step_moves _ action).answers before
  have now : after (front ++ .receive metrics :: later) = Mealy.final step begun later := by
    rw [after, Mealy.final_append, Mealy.final_cons, taken]
  rw [now] at reads' ⊢
  rcases answers with ⟨⟨sent, rest, writing⟩, -⟩ | past
  · cases writing.symm.trans reads'
  · intro same
    rw [same] at past
    exact Nat.lt_irrefl _ past

/-- The request of a connection is taken once. -/
theorem Takes.unique {schedule : List Action} {earlier : List Bytes} {front front' : List Action}
    {metrics metrics' : Str} (takes : Takes schedule earlier front metrics)
    (takes' : Takes schedule earlier front' metrics') : front = front' ∧ metrics = metrics' := by
  obtain ⟨⟨back, split⟩, reads, closed⟩ := takes
  obtain ⟨⟨back', split'⟩, reads', closed'⟩ := takes'
  rcases List.append_eq_append_iff.mp (split.symm.trans split') with
    ⟨between, rfl, same⟩ | ⟨between, rfl, same⟩
  · cases between with
    | nil =>
        cases same
        exact ⟨(List.append_nil _).symm, rfl⟩
    | cons _ between =>
        obtain ⟨rfl, -⟩ := List.cons.inj same
        exact absurd (closed'.trans closed.symm) (closed_ne_of_reads between reads reads')
  · cases between with
    | nil =>
        cases same
        exact ⟨List.append_nil _, rfl⟩
    | cons _ between =>
        obtain ⟨rfl, -⟩ := List.cons.inj same
        exact absurd (closed.trans closed'.symm) (closed_ne_of_reads between reads' reads)

/-! ## Runs -/

theorem sound_after (schedule : List Action) : Sound schedule (after schedule) := by
  refine Mealy.final_invariant Sound ⟨nofun, iff_of_false nofun (absurd rfl), nofun, absurd rfl⟩ ?_
  intro front action back _ sound
  exact sound.step (step_moves _ action)

theorem streams_after (schedule : List Action) : Streams schedule (after schedule) := by
  refine Mealy.final_invariant Streams ⟨nofun, fun later stream earlier split => ?_⟩ ?_
  · cases later <;> cases split
  · intro front action back _ streams
    exact streams.step rfl (step_moves _ action)

theorem sent_of_streams {schedule : List Action} {later : List Bytes} {stream : Bytes}
    {earlier : List Bytes} (split : (after schedule).streams = later ++ stream :: earlier) :
    Sent schedule earlier stream := by
  have known := streams_after schedule
  rw [streams] at split
  cases stage : (after schedule).stage with
  | read =>
      rw [stage] at split
      exact forall_sent_cons (.inl rfl) known.closed later stream earlier split
  | write sent rest =>
      rw [stage] at split
      refine forall_sent_cons (.inr ?_) known.closed later stream earlier split
      obtain ⟨front, metrics, takes, whole⟩ := known.writes _ _ stage
      exact ⟨front, metrics, takes, ⟨rest, whole⟩⟩
  | select | sleep | stopped =>
      rw [stage] at split
      exact known.closed later stream earlier split

/-- Whatever becomes of a connection, and however much of what was sent its peer
has got, the peer reads no response, or the metrics as they were when its own
request was taken, which happens once; and a socket is shut down only after its
peer can read them. -/
theorem peers_read (schedule : List Action) :
    (∀ later stream earlier, (after schedule).streams = later ++ stream :: earlier →
      ∀ part, part <+: stream →
        HttpText.read part = none ∨
          ∃ front metrics, Takes schedule earlier front metrics ∧
            HttpText.read part = some (metricsResponse metrics)) ∧
    (∀ sent, (after schedule).stage = .write sent [] →
      ∃ front metrics, Takes schedule (after schedule).closed front metrics ∧
        HttpText.read sent = some (metricsResponse metrics)) ∧
    ∀ earlier front front' metrics metrics', Takes schedule earlier front metrics →
      Takes schedule earlier front' metrics' → front = front' ∧ metrics = metrics' := by
  refine ⟨?_, ?_, fun _ _ _ _ _ => Takes.unique⟩
  · intro later stream earlier split part arrived
    rcases sent_of_streams split with rfl | ⟨front, metrics, takes, sent⟩
    · obtain rfl := List.prefix_nil.mp arrived
      exact .inl rfl
    · rw [read_metricsBytes (arrived.trans sent)]
      split_ifs
      · exact .inr ⟨front, metrics, takes, rfl⟩
      · exact .inl rfl
  · intro sent stage
    obtain ⟨front, metrics, takes, whole⟩ := (streams_after schedule).writes sent [] stage
    rw [List.append_nil] at whole
    refine ⟨front, metrics, takes, ?_⟩
    rw [whole, read_metricsBytes (List.prefix_refl _), if_pos rfl]

/-- No failing peer and no failing accept ends the loop: it stops only after its
owner has asked for that, and the owner's signal always finds it running. -/
theorem stops_for_owner (schedule : List Action) :
    (∀ logged ∈ Mealy.trace step spawned schedule,
      logged.2 ≠ some closedDuringJoin ∧ logged.2 ≠ some closedOnDrop) ∧
    ((after schedule).stage = .stopped → .shutdown ∈ schedule ∨ .drop ∈ schedule) ∧
    ((after schedule).owner = .joined → (after schedule).stage = .stopped) := by
  have sound := sound_after schedule
  refine ⟨?_, fun stopped => sound.asked (sound.signalled.mp (sound.stopped stopped)), sound.joined⟩
  rintro ⟨action, log⟩ listed
  obtain ⟨front, back, -, rfl⟩ := Mealy.exists_of_mem_trace listed
  have runs : (after front).owner = .holds → (after front).stage ≠ .stopped := fun holds stopped =>
    (sound_after front).signalled.mp ((sound_after front).stopped stopped) holds
  exact (step_moves (after front) action).log runs

/-- A loop that reads from a peer goes on reading until the peer acts. -/
theorem Moves.reads (moves : Moves e action log e') (reads : e.stage = .read)
    (waits : e.owner ≠ .joined) (silent : ∀ metrics, action ≠ .receive metrics)
    (lasting : action ≠ .fail) : e'.stage = .read ∧ e'.owner ≠ .joined := by
  cases moves with
  | idle => exact ⟨reads, waits⟩
  | shutdown | drop | leave => exact ⟨reads, nofun⟩
  | receive => exact absurd rfl (silent _)
  | failRead | failWrite => exact absurd rfl lasting
  | join _ stage | signal stage | accept stage | acceptError stage | wake stage | write _ stage
  | finish stage =>
      rw [reads] at stage
      cases stage

theorem not_joined_of_silent (reads : e.stage = .read) (waits : e.owner ≠ .joined)
    {later : List Action} (silent : ∀ metrics, .receive metrics ∉ later)
    (lasting : .fail ∉ later) : (Mealy.final step e later).owner ≠ .joined := by
  refine (Mealy.final_invariant (fun _ (e : MetricsEndpoint) =>
    e.stage = .read ∧ e.owner ≠ .joined) ⟨reads, waits⟩ ?_).2
  rintro front action back rfl ⟨reads, waits⟩
  have listed : action ∈ front ++ action :: back :=
    List.mem_append_right _ List.mem_cons_self
  refine (step_moves _ action).reads reads waits (fun metrics same => ?_) (fun same => ?_)
  · exact silent metrics (same ▸ listed)
  · exact lasting (same ▸ listed)

/-- Once the peer at hand is given up, the loop sees the signal. -/
theorem joined_of_fail (joins : e.owner = .joins) (signalled : e.signalled = true) :
    (Mealy.final step e [.fail, .wake, .signal, .join]).owner = .joined := by
  obtain ⟨stage, owner, signal, closed⟩ := e
  simp only at joins signalled
  subst joins signalled
  cases stage <;> rfl

/-- An owner that awaits the loop has it back once the peer at hand is given up;
but while that peer is silent, neither the signal nor anything else brings it
back. -/
theorem shutdown_waits (schedule : List Action) (joins : (after schedule).owner = .joins) :
    (after (schedule ++ [.fail, .wake, .signal, .join])).owner = .joined ∧
    ((after schedule).stage = .read → ∀ later, (∀ metrics, .receive metrics ∉ later) →
      .fail ∉ later → (after (schedule ++ later)).owner ≠ .joined) := by
  have signalled : (after schedule).signalled = true :=
    (sound_after schedule).signalled.mpr (by rw [joins]; exact nofun)
  simp only [after, Mealy.final_append] at signalled ⊢
  refine ⟨joined_of_fail joins signalled, fun reads later silent lasting => ?_⟩
  exact not_joined_of_silent reads (by rw [joins]; exact nofun) silent lasting

/-- A peer connects and is silent; the server ends. -/
def silentPeer : List Action := [.accept, .shutdown]

theorem shutdown_waits_of_silentPeer :
    (after (silentPeer ++ [.fail, .wake, .signal, .join])).owner = .joined ∧
      (after (silentPeer ++ [.signal, .accept, .join])).owner ≠ .joined := by
  have waits := shutdown_waits silentPeer rfl
  exact ⟨waits.1, waits.2 rfl [.signal, .accept, .join] (by simp) (by decide)⟩

end MetricsEndpoint

end Fingermouse.Telemetry
