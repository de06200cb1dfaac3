import Fingermouse.RateLimitProgress
import Fingermouse.ServerTasks

/-!
# Progress of connections

No connection waits for another.  The awaits of its task come out of a
potential: the map calls of its check, one read for each byte that is accepted,
two fetches, and one write for each byte it is sent.  Of all that the other
connections do, only the entry update of a check adds to it, and each makes one.

* `awaits_bounded`: in every schedule, a bound on the awaits of a connection.
* `ends_alone`: from every state that a schedule leads to, its own awaits end
  a connection.
-/

namespace Fingermouse

open Text Chrono

/-! ## One task -/

/-- The decision ends the await that a task is at. -/
def Stage.wakes : Stage → ServerAction → Bool
  | .check, .check .. => true
  | .read _, .receive .. => true
  | .read _, .fail .. => true
  | .fetchProfile _, .fetch _ => true
  | .fetchPlan .., .fetch _ => true
  | .write _, .send .. => true
  | .write _, .fail .. => true
  | _, _ => false

/-- The connection a decision is about. -/
def ServerAction.task : ServerAction → Option Nat
  | .accept _ => none
  | .check id .. => some id
  | .receive id _ => some id
  | .fetch id => some id
  | .send id _ => some id
  | .fail id _ => some id
  | .edit _ => none

def ServerAction.accepts : ServerAction → Nat
  | .accept _ => 1
  | _ => 0

namespace ServeTask

/-- The awaits a task can still come to, apart from those of its check and from
one write for each byte. -/
def awaits (config : ServerConfig) (task : ServeTask) : Nat :=
  match task.stage with
  | .check => limit config + 4
  | .read buffer => limit config - buffer.length + 4
  | .fetchProfile _ => 3
  | .fetchPlan .. => 2
  | .write _ => 1
  | .ended _ => 0

/-- An await comes out of the potential of its task, or out of what is sent. -/
def Pays (config : ServerConfig) (action : ServerAction) (task moved : ServeTask) : Prop :=
  (task.stage.wakes action).toNat + moved.awaits config + task.sent.length ≤
    task.awaits config + moved.sent.length

section Pays

variable {config : ServerConfig}

theorem pays_of_idle {action : ServerAction} {task : ServeTask}
    (idle : task.stage.wakes action = false) : task.Pays config action task := by
  rw [Pays, idle, Bool.toNat_false, Nat.zero_add]

variable (task : ServeTask)

theorem awaits_le : task.awaits config ≤ limit config + 4 := by
  unfold awaits
  split <;> omega

theorem awaits_resume {event : RateLimiter.Event} (waits : task.stage = .check) :
    (task.resume event).awaits config ≤ task.awaits config := by
  have all : (task.resume event).awaits config ≤ limit config + 4 := awaits_le _
  simp only [awaits, waits]
  exact all

theorem sent_resume (event : RateLimiter.Event) : (task.resume event).sent = task.sent := by
  unfold resume
  split <;> rfl

variable (config) in
theorem awaits_request (task : ServeTask) (parsed : Except Str Bytes) (received : Bytes) :
    ({ task with received, stage := request config parsed } : ServeTask).awaits config ≤ 3 := by
  unfold request
  split
  · exact Nat.zero_le _
  · split
    · exact Nat.le_succ_of_le (Nat.le_succ 1)
    · split_ifs
      · exact Nat.le_succ_of_le (Nat.le_succ 1)
      · exact Nat.le_refl 3

/-- A piece of the request that does not complete it brings a byte nearer to the
limit. -/
theorem pays_receive (id : Nat) (chunk : Bytes) :
    task.Pays config (.receive id chunk) (task.receive config chunk) := by
  obtain ⟨ip, checked, received, sent, stage⟩ := task
  cases stage with
  | read buffer =>
      simp only [Pays, receive, Stage.wakes, Bool.toNat_true]
      split_ifs with complete
      · have rest := awaits_request config ⟨ip, checked, received, sent, .read buffer⟩
          (checkRequest config
            (buffer ++ readUntil 0x0a (chunk.take (limit config - buffer.length))))
          (received ++ chunk)
        simp only [awaits] at rest ⊢
        omega
      · simp only [not_or, not_le, List.length_append] at complete
        have some := List.length_pos_of_ne_nil complete.1
        simp only [awaits, List.length_append]
        omega
  | _ => exact pays_of_idle rfl

theorem pays_send (id more : Nat) : task.Pays config (.send id more) (task.send more) := by
  obtain ⟨ip, checked, received, sent, stage⟩ := task
  cases stage with
  | write rest =>
      simp only [Pays, send, Stage.wakes, Bool.toNat_true, List.length_append, List.length_take]
      split_ifs with all
      · simp only [awaits]
        omega
      · simp only [awaits]
        omega
  | _ => exact pays_of_idle rfl

theorem pays_fail (id : Nat) (err : Str) : task.Pays config (.fail id err) (task.fail err) := by
  obtain ⟨ip, checked, received, sent, stage⟩ := task
  cases stage with
  | read buffer =>
      simp only [Pays, fail, awaits, Stage.wakes, Bool.toNat_true]
      omega
  | write rest =>
      simp only [Pays, fail, awaits, Stage.wakes, Bool.toNat_true]
      omega
  | _ => exact pays_of_idle rfl

theorem pays_fetch {encodePart : Str → Str} {fromStr : Str → Except Toml.Error Toml.Document}
    (id : Nat) (repo : ObjectStoreUserStore) :
    task.Pays config (.fetch id) (task.fetch encodePart fromStr repo) := by
  obtain ⟨ip, checked, received, sent, stage⟩ := task
  cases stage with
  | fetchProfile query =>
      simp only [Pays, fetch]
      split
      · simp only [awaits, Stage.wakes, Bool.toNat_true]
        omega
      · split_ifs
        · simp only [awaits, Stage.wakes, Bool.toNat_true]
          omega
        · simp only [awaits, Stage.wakes, Bool.toNat_true]
          omega
  | fetchPlan query profile =>
      simp only [Pays, fetch, awaits, Stage.wakes, Bool.toNat_true]
      omega
  | _ => exact pays_of_idle rfl

end Pays

end ServeTask

namespace FingerServer

variable {encodePart : Str → Str} {fromStr : Str → Except Toml.Error Toml.Document}

/-! ## Checks in flight -/

/-- Every task that waits for the limiter has a check in flight. -/
def Tracked (s : FingerServer) : Prop :=
  ∀ id task, s.tasks[id]? = some task → task.stage = .check → id ∈ s.limiter.tasks

/-- A check that ends takes its task on. -/
theorem stage_of_moves {limiter : RateLimiter.System} {ip : IpAddr} {phase : RateLimiter.Phase}
    {event : RateLimiter.Event} {entries : Entries} (task : ServeTask)
    (moves : limiter.Moves ip phase event none entries) : (task.resume event).stage ≠ .check := by
  cases moves with
  | panic => rintro ⟨⟩
  | lose lost => rintro ⟨⟩
  | @fit outcome => cases outcome <;> rintro ⟨⟩
  | @stop outcome => cases outcome <;> rintro ⟨⟩

/-- Whatever goes on without the limiter does not come back to it. -/
theorem Tracked.update {s : FingerServer} (tracked : s.Tracked) (id : Nat)
    {move : ServeTask → ServeTask}
    (onward : ∀ task, (move task).stage = .check → task.stage = .check) :
    (s.update id move).Tracked := by
  intro other task found waits
  rw [getElem?_update, Option.map_eq_some_iff] at found
  obtain ⟨before, member, same⟩ := found
  split_ifs at same
  · exact tracked other before member (onward before (same ▸ waits))
  · exact tracked other before member (same ▸ waits)

theorem check_of_receive {config : ServerConfig} {chunk : Bytes} (task : ServeTask)
    (waits : (task.receive config chunk).stage = .check) : task.stage = .check := by
  unfold ServeTask.receive at waits
  split at waits
  · dsimp only at waits
    split_ifs at waits
    exact absurd waits (ServeTask.request_begun config _).1
  · exact waits

theorem check_of_fetch {repo : ObjectStoreUserStore} (task : ServeTask)
    (waits : (task.fetch encodePart fromStr repo).stage = .check) : task.stage = .check := by
  unfold ServeTask.fetch at waits
  split at waits
  · split at waits
    · cases waits
    · split_ifs at waits
  · cases waits
  · exact waits

theorem check_of_send {more : Nat} (task : ServeTask) (waits : (task.send more).stage = .check) :
    task.stage = .check := by
  unfold ServeTask.send at waits
  split at waits
  · dsimp only at waits
    split_ifs at waits
  · exact waits

theorem check_of_fail {err : Str} (task : ServeTask) (waits : (task.fail err).stage = .check) :
    task.stage = .check := by
  unfold ServeTask.fail at waits
  split at waits
  · cases waits
  · cases waits
  · exact waits

theorem Tracked.accept {s : FingerServer} (tracked : s.Tracked) (ip : IpAddr) :
    (s.step encodePart fromStr (.accept ip)).2.Tracked := by
  intro id task found waits
  apply RateLimiter.System.mem_start.mpr
  have bound : id < (s.tasks ++ [(⟨ip, none, [], [], .check⟩ : ServeTask)]).length :=
    (List.getElem?_eq_some_iff.mp found).1
  rw [List.length_append, List.length_singleton] at bound
  rcases Nat.lt_succ_iff_lt_or_eq.mp bound with old | new
  · exact .inr (tracked id task ((List.getElem?_append_left old).symm.trans found) waits)
  · exact .inl new

theorem Tracked.check {s : FingerServer} (tracked : s.Tracked) (paired : s.Paired) (id : Nat)
    (reading : DateTime) (order : RateLimiter.IterOrder) :
    (s.step encodePart fromStr (.check id reading order)).2.Tracked := by
  intro other task found waits
  show other ∈ (s.limiter.step (.turn id reading order)).2.tasks
  simp only [step] at found
  rw [getElem?_update, Option.map_eq_some_iff] at found
  obtain ⟨before, member, rfl⟩ := found
  rcases check_cases paired id reading order with
    same | ⟨task, phase, next, member', stage, -, moves, resumes⟩
  · rw [same] at waits ⊢
    split_ifs at waits
    · exact tracked other before member waits
    · exact tracked other before member waits
  · rw [← AList.lookup_isSome]
    by_cases own : id = other
    · subst own
      rw [if_pos rfl] at waits
      rw [resumes.1]
      cases next with
      | none => exact absurd waits (stage_of_moves before moves)
      | some phase' => rfl
    · rw [if_neg own] at waits
      rw [resumes.2 other (Ne.symm own), AList.lookup_isSome]
      exact tracked other before member waits

theorem Tracked.step {s : FingerServer} (tracked : s.Tracked) (paired : s.Paired)
    (action : ServerAction) : (s.step encodePart fromStr action).2.Tracked := by
  cases action with
  | accept ip => exact tracked.accept ip
  | check id reading order => exact tracked.check paired id reading order
  | receive id chunk => exact tracked.update id check_of_receive
  | fetch id => exact tracked.update id check_of_fetch
  | send id more => exact tracked.update id check_of_send
  | fail id err => exact tracked.update id check_of_fail
  | edit store => exact tracked

/-- The tasks that wait for the limiter are those with a check in flight. -/
def Synced (s : FingerServer) : Prop := s.Paired ∧ s.Tracked

theorem synced_new (config : ServerConfig) (store : ObjectStore) : (new config store).Synced :=
  ⟨fun _ _ found => (by cases found), fun _ _ found => (by cases found)⟩

theorem Synced.step {s : FingerServer} (synced : s.Synced) (action : ServerAction) :
    (s.step encodePart fromStr action).2.Synced :=
  ⟨synced.1.step action, synced.2.step synced.1 action⟩

/-! ## Awaits left -/

/-- The decision ends an await of the connection. -/
def wakes (id : Nat) (s : FingerServer) (action : ServerAction) : Nat :=
  match s.tasks[id]? with
  | none => 0
  | some task => if action.task = some id then (task.stage.wakes action).toNat else 0

/-- The awaits a connection can still come to, if no entry is updated meanwhile. -/
def toDo (id : Nat) (s : FingerServer) : Nat :=
  match s.tasks[id]? with
  | none => 4 * s.limiter.limiter.entries.len + 7 + (ServeTask.limit s.config + 4)
  | some task => s.limiter.toDo id + task.awaits s.config

/-- The bytes a connection has been sent. -/
def sentTo (id : Nat) (s : FingerServer) : Nat :=
  match s.tasks[id]? with
  | none => 0
  | some task => task.sent.length

section Step

variable {s : FingerServer} {id : Nat}

theorem toDo_of_none (absent : s.tasks[id]? = none) :
    s.toDo id = 4 * s.limiter.limiter.entries.len + 7 + (ServeTask.limit s.config + 4) := by
  simp only [toDo, absent]

theorem wakes_of_ne {action : ServerAction} (ne : action.task ≠ some id) :
    s.wakes id action = 0 := by
  unfold wakes
  split
  · rfl
  · rw [if_neg ne]

/-- An await without the limiter comes out of the potential of its connection. -/
theorem pays_update {other : Nat} {action : ServerAction} (about : action.task = some other)
    {move : ServeTask → ServeTask}
    (pays : ∀ task : ServeTask, task.Pays s.config action (move task)) :
    s.wakes id action + (s.update other move).toDo id + s.sentTo id ≤
      s.toDo id + (s.update other move).sentTo id := by
  have lookup := getElem?_update s other id move
  cases found : s.tasks[id]? with
  | none =>
      rw [found, Option.map_none] at lookup
      simp only [wakes, toDo, sentTo, found, lookup]
      exact (Nat.zero_add _).le
  | some task =>
      rw [found, Option.map_some] at lookup
      by_cases own : other = id
      · have paid := pays task
        rw [if_pos own] at lookup
        rw [own] at about
        simp only [wakes, toDo, sentTo, found, lookup, about, if_true]
        unfold ServeTask.Pays at paid
        show _ + (s.limiter.toDo id + (move task).awaits s.config) + _ ≤ _
        omega
      · rw [if_neg own] at lookup
        have ne : action.task ≠ some id := fun same => own (Option.some.inj (about.symm.trans same))
        simp only [wakes, toDo, sentTo, found, lookup, if_neg ne]
        exact (congrArg (· + _) (Nat.zero_add _)).le

/-- An acceptance adds to the potential of no connection, also not of the one that
it makes. -/
theorem pays_accept (ip : IpAddr) :
    s.wakes id (.accept ip) + (s.step encodePart fromStr (.accept ip)).2.toDo id +
        s.sentTo id ≤
      s.toDo id + (s.step encodePart fromStr (.accept ip)).2.sentTo id := by
  have idle : s.wakes id (.accept ip) = 0 := wakes_of_ne (by rintro ⟨⟩)
  rw [idle, Nat.zero_add]
  simp only [step, toDo, sentTo, List.getElem?_append]
  split_ifs with old
  · obtain ⟨task, found⟩ : ∃ task, s.tasks[id]? = some task :=
      ⟨_, List.getElem?_eq_getElem old⟩
    simp only [found]
    rw [RateLimiter.System.toDo_start_ne s.limiter (Nat.ne_of_lt old)]
  · have absent : s.tasks[id]? = none := List.getElem?_eq_none (Nat.le_of_not_lt old)
    simp only [absent]
    cases fresh : id - s.tasks.length with
    | zero =>
        have calls := (s.limiter.step (.start s.tasks.length ip)).2.toDo_le id
        rw [RateLimiter.System.start_limiter] at calls
        simp only [List.getElem?_cons_zero, ServeTask.awaits, List.length_nil]
        omega
    | succ n =>
        simp only [List.getElem?_cons_succ, List.getElem?_nil, RateLimiter.System.start_limiter]
        exact Nat.le_refl _

/-- A map call of a check comes out of the potential of its own connection, but
for the update. -/
theorem pays_own_check (synced : s.Synced) {task : ServeTask}
    (found : s.tasks[id]? = some task) (reading : DateTime) (order : RateLimiter.IterOrder) :
    let turned := s.limiter.step (.turn id reading order)
    (task.stage.wakes (.check id reading order)).toNat +
        (turned.2.toDo id + (task.resume turned.1).awaits s.config) ≤
      s.limiter.toDo id + task.awaits s.config + 4 * turned.1.updates := by
  intro turned
  by_cases waits : task.stage = .check
  · have turn : RateLimiter.Action.turns id (.turn id reading order) + turned.2.toDo id ≤
        s.limiter.toDo id + 4 * turned.1.updates :=
      RateLimiter.System.toDo_step (synced.2 id task found waits) _
    have onward : (task.resume turned.1).awaits s.config ≤ task.awaits s.config :=
      task.awaits_resume waits
    have one := Bool.toNat_le (task.stage.wakes (.check id reading order))
    simp only [RateLimiter.Action.turns, if_true] at turn
    omega
  · have idle : task.stage.wakes (.check id reading order) = false := by
      cases stage : task.stage with
      | check => exact absurd stage waits
      | _ => rfl
    rcases check_cases synced.1 id reading order with
      same | ⟨task', phase, next, member, stage, -⟩
    · rw [idle, Bool.toNat_false, Nat.zero_add]
      simp only [turned, same]
      exact Nat.le_add_right _ _
    · obtain rfl := Option.some.inj (found.symm.trans member)
      exact absurd stage waits

/-- The map calls of a check come out of the potential of its connection, but for
the update. -/
theorem pays_check (synced : s.Synced) (other : Nat) (reading : DateTime)
    (order : RateLimiter.IterOrder) :
    let next := s.step encodePart fromStr (.check other reading order)
    s.wakes id (.check other reading order) + next.2.toDo id + s.sentTo id ≤
      s.toDo id + 4 * next.1.updates + next.2.sentTo id := by
  intro next
  have lookup : next.2.tasks[id]? = (s.tasks[id]?).map fun task =>
      if other = id then task.resume (s.limiter.step (.turn other reading order)).1 else task :=
    getElem?_update _ other id _
  have limiter : next.2.limiter = (s.limiter.step (.turn other reading order)).2 := rfl
  have config : next.2.config = s.config := rfl
  have event : next.1 = (s.limiter.step (.turn other reading order)).1 := rfl
  cases found : s.tasks[id]? with
  | none =>
      have grows := s.limiter.len_turn other reading order
      rw [found, Option.map_none] at lookup
      simp only [wakes, toDo, sentTo, found, lookup, limiter, config, event]
      omega
  | some task =>
      rw [found, Option.map_some] at lookup
      by_cases own : other = id
      · subst own
        rw [if_pos rfl] at lookup
        have own := pays_own_check synced found reading order
        have about : (ServerAction.check other reading order).task = some other := rfl
        simp only [wakes, toDo, sentTo, found, lookup, limiter, config, event, about, if_true,
          ServeTask.sent_resume]
        omega
      · have grows := s.limiter.toDo_turn_ne (Ne.symm own) reading order
        have idle : s.wakes id (.check other reading order) = 0 :=
          wakes_of_ne fun same => own (Option.some.inj same)
        rw [if_neg own] at lookup
        rw [idle]
        simp only [toDo, sentTo, found, lookup, limiter, config, event]
        omega

variable (encodePart fromStr) in
/-- Every await of a connection comes out of its potential, but for the updates of
entries and for what it is sent. -/
theorem pays_step (id : Nat) (synced : s.Synced) (action : ServerAction) :
    let next := s.step encodePart fromStr action
    s.wakes id action + next.2.toDo id + s.sentTo id ≤
      s.toDo id + 4 * next.1.updates + next.2.sentTo id := by
  intro next
  have idle : action.task = none → s.wakes id action = 0 := fun none =>
    wakes_of_ne (by rw [none]; rintro ⟨⟩)
  cases action with
  | accept ip => exact (pays_accept ip).trans (Nat.add_le_add_right (Nat.le_add_right _ _) _)
  | check other reading order => exact pays_check synced other reading order
  | receive other chunk => exact pays_update rfl fun task => task.pays_receive other chunk
  | fetch other => exact pays_update rfl fun task => task.pays_fetch other s.repository
  | send other more => exact pays_update rfl fun task => task.pays_send other more
  | fail other err => exact pays_update rfl fun task => task.pays_fail other err
  | edit store =>
      rw [idle rfl]
      exact (congrArg (· + _) (Nat.zero_add _)).le

variable (encodePart fromStr) in
/-- Each connection makes one check, which updates its entry once. -/
theorem waiting_step (s : FingerServer) (action : ServerAction) :
    (s.step encodePart fromStr action).1.updates +
        (s.step encodePart fromStr action).2.limiter.waiting.len ≤
      s.limiter.waiting.len + action.accepts := by
  cases action with
  | accept ip => exact s.limiter.waiting_step _
  | check id reading order => exact s.limiter.waiting_step _
  | _ => exact (Nat.zero_add _).le

/-- The awaits a connection can still come to, if no connection is new meanwhile. -/
def remaining (id : Nat) (s : FingerServer) : Nat := s.toDo id + 4 * s.limiter.waiting.len

variable (encodePart fromStr) in
/-- Every await of a connection comes out of what remains, but for new connections
and for what it is sent. -/
theorem remaining_step (id : Nat) (synced : s.Synced) (action : ServerAction) :
    s.wakes id action + (s.step encodePart fromStr action).2.remaining id + s.sentTo id ≤
      s.remaining id + 4 * action.accepts +
        (s.step encodePart fromStr action).2.sentTo id := by
  have own := pays_step encodePart fromStr id synced action
  have all := waiting_step encodePart fromStr s action
  unfold remaining
  dsimp only at own
  omega

end Step

/-! ## Runs -/

section Runs

variable (encodePart fromStr) (config : ServerConfig) (store : ObjectStore)

theorem remaining_new (id : Nat) :
    (new config store).remaining id = ServeTask.limit config + 11 := by
  have absent : (new config store).tasks[id]? = none := List.getElem?_nil
  have entries : (new config store).limiter.limiter.entries.len = 0 := rfl
  have waiting : (new config store).limiter.waiting.len = 0 := rfl
  have same : (new config store).config = config := rfl
  rw [remaining, toDo_of_none absent, entries, waiting, same]
  omega

/-- Whatever the others do, the awaits of a connection are at most four for each
connection that was accepted, one for each byte it can ask with and is answered
with, and a few more. -/
theorem awaits_bounded (id : Nat) (schedule : List ServerAction) :
    Mealy.total (step encodePart fromStr) (wakes id) (new config store) schedule ≤
      4 * (schedule.map ServerAction.accepts).sum + config.maxRequestBytes + 12 +
        (after encodePart fromStr config store schedule).sentTo id := by
  have throughout : Mealy.AllSteps (step encodePart fromStr) (fun s _ => s.Synced)
      (new config store) schedule :=
    Mealy.AllSteps.of_invariant (synced_new config store)
      (fun _ action synced => synced.step action) schedule
  have run : Mealy.total (step encodePart fromStr) (wakes id) (new config store) schedule +
        (after encodePart fromStr config store schedule).remaining id +
          (new config store).sentTo id ≤
      (new config store).remaining id +
        Mealy.total (step encodePart fromStr) (fun _ action => 4 * action.accepts)
          (new config store) schedule +
          (after encodePart fromStr config store schedule).sentTo id :=
    Mealy.total_le (remaining id) (sentTo id)
      (fun _ action synced => remaining_step encodePart fromStr id synced action) throughout
  rw [Mealy.total_const, List.sum_map_mul_left, remaining_new] at run
  have limit : ServeTask.limit config ≤ config.maxRequestBytes + 1 := Nat.mod_le _ _
  omega

end Runs

/-! ## One connection alone -/

/-- What ends the await a task is at, for a read and a write their timeout. -/
def onward (id : Nat) : Stage → Option ServerAction
  | .check => some (.check id (.fromSecs 0) .stored)
  | .read _ => some (.fail id [])
  | .fetchProfile _ => some (.fetch id)
  | .fetchPlan .. => some (.fetch id)
  | .write _ => some (.fail id [])
  | .ended _ => none

section Alone

variable {s : FingerServer} {id : Nat} {stage : Stage} {action : ServerAction}

theorem ended_of_onward (ends : onward id stage = none) : ∃ outcome, stage = .ended outcome := by
  cases stage with
  | ended outcome => exact ⟨outcome, rfl⟩
  | _ => cases ends

theorem onward_wakes (goesOn : onward id stage = some action) :
    action.task = some id ∧ stage.wakes action = true ∧ action.accepts = 0 := by
  cases stage with
  | ended outcome => cases goesOn
  | _ =>
      cases goesOn
      exact ⟨rfl, rfl, rfl⟩

theorem sentTo_update {other : Nat} {move : ServeTask → ServeTask}
    (same : ∀ task, (move task).sent = task.sent) :
    (s.update other move).sentTo id = s.sentTo id := by
  unfold sentTo
  rw [getElem?_update]
  cases s.tasks[id]? with
  | none => rfl
  | some task =>
      simp only [Option.map_some]
      split_ifs
      · rw [same]
      · rfl

theorem sent_fetch (repo : ObjectStoreUserStore) (task : ServeTask) :
    (task.fetch encodePart fromStr repo).sent = task.sent := by
  unfold ServeTask.fetch
  split
  · split
    · rfl
    · split_ifs <;> rfl
  · rfl
  · rfl

theorem sent_fail (err : Str) (task : ServeTask) : (task.fail err).sent = task.sent := by
  unfold ServeTask.fail
  split <;> rfl

theorem sentTo_onward (goesOn : onward id stage = some action) :
    (s.step encodePart fromStr action).2.sentTo id = s.sentTo id := by
  cases stage with
  | check =>
      cases goesOn
      exact sentTo_update fun task => task.sent_resume _
  | read buffer =>
      cases goesOn
      exact sentTo_update (sent_fail [])
  | fetchProfile query =>
      cases goesOn
      exact sentTo_update (sent_fetch s.repository)
  | fetchPlan query profile =>
      cases goesOn
      exact sentTo_update (sent_fetch s.repository)
  | write rest =>
      cases goesOn
      exact sentTo_update (sent_fail [])
  | ended outcome => cases goesOn

variable (encodePart fromStr) in
/-- The end of its await takes a connection nearer to its own. -/
theorem remaining_onward (synced : s.Synced) {task : ServeTask} (found : s.tasks[id]? = some task)
    (goesOn : onward id task.stage = some action) :
    (s.step encodePart fromStr action).2.remaining id < s.remaining id := by
  have pays := remaining_step encodePart fromStr id synced action
  obtain ⟨about, wakes, accepts⟩ := onward_wakes goesOn
  have woken : s.wakes id action = 1 := by
    simp only [FingerServer.wakes, found, about, if_true, wakes, Bool.toNat_true]
  rw [woken, accepts, sentTo_onward goesOn] at pays
  omega

theorem length_step (s : FingerServer) (action : ServerAction) :
    s.tasks.length ≤ (s.step encodePart fromStr action).2.tasks.length := by
  cases action with
  | accept ip => exact List.length_append ▸ Nat.le_add_right _ _
  | edit store => exact Nat.le_refl _
  | _ => exact (List.length_modify ..).ge

/-- By induction on what remains of it, a connection is ended by its own awaits. -/
theorem ends_of_synced (synced : s.Synced) (accepted : id < s.tasks.length) :
    ∃ rest : List ServerAction, (∀ action ∈ rest, action.task = some id) ∧
      ∃ task outcome, (Mealy.final (step encodePart fromStr) s rest).tasks[id]? = some task ∧
        task.stage = .ended outcome := by
  induction left : s.remaining id using Nat.strong_induction_on generalizing s with
  | _ n ih =>
      have found := List.getElem?_eq_getElem accepted
      cases goesOn : onward id (s.tasks[id]).stage with
      | none =>
          obtain ⟨outcome, ended⟩ := ended_of_onward goesOn
          exact ⟨[], fun _ member => (by cases member), _, outcome, found, ended⟩
      | some action =>
          have nearer := remaining_onward encodePart fromStr synced found goesOn
          obtain ⟨rest, own, ends⟩ := ih _ (left ▸ nearer) (synced.step action)
            (accepted.trans_le (length_step s action)) rfl
          exact ⟨action :: rest, List.forall_mem_cons.mpr ⟨(onward_wakes goesOn).1, own⟩, ends⟩

end Alone

variable (encodePart fromStr) in
/-- Whatever state a schedule leaves the others in, a connection is ended by its own
awaits: it waits for no other, also in the middle of their checks. -/
theorem ends_alone (config : ServerConfig) (store : ObjectStore) (schedule : List ServerAction)
    (id : Nat) (accepted : id < (after encodePart fromStr config store schedule).tasks.length) :
    ∃ rest : List ServerAction, (∀ action ∈ rest, action.task = some id) ∧
      ∃ task outcome,
        (after encodePart fromStr config store (schedule ++ rest)).tasks[id]? = some task ∧
        task.stage = .ended outcome := by
  have synced : (after encodePart fromStr config store schedule).Synced :=
    Mealy.final_invariant (fun _ (s : FingerServer) => s.Synced) (synced_new config store)
      fun _ action _ _ before => before.step action
  obtain ⟨rest, own, task, outcome, found, ended⟩ := ends_of_synced synced accepted
  refine ⟨rest, own, task, outcome, ?_, ended⟩
  rw [after, Mealy.final_append]
  exact found

open FingerProfile (plainDocument parserOf singleTable) in
/-- The second of two connections ends, whatever becomes of the check that the
first is in. -/
theorem ends_alone_of_two :
    ∃ rest : List ServerAction, (∀ action ∈ rest, action.task = some 1) ∧
      ∃ task outcome,
        (after id (parserOf plainDocument (singleTable "full_name".toList "Alice Smith".toList))
          .ofDefault ⟨fun _ => .error .notFound⟩
          ([.accept (.v4 1), .accept (.v4 2), .check 0 (.fromSecs 0) .stored] ++
            rest)).tasks[1]? = some task ∧
        task.stage = .ended outcome :=
  ends_alone id _ .ofDefault _ _ 1 (by decide)

end FingerServer

end Fingermouse
