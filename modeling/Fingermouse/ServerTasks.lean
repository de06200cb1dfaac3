import Fingermouse.Disclosure
import Fingermouse.RateLimitConcurrent

/-!
# Tasks of the server

The server runs one task per accepted connection, against one shared limiter
and one object store whose objects anyone may edit meanwhile.  A schedule
interleaves the awaits of any number of tasks: the map calls of a check, reads
of a request in any pieces, fetches of objects, writes of a reply in any
pieces, and timeouts and socket errors anywhere among the last.

* `serve_refines`: whatever else is scheduled, a connection is sent the reply
  of the sequential server, or the beginning of one.
* `sent_discloses`: it is sent a message, or a record behind all gates, or the
  beginning of either.
* `admissions_counted`: the connections past the limiter are the checks it
  accepted, one for one.
-/

namespace Fingermouse

open Text Chrono
open ObjectStoreUserStore (profileObject planObject)

/-- The await the task of a connection is at, with what it keeps across it. -/
inductive Stage
  | check
  | read (buffer : Bytes)
  | fetchProfile (query : FingerQuery)
  | fetchPlan (query : FingerQuery) (profile : FingerProfile)
  | write (rest : Bytes)
  /-- The task is over; without an outcome it panicked. -/
  | ended (outcome : Option (Except Str Unit))

/-- A spawned connection: what the limiter decided, what the client has sent and
been sent, and where its task stands. -/
structure ServeTask where
  ip : IpAddr
  checked : Option Outcome
  received : Bytes
  sent : Bytes
  stage : Stage

/-- A scheduling decision, with what the await it ends has waited for. -/
inductive ServerAction
  | accept (ip : IpAddr)
  /-- The next map call of a check. -/
  | check (id : Nat) (reading : DateTime) (order : RateLimiter.IterOrder)
  /-- A read returns these bytes; none are left where it returns nothing. -/
  | receive (id : Nat) (chunk : Bytes)
  | fetch (id : Nat)
  /-- The socket takes one byte and some more. -/
  | send (id : Nat) (more : Nat)
  /-- A timeout or an error of the socket. -/
  | fail (id : Nat) (err : Str)
  /-- The objects are edited from outside. -/
  | edit (store : ObjectStore)

/-- The state of a running server. -/
structure FingerServer where
  config : ServerConfig
  store : ObjectStore
  limiter : RateLimiter.System
  tasks : List ServeTask

/-- The part of `load_user` before the plan. -/
def ObjectStoreUserStore.loadProfile (encodePart : Str → Str)
    (fromStr : Str → Except Toml.Error Toml.Document) (repo : ObjectStoreUserStore)
    (username : Username) : Except RepositoryError FingerProfile := do
  let bytes ← (repo.fetchBytes (repo.profilePath encodePart username)).mapError .ofFetch
  (FingerProfile.parse fromStr username bytes).mapError .parse

namespace ServeTask

/-- The limiter's next map call: the update of the entry decides the check, whose
end takes the task on. -/
def resume (task : ServeTask) : RateLimiter.Event → ServeTask
  | .silent => task
  | .updated _ _ none => { task with stage := .ended none }
  | .updated _ _ (some outcome) => { task with checked := some outcome }
  | .finished _ none => { task with stage := .ended none }
  | .finished _ (some (.ok ())) => { task with stage := .read [] }
  | .finished _ (some (.error _)) =>
      { task with stage := .write (renderMessage rateLimitMessage) }

/-- What `read_request` makes of the bytes it has read. -/
def checkRequest (config : ServerConfig) (buffer : Bytes) : Except Str Bytes :=
  if buffer.length = 0 then .error "connection closed".toList
  else if config.maxRequestBytes < buffer.length then .error "request too large".toList
  else .ok buffer

/-- From the request to the next await. -/
def request (config : ServerConfig) : Except Str Bytes → Stage
  | .error err => .ended (some (.error err))
  | .ok rawRequest =>
      match Query.parse rawRequest with
      | .error _ => .write (renderMessage genericError)
      | .ok query =>
          if !config.acceptsHost (query.host.getD config.defaultHost) then
            .write (renderMessage hostMismatch)
          else .fetchProfile query

/-- How much is read of a request: one byte more than is accepted. -/
def limit (config : ServerConfig) : Nat := (config.maxRequestBytes + 1) % 2 ^ 64

/-- One more piece of the request; `read_until` is done at a line feed, at the
limit of `take`, and at the end of the input. -/
def receive (config : ServerConfig) (chunk : Bytes) (task : ServeTask) : ServeTask :=
  match task.stage with
  | .read buffer =>
      let used := readUntil 0x0a (chunk.take (limit config - buffer.length))
      let received := task.received ++ chunk
      if used = [] ∨ used.getLast? = some 0x0a ∨ limit config ≤ (buffer ++ used).length then
        { task with received, stage := request config (checkRequest config (buffer ++ used)) }
      else { task with received, stage := .read (buffer ++ used) }
  | _ => task

/-- The answer to a query, by what loading the user gave. -/
def answer (query : FingerQuery) : Except RepositoryError UserRecord → Bytes
  | .ok { profile, plan } => (profile.render query.verbose plan).asBytes
  | .error .notFound => renderMessage userMissing
  | .error .invalidPlanEncoding => renderMessage genericError
  | .error (.parse _) => renderMessage genericError
  | .error (.storage _) => renderMessage genericError

/-- The socket takes some of what is to be written; after all of it, the
connection is shut down. -/
def send (more : Nat) (task : ServeTask) : ServeTask :=
  match task.stage with
  | .write rest =>
      { task with
        sent := task.sent ++ rest.take (more + 1)
        stage :=
          if rest.length ≤ more + 1 then .ended (some (.ok ()))
          else .write (rest.drop (more + 1)) }
  | _ => task

/-- Reading and writing end in an error. -/
def fail (err : Str) (task : ServeTask) : ServeTask :=
  match task.stage with
  | .read _ => { task with stage := .ended (some (.error err)) }
  | .write _ => { task with stage := .ended (some (.error err)) }
  | _ => task

section Fetching

variable (encodePart : Str → Str) (fromStr : Str → Except Toml.Error Toml.Document)

/-- Fetch an object of the user: `load_user` up to its next await, or to its
end. -/
def fetch (repo : ObjectStoreUserStore) (task : ServeTask) : ServeTask :=
  match task.stage with
  | .fetchProfile query =>
      match repo.loadProfile encodePart fromStr query.username with
      | .error err => { task with stage := .write (answer query (.error err)) }
      | .ok profile =>
          if query.verbose then { task with stage := .fetchPlan query profile }
          else { task with stage := .write (answer query (.ok ⟨profile, none⟩)) }
  | .fetchPlan query profile =>
      let loaded : Except RepositoryError UserRecord := do
        let plan ← repo.loadPlanIfRequested encodePart query.username true
        return { profile, plan }
      { task with stage := .write (answer query loaded) }
  | _ => task

end Fetching

end ServeTask

namespace FingerServer

/-! ## Runs -/

/-- The server before its first connection. -/
def new (config : ServerConfig) (store : ObjectStore) : FingerServer :=
  ⟨config, store, .init config.rate, []⟩

/-- One task goes on. -/
def update (s : FingerServer) (id : Nat) (move : ServeTask → ServeTask) : FingerServer :=
  { s with tasks := s.tasks.modify id move }

/-- The repository over the objects as they are. -/
def repository (s : FingerServer) : ObjectStoreUserStore :=
  .new s.store s.config.profilePrefix s.config.planPrefix

section Running

variable (encodePart : Str → Str) (fromStr : Str → Except Toml.Error Toml.Document)

/-- One step of a schedule, with what it does to the limiter's accounts. -/
def step (s : FingerServer) : ServerAction → RateLimiter.Event × FingerServer
  | .accept ip =>
      let started := s.limiter.step (.start s.tasks.length ip)
      (started.1, { s with
        limiter := started.2
        tasks := s.tasks ++ [⟨ip, none, [], [], .check⟩] })
  | .check id reading order =>
      let turned := s.limiter.step (.turn id reading order)
      (turned.1, { s with limiter := turned.2 }.update id (·.resume turned.1))
  | .receive id chunk => (.silent, s.update id (·.receive s.config chunk))
  | .fetch id => (.silent, s.update id (·.fetch encodePart fromStr s.repository))
  | .send id more => (.silent, s.update id (·.send more))
  | .fail id err => (.silent, s.update id (·.fail err))
  | .edit store => (.silent, { s with store })

/-- The server a schedule leads to. -/
abbrev after (config : ServerConfig) (store : ObjectStore) (schedule : List ServerAction) :
    FingerServer :=
  Mealy.final (step encodePart fromStr) (new config store) schedule

/-- What happened to the limiter's accounts along a schedule, in order. -/
def history (config : ServerConfig) (store : ObjectStore) (schedule : List ServerAction) :
    List RateLimiter.Event :=
  (Mealy.trace (step encodePart fromStr) (new config store) schedule).map Prod.snd

end Running

/-! ## Reading in pieces -/

end FingerServer

theorem readUntil_append {delimiter : UInt8} {front : Bytes} (absent : delimiter ∉ front)
    (back : Bytes) : readUntil delimiter (front ++ back) = front ++ readUntil delimiter back := by
  induction front with
  | nil => rfl
  | cons b front ih =>
      rw [List.mem_cons, not_or] at absent
      rw [List.cons_append, readUntil, if_neg (Ne.symm absent.1), ih absent.2, List.cons_append]

/-- What is read ends in the delimiter or goes to the end. -/
theorem readUntil_cases (delimiter : UInt8) (bytes : Bytes) :
    (readUntil delimiter bytes).getLast? = some delimiter ∨
      delimiter ∉ bytes ∧ readUntil delimiter bytes = bytes := by
  induction bytes with
  | nil => exact .inr ⟨List.not_mem_nil, rfl⟩
  | cons b bytes ih =>
      unfold readUntil
      split_ifs with stops
      · left
        rw [stops, List.getLast?_singleton]
      · rcases ih with ends | ⟨absent, whole⟩
        · left
          rw [List.getLast?_cons, ends]
          rfl
        · right
          rw [whole, List.mem_cons, not_or]
          exact ⟨⟨Ne.symm stops, absent⟩, rfl⟩

namespace ServeTask

variable {encodePart : Str → Str} {fromStr : Str → Except Toml.Error Toml.Document}

/-- What a task has read so far, if it needs more. -/
structure Reading (config : ServerConfig) (received : Bytes) : Prop where
  oneLine : 0x0a ∉ received
  short : received = [] ∨ received.length < limit config

/-- With a further piece a request is still unfinished, all of it read so far,
or it is what the sequential server reads of all that was received. -/
theorem receive_of_reading {config : ServerConfig} {received : Bytes}
    (reading : Reading config received) (ip : IpAddr) (chunk : Bytes)
    (handler : ConnectionHandler) (same : handler.config = config) :
    let task : ServeTask := ⟨ip, some (.ok ()), received, [], .read received⟩
    (∃ grown, Reading config grown ∧
      task.receive config chunk = { task with received := grown, stage := .read grown }) ∨
    ∃ grown, task.receive config chunk =
      { task with
        received := grown
        stage := request config (handler.readRequest grown) } := by
  intro task
  subst same
  simp only [task, ServeTask.receive]
  split_ifs with complete
  · right
    refine ⟨received ++ chunk, ?_⟩
    have fits : received.take (limit handler.config) = received := by
      rcases reading.short with empty | short
      · rw [empty, List.take_nil]
      · exact List.take_of_length_le short.le
    have whole : readUntil 0x0a ((received ++ chunk).take (limit handler.config)) =
        received ++ readUntil 0x0a (chunk.take (limit handler.config - received.length)) := by
      rw [List.take_append, fits, readUntil_append reading.oneLine]
    have reads : handler.readRequest (received ++ chunk) =
        checkRequest handler.config
          (readUntil 0x0a ((received ++ chunk).take (limit handler.config))) := rfl
    rw [reads, whole]
  · left
    simp only [not_or, not_le, List.length_append] at complete
    obtain ⟨-, goesOn, short⟩ := complete
    obtain ⟨absent, all⟩ := (readUntil_cases 0x0a _).resolve_left goesOn
    rw [all, List.length_take] at short
    have taken : chunk.take (limit handler.config - received.length) = chunk :=
      List.take_of_length_le (by omega)
    rw [taken] at absent all
    rw [taken, all]
    refine ⟨received ++ chunk, ⟨?_, .inr ?_⟩, rfl⟩
    · rw [List.mem_append, not_or]
      exact ⟨reading.oneLine, absent⟩
    · rw [List.length_append]
      omega

end ServeTask

/-! ## Torn reads -/

namespace ObjectStore

def isProfilePath (path : Path) : Bool := path.segments.getLast?.any (".toml".toList.isSuffixOf ·)

/-- The profiles as they were at one time, everything else as it was at another. -/
def torn (earlier later : ObjectStore) : ObjectStore where
  get path := if isProfilePath path then earlier.get path else later.get path

@[simp] theorem torn_self (store : ObjectStore) : store.torn store = store := by
  simp only [torn, ite_self]

variable {encodePart : Str → Str}

@[simp] theorem isProfilePath_profileObject (pathPrefix : Str) (username : Username) :
    isProfilePath (profileObject encodePart pathPrefix username) = true := by
  simp [isProfilePath, profileObject, ObjectStoreUserStore.objectAt]

@[simp] theorem isProfilePath_planObject (pathPrefix : Str) (username : Username) :
    isProfilePath (planObject encodePart pathPrefix username) = false := by
  rw [Bool.eq_false_iff]
  intro profile
  simp only [isProfilePath, planObject, ObjectStoreUserStore.objectAt, List.getLast?_concat,
    Option.any_some, List.isSuffixOf_iff_suffix] at profile
  obtain ⟨front, same⟩ := profile
  have extension : ".toml".toList = ".plan".toList := (List.append_inj' same (by decide)).2
  revert extension
  decide

end ObjectStore

namespace ObjectStoreUserStore

variable {encodePart : Str → Str} {fromStr : Str → Except Toml.Error Toml.Document}

theorem loadUser_eq (repo : ObjectStoreUserStore) (username : Username) (includePlan : Bool) :
    repo.loadUser encodePart fromStr username includePlan = (do
      let profile ← repo.loadProfile encodePart fromStr username
      let plan ← repo.loadPlanIfRequested encodePart username includePlan
      return { profile, plan }) := by
  simp only [loadUser, loadProfile, bind_assoc]

/-- On a torn store, the profile comes from the one version and the plan from the
other. -/
theorem loadUser_torn (laws : PathLaws encodePart) (earlier later : ObjectStore)
    (profilePrefix planPrefix : Str) (username : Username) (includePlan : Bool) :
    (new (earlier.torn later) profilePrefix planPrefix).loadUser encodePart fromStr username
        includePlan = (do
      let profile ← (new earlier profilePrefix planPrefix).loadProfile encodePart fromStr username
      let plan ← (new later profilePrefix planPrefix).loadPlanIfRequested encodePart username
        includePlan
      return { profile, plan }) := by
  have plans : (new (earlier.torn later) profilePrefix planPrefix).loadPlanIfRequested encodePart
        username includePlan =
      (new later profilePrefix planPrefix).loadPlanIfRequested encodePart username
        includePlan := by
    simp only [loadPlanIfRequested, planPath_new laws, fetchBytes_new, ObjectStore.torn,
      ObjectStore.isProfilePath_planObject, Bool.false_eq_true, if_false]
  rw [loadUser_eq, plans]
  simp only [loadProfile, profilePath_new laws, fetchBytes_new, ObjectStore.torn,
    ObjectStore.isProfilePath_profileObject, if_true]

end ObjectStoreUserStore

/-! ## One task -/

namespace ServeTask

open ConnectionHandler (wired)

variable (encodePart : Str → Str) (fromStr : Str → Except Toml.Error Toml.Document)
  (config : ServerConfig)

/-- Two of the versions, the first no later than the second. -/
def InOrder (versions : List ObjectStore) (earlier later : ObjectStore) : Prop :=
  ∃ i j : Nat, i ≤ j ∧ versions[i]? = some earlier ∧ versions[j]? = some later

/-- What the sequential server replies, its store torn between two versions. -/
def Replies (versions : List ObjectStore) (checked : Outcome) (received payload : Bytes) : Prop :=
  ∃ earlier later, InOrder versions earlier later ∧
    (wired encodePart fromStr config (earlier.torn later)).reply checked received = .ok payload

/-- The query that has been read, on a served host. -/
structure Asks (received : Bytes) (query : FingerQuery) : Prop where
  parsed : ∀ store, (wired encodePart fromStr config store).Requests received query
  served : config.acceptsHost (query.host.getD config.defaultHost) = true

/-- Where a task can stand that was accepted for an address, given the versions
the store has had since. -/
inductive Follows (versions : List ObjectStore) (ip : IpAddr) : ServeTask → Prop
  | check {checked : Option Outcome} : Follows versions ip ⟨ip, checked, [], [], .check⟩
  | read {received : Bytes} :
    Reading config received →
    Follows versions ip ⟨ip, some (.ok ()), received, [], .read received⟩
  | fetchProfile {received : Bytes} {query : FingerQuery} :
    Asks encodePart fromStr config received query →
    Follows versions ip ⟨ip, some (.ok ()), received, [], .fetchProfile query⟩
  | fetchPlan {received : Bytes} {query : FingerQuery} {profile : FingerProfile}
      {earlier : ObjectStore} :
    Asks encodePart fromStr config received query → query.verbose = true →
    earlier ∈ versions →
    (ObjectStoreUserStore.new earlier config.profilePrefix config.planPrefix).loadProfile
      encodePart fromStr query.username = .ok profile →
    Follows versions ip ⟨ip, some (.ok ()), received, [], .fetchPlan query profile⟩
  | write {checked : Outcome} {received sent rest : Bytes} :
    Replies encodePart fromStr config versions checked received (sent ++ rest) →
    Follows versions ip ⟨ip, some checked, received, sent, .write rest⟩
  | done {checked : Outcome} {received sent : Bytes} :
    Replies encodePart fromStr config versions checked received sent →
    Follows versions ip ⟨ip, some checked, received, sent, .ended (some (.ok ()))⟩
  | cut {checked : Outcome} {received sent rest : Bytes} {err : Str} :
    Replies encodePart fromStr config versions checked received (sent ++ rest) →
    Follows versions ip ⟨ip, some checked, received, sent, .ended (some (.error err))⟩
  | unread {received : Bytes} {err : Str} :
    Follows versions ip ⟨ip, some (.ok ()), received, [], .ended (some (.error err))⟩
  | panicked {checked : Option Outcome} :
    Follows versions ip ⟨ip, checked, [], [], .ended none⟩

variable {encodePart fromStr config}
variable {versions : List ObjectStore} {ip : IpAddr} {task : ServeTask}

theorem InOrder.append {earlier later : ObjectStore} (ordered : InOrder versions earlier later)
    (more : List ObjectStore) : InOrder (versions ++ more) earlier later := by
  obtain ⟨i, j, le, first, second⟩ := ordered
  refine ⟨i, j, le, ?_, ?_⟩
  · rw [List.getElem?_append_left (List.getElem?_eq_some_iff.mp first).1, first]
  · rw [List.getElem?_append_left (List.getElem?_eq_some_iff.mp second).1, second]

/-- No version is later than the current one. -/
theorem inOrder_of_getLast {earlier store : ObjectStore} (member : earlier ∈ versions)
    (current : versions.getLast? = some store) : InOrder versions earlier store := by
  obtain ⟨i, found⟩ := List.getElem?_of_mem member
  refine ⟨i, versions.length - 1, ?_, found, ?_⟩
  · have := (List.getElem?_eq_some_iff.mp found).1
    omega
  · rw [← List.getLast?_eq_getElem?, current]

theorem Replies.append {checked : Outcome} {received payload : Bytes}
    (replies : Replies encodePart fromStr config versions checked received payload)
    (more : List ObjectStore) :
    Replies encodePart fromStr config (versions ++ more) checked received payload := by
  obtain ⟨earlier, later, ordered, replied⟩ := replies
  exact ⟨earlier, later, ordered.append more, replied⟩

/-- An edit of the store does not change what a task has done. -/
theorem Follows.edit (follows : Follows encodePart fromStr config versions ip task)
    (store : ObjectStore) :
    Follows encodePart fromStr config (versions ++ [store]) ip task := by
  cases follows with
  | check => exact .check
  | read reading => exact .read reading
  | fetchProfile asks => exact .fetchProfile asks
  | fetchPlan asks verbose member loaded =>
      exact .fetchPlan asks verbose (List.mem_append_left _ member) loaded
  | write replies => exact .write (replies.append _)
  | done replies => exact .done (replies.append _)
  | cut replies => exact .cut (replies.append _)
  | unread => exact .unread
  | panicked => exact .panicked

/-- The limiter's answer sends a task on to its request, or off with the
limiter's message. -/
theorem Follows.resume (follows : Follows encodePart fromStr config versions ip task)
    (stage : task.stage = .check) {event : RateLimiter.Event}
    (answers : ∀ other outcome, event = .finished other (some outcome) →
      task.checked = some outcome)
    {store : ObjectStore} (current : versions.getLast? = some store) :
    Follows encodePart fromStr config versions ip (task.resume event) := by
  cases follows with
  | check =>
      cases event with
      | silent => exact .check
      | updated other fresh outcome =>
          cases outcome with
          | none => exact .panicked
          | some outcome => exact .check
      | finished other outcome =>
          rcases outcome with _ | outcome
          · exact .panicked
          · obtain rfl := answers other outcome rfl
            cases outcome with
            | error err =>
                refine .write ⟨store, store, ?_, rfl⟩
                exact inOrder_of_getLast (List.mem_of_getLast? current) current
            | ok admitted => exact .read ⟨List.not_mem_nil, .inl rfl⟩
  | _ => cases stage

theorem Follows.fail (follows : Follows encodePart fromStr config versions ip task) (err : Str) :
    Follows encodePart fromStr config versions ip (task.fail err) := by
  cases follows with
  | check => exact .check
  | read reading => exact .unread
  | fetchProfile asks => exact .fetchProfile asks
  | fetchPlan asks verbose member loaded => exact .fetchPlan asks verbose member loaded
  | write replies => exact .cut replies
  | done replies => exact .done replies
  | cut replies => exact .cut replies
  | unread => exact .unread
  | panicked => exact .panicked

theorem Follows.send (follows : Follows encodePart fromStr config versions ip task) (more : Nat) :
    Follows encodePart fromStr config versions ip (task.send more) := by
  cases follows with
  | check => exact .check
  | read reading => exact .read reading
  | fetchProfile asks => exact .fetchProfile asks
  | fetchPlan asks verbose member loaded => exact .fetchPlan asks verbose member loaded
  | @write checked received sent rest replies =>
      simp only [ServeTask.send]
      split_ifs with all
      · rw [List.take_of_length_le all]
        exact .done replies
      · rw [← List.take_append_drop (more + 1) rest, ← List.append_assoc] at replies
        exact .write replies
  | done replies => exact .done replies
  | cut replies => exact .cut replies
  | unread => exact .unread
  | panicked => exact .panicked

/-- From a request that has been read a task replies as the sequential server
does, or goes on to the profile. -/
theorem follows_request {received : Bytes} {store : ObjectStore}
    (current : versions.getLast? = some store) :
    Follows encodePart fromStr config versions ip
      ⟨ip, some (.ok ()), received, [],
        request config ((wired encodePart fromStr config store).readRequest received)⟩ := by
  have now : InOrder versions store store :=
    inOrder_of_getLast (List.mem_of_getLast? current) current
  cases reads : (wired encodePart fromStr config store).readRequest received with
  | error err => exact .unread
  | ok rawRequest =>
      cases parsed : Query.parse rawRequest with
      | error err =>
          simp only [request, parsed]
          refine .write ⟨store, store, now, ?_⟩
          simp only [ObjectStore.torn_self, ConnectionHandler.reply, reads, parsed,
            List.nil_append]
      | ok query =>
          have asked : ∀ store, (wired encodePart fromStr config store).Requests received query :=
            fun _ => ⟨rawRequest, reads, parsed⟩
          simp only [request, parsed]
          split_ifs with served
          · refine .write ⟨store, store, now, ?_⟩
            rw [ObjectStore.torn_self, ConnectionHandler.reply_of_requests (asked store)]
            exact congrArg _ (if_pos served)
          · exact .fetchProfile ⟨asked, by simpa using served⟩

theorem Follows.receive (follows : Follows encodePart fromStr config versions ip task)
    {store : ObjectStore} (current : versions.getLast? = some store) (chunk : Bytes) :
    Follows encodePart fromStr config versions ip (task.receive config chunk) := by
  cases follows with
  | check => exact .check
  | read reading =>
      rcases receive_of_reading reading ip chunk (wired encodePart fromStr config store) rfl with
        ⟨received, more, same⟩ | ⟨received, same⟩
      · rw [same]
        exact .read more
      · rw [same]
        exact follows_request current
  | fetchProfile asks => exact .fetchProfile asks
  | fetchPlan asks verbose member loaded => exact .fetchPlan asks verbose member loaded
  | write replies => exact .write replies
  | done replies => exact .done replies
  | cut replies => exact .cut replies
  | unread => exact .unread
  | panicked => exact .panicked

theorem buildResponse_of_served (store : ObjectStore) {query : FingerQuery} {host : HostName}
    (served : config.acceptsHost host = true) :
    (wired encodePart fromStr config store).buildResponse query host =
      answer query ((ObjectStoreUserStore.new store config.profilePrefix
        config.planPrefix).loadUser encodePart fromStr query.username query.verbose) := by
  simp only [ConnectionHandler.buildResponse, wired, ObjectStoreUserStore.userStore, served,
    Bool.not_true, Bool.false_eq_true, if_false]
  rcases ObjectStoreUserStore.loadUser encodePart fromStr _ _ _ with err | record
  · cases err <;> rfl
  · rfl

/-- The reply to a query on a served host is the answer to what loading its user
from the torn store gives. -/
theorem replies_of_asks (laws : PathLaws encodePart) {received : Bytes} {query : FingerQuery}
    {earlier later : ObjectStore} (asks : Asks encodePart fromStr config received query)
    (ordered : InOrder versions earlier later) :
    Replies encodePart fromStr config versions (.ok ()) received
      (answer query (do
        let profile ← (ObjectStoreUserStore.new earlier config.profilePrefix
          config.planPrefix).loadProfile encodePart fromStr query.username
        let plan ← (ObjectStoreUserStore.new later config.profilePrefix
          config.planPrefix).loadPlanIfRequested encodePart query.username query.verbose
        return { profile, plan })) := by
  refine ⟨earlier, later, ordered, ?_⟩
  rw [ConnectionHandler.reply_of_requests (asks.parsed _),
    ← ObjectStoreUserStore.loadUser_torn laws]
  exact congrArg _ (buildResponse_of_served _ asks.served)

theorem Follows.fetch (laws : PathLaws encodePart)
    (follows : Follows encodePart fromStr config versions ip task) {store : ObjectStore}
    (current : versions.getLast? = some store) :
    Follows encodePart fromStr config versions ip (task.fetch encodePart fromStr
      (.new store config.profilePrefix config.planPrefix)) := by
  cases follows with
  | check => exact .check
  | read reading => exact .read reading
  | fetchProfile asks =>
      have replies := replies_of_asks laws asks
        (inOrder_of_getLast (List.mem_of_getLast? current) current)
      simp only [ServeTask.fetch]
      split
      · rename_i err failed
        rw [failed] at replies
        exact .write replies
      · rename_i profile loaded
        rw [loaded] at replies
        split_ifs with verbose
        · exact .fetchPlan asks verbose (List.mem_of_getLast? current) loaded
        · rw [Bool.eq_false_iff.mpr verbose] at replies
          exact .write replies
  | fetchPlan asks verbose member loaded =>
      have replies := replies_of_asks laws asks (inOrder_of_getLast member current)
      rw [loaded, verbose] at replies
      exact .write replies
  | write replies => exact .write replies
  | done replies => exact .done replies
  | cut replies => exact .cut replies
  | unread => exact .unread
  | panicked => exact .panicked

theorem Follows.ip_eq (follows : Follows encodePart fromStr config versions ip task) :
    task.ip = ip := by
  cases follows <;> rfl

/-- What has been sent is the beginning of a reply, and all of it if the task
ended well. -/
theorem Follows.sent_cases (follows : Follows encodePart fromStr config versions ip task) :
    (task.sent = [] ∧ task.stage ≠ .ended (some (.ok ()))) ∨
      ∃ checked payload, task.checked = some checked ∧
        Replies encodePart fromStr config versions checked task.received payload ∧
        task.sent <+: payload ∧ (task.stage = .ended (some (.ok ())) → task.sent = payload) := by
  cases follows with
  | write replies => exact .inr ⟨_, _, rfl, replies, List.prefix_append .., nofun⟩
  | done replies => exact .inr ⟨_, _, rfl, replies, List.prefix_rfl, fun _ => rfl⟩
  | cut replies => exact .inr ⟨_, _, rfl, replies, List.prefix_append .., nofun⟩
  | _ => exact .inl ⟨rfl, nofun⟩

end ServeTask

/-! ## All tasks -/

namespace FingerServer

open ServeTask
open ConnectionHandler (wired)

variable {encodePart : Str → Str} {fromStr : Str → Except Toml.Error Toml.Document}

/-- The outcome of a check, once it is decided. -/
def decision : RateLimiter.Phase → Option Outcome
  | .enforce outcome _ => some outcome
  | _ => none

/-- Every check in flight is that of a task that waits for it. -/
def Paired (s : FingerServer) : Prop :=
  ∀ id check, s.limiter.tasks.lookup id = some check →
    ∃ task, s.tasks[id]? = some task ∧ task.ip = check.ip ∧ task.stage = .check ∧
      task.checked = decision check.phase

theorem getElem?_update (s : FingerServer) (id other : Nat) (move : ServeTask → ServeTask) :
    (s.update id move).tasks[other]? =
      (s.tasks[other]?).map fun task => if id = other then move task else task := by
  unfold update
  rw [List.getElem?_modify]
  split_ifs <;> simp

/-- A task that waits for the limiter goes on by the limiter alone. -/
theorem Paired.update {s : FingerServer} (paired : s.Paired) (id : Nat)
    {move : ServeTask → ServeTask} (waits : ∀ task, task.stage = .check → move task = task) :
    (s.update id move).Paired := by
  intro other check found
  obtain ⟨task, member, same, stage, decided⟩ := paired other check found
  refine ⟨task, ?_, same, stage, decided⟩
  rw [getElem?_update, member, Option.map_some, waits task stage, ite_self]

theorem receive_of_check {config : ServerConfig} {chunk : Bytes} (task : ServeTask)
    (stage : task.stage = .check) : task.receive config chunk = task := by
  simp only [ServeTask.receive, stage]

theorem fetch_of_check {repo : ObjectStoreUserStore} (task : ServeTask)
    (stage : task.stage = .check) : task.fetch encodePart fromStr repo = task := by
  simp only [ServeTask.fetch, stage]

theorem send_of_check {more : Nat} (task : ServeTask) (stage : task.stage = .check) :
    task.send more = task := by
  simp only [ServeTask.send, stage]

theorem fail_of_check {err : Str} (task : ServeTask) (stage : task.stage = .check) :
    task.fail err = task := by
  simp only [ServeTask.fail, stage]

/-- A map call of a check does nothing, or it is one step of a task that waits
for it. -/
theorem check_cases {s : FingerServer} (paired : s.Paired) (id : Nat) (reading : DateTime)
    (order : RateLimiter.IterOrder) :
    s.limiter.step (.turn id reading order) = (.silent, s.limiter) ∨
      ∃ task phase next, s.tasks[id]? = some task ∧ task.stage = .check ∧
        task.checked = decision phase ∧
        s.limiter.Moves task.ip phase (s.limiter.step (.turn id reading order)).1 next
          (s.limiter.step (.turn id reading order)).2.limiter.entries ∧
        s.limiter.Resumes (s.limiter.step (.turn id reading order)).2 id
          (next.map (RateLimiter.Task.mk task.ip)) := by
  rcases s.limiter.step_cases (.turn id reading order) with
    same | ⟨absent, ip, started⟩ | ⟨ip, phase, next, found, moves, resumes, -⟩
  · exact .inl same
  · left
    simp only [RateLimiter.System.step, RateLimiter.Action.task] at absent ⊢
    rw [absent]
  · obtain ⟨task, member, rfl, stage, decided⟩ := paired id _ found
    exact .inr ⟨task, phase, next, member, stage, decided, moves, resumes⟩

/-- As long as its check goes on, a task waits, and learns the decision. -/
theorem resume_of_moves {limiter : RateLimiter.System} {ip : IpAddr}
    {phase next : RateLimiter.Phase} {event : RateLimiter.Event} {entries : Entries}
    (moves : limiter.Moves ip phase event (some next) entries) {task : ServeTask}
    (decided : task.checked = decision phase) :
    task.resume event = { task with checked := decision next } := by
  cases moves with
  | count counted => rfl
  | _ => exact (congrArg (fun checked => { task with checked }) decided)

/-- A check ends with the decision. -/
theorem decision_of_moves {limiter : RateLimiter.System} {ip other : IpAddr}
    {phase : RateLimiter.Phase} {next : Option RateLimiter.Phase} {outcome : Outcome}
    {entries : Entries}
    (moves : limiter.Moves ip phase (.finished other (some outcome)) next entries) :
    decision phase = some outcome := by
  cases moves <;> rfl

theorem Paired.check {s : FingerServer} (paired : s.Paired) (id : Nat) (reading : DateTime)
    (order : RateLimiter.IterOrder) :
    (s.step encodePart fromStr (.check id reading order)).2.Paired := by
  intro other check found
  simp only [step] at found ⊢
  rw [getElem?_update]
  rcases check_cases paired id reading order with
    same | ⟨task, phase, next, member, stage, decided, moves, resumes⟩
  · rw [same] at found ⊢
    obtain ⟨task, member, waits⟩ := paired other check found
    exact ⟨task, by rw [member, Option.map_some]; exact congrArg some (ite_self _), waits⟩
  · by_cases own : id = other
    · subst own
      obtain ⟨phase', rfl, rfl⟩ := Option.map_eq_some_iff.mp (resumes.1.symm.trans found)
      refine ⟨{ task with checked := decision phase' }, ?_, rfl, stage, rfl⟩
      rw [member, Option.map_some, if_pos rfl, resume_of_moves moves decided]
    · obtain ⟨task, member, waits⟩ :=
        paired other check ((resumes.2 other (Ne.symm own)).symm.trans found)
      exact ⟨task, by rw [member, Option.map_some, if_neg own], waits⟩

theorem Paired.accept {s : FingerServer} (paired : s.Paired) (ip : IpAddr) :
    (s.step encodePart fromStr (.accept ip)).2.Paired := by
  intro other check found
  simp only [step, RateLimiter.System.step] at found ⊢
  have old : s.limiter.tasks.lookup other = some check →
      ∃ task, (s.tasks ++ [⟨ip, none, [], [], .check⟩])[other]? = some task ∧
        task.ip = check.ip ∧ task.stage = .check ∧ task.checked = decision check.phase := by
    intro before
    obtain ⟨task, member, waits⟩ := paired other check before
    refine ⟨task, ?_, waits⟩
    rw [List.getElem?_append_left (List.getElem?_eq_some_iff.mp member).1, member]
  split_ifs at found with taken
  · exact old found
  · simp only [RateLimiter.System.goto] at found
    by_cases own : other = s.tasks.length
    · subst own
      rw [AList.lookup_insert] at found
      cases found
      exact ⟨_, List.getElem?_concat_length, rfl, rfl, rfl⟩
    · rw [AList.lookup_insert_ne own] at found
      exact old found

theorem Paired.step {s : FingerServer} (paired : s.Paired) (action : ServerAction) :
    (s.step encodePart fromStr action).2.Paired := by
  cases action with
  | accept ip => exact paired.accept ip
  | check id reading order => exact paired.check id reading order
  | receive id chunk => exact paired.update id receive_of_check
  | fetch id => exact paired.update id fetch_of_check
  | send id more => exact paired.update id send_of_check
  | fail id err => exact paired.update id fail_of_check
  | edit store => exact paired

@[simp] theorem step_config (s : FingerServer) (action : ServerAction) :
    (s.step encodePart fromStr action).2.config = s.config := by
  cases action <;> rfl

@[simp] theorem step_settings (s : FingerServer) (action : ServerAction) :
    (s.step encodePart fromStr action).2.limiter.limiter.settings =
      s.limiter.limiter.settings := by
  cases action with
  | accept ip => exact RateLimiter.System.step_settings ..
  | check id reading order => exact RateLimiter.System.step_settings ..
  | _ => rfl

variable (encodePart fromStr) in
theorem paired_after (config : ServerConfig) (store : ObjectStore)
    (schedule : List ServerAction) :
    (after encodePart fromStr config store schedule).Paired ∧
      (after encodePart fromStr config store schedule).config = config := by
  refine Mealy.final_invariant (fun _ (s : FingerServer) => s.Paired ∧ s.config = config)
    ⟨fun _ _ found => (by cases found), rfl⟩ ?_
  intro front action back _ both
  obtain ⟨paired, same⟩ := both
  exact ⟨paired.step action, by rw [step_config, same]⟩

/-! ## Refinement -/

/-- The versions of the store that a schedule brings. -/
def edits (schedule : List ServerAction) : List ObjectStore :=
  schedule.filterMap fun
    | .edit store => some store
    | _ => none

variable (encodePart fromStr) in
/-- The task of a connection accepted for an address, the store having had the
versions given since. -/
structure Serves (config : ServerConfig) (ip : IpAddr) (id : Nat) (versions : List ObjectStore)
    (s : FingerServer) : Prop where
  configured : s.config = config
  current : versions.getLast? = some s.store
  follows : ∃ task, s.tasks[id]? = some task ∧
    Follows encodePart fromStr config versions ip task

section Serves

variable {config : ServerConfig} {ip : IpAddr} {id : Nat} {versions : List ObjectStore}
  {s : FingerServer}

/-- Whichever task goes on, the one in question does as it should. -/
theorem Serves.update (serves : Serves encodePart fromStr config ip id versions s) (other : Nat)
    {move : ServeTask → ServeTask}
    (follows : ∀ task, s.tasks[other]? = some task →
      Follows encodePart fromStr config versions ip task →
      Follows encodePart fromStr config versions ip (move task)) :
    Serves encodePart fromStr config ip id versions (s.update other move) := by
  obtain ⟨task, member, before⟩ := serves.follows
  refine ⟨serves.configured, serves.current, ?_⟩
  rw [getElem?_update, member, Option.map_some]
  refine ⟨_, rfl, ?_⟩
  split_ifs with own
  · subst own
    exact follows task member before
  · exact before

theorem append_edits {action : ServerAction} (quiet : edits [action] = []) :
    versions ++ edits [action] = versions := by
  rw [quiet, List.append_nil]

theorem Serves.step (laws : PathLaws encodePart) (paired : s.Paired)
    (serves : Serves encodePart fromStr config ip id versions s) (action : ServerAction) :
    Serves encodePart fromStr config ip id (versions ++ edits [action])
      (s.step encodePart fromStr action).2 := by
  have current := serves.current
  cases action with
  | accept other =>
      rw [append_edits rfl]
      obtain ⟨configured, -, task, member, follows⟩ := serves
      refine ⟨configured, current, task, ?_, follows⟩
      exact (List.getElem?_append_left (List.getElem?_eq_some_iff.mp member).1).trans member
  | check other reading order =>
      rw [append_edits rfl]
      have stays : Serves encodePart fromStr config ip id versions
          { s with limiter := (s.limiter.step (.turn other reading order)).2 } :=
        ⟨serves.configured, current, serves.follows⟩
      refine stays.update other fun task member follows => ?_
      rcases check_cases paired other reading order with
        same | ⟨task', phase, next, member', stage, decided, moves, -⟩
      · rw [same]
        exact follows
      · obtain rfl := Option.some.inj (member.symm.trans member')
        refine follows.resume stage (fun ip outcome ends => ?_) current
        rw [ends] at moves
        rw [decided, decision_of_moves moves]
  | receive other chunk =>
      rw [append_edits rfl]
      refine serves.update other fun task _ follows => ?_
      rw [serves.configured]
      exact follows.receive current chunk
  | fetch other =>
      rw [append_edits rfl]
      refine serves.update other fun task _ follows => ?_
      rw [repository, serves.configured]
      exact follows.fetch laws current
  | send other more =>
      rw [append_edits rfl]
      exact serves.update other fun task _ follows => follows.send more
  | fail other err =>
      rw [append_edits rfl]
      exact serves.update other fun task _ follows => follows.fail err
  | edit store =>
      obtain ⟨configured, -, task, member, follows⟩ := serves
      exact ⟨configured, List.getLast?_concat .., task, member, follows.edit store⟩

variable (fromStr) in
/-- From its acceptance on, a task does as it should. -/
theorem serves_after (laws : PathLaws encodePart) (config : ServerConfig) (store : ObjectStore)
    (before rest : List ServerAction) (ip : IpAddr) :
    let start := after encodePart fromStr config store before
    Serves encodePart fromStr config ip start.tasks.length (start.store :: edits rest)
      (after encodePart fromStr config store (before ++ .accept ip :: rest)) := by
  intro start
  have split : after encodePart fromStr config store (before ++ .accept ip :: rest) =
      Mealy.final (FingerServer.step encodePart fromStr)
        (start.step encodePart fromStr (.accept ip)).2 rest := by
    rw [after, Mealy.final_append, Mealy.final_cons]
  obtain ⟨paired, configured⟩ := paired_after encodePart fromStr config store before
  rw [split]
  refine (Mealy.final_invariant
    (fun front (s : FingerServer) => s.Paired ∧ Serves encodePart fromStr config ip
      start.tasks.length (start.store :: edits front) s) ?_ ?_).2
  · exact ⟨paired.step _, configured, rfl, _, List.getElem?_concat_length, .check⟩
  · intro front action back _ both
    obtain ⟨paired, serves⟩ := both
    refine ⟨paired.step action, ?_⟩
    have grows : edits (front ++ [action]) = edits front ++ edits [action] :=
      List.filterMap_append ..
    rw [grows, ← List.cons_append]
    exact serves.step laws paired action

end Serves

variable (fromStr) in
/-- A connection is sent the reply of the sequential server to what the client
sent, or the beginning of it, or nothing, whatever other tasks do, however the
request arrives and the reply is taken, and wherever it is cut off.  Edits of the
store may tear it: the profile is of one version the store had since the
connection was accepted, everything else of one no earlier. -/
theorem serve_refines (laws : PathLaws encodePart) (config : ServerConfig) (store : ObjectStore)
    (before rest : List ServerAction) (ip : IpAddr) :
    let start := after encodePart fromStr config store before
    ∃ task, (after encodePart fromStr config store (before ++ .accept ip :: rest)).tasks[
        start.tasks.length]? = some task ∧ task.ip = ip ∧
      (task.sent = [] ∧ task.stage ≠ .ended (some (.ok ())) ∨
        ∃ checked earlier later payload, task.checked = some checked ∧
          InOrder (start.store :: edits rest) earlier later ∧
          (wired encodePart fromStr config (earlier.torn later)).connect checked task.received =
            (.ok (), ⟨task.received, [payload], true⟩) ∧
          task.sent <+: payload ∧
          (task.stage = .ended (some (.ok ())) → task.sent = payload)) := by
  intro start
  obtain ⟨-, -, task, member, follows⟩ :=
    serves_after fromStr laws config store before rest ip
  refine ⟨task, member, follows.ip_eq, ?_⟩
  rcases follows.sent_cases with nothing | ⟨checked, payload, same, replies, sent, whole⟩
  · exact .inl nothing
  · obtain ⟨earlier, later, ordered, replied⟩ := replies
    refine .inr ⟨checked, earlier, later, payload, same, ordered, ?_, sent, whole⟩
    rw [ConnectionHandler.connect_eq, replied]

section Alice

open ConnectionHandler (aliceStore aliceLine)
open FingerProfile (plainDocument parserOf singleTable)

/-- Alice is asked for in two pieces, the store is emptied once her profile has
been fetched, and the reply is taken in two pieces. -/
def aliceRun : List ServerAction :=
  List.replicate 4 (.check 0 (.fromSecs 0) .stored) ++
    [.receive 0 (asBytes "al".toList), .receive 0 (asBytes "ice\r\n".toList), .fetch 0,
      .edit ⟨fun _ => .error .notFound⟩, .send 0 9, .send 0 99]

theorem aliceRun_sent :
    (after id (parserOf plainDocument (singleTable "full_name".toList "Alice Smith".toList))
        .ofDefault (aliceStore (.error .notFound)) (.accept (.v4 1) :: aliceRun)).tasks[0]?.map
          (fun task => (task.received, task.checked, task.sent.take 13)) =
      some (aliceLine, some (.ok ()), asBytes "User: alice\r\n".toList) := by
  decide

/-- The connection gets what the sequential server sends. -/
theorem serve_refines_alice :
    ∃ earlier later payload,
      (wired id (parserOf plainDocument (singleTable "full_name".toList "Alice Smith".toList))
        .ofDefault (ObjectStore.torn earlier later)).connect (.ok ()) aliceLine =
          (.ok (), ⟨aliceLine, [payload], true⟩) ∧
      asBytes "User: alice\r\n".toList <+: payload := by
  obtain ⟨task, member, -, answered⟩ :=
    serve_refines (parserOf plainDocument (singleTable "full_name".toList "Alice Smith".toList))
      pathLaws_id .ofDefault (aliceStore (.error .notFound)) [] aliceRun (.v4 1)
  have same := aliceRun_sent.symm.trans (congrArg _ member)
  simp only [Option.map_some, Option.some.injEq, Prod.mk.injEq] at same
  obtain ⟨received, admitted, line⟩ := same
  rw [line]
  rcases answered with ⟨nothing, -⟩ |
    ⟨checked, earlier, later, payload, same, -, connects, begun, -⟩
  · rw [nothing] at line
    cases line
  · cases admitted.trans same
    rw [← received] at connects
    exact ⟨earlier, later, payload, connects, (List.take_prefix ..).trans begun⟩

end Alice

theorem fromCli_small {cli : CliOptions} {config : ServerConfig}
    (built : ServerConfig.fromCli cli = .ok config) : config.maxRequestBytes + 1 < 2 ^ 64 := by
  have limit := (ServerConfig.fromCli_maxRequestBytes built).2
  have value : ServerConfig.maxRequestBytesLimit = 4096 := rfl
  omega

/-- A reply is a message or shows a record behind all gates. -/
theorem reply_discloses {config : ServerConfig} {store : ObjectStore} {checked : Outcome}
    {received payload : Bytes} (small : config.maxRequestBytes + 1 < 2 ^ 64)
    (replied : (wired encodePart fromStr config store).reply checked received = .ok payload) :
    (checked = .ok () ∧ ∃ query record,
      ConnectionHandler.Discloses encodePart fromStr config store (.ok ()) received query record ∧
        payload = (record.profile.render query.verbose record.plan).asBytes) ∨
      ∃ message ∈ fixedMessages, payload = renderMessage message := by
  cases checked with
  | error err =>
      obtain rfl := Except.ok.inj replied
      exact .inr ⟨rateLimitMessage, by simp [fixedMessages], rfl⟩
  | ok admitted =>
      cases request : (wired encodePart fromStr config store).readRequest received with
      | error err => simp only [ConnectionHandler.reply, request, reduceCtorEq] at replied
      | ok raw =>
          rcases ConnectionHandler.reply_cases small request with
            ⟨query, record, gates, shown⟩ | ⟨-, message, fixed, shown⟩
          · exact .inl ⟨rfl, query, record, gates, Except.ok.inj (replied.symm.trans shown)⟩
          · exact .inr ⟨message, fixed, Except.ok.inj (replied.symm.trans shown)⟩

variable (fromStr) in
/-- A connection is sent one of the messages, or a record of a user for whom
every gate stands open, or the beginning of either. -/
theorem sent_discloses (laws : PathLaws encodePart) {cli : CliOptions} {config : ServerConfig}
    (built : ServerConfig.fromCli cli = .ok config) (store : ObjectStore)
    (before rest : List ServerAction) (ip : IpAddr) :
    let start := after encodePart fromStr config store before
    ∃ task, (after encodePart fromStr config store (before ++ .accept ip :: rest)).tasks[
        start.tasks.length]? = some task ∧ task.ip = ip ∧
      ((∃ message ∈ fixedMessages, task.sent <+: renderMessage message) ∨
        ∃ earlier later query record, InOrder (start.store :: edits rest) earlier later ∧
          task.checked = some (.ok ()) ∧
          ConnectionHandler.Discloses encodePart fromStr config (earlier.torn later) (.ok ())
            task.received query record ∧
          task.sent <+: (record.profile.render query.verbose record.plan).asBytes) := by
  intro start
  obtain ⟨-, -, task, member, follows⟩ :=
    serves_after fromStr laws config store before rest ip
  refine ⟨task, member, follows.ip_eq, ?_⟩
  rcases follows.sent_cases with ⟨nothing, -⟩ | ⟨checked, payload, same, replies, sent, -⟩
  · left
    rw [nothing]
    exact ⟨_, genericError_mem_fixedMessages, List.nil_prefix⟩
  · obtain ⟨earlier, later, ordered, replied⟩ := replies
    rcases reply_discloses (fromCli_small built) replied with
      ⟨rfl, query, record, gates, rfl⟩ | ⟨message, fixed, rfl⟩
    · exact .inr ⟨earlier, later, query, record, ordered, same, gates, sent⟩
    · exact .inl ⟨message, fixed, sent⟩

/-- What Alice's client is sent is no message: the gates stood open. -/
theorem sent_discloses_alice :
    ∃ earlier later query record,
      ConnectionHandler.Discloses id
        (FingerProfile.parserOf FingerProfile.plainDocument
          (FingerProfile.singleTable "full_name".toList "Alice Smith".toList))
        .ofDefault (ObjectStore.torn earlier later) (.ok ()) ConnectionHandler.aliceLine query
          record ∧
      asBytes "User: alice\r\n".toList <+:
        (record.profile.render query.verbose record.plan).asBytes := by
  obtain ⟨task, member, -, shown⟩ :=
    sent_discloses
      (FingerProfile.parserOf FingerProfile.plainDocument
        (FingerProfile.singleTable "full_name".toList "Alice Smith".toList))
      pathLaws_id ServerConfig.fromCli_default
      (ConnectionHandler.aliceStore (.error .notFound)) [] aliceRun (.v4 1)
  have same := aliceRun_sent.symm.trans (congrArg _ member)
  simp only [Option.map_some, Option.some.injEq, Prod.mk.injEq] at same
  obtain ⟨received, -, line⟩ := same
  have begun : asBytes "User: alice\r\n".toList <+: task.sent := line ▸ List.take_prefix ..
  rcases shown with ⟨message, fixed, sent⟩ | ⟨earlier, later, query, record, -, -, gates, sent⟩
  · have other : ∀ message ∈ fixedMessages,
        ¬ asBytes "User: alice\r\n".toList <+: renderMessage message := by decide
    exact absurd (begun.trans sent) (other message fixed)
  · rw [← received] at gates
    exact ⟨earlier, later, query, record, gates, begun.trans sent⟩

/-! ## Admissions -/

/-- The update of an entry that accepts a check of the address. -/
def accepts (ip : IpAddr) : RateLimiter.Event → Bool
  | .updated other _ outcome => other = ip ∧ outcome = some (.ok ())
  | _ => false

/-- The limiter has accepted the check of a connection from the address. -/
def admits (ip : IpAddr) (task : ServeTask) : Bool :=
  task.ip = ip ∧ task.checked = some (.ok ())

theorem countP_modify {α : Type} (p : α → Bool) (l : List α) (i : Nat) (f : α → α) :
    (l.modify i f).countP p + (l[i]?.any p).toNat = l.countP p + (l[i]?.any (p ∘ f)).toNat := by
  induction l generalizing i with
  | nil => simp
  | cons a l ih =>
      cases i with
      | zero =>
          rw [List.modify_zero_cons, List.countP_cons, List.countP_cons, List.getElem?_cons_zero,
            Option.any_some, Option.any_some, Function.comp_apply]
          cases p a <;> cases p (f a) <;> simp
      | succ i =>
          have rest := ih i
          rw [List.modify_succ_cons, List.countP_cons, List.countP_cons, List.getElem?_cons_succ]
          omega

theorem countP_admits_update (s : FingerServer) (id : Nat) {move : ServeTask → ServeTask}
    {ip : IpAddr} (same : ∀ task, admits ip (move task) = admits ip task) :
    (s.update id move).tasks.countP (admits ip) = s.tasks.countP (admits ip) := by
  have counts := countP_modify (admits ip) s.tasks id move
  rw [show admits ip ∘ move = admits ip from funext same] at counts
  exact Nat.add_right_cancel counts

/-- A task is admitted exactly where its check is accepted. -/
theorem admits_resume {limiter : RateLimiter.System} {phase : RateLimiter.Phase}
    {next : Option RateLimiter.Phase} {event : RateLimiter.Event} {entries : Entries}
    {task : ServeTask} (moves : limiter.Moves task.ip phase event next entries)
    (decided : task.checked = decision phase) (ip : IpAddr) :
    (admits ip (task.resume event)).toNat =
      (admits ip task).toNat + (accepts ip event).toNat := by
  cases moves with
  | count counted =>
      have before : admits ip task = false := by
        simp only [admits, decided, decision, reduceCtorEq, and_false, decide_false]
      rw [before, Bool.toNat_false, Nat.zero_add]
      simp only [admits, accepts, resume, Option.some.injEq]
  | lose lost =>
      have refused : ∀ fresh, accepts ip (.updated task.ip fresh none) = false := by
        simp [accepts]
      rw [refused, Bool.toNat_false, Nat.add_zero]
      rfl
  | fit fits =>
      rename_i outcome stage
      cases outcome <;> rfl
  | @stop outcome => cases outcome <;> rfl
  | _ => rfl

/-- A map call of a check admits the connection exactly where it accepts it. -/
theorem countP_admits_check {s : FingerServer} (paired : s.Paired) (id : Nat)
    (reading : DateTime) (order : RateLimiter.IterOrder) (ip : IpAddr) :
    (s.step encodePart fromStr (.check id reading order)).2.tasks.countP (admits ip) =
      s.tasks.countP (admits ip) +
        (accepts ip (s.step encodePart fromStr (.check id reading order)).1).toNat := by
  rcases check_cases paired id reading order with
    same | ⟨task, phase, next, member, stage, decided, moves, -⟩
  · simp only [step, same]
    exact countP_admits_update { s with limiter := s.limiter } id fun _ => rfl
  · have counts := countP_modify (admits ip) s.tasks id
      (·.resume (s.limiter.step (.turn id reading order)).1)
    rw [member, Option.any_some, Option.any_some, Function.comp_apply,
      admits_resume moves decided] at counts
    simp only [step, update]
    omega

theorem admits_receive (config : ServerConfig) (chunk : Bytes) (ip : IpAddr) (task : ServeTask) :
    admits ip (task.receive config chunk) = admits ip task := by
  unfold ServeTask.receive
  split
  · dsimp only
    split_ifs <;> rfl
  · rfl

theorem admits_fetch (repo : ObjectStoreUserStore) (ip : IpAddr) (task : ServeTask) :
    admits ip (task.fetch encodePart fromStr repo) = admits ip task := by
  unfold ServeTask.fetch
  split
  · split
    · rfl
    · split_ifs <;> rfl
  · rfl
  · rfl

theorem admits_send (more : Nat) (ip : IpAddr) (task : ServeTask) :
    admits ip (task.send more) = admits ip task := by
  unfold ServeTask.send
  split <;> rfl

theorem admits_fail (err : Str) (ip : IpAddr) (task : ServeTask) :
    admits ip (task.fail err) = admits ip task := by
  unfold ServeTask.fail
  split <;> rfl

theorem countP_admits_step {s : FingerServer} (paired : s.Paired) (action : ServerAction)
    (ip : IpAddr) :
    (s.step encodePart fromStr action).2.tasks.countP (admits ip) =
      s.tasks.countP (admits ip) + (accepts ip (s.step encodePart fromStr action).1).toNat := by
  cases action with
  | accept other =>
      have silent : (s.limiter.step (.start s.tasks.length other)).1 = .silent := by
        simp only [RateLimiter.System.step]
        split_ifs <;> rfl
      simp only [step, silent, List.countP_append, List.countP_singleton, admits, reduceCtorEq,
        and_false, decide_false, Bool.false_eq_true, if_false, accepts, Bool.toNat_false]
  | check id reading order => exact countP_admits_check paired id reading order ip
  | receive id chunk => exact countP_admits_update s id (admits_receive s.config chunk ip)
  | fetch id => exact countP_admits_update s id (admits_fetch s.repository ip)
  | send id more => exact countP_admits_update s id (admits_send more ip)
  | fail id err => exact countP_admits_update s id (admits_fail err ip)
  | edit store => rfl

variable (encodePart fromStr) in
theorem history_append (config : ServerConfig) (store : ObjectStore)
    (front : List ServerAction) (action : ServerAction) :
    history encodePart fromStr config store (front ++ [action]) =
      history encodePart fromStr config store front ++
        [((after encodePart fromStr config store front).step encodePart fromStr action).1] := by
  simp only [history, Mealy.trace_append, List.map_append, Mealy.trace_cons, Mealy.trace_nil,
    List.map_cons, List.map_nil]

/-- The limiter's accounts agree with the events of a step of the server. -/
theorem accounts_step {s : FingerServer} {events : List RateLimiter.Event}
    (accounts : s.limiter.Accounts events) (action : ServerAction) :
    (s.step encodePart fromStr action).2.limiter.Accounts
      (events ++ [(s.step encodePart fromStr action).1]) := by
  have still : s.limiter.Accounts (events ++ [.silent]) :=
    accounts.of_sub rfl (fun _ _ found => found) fun _ _ => rfl
  cases action with
  | accept ip => exact accounts.step _
  | check id reading order => exact accounts.step _
  | _ => exact still

/-! ## Past the limiter -/

end FingerServer

/-- The task reads a request, or fetches what it asks for. -/
def Stage.served : Stage → Bool
  | .read _ | .fetchProfile _ | .fetchPlan .. => true
  | _ => false

namespace ServeTask

/-- The connection was refused, and what it is sent says so. -/
def Refused (task : ServeTask) (rest : Bytes) : Prop :=
  (∃ err, task.checked = some (.error err)) ∧ task.sent ++ rest = renderMessage rateLimitMessage

/-- A task beyond its check has been accepted, or is one that is refused. -/
def Cleared (task : ServeTask) : Prop :=
  match task.stage with
  | .check | .ended none => task.sent = []
  | .read _ | .fetchProfile _ | .fetchPlan .. => task.checked = some (.ok ())
  | .write rest => task.checked = some (.ok ()) ∨ task.Refused rest
  | .ended (some _) => task.checked = some (.ok ()) ∨ ∃ rest, task.Refused rest

variable {task : ServeTask}

theorem cleared_of_accepted (accepted : task.checked = some (.ok ()))
    (begun : task.stage ≠ .check ∧ task.stage ≠ .ended none) : task.Cleared := by
  unfold Cleared
  split
  · exact absurd (by assumption) begun.1
  · exact absurd (by assumption) begun.2
  · exact accepted
  · exact accepted
  · exact accepted
  · exact .inl accepted
  · exact .inl accepted

theorem Cleared.accepted (cleared : task.Cleared) (served : task.stage.served = true) :
    task.checked = some (.ok ()) := by
  obtain ⟨ip, checked, received, sent, stage⟩ := task
  cases stage with
  | read | fetchProfile | fetchPlan => exact cleared
  | _ => cases served

/-- A refused connection is sent the message that says so, or its beginning. -/
theorem Cleared.sent (cleared : task.Cleared) {err : RateLimitError}
    (refused : task.checked = some (.error err)) :
    task.sent <+: renderMessage rateLimitMessage := by
  have not : task.checked ≠ some (.ok ()) := by
    rw [refused]
    rintro ⟨⟩
  unfold Cleared at cleared
  split at cleared
  · exact cleared ▸ List.nil_prefix
  · exact cleared ▸ List.nil_prefix
  · exact absurd cleared not
  · exact absurd cleared not
  · exact absurd cleared not
  · exact ⟨_, (cleared.resolve_left not).2⟩
  · obtain ⟨rest, -, whole⟩ := cleared.resolve_left not
    exact ⟨rest, whole⟩

/-- The end of a check leaves the task as it was decided. -/
theorem Cleared.resume {limiter : RateLimiter.System} {phase : RateLimiter.Phase}
    {next : Option RateLimiter.Phase} {event : RateLimiter.Event} {entries : Entries}
    (cleared : task.Cleared) (waits : task.stage = .check)
    (decided : task.checked = FingerServer.decision phase)
    (moves : limiter.Moves task.ip phase event next entries) : (task.resume event).Cleared := by
  have unsent : task.sent = [] := by
    rw [Cleared, waits] at cleared
    exact cleared
  cases event with
  | silent => exact cleared
  | updated _ _ outcome =>
      cases outcome with
      | none => exact unsent
      | some outcome =>
          rw [ServeTask.resume, Cleared, waits]
          exact unsent
  | finished _ outcome =>
      cases outcome with
      | none => exact unsent
      | some outcome =>
          have known := decided.trans (FingerServer.decision_of_moves moves)
          cases outcome with
          | ok => exact known
          | error err => exact .inr ⟨⟨err, known⟩, congrArg (· ++ _) unsent⟩

theorem request_begun (config : ServerConfig) (parsed : Except Str Bytes) :
    request config parsed ≠ .check ∧ request config parsed ≠ .ended none := by
  unfold request
  split
  · exact ⟨nofun, nofun⟩
  · split
    · exact ⟨nofun, nofun⟩
    · split_ifs <;> exact ⟨nofun, nofun⟩

theorem Cleared.receive {config : ServerConfig} {chunk : Bytes} (cleared : task.Cleared) :
    (task.receive config chunk).Cleared := by
  obtain ⟨ip, checked, received, sent, stage⟩ := task
  cases stage with
  | read buffer =>
      simp only [ServeTask.receive]
      split_ifs
      · exact cleared_of_accepted cleared (request_begun config _)
      · exact cleared
  | _ => exact cleared

theorem Cleared.fetch {encodePart : Str → Str} {fromStr : Str → Except Toml.Error Toml.Document}
    {repo : ObjectStoreUserStore} (cleared : task.Cleared) :
    (task.fetch encodePart fromStr repo).Cleared := by
  obtain ⟨ip, checked, received, sent, stage⟩ := task
  cases stage with
  | fetchProfile query =>
      simp only [ServeTask.fetch]
      split
      · exact .inl cleared
      · split_ifs
        · exact cleared
        · exact .inl cleared
  | fetchPlan query profile => exact .inl cleared
  | _ => exact cleared

theorem Cleared.send {more : Nat} (cleared : task.Cleared) : (task.send more).Cleared := by
  obtain ⟨ip, checked, received, sent, stage⟩ := task
  cases stage with
  | write rest =>
      simp only [ServeTask.send]
      split_ifs with all
      · refine cleared.imp id fun ⟨refused, whole⟩ => ⟨[], refused, ?_⟩
        rw [List.append_nil, List.take_of_length_le all]
        exact whole
      · refine cleared.imp id fun ⟨refused, whole⟩ => ⟨refused, ?_⟩
        rw [List.append_assoc, List.take_append_drop]
        exact whole
  | _ => exact cleared

theorem Cleared.fail {err : Str} (cleared : task.Cleared) : (task.fail err).Cleared := by
  obtain ⟨ip, checked, received, sent, stage⟩ := task
  cases stage with
  | read buffer => exact .inl cleared
  | write rest => exact cleared.imp id fun refused => ⟨rest, refused⟩
  | _ => exact cleared

end ServeTask

namespace FingerServer

variable {encodePart : Str → Str} {fromStr : Str → Except Toml.Error Toml.Document}

theorem cleared_update {s : FingerServer} (cleared : ∀ task ∈ s.tasks, task.Cleared) (id : Nat)
    {move : ServeTask → ServeTask}
    (keeps : ∀ task, s.tasks[id]? = some task → task.Cleared → (move task).Cleared) :
    ∀ task ∈ (s.update id move).tasks, task.Cleared := by
  intro task listed
  obtain ⟨other, found⟩ := List.mem_iff_getElem?.mp listed
  rw [getElem?_update, Option.map_eq_some_iff] at found
  obtain ⟨before, member, same⟩ := found
  split_ifs at same with own
  · rw [← same]
    exact keeps before (own ▸ member) (cleared before (List.mem_of_getElem? member))
  · exact same ▸ cleared before (List.mem_of_getElem? member)

theorem cleared_step {s : FingerServer} (paired : s.Paired)
    (cleared : ∀ task ∈ s.tasks, task.Cleared) (action : ServerAction) :
    ∀ task ∈ (s.step encodePart fromStr action).2.tasks, task.Cleared := by
  cases action with
  | accept ip =>
      intro task listed
      rcases List.mem_append.mp listed with old | new
      · exact cleared task old
      · obtain rfl := List.mem_singleton.mp new
        exact rfl
  | check id reading order =>
      refine cleared_update (s := { s with limiter := _ }) cleared id
        fun task member before => ?_
      rcases check_cases paired id reading order with
        same | ⟨task', phase, next, member', stage, decided, moves, -⟩
      · rw [same]
        exact before
      · obtain rfl := Option.some.inj (member.symm.trans member')
        exact before.resume stage decided moves
  | receive id chunk => exact cleared_update cleared id fun _ _ before => before.receive
  | fetch id => exact cleared_update cleared id fun _ _ before => before.fetch
  | send id more => exact cleared_update cleared id fun _ _ before => before.send
  | fail id err => exact cleared_update cleared id fun _ _ before => before.fail
  | edit store => exact cleared

variable (encodePart fromStr) in
theorem cleared_after (config : ServerConfig) (store : ObjectStore)
    (schedule : List ServerAction) :
    ∀ task ∈ (after encodePart fromStr config store schedule).tasks, task.Cleared := by
  refine (Mealy.final_invariant (fun _ (s : FingerServer) =>
    s.Paired ∧ ∀ task ∈ s.tasks, task.Cleared)
    ⟨fun _ _ found => (by cases found), fun _ listed => (by cases listed)⟩ ?_).2
  intro front action back _ both
  exact ⟨both.1.step action, cleared_step both.1 both.2 action⟩

/-- In every interleaving, the checks the limiter accepts are the connections
past it, one for one, and no other is served: a refused one is sent the message
that says so.  A live entry counts those of its address since it was created or
last reset, at most `max_requests`. -/
theorem admissions_counted (config : ServerConfig) (store : ObjectStore)
    (schedule : List ServerAction) (ip : IpAddr) :
    let s := after encodePart fromStr config store schedule
    let events := history encodePart fromStr config store schedule
    events.countP (accepts ip) = s.tasks.countP (admits ip) ∧
      (∀ task ∈ s.tasks, (task.stage.served = true → task.checked = some (.ok ())) ∧
        ∀ err, task.checked = some (.error err) →
          task.sent <+: renderMessage rateLimitMessage) ∧
      ∀ entry, s.limiter.limiter.entries.lookup ip = some entry →
        entry.count.toNat = RateLimiter.System.acceptedSince ip events ∧
          entry.count ≤ config.rate.maxRequests := by
  intro s events
  have all : s.Paired ∧ s.limiter.limiter.settings = (RateLimiter.withClock config.rate).settings ∧
      events.countP (accepts ip) = s.tasks.countP (admits ip) ∧ s.limiter.Accounts events := by
    refine Mealy.final_invariant
      (fun front (s : FingerServer) => s.Paired ∧
        s.limiter.limiter.settings = (RateLimiter.withClock config.rate).settings ∧
        (history encodePart fromStr config store front).countP (accepts ip) =
          s.tasks.countP (admits ip) ∧
        s.limiter.Accounts (history encodePart fromStr config store front))
      ⟨fun _ _ found => (by cases found), rfl, rfl, fun _ _ found => (by cases found)⟩ ?_
    intro front action back _ before
    obtain ⟨paired, settings, counts, accounts⟩ := before
    rw [history_append]
    refine ⟨paired.step action, ?_, ?_, accounts_step accounts action⟩
    · rw [step_settings, settings]
    · rw [List.countP_append, counts, List.countP_singleton, countP_admits_step paired action ip]
      generalize accepts ip _ = accepted
      cases accepted <;> rfl
  obtain ⟨-, settings, counts, accounts⟩ := all
  have cleared := cleared_after encodePart fromStr config store schedule
  refine ⟨counts, fun task listed => ?_, fun entry found => ?_⟩
  · exact ⟨(cleared task listed).accepted, fun err refused => (cleared task listed).sent refused⟩
  have exact' := accounts ip entry found
  rwa [settings, RateLimiter.withClock_maxRequests] at exact'

end FingerServer

end Fingermouse
