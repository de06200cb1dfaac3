import Fingermouse.Server

/-!
# Disclosure

What a connection lets its client learn about the stored records, for a server
wired to an object store.

* `connect_discloses`: a record is shown only if every gate is passed, and then
  it is all that is written; otherwise a fixed message is, or nothing.
* `connect_noninterference`: the reply depends on the objects of the requested
  user alone, on the plan only if it is asked for, and on none if the host is not
  served.
-/

namespace Fingermouse

open Text
open ObjectStoreUserStore (profileObject planObject)

namespace ConnectionHandler

/-! ## Replies -/

/-- A query on a served host whose record loads is answered with the rendering
of the record, any other with a message. -/
theorem buildResponse_cases (handler : ConnectionHandler) (query : FingerQuery)
    (host : HostName) :
    (handler.config.acceptsHost host = true ∧
      ∃ record, handler.store.loadUser query.username query.verbose = .ok record ∧
        handler.buildResponse query host =
          (record.profile.render query.verbose record.plan).asBytes) ∨
    ((handler.config.acceptsHost host = true →
        ∀ record, handler.store.loadUser query.username query.verbose ≠ .ok record) ∧
      ∃ message ∈ fixedMessages, handler.buildResponse query host = renderMessage message) := by
  have generic := genericError_mem_fixedMessages
  cases served : handler.config.acceptsHost host with
  | false =>
      refine .inr ⟨by simp, hostMismatch, by simp [fixedMessages], ?_⟩
      simp [buildResponse, served]
  | true =>
      cases loaded : handler.store.loadUser query.username query.verbose with
      | ok record =>
          exact .inl ⟨rfl, record, rfl, by simp [buildResponse, served, loaded]⟩
      | error err =>
          refine .inr ⟨by simp, ?_⟩
          cases err with
          | notFound =>
              refine ⟨userMissing, by simp [fixedMessages], ?_⟩
              simp [buildResponse, served, loaded]
          | parse err => exact ⟨genericError, generic, by simp [buildResponse, served, loaded]⟩
          | invalidPlanEncoding =>
              exact ⟨genericError, generic, by simp [buildResponse, served, loaded]⟩
          | storage source =>
              exact ⟨genericError, generic, by simp [buildResponse, served, loaded]⟩

/-- The query an input asks. -/
def Requests (handler : ConnectionHandler) (input : Bytes) (query : FingerQuery) : Prop :=
  ∃ rawRequest, handler.readRequest input = .ok rawRequest ∧
    Query.parse rawRequest = .ok query

/-- An input asks at most one query. -/
theorem Requests.unique {handler : ConnectionHandler} {input : Bytes} {query other : FingerQuery}
    (asked : handler.Requests input query) (asked' : handler.Requests input other) :
    query = other := by
  obtain ⟨raw, request, parsed⟩ := asked
  obtain ⟨raw', request', parsed'⟩ := asked'
  cases request.symm.trans request'
  cases parsed.symm.trans parsed'
  rfl

/-- The reply to a query that is read is the response built for it. -/
theorem reply_of_requests {handler : ConnectionHandler} {input : Bytes} {query : FingerQuery}
    (asked : handler.Requests input query) :
    handler.reply (.ok ()) input =
      .ok (handler.buildResponse query (handler.servedHost query)) := by
  obtain ⟨rawRequest, request, parsed⟩ := asked
  simp only [reply, request, parsed]

/-! ## Disclosure -/

section Wired

variable (encodePart : Str → Str) (fromStr : Str → Except Toml.Error Toml.Document)

/-- The handlers of a server run on an object store. -/
def wired (config : ServerConfig) (store : ObjectStore) : ConnectionHandler :=
  ⟨config, (ObjectStoreUserStore.new store config.profilePrefix config.planPrefix).userStore
    encodePart fromStr⟩

/-- The gates between a client and a record. -/
structure Discloses (config : ServerConfig) (store : ObjectStore) (checked : Outcome)
    (input : Bytes) (query : FingerQuery) (record : UserRecord) : Prop where
  admitted : checked = .ok ()
  sent : requestLine input ≠ []
  size : (requestLine input).length ≤ config.maxRequestBytes
  parsed : Query.parse (requestLine input) = .ok query
  served : query.host.getD config.defaultHost ∈ config.allowedHosts.items
  profile : (ObjectStoreUserStore.new store config.profilePrefix config.planPrefix).ProfileLoads
    encodePart fromStr query.username record.profile
  plan : (ObjectStoreUserStore.new store config.profilePrefix config.planPrefix).PlanLoads
    encodePart query.username query.verbose record.plan

/-- The request of an admitted client that is not read. -/
def Unreadable (config : ServerConfig) (checked : Outcome) (input : Bytes) : Prop :=
  checked = .ok () ∧
    (requestLine input = [] ∨ config.maxRequestBytes < (requestLine input).length)

variable {encodePart fromStr}

/-- The gates are those the code checks, in its order. -/
theorem discloses_iff {config : ServerConfig} {store : ObjectStore} {checked : Outcome}
    {input : Bytes} {query : FingerQuery} {record : UserRecord}
    (small : config.maxRequestBytes + 1 < 2 ^ 64) :
    Discloses encodePart fromStr config store checked input query record ↔
      checked = .ok () ∧ (wired encodePart fromStr config store).Requests input query ∧
        config.acceptsHost (query.host.getD config.defaultHost) = true ∧
        (wired encodePart fromStr config store).store.loadUser query.username query.verbose =
          .ok record := by
  have reads : ∀ raw, (wired encodePart fromStr config store).readRequest input = .ok raw ↔ _ :=
    fun raw => readRequest_eq_ok_iff small
  have loads : (wired encodePart fromStr config store).store.loadUser query.username
      query.verbose = .ok record ↔ _ :=
    ObjectStoreUserStore.loadUser_eq_ok_iff encodePart fromStr
  rw [loads, ServerConfig.acceptsHost_iff]
  constructor
  · intro gates
    exact ⟨gates.admitted, ⟨_, (reads _).mpr ⟨rfl, gates.sent, gates.size⟩, gates.parsed⟩,
      gates.served, gates.profile, gates.plan⟩
  · intro gates
    obtain ⟨admitted, ⟨raw, request, parsed⟩, served, profile, plan⟩ := gates
    obtain ⟨rfl, sent, size⟩ := (reads raw).mp request
    exact ⟨admitted, sent, size, parsed, served, profile, plan⟩

variable (encodePart fromStr) in
/-- A request is not read exactly where reading it fails. -/
theorem unreadable_iff {config : ServerConfig} {input : Bytes} (store : ObjectStore)
    (small : config.maxRequestBytes + 1 < 2 ^ 64) :
    Unreadable config (.ok ()) input ↔
      ∃ err, (wired encodePart fromStr config store).readRequest input = .error err := by
  have reads : ∀ raw, (wired encodePart fromStr config store).readRequest input = .ok raw ↔ _ :=
    fun raw => readRequest_eq_ok_iff small
  constructor
  · intro unreadable
    obtain ⟨-, unread⟩ := unreadable
    cases request : (wired encodePart fromStr config store).readRequest input with
    | error err => exact ⟨err, rfl⟩
    | ok raw =>
        obtain ⟨-, sent, size⟩ := (reads raw).mp request
        exact unread.elim (absurd · sent) (absurd size <| Nat.not_le_of_lt ·)
  · intro failure
    obtain ⟨err, failed⟩ := failure
    refine ⟨rfl, ?_⟩
    by_contra whole
    rw [not_or, not_lt] at whole
    cases failed.symm.trans ((reads _).mpr ⟨rfl, whole⟩)

theorem Unreadable.not_discloses {config : ServerConfig} {store : ObjectStore}
    {checked : Outcome} {input : Bytes} {query : FingerQuery} {record : UserRecord}
    (unread : Unreadable config checked input) :
    ¬Discloses encodePart fromStr config store checked input query record := by
  intro gates
  rcases unread.2 with empty | long
  · exact gates.sent empty
  · exact Nat.not_le_of_lt long gates.size

/-- What an admitted client gets whose request is read: the rendering of the
record behind all gates, or a message. -/
theorem reply_cases {config : ServerConfig} {store : ObjectStore} {input raw : Bytes}
    (small : config.maxRequestBytes + 1 < 2 ^ 64)
    (request : (wired encodePart fromStr config store).readRequest input = .ok raw) :
    (∃ query record,
      Discloses encodePart fromStr config store (.ok ()) input query record ∧
        (wired encodePart fromStr config store).reply (.ok ()) input =
          .ok (record.profile.render query.verbose record.plan).asBytes) ∨
    ((¬∃ query record,
        Discloses encodePart fromStr config store (.ok ()) input query record) ∧
      ∃ message ∈ fixedMessages, (wired encodePart fromStr config store).reply (.ok ()) input =
        .ok (renderMessage message)) := by
  simp only [discloses_iff small, true_and]
  cases parsed : Query.parse raw with
  | error err =>
      refine .inr ⟨?_, genericError, genericError_mem_fixedMessages,
        by simp only [reply, request, parsed]⟩
      intro disclosed
      obtain ⟨query, record, ⟨raw', request', parsed'⟩, -⟩ := disclosed
      cases request.symm.trans request'
      cases parsed.symm.trans parsed'
  | ok query =>
      have asked : (wired encodePart fromStr config store).Requests input query :=
        ⟨raw, request, parsed⟩
      have replied := reply_of_requests asked
      rcases buildResponse_cases (wired encodePart fromStr config store) query
          (query.host.getD config.defaultHost) with
        ⟨served, record, loaded, shown⟩ | ⟨refused, message, fixed, shown⟩
      · exact .inl ⟨query, record, ⟨asked, served, loaded⟩, replied.trans (congrArg _ shown)⟩
      · refine .inr ⟨?_, message, fixed, replied.trans (congrArg _ shown)⟩
        intro disclosed
        obtain ⟨query', record, asked', served, loaded⟩ := disclosed
        obtain rfl := asked.unique asked'
        exact refused served record loaded

/-- Whatever the limiter answers, the client sends and the store holds: either
all gates are passed, and the rendering of the record is written, with the plan
if and only if it was asked for, and nothing else; or they are not, and one of
the fixed messages is written, a single line, or nothing if the request is not
read. -/
theorem connect_discloses {cli : CliOptions} {config : ServerConfig}
    (built : ServerConfig.fromCli cli = .ok config) (store : ObjectStore) (checked : Outcome)
    (input : Bytes) :
    let written := ((wired encodePart fromStr config store).connect checked input).2.written
    (∃ query record, Discloses encodePart fromStr config store checked input query record ∧
      written = [(record.profile.render query.verbose record.plan).asBytes]) ∨
    ((¬∃ query record, Discloses encodePart fromStr config store checked input query record) ∧
      (Unreadable config checked input ∧ written = [] ∨
        ¬Unreadable config checked input ∧ ∃ message ∈ fixedMessages,
          written = [renderMessage message] ∧ IsWireLine (renderMessage message))) := by
  intro written
  have small : config.maxRequestBytes + 1 < 2 ^ 64 := by
    have limit := (ServerConfig.fromCli_maxRequestBytes built).2
    have value : ServerConfig.maxRequestBytesLimit = 4096 := rfl
    omega
  cases checked with
  | error err =>
      have fixed : rateLimitMessage ∈ fixedMessages := by simp [fixedMessages]
      refine .inr ⟨?_, .inr ⟨?_, rateLimitMessage, fixed, written_of_reply rfl,
        isWireLine_renderMessage fixed⟩⟩
      · intro disclosed
        obtain ⟨_, _, gates⟩ := disclosed
        cases gates.admitted
      · intro unread
        cases unread.1
  | ok admitted =>
      have unreadable : Unreadable config (.ok ()) input ↔ _ :=
        unreadable_iff encodePart fromStr store small
      cases request : (wired encodePart fromStr config store).readRequest input with
      | error err =>
          have unread := unreadable.mpr ⟨err, request⟩
          refine .inr ⟨?_, .inl ⟨unread, written_of_readRequest request⟩⟩
          intro disclosed
          obtain ⟨_, _, gates⟩ := disclosed
          exact unread.not_discloses gates
      | ok raw =>
          have whole : ¬Unreadable config (.ok ()) input := by
            intro unread
            obtain ⟨err, failed⟩ := unreadable.mp unread
            cases request.symm.trans failed
          rcases reply_cases small request with
            ⟨query, record, gates, replied⟩ | ⟨closed, message, fixed, replied⟩
          · exact .inl ⟨query, record, gates, written_of_reply replied⟩
          · exact .inr ⟨closed, .inr ⟨whole, message, fixed, written_of_reply replied,
              isWireLine_renderMessage fixed⟩⟩

end Wired

/-! ### A served record -/

section Served

open FingerProfile (alice plainDocument parserOf singleTable singleProfile)

/-- A store that holds one profile; the rest of it answers as given. -/
def aliceStore (rest : Except ObjectStoreError GetResult) : ObjectStore where
  get path :=
    if path = profileObject id "profiles".toList alice then .ok ⟨.ok (asBytes plainDocument)⟩
    else rest

theorem fetch_alice (rest : Except ObjectStoreError GetResult) :
    ((aliceStore rest).get (profileObject id "profiles".toList alice) >>= GetResult.bytes) =
      .ok (asBytes plainDocument) := by
  simp only [aliceStore, if_true]
  rfl

/-- The handlers over such a store. -/
def aliceHandler (rest : Except ObjectStoreError GetResult) : ConnectionHandler :=
  wired id (parserOf plainDocument (singleTable "full_name".toList "Alice Smith".toList))
    .ofDefault (aliceStore rest)

def aliceRecord : UserRecord := ⟨singleProfile "full_name".toList "Alice Smith".toList, none⟩

def aliceLine : Bytes := asBytes "alice\r\n".toList

theorem parse_aliceLine : Query.parse aliceLine = .ok ⟨alice, none, false⟩ := by decide

theorem requests_alice (rest : Except ObjectStoreError GetResult) :
    (aliceHandler rest).Requests aliceLine ⟨alice, none, false⟩ :=
  ⟨aliceLine, rfl, parse_aliceLine⟩

/-- The gates stand open to a query for the profile. -/
theorem connect_discloses_alice :
    ∃ query record,
      Discloses id
        (parserOf plainDocument (singleTable "full_name".toList "Alice Smith".toList))
        .ofDefault (aliceStore (.error .notFound)) (.ok ()) aliceLine query record ∧
      ((aliceHandler (.error .notFound)).connect (.ok ()) aliceLine).2.written =
        [(record.profile.render query.verbose record.plan).asBytes] := by
  refine (connect_discloses ServerConfig.fromCli_default (aliceStore (.error .notFound)) (.ok ())
    aliceLine).resolve_right fun closed => closed.1 ⟨⟨alice, none, false⟩, aliceRecord, ?_⟩
  refine (discloses_iff (by decide)).mpr ⟨rfl, requests_alice _, by decide,
    (ObjectStoreUserStore.loadUser_eq_ok_iff _ _).mpr
      ⟨(ObjectStoreUserStore.profileLoads_iff _ _).mpr ⟨asBytes plainDocument, ?_,
        FingerProfile.parse_single plainDocument "Alice Smith".toList (by decide)⟩, rfl⟩⟩
  rw [ObjectStoreUserStore.profilePath_new pathLaws_id]
  exact fetch_alice _

end Served

/-! ## Noninterference -/

section Wired

variable {encodePart : Str → Str} {fromStr : Str → Except Toml.Error Toml.Document}

/-- A record is the same in two stores that answer alike for the objects of its
user, and so is the response. -/
theorem buildResponse_congr (laws : PathLaws encodePart) {config : ServerConfig}
    {store other : ObjectStore} {query : FingerQuery} {host : HostName}
    (profile : config.acceptsHost host = true →
      store.SameAt other (profileObject encodePart config.profilePrefix query.username))
    (plan : config.acceptsHost host = true → query.verbose = true →
      store.SameAt other (planObject encodePart config.planPrefix query.username)) :
    (wired encodePart fromStr config store).buildResponse query host =
      (wired encodePart fromStr config other).buildResponse query host := by
  cases served : config.acceptsHost host with
  | false => simp [buildResponse, wired, served]
  | true =>
      have loads :=
        ObjectStoreUserStore.loadUser_congr fromStr laws (profile served) (plan served)
      simp only [buildResponse, wired, ObjectStoreUserStore.userStore, served, loads]

/-- A connection ends alike on two stores if the query it asks, if any, is
answered alike. -/
theorem connect_congr {config : ServerConfig} {store other : ObjectStore} {checked : Outcome}
    {input : Bytes}
    (same : ∀ query, (wired encodePart fromStr config store).Requests input query →
      (wired encodePart fromStr config store).buildResponse query
          (query.host.getD config.defaultHost) =
        (wired encodePart fromStr config other).buildResponse query
          (query.host.getD config.defaultHost)) :
    (wired encodePart fromStr config store).connect checked input =
      (wired encodePart fromStr config other).connect checked input := by
  have replies : (wired encodePart fromStr config store).reply checked input =
      (wired encodePart fromStr config other).reply checked input := by
    cases checked with
    | error err => rfl
    | ok admitted =>
        have reads : (wired encodePart fromStr config other).readRequest input =
          (wired encodePart fromStr config store).readRequest input := rfl
        simp only [reply, reads]
        cases request : (wired encodePart fromStr config store).readRequest input with
        | error err => rfl
        | ok raw =>
            cases parsed : Query.parse raw with
            | error err => simp only [parsed]
            | ok query =>
                simp only [parsed]
                exact congrArg Except.ok (same query ⟨raw, request, parsed⟩)
  rw [connect_eq, connect_eq, replies]

/-- What a client sees of two stores is the same if they answer alike for the
profile of the requested user and, if the plan is asked for, for its plan; if it
is not, they may differ in any plan; and if the request asks nothing or its host
is not served, they may differ in everything. -/
theorem connect_noninterference (laws : PathLaws encodePart) (config : ServerConfig)
    (store other : ObjectStore) (checked : Outcome) (input : Bytes) :
    let server := wired encodePart fromStr config
    (∀ query, (server store).Requests input query →
      store.SameAt other (profileObject encodePart config.profilePrefix query.username) →
      (query.verbose = true →
        store.SameAt other (planObject encodePart config.planPrefix query.username)) →
      (server store).connect checked input = (server other).connect checked input) ∧
    (∀ query, (server store).Requests input query → query.verbose = false →
      (∀ path, (∀ username, path ≠ planObject encodePart config.planPrefix username) →
        store.SameAt other path) →
      (server store).connect checked input = (server other).connect checked input) ∧
    ((∀ query, (server store).Requests input query →
        config.acceptsHost (query.host.getD config.defaultHost) = false) →
      (server store).connect checked input = (server other).connect checked input) := by
  intro server
  have records : ∀ query, (server store).Requests input query →
      store.SameAt other (profileObject encodePart config.profilePrefix query.username) →
      (query.verbose = true →
        store.SameAt other (planObject encodePart config.planPrefix query.username)) →
      (server store).connect checked input = (server other).connect checked input := by
    intro query asked profile plan
    refine connect_congr fun query' asked' => ?_
    obtain rfl := asked.unique asked'
    exact buildResponse_congr laws (fun _ => profile) fun _ => plan
  refine ⟨records, ?_, ?_⟩
  · intro query asked terse same
    refine records query asked (same _ fun username => ?_) fun verbose => ?_
    · exact ObjectStoreUserStore.profileObject_ne_planObject _ _ _ username
    · rw [terse] at verbose
      cases verbose
  · intro unserved
    refine connect_congr fun query asked => ?_
    have closed : config.acceptsHost (query.host.getD config.defaultHost) ≠ true := by
      rw [unserved query asked]
      exact Bool.false_ne_true
    exact buildResponse_congr laws (fun served => absurd served closed)
      fun served => absurd served closed

end Wired

/-- A store that holds the profile alone answers the query like one where every
object exists. -/
theorem connect_noninterference_alice :
    (aliceHandler (.error .notFound)).connect (.ok ()) aliceLine =
      (aliceHandler (.ok ⟨.ok []⟩)).connect (.ok ()) aliceLine := by
  refine (connect_noninterference pathLaws_id .ofDefault (aliceStore (.error .notFound))
    (aliceStore (.ok ⟨.ok []⟩)) (.ok ()) aliceLine).1 _ (requests_alice _) ?_ ?_
  · exact (fetch_alice _).trans (fetch_alice _).symm
  · intro verbose
    cases verbose

end ConnectionHandler

end Fingermouse
