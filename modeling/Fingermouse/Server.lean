import Fingermouse.Config
import Fingermouse.Query
import Fingermouse.Storage

/-!
# The server

A connection is checked against the rate limiter, its request line is read and
parsed, and the reply is written.  The limiter's answer is an argument, the user
store a field; the socket neither fails nor times out.

* `connect_eq`: a connection writes the one payload `reply` names, or nothing if
  the request could not be read.
* `readRequest_eq_ok_iff`: the request read is the line the client sent, if it is
  neither empty nor too long.
-/

namespace Fingermouse

open Text

/-! ## Connections -/

/-- A client connection: what the client sends, the payloads written to it, and
whether its writing half has been shut down. -/
structure TcpStream where
  input : Bytes
  written : List Bytes
  isShutdown : Bool
deriving DecidableEq

/-- A part of serving a connection; what it has written stays written when it
fails. -/
abbrev Connection := ExceptT Str (StateM TcpStream)

def Connection.on {α : Type} (part : Connection α) (stream : TcpStream) :
    Except Str α × TcpStream :=
  Id.run (part.run.run stream)

/-- A failed part ends the connection; otherwise the next part goes on from the
stream it left. -/
theorem Connection.on_bind {α β : Type} (part : Connection α) (next : α → Connection β)
    (stream : TcpStream) :
    Connection.on (part >>= next) stream =
      match Connection.on part stream with
      | (.ok a, after) => (next a).on after
      | (.error err, after) => (.error err, after) := by
  change Id.run ((part >>= next).run.run stream) = _
  rw [ExceptT.run_bind, StateT.run_bind]
  simp only [Connection.on]
  rcases part.run.run stream with ⟨outcome | a, after⟩ <;> rfl

namespace TcpStream

def accepted (input : Bytes) : TcpStream := ⟨input, [], false⟩

def writeAll (payload : Bytes) : Connection Unit :=
  modify fun stream => { stream with written := stream.written ++ [payload] }

def shutdown : Connection Unit := modify fun stream => { stream with isShutdown := true }

end TcpStream

/-- `read_until`: the bytes through the first delimiter, or to the end. -/
def readUntil (delimiter : UInt8) : Bytes → Bytes
  | [] => []
  | b :: bytes => if b = delimiter then [b] else b :: readUntil delimiter bytes

/-! ## Messages -/

def genericError : Str := "fingermouse: request refused".toList

def hostMismatch : Str := "fingermouse: host not served here".toList

def rateLimitMessage : Str := "fingermouse: slow down".toList

def userMissing : Str := "fingermouse: no matching record".toList

/-- The messages that stand in for a record. -/
def fixedMessages : List Str := [genericError, hostMismatch, rateLimitMessage, userMissing]

def renderMessage (message : Str) : Bytes := (CrlfBuffer.empty.pushLine message).intoBytes

theorem genericError_mem_fixedMessages : genericError ∈ fixedMessages := by simp [fixedMessages]

/-- Each of the messages is one line. -/
theorem isWireLine_renderMessage {message : Str} (fixed : message ∈ fixedMessages) :
    IsWireLine (renderMessage message) := by
  have printable : ∀ message ∈ fixedMessages, ∀ c ∈ message, isPrintable c = true := by decide
  exact isWireLine_frame (printable message fixed)

def writeResponse (message : Str) : Connection Unit :=
  TcpStream.writeAll (renderMessage message)

/-! ## Serving a connection -/

/-- What the task of a connection holds, but for the limiter. -/
structure ConnectionHandler where
  config : ServerConfig
  store : UserStore

namespace ConnectionHandler

/-- Whether the connection ends here, with the limiter's message. -/
def enforceRateLimit (checked : Outcome) : Connection Bool :=
  match checked with
  | .ok () => return false
  | .error (.limitExceeded _) => do
      writeResponse rateLimitMessage
      TcpStream.shutdown
      return true

/-- Read a request line of at most the configured size; one byte more is read to
tell whether it is longer. -/
def readRequest (handler : ConnectionHandler) (reader : Bytes) : Except Str Bytes :=
  let limit := (handler.config.maxRequestBytes + 1) % 2 ^ 64
  let buffer := readUntil 0x0a (reader.take limit)
  if buffer.length = 0 then .error "connection closed".toList
  else if handler.config.maxRequestBytes < buffer.length then .error "request too large".toList
  else .ok buffer

/-- The stream is read this once, so nothing is kept of what the reader leaves. -/
def readQuery (handler : ConnectionHandler) : Connection Bytes := do
  let stream ← get
  ExceptT.mk (pure (handler.readRequest stream.input))

def parseQuery (rawRequest : Bytes) : Connection (Option FingerQuery) :=
  match Query.parse rawRequest with
  | .ok query => return some query
  | .error _ => do
      writeResponse genericError
      return none

def buildResponse (handler : ConnectionHandler) (query : FingerQuery) (host : HostName) :
    Bytes :=
  let includePlan := query.verbose
  if !handler.config.acceptsHost host then renderMessage hostMismatch
  else
    match handler.store.loadUser query.username includePlan with
    | .ok { profile, plan } => (profile.render includePlan plan).asBytes
    | .error .notFound => renderMessage userMissing
    | .error .invalidPlanEncoding => renderMessage genericError
    | .error (.parse _) => renderMessage genericError
    | .error (.storage _) => renderMessage genericError

def respondToQuery (handler : ConnectionHandler) (query : FingerQuery) : Connection Unit := do
  let host := query.host.getD handler.config.defaultHost
  let payload := handler.buildResponse query host
  TcpStream.writeAll payload

def serve (handler : ConnectionHandler) (checked : Outcome) : Connection Unit := do
  if ← enforceRateLimit checked then
    return
  let rawRequest ← handler.readQuery
  if let some query ← parseQuery rawRequest then
    handler.respondToQuery query
  TcpStream.shutdown

/-- Serve a fresh connection. -/
def connect (handler : ConnectionHandler) (checked : Outcome) (input : Bytes) :
    Except Str Unit × TcpStream :=
  (handler.serve checked).on (.accepted input)

/-! ## One reply -/

/-- The host a query asks for. -/
def servedHost (handler : ConnectionHandler) (query : FingerQuery) : HostName :=
  query.host.getD handler.config.defaultHost

/-- The payload a connection is answered with, or the reason its request could
not be read. -/
def reply (handler : ConnectionHandler) (checked : Outcome) (input : Bytes) : Except Str Bytes :=
  match checked with
  | .error _ => .ok (renderMessage rateLimitMessage)
  | .ok () =>
      match handler.readRequest input with
      | .error err => .error err
      | .ok rawRequest =>
          match Query.parse rawRequest with
          | .error _ => .ok (renderMessage genericError)
          | .ok query => .ok (handler.buildResponse query (handler.servedHost query))

/-- A connection gets its reply as one payload and is shut down, or, if the
request could not be read, gets nothing. -/
theorem connect_eq (handler : ConnectionHandler) (checked : Outcome) (input : Bytes) :
    handler.connect checked input =
      match handler.reply checked input with
      | .ok payload => (.ok (), ⟨input, [payload], true⟩)
      | .error err => (.error err, .accepted input) := by
  cases checked with
  | error err => cases err; rfl
  | ok admitted =>
      have admits : (enforceRateLimit (.ok admitted)).on (.accepted input) =
        (.ok false, .accepted input) := rfl
      have reads : handler.readQuery.on (.accepted input) =
        (handler.readRequest input, .accepted input) := rfl
      simp only [connect, serve, reply, Connection.on_bind, admits, Bool.false_eq_true,
        if_false, reads]
      cases handler.readRequest input with
      | error err => rfl
      | ok rawRequest =>
          cases parsed : Query.parse rawRequest with
          | error err => simp only [parseQuery, parsed]; rfl
          | ok query => simp only [parseQuery, parsed]; rfl

theorem written_of_reply {handler : ConnectionHandler} {checked : Outcome} {input payload : Bytes}
    (replied : handler.reply checked input = .ok payload) :
    (handler.connect checked input).2.written = [payload] := by
  rw [connect_eq, replied]

theorem written_of_readRequest {handler : ConnectionHandler} {input : Bytes} {err : Str}
    (request : handler.readRequest input = .error err) :
    (handler.connect (.ok ()) input).2.written = [] := by
  have failed : handler.reply (.ok ()) input = .error err := by simp only [reply, request]
  rw [connect_eq, failed]
  rfl

/-! ## The request line -/

theorem readUntil_take (delimiter : UInt8) (n : Nat) (bytes : Bytes) :
    readUntil delimiter (bytes.take n) = (readUntil delimiter bytes).take n := by
  induction bytes generalizing n with
  | nil => simp [readUntil]
  | cons b bytes ih =>
      cases n with
      | zero => simp [readUntil]
      | succ n =>
          by_cases stops : b = delimiter
          · simp [readUntil, stops]
          · simp [readUntil, stops, ih]

/-- What the client sends through its first line feed. -/
def requestLine (input : Bytes) : Bytes := readUntil 0x0a input

/-- The request read is the whole line, provided it is neither empty nor too
long: the extra byte of the limit is enough to tell. -/
theorem readRequest_eq_ok_iff {handler : ConnectionHandler} {input raw : Bytes}
    (small : handler.config.maxRequestBytes + 1 < 2 ^ 64) :
    handler.readRequest input = .ok raw ↔
      raw = requestLine input ∧ requestLine input ≠ [] ∧
        (requestLine input).length ≤ handler.config.maxRequestBytes := by
  simp only [readRequest, Nat.mod_eq_of_lt small, readUntil_take, requestLine]
  generalize readUntil 0x0a input = line
  have size := List.length_take (i := handler.config.maxRequestBytes + 1) (l := line)
  simp only [← List.length_eq_zero_iff, ne_eq]
  split_ifs with closed large
  · simp only [false_iff]
    omega
  · simp only [false_iff]
    omega
  · have whole : line.take (handler.config.maxRequestBytes + 1) = line :=
      List.take_of_length_le (by omega)
    rw [whole] at closed large ⊢
    simp only [Except.ok.injEq]
    constructor
    · exact fun same => ⟨same.symm, closed, by omega⟩
    · exact fun same => same.1.symm

end ConnectionHandler

end Fingermouse
