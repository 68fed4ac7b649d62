import HerdrBoard.Core.Json
import HerdrBoard.Core.Protocol
import HerdrBoard.Daemon.Reconcile
import HerdrBoard.Lib.Utf8

/-!
# The event stream of a Herdr session

A subscription's connection: its lines are assembled from non-blocking reads, first for the
acknowledgement and then by each poll. -/

open Lib HerdrBoard.Core
open HerdrBoard.Daemon (AgentStatus)

namespace HerdrBoard.Events

/-! ## Lines -/

inductive HerdrEvent where
  | agentStatusChanged (paneId : String) (workspaceId : Option String) (status : AgentStatus)
      (agent : Option String)
  /-- `pane_exited` or `pane_closed`. -/
  | paneExited (paneId : String) (workspaceId : Option String)
  | other (value : Value)

structure StatusFields where
  paneId : Option String
  workspaceId : Option String
  agentStatus : Option AgentStatus
  agent : Option String

structure PaneFields where
  paneId : Option String
  workspaceId : Option String

structure ErrorBody where
  code : String
  message : String

structure Response where
  id : String
  result : Option Value
  error : Option ErrorBody

/-- The derived JSON decoders. -/
structure Serde where
  value : String → Option Value
  statusFields : Value → Option StatusFields
  paneFields : Value → Option PaneFields
  response : String → Option Response
  /-- Whether a result is a `subscription_started`. -/
  subscriptionStarted : Value → Bool

/-- The kind of an event: `data.type`, else the top-level `event`, with underscores. -/
def eventKind (value data : Value) : Option String :=
  (((data.get "type").bind Value.asStr) <|> (value.get "event").bind Value.asStr).map fun kind =>
    kind.map fun c => if c = '.' then '_' else c

/-- The body of an event: the nested `data` object, else the value itself. -/
def eventData (value : Value) : Value := ((value.get "data").filter Value.isObject).getD value

variable (serde : Serde)

def eventOfKind (value data : Value) : String → Option HerdrEvent
  | "pane_agent_status_changed" => do
      let f ← serde.statusFields data
      let paneId ← f.paneId
      pure (.agentStatusChanged paneId f.workspaceId (f.agentStatus.getD .unknown) f.agent)
  | "pane_exited" | "pane_closed" => do
      let f ← serde.paneFields data
      let paneId ← f.paneId
      pure (.paneExited paneId f.workspaceId)
  | _ => some (.other value)

/-- One raw line as an event; none for acknowledgements, errors and blank lines. -/
def parseEventLine (line : String) : Option HerdrEvent :=
  let line := trim line
  if line = "" then none
  else do
    let value ← serde.value line
    if (value.get "result").isSome || (value.get "error").isSome then none
    else do
      let data := eventData value
      let kind ← eventKind value data
      eventOfKind serde value data kind

/-! ## Reads -/

/-- What a socket delivers: each read gets one chunk, and after each of them the socket would block.
After the last chunk the peer has closed, or the socket blocks for good. -/
structure Source where
  chunks : List (List UInt8)
  closed : Bool

inductive ReadLine where
  | eof
  /-- `Ok(n)` of some bytes. -/
  | read
  | wouldBlock
  | invalidData
  deriving DecidableEq

/-- `read_line` into a text: the bytes it consumed are kept only when they are valid UTF-8. -/
def readLine (pending : String) (source : Source) : ReadLine × String × Source :=
  match source.chunks with
  | [] => (if source.closed then .eof else .wouldBlock, pending, source)
  | chunk :: chunks =>
      match takeLine chunk with
      | some (line, rest) =>
          match decodeUtf8 line with
          | some text => (.read, pending ++ text, { source with chunks := rest :: chunks })
          | none => (.invalidData, pending, { source with chunks := rest :: chunks })
      | none =>
          -- only the last chunk of a closed socket ends without a `WouldBlock`
          let atEnd := source.closed && chunks.isEmpty
          match decodeUtf8 chunk with
          | some text =>
              (if !atEnd then .wouldBlock else if chunk.isEmpty then .eof else .read,
                pending ++ text, { source with chunks })
          | none => (if atEnd then .invalidData else .wouldBlock, pending, { source with chunks })

/-- `ends_with('\n')`. -/
def endsLine (s : String) : Bool := s.toList.getLast? == some '\n'

/-! ## Polls -/

structure HerdrEvents where
  source : Source
  pending : String
  pendingEvents : List HerdrEvent

inductive StreamError where
  | disconnected
  | io
  | decode
  | deadline
  | protocol (code message : String)
  deriving DecidableEq

/-- One turn of `poll_event`: it returns, or goes to `next`, which asks for the deadline and the
socket's readiness. -/
def pollTurn (s : HerdrEvents)
    (next : HerdrEvents → Except StreamError (Option HerdrEvent) × HerdrEvents) :
    Except StreamError (Option HerdrEvent) × HerdrEvents :=
  let (outcome, pending, source) := readLine s.pending s.source
  match outcome with
  | .eof => (.error .disconnected, { s with pending, source })
  | .invalidData => (.error .io, { s with pending, source })
  | .wouldBlock => next { s with pending, source }
  | .read =>
      if endsLine pending then
        match parseEventLine serde pending with
        | some event => (.ok (some event), { s with pending := "", source })
        | none => next { s with pending := "", source }
      else next { s with pending, source }

/-- The loop of `poll_event`; `ready` is what the deadline and the socket's readiness answer
after each turn. -/
def pollLoop (s : HerdrEvents) : List Bool → Except StreamError (Option HerdrEvent) × HerdrEvents
  | true :: ready => pollTurn serde s fun s => pollLoop s ready
  | _ => pollTurn serde s fun s => (.ok none, s)

def pollEvent (s : HerdrEvents) (ready : List Bool) :
    Except StreamError (Option HerdrEvent) × HerdrEvents :=
  match s.pendingEvents with
  | event :: pendingEvents => (.ok (some event), { s with pendingEvents })
  | [] => pollLoop serde s ready

/-! ## The handshake -/

/-- What a complete line is to the handshake. -/
inductive AckLine where
  /-- Blank, or the response to another request. -/
  | skip
  | event (event : HerdrEvent)
  | failed (e : StreamError)
  | started

def ackLine (expectedId line : String) : AckLine :=
  if trim line = "" then .skip
  else match parseEventLine serde line with
    | some event => .event event
    | none =>
        match serde.response (trim line) with
        | none => .failed .decode
        | some response =>
            if response.id ≠ expectedId then .skip
            else match response.error with
              | some error => .failed (.protocol error.code error.message)
              | none => if serde.subscriptionStarted (response.result.getD .null) then .started
                  else .failed .decode

/-- One turn of `read_ack`, with its own partial line: it ends, skips a line, or asks for
the deadline. -/
def ackTurn (expectedId pending : String) (s : HerdrEvents)
    (skipped next : String → HerdrEvents → Except StreamError Unit × HerdrEvents) :
    Except StreamError Unit × HerdrEvents :=
  let (outcome, pending, source) := readLine pending s.source
  match outcome with
  | .eof => (.error .disconnected, { s with source })
  | .invalidData => (.error .io, { s with source })
  | .wouldBlock => next pending { s with source }
  | .read =>
      if endsLine pending then
        match ackLine serde expectedId pending with
        | .skip => skipped "" { s with source }
        | .event event => skipped "" { s with source, pendingEvents := s.pendingEvents ++ [event] }
        | .failed e => (.error e, { s with source })
        | .started => (.ok (), { s with source })
      else next pending { s with source }

/-- The loop of `read_ack`. A turn that skips a line goes on whatever `ready` holds for it. -/
def ackLoop (expectedId pending : String) (s : HerdrEvents) :
    List Bool → Except StreamError Unit × HerdrEvents
  | [] => ackTurn serde expectedId pending s (fun _ s => (.error .deadline, s)) fun _ s =>
      (.error .deadline, s)
  | goes :: ready =>
      ackTurn serde expectedId pending s (fun pending s => ackLoop expectedId pending s ready)
        fun pending s =>
        if goes then ackLoop expectedId pending s ready else (.error .deadline, s)

/-- Connect and subscribe. -/
def connect (source : Source) (ready : List Bool) : Except StreamError Unit × HerdrEvents :=
  ackLoop serde "subscribe" "" { source, pending := "", pendingEvents := [] } ready

/-- The results of polls one after another, and the stream after them. -/
def polls (s : HerdrEvents) :
    List (List Bool) → List (Except StreamError (Option HerdrEvent)) × HerdrEvents
  | [] => ([], s)
  | ready :: rest =>
      let (result, s) := pollEvent serde s ready
      let (results, s) := polls s rest
      (result :: results, s)

/-- The events among the results of polls. -/
def returned (results : List (Except StreamError (Option HerdrEvent))) : List HerdrEvent :=
  results.filterMap fun result => result.toOption.join

end HerdrBoard.Events
