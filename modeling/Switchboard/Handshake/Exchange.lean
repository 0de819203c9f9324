import Switchboard.Channel.Sink
import Switchboard.Handshake.Head
import Switchboard.Handshake.Request
import Switchboard.Transport

/-!
# The upgrade handshake

`grantUpgrade` is the server's side (`accept_upgrade`, and `accept_upgrade_at` where a path is
expected): it reads the head of a request, and either grants the upgrade or answers why not.
`seekUpgrade` is the agent's side (`dial_upgrade`). On success the connection carries raw bytes from
the byte after the head on.
-/

namespace Switchboard

structure RequestHead where
  method : String
  path : String
  headers : Headers
  deriving DecidableEq, Repr, Inhabited

inductive Answer where
  | switching
  | badRequest
  | notFound
  deriving DecidableEq, Repr

namespace Answer

def status : Answer → String
  | switching => "101 Switching Protocols"
  | badRequest => "400 Bad Request"
  | notFound => "404 Not Found"

def bytes (answer : Answer) : ByteArray :=
  s!"HTTP/1.1 {answer.status}\r\n\r\n".toUTF8

end Answer

def startsWith (start text : String) : Bool :=
  start.toList.isPrefixOf text.toList

/-- The method and the path of a request line (`parse_request_line`): the first two of at least
three words, the third of which names the protocol. -/
def parseRequestLine (line : String) : Except Fault (String × String) :=
  match (Text.words line.toList).map String.ofList with
  | method :: path :: version :: _ =>
    if startsWith "HTTP/1." version then .ok (method, path)
    else .error (.upgrade s!"malformed request line: {Text.quoted line}")
  | _ => .error (.upgrade s!"malformed request line: {Text.quoted line}")

/-- Accept the status line that a peer sent if it tells the switch of protocols. -/
def parseStatusLine (peer line : String) : Except Fault Unit :=
  if Text.contains ['1', '0', '1'] line.toList then .ok ()
  else .error (.upgrade s!"unexpected status line from {peer}: {Text.quoted line}")

/-- Why a request is not granted, and with which answer: it must ask for the raw protocol, and for
the path that is expected if one is. -/
def RequestHead.refusal? (head : RequestHead) (expected : Option String) :
    Option (Answer × String) :=
  let asksForUpgrade :=
    match Headers.find? head.headers "Upgrade" with
    | some value => Text.sameLetters value "tcp"
    | none => false
  if !asksForUpgrade then some (.badRequest, "did not ask for Upgrade: tcp")
  else
    match expected with
    | some path =>
      if head.path = path then none
      else some (.notFound, s!"targeted unknown path {head.path}")
    | none => none

inductive HandshakeResult (α : Type) where
  | done (value : α)
  | failed (fault : Fault)
  /-- It does not end: the peer is silent. -/
  | waiting
  deriving Inhabited

structure Connection where
  source : Source
  sink : Sink

namespace Connection

/-- Write all bytes and flush; the failure, if any. -/
def send (data : ByteArray) (c : Connection) : Option IoFault × Connection :=
  match c.sink.writeAll data with
  | (some fault, sink) => (some fault, { c with sink })
  | (none, sink) =>
    let (fault, sink) := sink.flush
    (fault, { c with sink })

/-- The server's side of the handshake with `peer` (`accept_upgrade`, `accept_upgrade_at`). A
refusal is answered as well as can be, and the connection is then shut down. -/
def grantUpgrade (peer : String) (expected : Option String) (c : Connection) :
    HandshakeResult RequestHead × Connection :=
  match readHead parseRequestLine c.source with
  | (.waiting, source) => (.waiting, { c with source })
  | (.failed fault, source) => (.failed fault, { c with source })
  | (.done (method, path) headers, source) =>
    let c := { c with source }
    let head : RequestHead := ⟨method, path, headers⟩
    match head.refusal? expected with
    | some (answer, reason) =>
      let sink := (c.sink.writeAll answer.bytes).2.shutdown
      (.failed (.upgrade s!"request from {peer} {reason}"), { c with sink })
    | none =>
      match c.send Answer.switching.bytes with
      | (some fault, c) => (.failed (.transport fault), c)
      | (none, c) => (.done head, c)

/-- The agent's side of the handshake with `peer` (`dial_upgrade`). -/
def seekUpgrade (peer : String) (request : UpgradeRequest) (c : Connection) :
    HandshakeResult Unit × Connection :=
  match request.head with
  | .error fault => (.failed fault, c)
  | .ok head =>
    match c.send head.toUTF8 with
    | (some fault, c) => (.failed (.transport fault), c)
    | (none, c) =>
      match readHead (parseStatusLine peer) c.source with
      | (.waiting, source) => (.waiting, { c with source })
      | (.failed fault, source) => (.failed fault, { c with source })
      | (.done _ _, source) => (.done (), { c with source })

end Connection

inductive Exhausted where
  | ended
  | waiting
  | fault (fault : IoFault)

/-- Read a source to its end: the bytes, and why there are no more. A read that was interrupted is
tried again. -/
def Source.drain (source : Source) : ByteArray × Exhausted :=
  go ByteArray.empty source.arrivals
where
  go (data : ByteArray) : List Arrival → ByteArray × Exhausted
    | [] => (data, if source.silent then .waiting else .ended)
    | .bytes more :: later => go (data ++ more) later
    | .fault .interrupted :: later => go data later
    | .fault kind :: _ => (data, .fault (.bare kind))

end Switchboard
