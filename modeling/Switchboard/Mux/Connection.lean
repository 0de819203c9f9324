import Switchboard.Mux.Stream

/-!
# Multiplexed connections

One end of a byte channel that carries many streams, by the rules of yamux in its default
configuration. The side in the client role numbers the streams that it begins with odd numbers, the
other with even ones. There are at most 512 streams, and to ask for one more is a failure of the
connection. At most 256 that this side began may wait for the peer to acknowledge them; who wants
another one then waits as well.

`Connection.receive` is what a packet does to a connection. Bytes beyond the credit of their stream,
a stream that opens under a number of this side, or twice, or beyond the 512, and a pong that nobody
has asked for are a breach of the rules, which is answered with a goodbye. Packets of a stream that
is not known say nothing, for it may have been let go of here. A ping is answered with its own
number. A goodbye ends the connection.

`Connection.carry` is what an order of a stream does. `Connection.pump` is one move of the
connection between its two pipes: to send bytes, to take up an order, or to read. An answer to the
peer goes before packets of streams, and nothing is read while it waits; `hangUp` is the closing, at
which what waits to be sent goes before the goodbye.

Left out is that a connection sends pings of its own, to learn how long a round trip takes, and all
that a configuration other than the default could ask for.
-/

namespace Switchboard

/-- Which side of a connection a session plays. -/
inductive Role where
  | server
  | client
  deriving DecidableEq, Repr, Inhabited

def Role.name : Role → String
  | server => "Server"
  | client => "Client"

namespace Mux

/-- How many streams a connection carries at most. -/
def streamLimit : Nat := 512

/-- How many streams may wait for the peer to acknowledge them. -/
def backlogLimit : Nat := 256

/-- One end of a multiplexed connection. -/
structure Connection where
  role : Role
  /-- The number of the next stream that this side begins. -/
  nextStream : Nat
  ends : List StreamEnd := []
  /-- What the ends have asked for, oldest first. -/
  orders : List (Nat × Order) := []
  /-- Whether the connection takes orders. -/
  running : Bool := true
  /-- The rest of the packet that is being written. -/
  outbox : ByteArray := ByteArray.empty
  /-- The next packet of a stream. -/
  packet? : Option Packet := none
  /-- An answer to the peer, which goes before it. -/
  reply? : Option Packet := none
  /-- What has arrived of the next packet. -/
  incoming : Assembly := {}
  /-- Whether a new stream waits for an older one to be acknowledged. -/
  backlogged : Bool := false
  /-- Whether something happened since the connection was last at work. -/
  woken : Bool := true
  deriving Inhabited

inductive Outbound where
  | stream (id : Nat)
  /-- Too many streams wait to be acknowledged. -/
  | later
  | failed (fault : MuxFault)

inductive Pumped where
  | moved
  /-- The peer began a stream. -/
  | arrived (id : Nat)
  /-- There is nothing to do. -/
  | idle
  | failed (fault : MuxFault)

def updateEnd (id : Nat) (f : StreamEnd → α × StreamEnd) :
    List StreamEnd → Option α × List StreamEnd
  | [] => (none, [])
  | e :: rest =>
    if e.id = id then
      let (a, e) := f e
      (some a, e :: rest)
    else
      let (a, rest) := updateEnd id f rest
      (a, e :: rest)

namespace Connection

def ofRole (role : Role) : Connection :=
  { role, nextStream := match role with
      | .client => 1
      | .server => 2 }

/-- Whether the numbers of the streams that a role begins include one. -/
def numbers (role : Role) (id : Nat) : Bool :=
  match role with
  | .client => id % 2 = 1
  | .server => id % 2 = 0

def isOwn (c : Connection) (id : Nat) : Bool :=
  numbers c.role id

def known (c : Connection) : List StreamEnd :=
  c.ends.filter (·.known)

def find? (c : Connection) (id : Nat) : Option StreamEnd :=
  c.known.find? (·.id = id)

def modify (id : Nat) (f : StreamEnd → StreamEnd) (c : Connection) : Connection :=
  { c with ends := c.ends.map fun e => if e.id = id && e.known then f e else e }

/-! ## What the holder of an end does -/

/-- Do something to an end and pass its order on. -/
def act (id : Nat) (f : Bool → StreamEnd → Ready α × StreamEnd × Option Order)
    (c : Connection) :
    Ready α × Connection :=
  let running := c.running
  let ends := c.ends
  let c := { c with ends := [] }
  let (result, ends) := updateEnd id (fun e =>
    let (result, e, order) := f running e
    ((result, order), e)) ends
  match result with
  | none => (.failed StreamEnd.writeFault, { c with ends })
  | some (result, none) => (result, { c with ends })
  | some (result, some order) =>
    (result, { c with ends, orders := c.orders ++ [(id, order)], woken := true })

def read (id room : Nat) (c : Connection) : Ready ByteArray × Connection :=
  c.act id fun running e => e.read room running

def write (id : Nat) (data : ByteArray) (start : Nat) (c : Connection) : Ready Nat × Connection :=
  c.act id fun running e => e.write data start running

def finish (id : Nat) (c : Connection) : Ready Unit × Connection :=
  c.act id fun running e => e.finish running

/-- Let go of a stream. A connection that runs is told; one that does not forgets it at once. -/
def drop (id : Nat) (c : Connection) : Connection :=
  if c.running then
    { c with
      ends := c.ends.map fun e => if e.id = id then { e with held := false } else e
      orders := c.orders ++ [(id, .release)]
      woken := true }
  else { c with ends := c.ends.filter (·.id ≠ id) }

/-! ## New streams -/

def backlog (c : Connection) : Nat :=
  (c.known.filter fun e => c.isOwn e.id && e.isPending).length

def begin? (c : Connection) : Outbound × Connection :=
  if streamLimit ≤ c.known.length then (.failed .tooManyStreams, c)
  else if backlogLimit ≤ c.backlog then (.later, { c with backlogged := true })
  else if 2 ^ 32 ≤ c.nextStream then (.failed .noMoreStreamIds, c)
  else
    let id := c.nextStream
    (.stream id, { c with
      ends := c.ends ++ [{ id, announcement := .opens }]
      nextStream := id + 2 })

/-! ## Packets of the peer -/

/-- The stream that a packet begins. -/
def arriving (p : Packet) : StreamEnd :=
  let e : StreamEnd := { id := p.stream, announcement := .acknowledges }
  let e := match p.kind with
    | .data => e.receive p.body
    | _ => { e with sendCredit := e.sendCredit + p.number }
  if p.marks.ends then e.moved .heardAll else e

/-- The reason for which a packet that begins a stream is refused. -/
def refusal? (c : Connection) (p : Packet) : Option Nat :=
  if c.isOwn p.stream then some 1
  else if p.kind = .data && initialCredit < p.body.size then some 1
  else if (c.find? p.stream).isSome then some 1
  else if c.known.length = streamLimit then some (if p.kind = .data then 2 else 1)
  else none

/-- What a packet of a stream that was begun before does to its end. -/
def heard (p : Packet) (e : StreamEnd) : StreamEnd :=
  let e := match p.kind with
    | .data => e.receive p.body
    | _ => { e with sendCredit := e.sendCredit + p.number }
  if p.marks.ends then e.moved .heardAll else e

def receiveStream (p : Packet) (c : Connection) : Connection × Option Nat :=
  if p.marks.resets then (c.modify p.stream (·.moved .ended), none)
  else if p.marks.opens then
    match c.refusal? p with
    | some reason => ({ c with reply? := some (.goodbye reason) }, none)
    | none => ({ c with ends := c.ends ++ [arriving p] }, some p.stream)
  else
    match c.find? p.stream with
    | none => (c, none)
    | some e =>
      if p.kind = .data && e.receiveCredit < p.body.size then
        ({ c with reply? := some (.goodbye 1) }, none)
      else (c.modify p.stream (heard p), none)

/-- Take in a packet: how the connection fails of it, or the connection after it and the stream
that it began. -/
def receive (p : Packet) (c : Connection) : Except MuxFault (Connection × Option Nat) :=
  let c :=
    if p.marks.acknowledges && (p.kind = .data || p.kind = .window) then
      let c := c.modify p.stream (·.moved (.flowing true))
      if c.backlogged then { c with backlogged := false, woken := true } else c
    else c
  match p.kind with
  | .goodbye => .error .closed
  | .ping =>
    if p.marks.acknowledges then .ok ({ c with reply? := some (.goodbye 1) }, none)
    else if p.stream = 0 || (c.find? p.stream).isSome then
      let reply : Packet := { kind := .ping, marks := { acknowledges := true }, number := p.number }
      .ok ({ c with reply? := some reply }, none)
    else .ok (c, none)
  | .data | .window => .ok (c.receiveStream p)

/-! ## Orders of the streams -/

/-- The packet that tells the peer that a stream was let go of. -/
def parting? (e : StreamEnd) : Option Packet :=
  match e.phase with
  | .flowing _ => some (.data e.id { resets := true } .empty)
  | .heardAll => some (.data e.id { ends := true } .empty)
  | .saidAll =>
    if e.receiveCredit = 0 then some (.data e.id { resets := true } .empty) else none
  | .ended => none

def Order.packet? (id : Nat) : Order → Option Packet
  | .send packet => some packet
  | .finish acknowledge => some (.data id { acknowledges := acknowledge, ends := true } .empty)
  | .release => none

def carry (id : Nat) (order : Order) (c : Connection) : Connection :=
  match order with
  | .release =>
    { c with
      packet? := (c.find? id).bind parting?
      ends := c.ends.filter (·.id ≠ id) }
  | order =>
    let c := { c with packet? := Order.packet? id order }
    c.modify id fun e => { e with outstanding := e.outstanding - 1 }

/-! ## Moves -/

/-- Begin to write a packet that waits, if any and if the last one is written. -/
def load (c : Connection) : Option Connection :=
  match c.reply?, c.packet? with
  | some p, _ => some { c with reply? := none, outbox := p.encode }
  | none, some p => some { c with packet? := none, outbox := p.encode }
  | none, none => none

/-- Take up the oldest order, if no packet of a stream waits. -/
def takeUp (c : Connection) : Option Connection :=
  match c.packet?, c.orders with
  | none, (id, order) :: orders => some ({ c with orders }.carry id order)
  | _, _ => none

def listen (c : Connection) (input : Pipe) : Pumped × Connection × Pipe :=
  if c.reply?.isSome then (.idle, c, input)
  else
    match input.read c.incoming.wanted with
    | (.later, input) => (.idle, c, input)
    | (.failed fault, input) => (.failed (.io fault), c, input)
    | (.now bytes, input) =>
      if bytes.size = 0 then (.failed c.incoming.ended, c, input)
      else
        match c.incoming.feed bytes with
        | .error fault => (.failed fault, c, input)
        | .ok (none, incoming) => (.moved, { c with incoming }, input)
        | .ok (some p, incoming) =>
          match { c with incoming }.receive p with
          | .error fault => (.failed fault, c, input)
          | .ok (c, none) => (.moved, c, input)
          | .ok (c, some id) => (.arrived id, c, input)

/-- One move that needs no channel to write to: an order is taken up, or bytes are read. -/
def work (c : Connection) (input : Pipe) : Pumped × Connection × Pipe :=
  match c.takeUp with
  | some c => (.moved, c, input)
  | none => c.listen input

/-- One move. Bytes that wait go first, then answers to the peer, then packets of streams; the
orders of streams are taken up before anything is read. -/
def pump (c : Connection) (input output : Pipe) : Pumped × Connection × Pipe × Pipe :=
  if c.outbox.size = 0 then
    match c.load with
    | some c => (.moved, c, input, output)
    | none =>
      let (result, c, input) := c.work input
      (result, c, input, output)
  else
    match output.write c.outbox 0 with
    | (.failed fault, output) => (.failed (.io fault), c, input, output)
    | (.now n, output) =>
      (.moved, { c with outbox := c.outbox.extract n c.outbox.size }, input, output)
    | (.later, output) =>
      let (result, c, input) := c.work input
      (result, c, input, output)

/-- Whether a connection at rest has something to do. -/
def isReady (c : Connection) (input output : Pipe) : Bool :=
  c.woken || (c.reply?.isNone && input.isReadable) || (c.outbox.size ≠ 0 && output.isWritable)

/-! ## The end -/

/-- The connection once it has failed: every stream is over and nothing more is sent. -/
def fail (c : Connection) : Connection :=
  { c with
    ends := (c.ends.filter (·.held)).map fun e => { e.moved .ended with known := false }
    orders := [], packet? := none, reply? := none, outbox := .empty, running := false }

/-- The packets that a connection which closes has yet to send, the last of them a goodbye. -/
def farewell (c : Connection) : List Packet :=
  c.reply?.toList ++ c.packet?.toList ++
    c.orders.filterMap (fun (id, order) => Order.packet? id order) ++ [.goodbye 0]

/-- The connection once it closes: its streams are cut off, and what it has yet to send is in its
outbox. -/
def hangUp (c : Connection) : Connection :=
  { c with
    outbox := c.farewell.foldl (fun bytes p => bytes ++ p.encode) c.outbox
    ends := (c.ends.filter (·.held)).map fun e => { e with known := false }
    orders := [], packet? := none, reply? := none, running := false }

end Connection

end Mux

end Switchboard
