import CqlClient.Session.Client.Consume

/-!
Turns of the tasks of a client. In a turn a task goes as far as it can without waiting: the reader
takes all frames that have come, the writer all frames of its queue, and an operation goes on until
it has to wait for one of them or for the cursor of a result.
-/

namespace CqlClient.Client

/-- Ends the reading of frames, and with it all that waits for them. -/
def endReading (c : Client) (fault : TransportFault) : Client :=
  (c.closePool (.transport fault)).modifyConnection fun n => { n with reading := false }

/-- Hands the frames that have come completely to the operations that wait for them. -/
def readFrames : Nat → Client → Client
  | 0, c => c
  | fuel + 1, c =>
    match Envelope.next c.received, c.connection with
    | .incomplete, _ => if c.ended then c.endReading .closedByPeer else c
    | .malformed fault, _ => c.endReading (.malformed fault)
    | .frame e rest, some n =>
      let waiting := if e.stream < 0 then [] else c.waitingOn e.stream.toInt.toNat
      let n := { n with pool := (n.pool.complete e).2 }
      readFrames fuel ({ c with received := rest, connection := some n }.wakeAll waiting)
    | .frame .., none => c

def stopWriter (c : Client) (n : Connection) : Client :=
  let closing := c.operations.filterMap fun (id, stage) =>
    match stage with
    | .closing _ => some id
    | _ => none
  let c := { c with connection := some { n with writing := false, queue := [], senders := [] } }
  (c.wakeAll n.senders).wakeAll closing

/-- Writes all frames of the queue, waking an operation for each place that gets free. -/
def writeFrames (c : Client) (n : Connection) : Client :=
  let woken := n.senders.take n.queue.length
  let c := { c with
    sent := n.queue.reverse ++ c.sent
    connection := some { n with
      queue := []
      senders := n.senders.drop n.queue.length
      granted := n.granted + woken.length } }
  c.wakeAll woken

def writerTurn (c : Client) : Client :=
  match c.connection with
  | none => c
  | some n =>
    if !n.writing then c
    else if n.stopping then (c.stopWriter n).hangUp
    else if !n.queue.isEmpty then
      if c.deaf then
        let c := c.closePool (.transport .notReceived)
        c.stopWriter { n with pool := (c.connection.map (·.pool)).getD n.pool }
      else c.writeFrames n
    else if n.released then (c.stopWriter n).hangUp
    else c

def readerTurn (c : Client) : Client :=
  match c.connection with
  | some n => if n.reading then readFrames (c.received.length + 1) c else c
  | none => c

/-- Starts a statement on a keyspace. -/
def startKeyspace (c : Client) (id : OperationId) (statement : Except InvalidKeyspace String)
    (task : KeyspaceTask) : Client :=
  match statement with
  | .error e => c.endKeyspace id task (.error (.other (.invalidKeyspace e)))
  | .ok cql =>
    let source : PageSource := ⟨.text cql, .empty, c.config.queryOptions⟩
    c.call id (source.request none) source.options.tracing (.keyspace source task)

/-- Starts a statement, unless its values are refused. -/
def startStatement (c : Client) (id : OperationId) (statement : Statement)
    (values : Except BindFault BoundRow) (options : Option QueryOptions) : Client :=
  match values with
  | .error fault => c.finish id (.failed (.call (.invalid (.values fault))))
  | .ok values =>
    let source : PageSource := ⟨statement, values, options.getD c.config.queryOptions⟩
    c.call id (source.request none) source.options.tracing (.result source)

def startClosing (c : Client) (id : OperationId) : Client :=
  let c := (c.closePool .closed).modifyConnection fun n => { n with stopping := true }
  (c.wake .writer).proceed id (.closing .closed)

def start (c : Client) (id : OperationId) : Operation → Client
  | .query cql values options =>
    c.startStatement id (.text cql) (BoundRow.ofValues c.config.registry values) options
  | .execute p values options =>
    c.startStatement id (.prepared p) (BoundRow.bind c.config.registry values p.markers.types)
      options
  | .prepare cql => c.call id (.prepare cql) false (.prepare cql)
  | .useKeyspace name =>
    c.startKeyspace id (Keyspace.useStatement name) ⟨name, some .invalid, false⟩
  | .createKeyspace k => c.startKeyspace id k.statement ⟨k.name, none, false⟩
  | .dropKeyspace name ifExists =>
    c.startKeyspace id (Keyspace.dropStatement name ifExists) ⟨name, some .configError, false⟩
  | .close => c.startClosing id
  | .consume key consumer => c.take id key consumer

/-- Starts the tasks of a connection on what the exchange that opened it has found. -/
def establish (c : Client) (id : OperationId) (s : Supported) (rest : Bytes) : Client :=
  let connection : Connection := {
    pool := .new c.config.connection.maxStreams
    extensions := .ofSupported s
    sharding := Sharding.ofSupported? s
    queue := [], senders := [], granted := 0
    reading := true, writing := true, stopping := false, released := false }
  let c := { c with received := rest, connection := some connection }
  let c := (c.wake .reader).wake .writer
  match c.config.keyspace with
  | none =>
    c.finish id (.opened connection.sharding connection.extensions c.config.queryOptions)
  | some name => c.startKeyspace id (Keyspace.useStatement name) ⟨name, some .invalid, true⟩

def notOpened (c : Client) (id : OperationId) (fault : OpeningFault) : Client :=
  c.hangUp.finish id (.notOpened fault)

/-- Sends a frame before there is a connection. -/
def sendFirst (c : Client) (id : OperationId) (frame : Bytes) (h : Handshake) : Client :=
  if c.deaf then c.notOpened id (.transport .notReceived)
  else { c with sent := frame :: c.sent }.proceed id (.opening h)

def openingTurn (c : Client) (id : OperationId) (h : Handshake) : Client :=
  match h.step c.config.connection c.received c.ended with
  | .wait => c
  | .failed fault => c.notOpened id fault
  | .send frame next rest => { c with received := rest }.sendFirst id frame next
  | .opened s rest =>
    match c.config.connection.panic? with
    | some cause => { c with received := rest }.hangUp.finish id (.panicked cause)
    | none => c.establish id s rest

def operationTurn (c : Client) (id : OperationId) : Client :=
  match c.operations.lookup id with
  | none => c
  | some (.fresh operation) => c.start id operation
  | some (.opening h) => c.openingTurn id h
  | some (.taking key consumer) => c.take id key consumer
  | some (.holding key consumer) => c.serve id key consumer
  | some (.locking key consumer) =>
    if (c.results.lookup key).bind (·.holder) = some id then c.serve id key consumer else c
  | some (.queued stream frame goal) =>
    match c.connection with
    | none => c
    | some n =>
      if !n.writing then (c.leaveStream stream false).fail id goal (.call .closed)
      else if n.senders.contains id then c
      else (c.modifyConnection fun n => { n with granted := n.granted - 1 }).enqueue
        id stream frame goal
  | some (.waiting stream goal) =>
    match c.connection with
    | none => c
    | some n =>
      match n.pool.response stream with
      | (none, _) => c
      | (some result, pool) =>
        let c := c.modifyConnection fun n => { n with pool := pool.leave stream true }
        match readAnswer n c.config.depthLimit result with
        | .error fault => c.fail id goal fault
        | .ok response => c.settle id goal response
  | some (.closing outcome) =>
    if (c.connection.map (·.writing)).getD false then c
    else (c.modifyConnection fun n => { n with reading := false }).finish id outcome

def turn (c : Client) : Task → Client
  | .reader => c.readerTurn
  | .writer => c.writerTurn
  | .operation id => c.operationTurn id

end CqlClient.Client
