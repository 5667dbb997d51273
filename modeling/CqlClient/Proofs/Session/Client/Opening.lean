import CqlClient.Proofs.Session.Client.FirstUse

/-!
# A client that opens a session

From its first frame on, a client that opens a session is in one of seven phases: it exchanges
requests and answers, was refused, has given up for its configuration, waits for the answer to its
first request, closes its connection, could not use its keyspace, or has opened. `Phase` says of
each what was sent and read, what callers see, and which tasks are awake; tasks are awake that are
ready or that have their turn.

* `Linked`: what is sent on a connection and read of it is the exchange, and then the request for
  the keyspace at most;
* `Serves` and `Advances`: what a turn may do to the tasks and to what is ahead of the operation;
* `Linked.readerTurn`: the reader, when nobody waits for what it reads.
-/

namespace CqlClient

/-- What a connection has exchanged with the other side. -/
structure Link where
  supported : Supported
  /-- The bytes behind the exchange that opened the connection. -/
  after : Bytes
  /-- The envelopes that the connection has read of these bytes. -/
  read : List Envelope
  /-- The frames sent after those of the exchange, the last one first. -/
  sent : List Bytes

/-- More turns than an operation that opens a session takes from here on, each with those of the
tasks that it wakes. -/
def Stage.ahead : Stage → Nat
  | .opening .asked => 32
  | .opening (.starting _) => 24
  | .waiting .. => 16
  | .closing _ => 8
  | _ => 0

namespace Client

/-! ## Phases -/

variable {config : SessionConfig} {id : OperationId} {came : Bytes} {awake awake' : Task → Prop}
  {c c' : Client} {n n' : Connection} {link : Link} {name : String} {frame : Bytes}

/-- The connection is there, and no request was made on it but the one for the keyspace. -/
structure Linked (config : SessionConfig) (came : Bytes) (c : Client) (n : Connection)
    (link : Link) : Prop where
  setup : c.config = config
  connection : c.connection = some n
  exchange : ∃ first, c.sent = link.sent ++ first ∧
    Handshake.Greeted config.connection came first link.supported link.after
  fits : config.connection.Fits
  read : Envelope.Framed link.after link.read c.received
  requests : (link.sent ++ n.queue).length ≤ 1
  uses : ∀ frame ∈ link.sent ++ n.queue, IsUse config frame
  senders : n.senders = []
  extensions : Extensions.Recognised link.supported n.extensions
  sharding : n.sharding = Sharding.ofSupported? link.supported

/-- The operation is in the exchange that opens the connection. -/
structure Exchanging (config : SessionConfig) (id : OperationId) (came : Bytes)
    (awake : Task → Prop) (c : Client) (h : Handshake) : Prop where
  setup : c.config = config
  operations : c.operations = [(id, .opening h)]
  connection : c.connection = none
  isOpen : c.isOpen = false
  finished : c.finished = []
  reached : Handshake.Reached config.connection came c.sent h c.received
  waits : awake (.operation id) ∨ (Envelope.next c.received = .incomplete ∧ c.ended = false)

/-- The exchange has failed. -/
structure Refused (config : SessionConfig) (id : OperationId) (came : Bytes) (c : Client) :
    Prop where
  setup : c.config = config
  operations : c.operations = []
  connection : c.connection = none
  isOpen : c.isOpen = false
  outcome : ∃ fault, c.finished = [(id, .notOpened fault)] ∧
    Handshake.Ended config.connection came c.ended c.deaf c.sent fault
  hungUp : c.hungUp = true ∨ c.deaf = true

/-- The server is ready, but no connection can be set up with the configuration. -/
structure Panicked (config : SessionConfig) (id : OperationId) (came : Bytes) (c : Client) :
    Prop where
  setup : c.config = config
  operations : c.operations = []
  connection : c.connection = none
  isOpen : c.isOpen = false
  exchange : ∃ s, Handshake.Greeted config.connection came c.sent s c.received
  outcome : ∃ cause, c.finished = [(id, .panicked cause)] ∧ config.connection.Unfit cause
  hungUp : c.hungUp = true ∨ c.deaf = true

/-- The operation waits for the answer to its request for the keyspace. -/
structure Asking (config : SessionConfig) (id : OperationId) (came : Bytes) (awake : Task → Prop)
    (c : Client) (n : Connection) (link : Link) (name : String) (frame : Bytes) : Prop where
  linked : Linked config came c n link
  use : FirstUse config name frame
  operations : c.operations = [(id, .waiting 0 (.keyspace (config.useSource name) (.first name)))]
  isOpen : c.isOpen = false
  finished : c.finished = []
  stopping : n.stopping = false
  released : n.released = false
  reading : n.reading = true ∨ n.pool.closed = true
  answer : (n.pool.slot 0 = .waiting ∧ n.pool.closed = false ∧ ∀ e ∈ link.read, e.stream ≠ 0) ∨
    ∃ result, n.pool.slot 0 = .completed result ∧
      Answering link.read c.received c.ended c.deaf result ∧ awake (.operation id)
  reader : n.reading = true →
    awake .reader ∨ (Envelope.next c.received = .incomplete ∧ c.ended = false)
  writer : (n.writing = true ∧ link.sent ++ n.queue = [frame] ∧ (n.queue = [] ∨ awake .writer)) ∨
    (n.writing = false ∧ n.pool.closed = true ∧ c.deaf = true)

/-- The keyspace cannot be used, and the connection is being closed. -/
structure Closing (config : SessionConfig) (id : OperationId) (came : Bytes) (awake : Task → Prop)
    (c : Client) (n : Connection) (link : Link) (fault : KeyspaceFault) : Prop where
  linked : Linked config came c n link
  fails : UseFails config n.extensions link.after c.ended c.deaf fault
  operations : c.operations = [(id, .closing (.notOpened (.keyspace fault)))]
  isOpen : c.isOpen = false
  finished : c.finished = []
  closed : n.pool.closed = true
  stopping : n.stopping = true
  released : n.released = false
  writer : (n.writing = true ∧ awake .writer) ∨
    (n.writing = false ∧ awake (.operation id) ∧ (c.hungUp = true ∨ c.deaf = true))

/-- The keyspace cannot be used, and the connection is closed. -/
structure NotOpened (config : SessionConfig) (id : OperationId) (came : Bytes) (c : Client)
    (n : Connection) (link : Link) : Prop where
  linked : Linked config came c n link
  outcome : ∃ fault, c.finished = [(id, .notOpened (.keyspace fault))] ∧
    UseFails config n.extensions link.after c.ended c.deaf fault
  operations : c.operations = []
  isOpen : c.isOpen = false
  closed : n.pool.closed = true
  writing : n.writing = false
  reading : n.reading = false
  hungUp : c.hungUp = true ∨ c.deaf = true

/-- The session has opened. -/
structure Opened (config : SessionConfig) (id : OperationId) (came : Bytes) (c : Client)
    (n : Connection) (link : Link) : Prop where
  linked : Linked config came c n link
  done : UseDone config n.extensions link.after
  operations : c.operations = []
  isOpen : c.isOpen = true
  finished : c.finished = [(id, .opened n.sharding n.extensions config.queryOptions)]
  stopping : n.stopping = false
  released : n.released = false

inductive Phase (config : SessionConfig) (id : OperationId) (came : Bytes) (awake : Task → Prop)
    (c : Client) : Prop
  | exchanging {h : Handshake} (phase : Exchanging config id came awake c h)
  | refused (phase : Refused config id came c)
  | panicked (phase : Panicked config id came c)
  | asking {n : Connection} {link : Link} {name : String} {frame : Bytes}
    (phase : Asking config id came awake c n link name frame)
  | closing {n : Connection} {link : Link} {fault : KeyspaceFault}
    (phase : Closing config id came awake c n link fault)
  | notOpened {n : Connection} {link : Link} (phase : NotOpened config id came c n link)
  | opened {n : Connection} {link : Link} (phase : Opened config id came c n link)

/-! ## Connections -/

namespace Linked

/-- Only the queue of a connection tells what was asked. -/
theorem keep (h : Linked config came c n link) {read : List Envelope}
    (hread : Envelope.Framed link.after read c'.received) (hsetup : c'.config = c.config)
    (hconnection : c'.connection = some n') (hsent : c'.sent = c.sent)
    (hqueue : n'.queue = n.queue ∨ n'.queue = []) (hsenders : n'.senders = n.senders)
    (hextensions : n'.extensions = n.extensions) (hsharding : n'.sharding = n.sharding) :
    Linked config came c' n' { link with read } where
  setup := hsetup.trans h.setup
  connection := hconnection
  exchange := by
    rw [hsent]
    exact h.exchange
  fits := h.fits
  read := hread
  requests := by
    have hrequests := h.requests
    rcases hqueue with hqueue | hqueue <;>
      simp only [hqueue, List.length_append, List.length_nil] at * <;> omega
  uses := fun frame hframe => by
    rcases hqueue with hqueue | hqueue
    · exact h.uses frame (hqueue ▸ hframe)
    · rw [hqueue, List.append_nil] at hframe
      exact h.uses frame (List.mem_append_left _ hframe)
  senders := hsenders.trans h.senders
  extensions := hextensions ▸ h.extensions
  sharding := hsharding.trans h.sharding

/-- The frames of the queue are written. -/
theorem write (h : Linked config came c n link) :
    Linked config came
      { c with sent := n.queue.reverse ++ c.sent, connection := some { n with queue := [] } }
      { n with queue := [] } { link with sent := n.queue.reverse ++ link.sent } where
  setup := h.setup
  connection := rfl
  exchange := by
    obtain ⟨first, hsent, hgreeted⟩ := h.exchange
    refine ⟨first, ?_, hgreeted⟩
    show n.queue.reverse ++ c.sent = n.queue.reverse ++ link.sent ++ first
    rw [hsent, List.append_assoc]
  fits := h.fits
  read := h.read
  requests := by
    have hrequests := h.requests
    simp only [List.length_append, List.length_reverse, List.length_nil] at *
    omega
  uses := fun frame hframe => h.uses frame (by
    simp only [List.append_nil, List.mem_append, List.mem_reverse] at *
    exact hframe.symm)
  senders := h.senders
  extensions := h.extensions
  sharding := h.sharding

/-- Bytes come. -/
theorem receive (h : Linked config came c n link) (more : Bytes) (ready : List Task) :
    Linked config (came ++ more) { c with received := c.received ++ more, ready } n
      { link with after := link.after ++ more } where
  setup := h.setup
  connection := h.connection
  exchange := by
    obtain ⟨first, hsent, hgreeted⟩ := h.exchange
    exact ⟨first, hsent, hgreeted.append more⟩
  fits := h.fits
  read := h.read.append more
  requests := h.requests
  uses := h.uses
  senders := h.senders
  extensions := h.extensions
  sharding := h.sharding

end Linked

/-! ## Tasks that are woken -/

/-- No task has been woken but the operation. -/
def Wakes (id : OperationId) (c c' : Client) : Prop :=
  ∃ tasks, (∀ task ∈ tasks, task = .operation id) ∧ Woken tasks c.ready c'.ready

theorem Wakes.refl : Wakes id c c := ⟨[], List.forall_mem_nil _, .refl⟩

theorem Wakes.trans {c'' : Client} (h : Wakes id c c') (h' : Wakes id c' c'') : Wakes id c c'' := by
  obtain ⟨tasks, htasks, hwoken⟩ := h
  obtain ⟨tasks', htasks', hwoken'⟩ := h'
  exact ⟨tasks ++ tasks',
    fun task hmem => (List.mem_append.mp hmem).elim (htasks task) (htasks' task),
    hwoken.trans hwoken'⟩

theorem Wakes.mem (h : Wakes id c c') {task : Task} (hmem : task ∈ c.ready) : task ∈ c'.ready := by
  obtain ⟨tasks, -, hwoken⟩ := h
  exact hwoken.mem hmem

/-! ## What is ahead -/

def ahead (c : Client) : Nat := (c.operations.map (·.2.ahead)).headD 0

def isReleased (c : Client) : Bool := c.connection.any (·.released)

theorem ahead_of_operations {entries : List (OperationId × Stage)} (h : c.operations = entries) :
    c.ahead = (entries.map (·.2.ahead)).headD 0 := by
  rw [ahead, h]

theorem Linked.isReleased_eq (h : Linked config came c n link) : c.isReleased = n.released := by
  rw [isReleased, h.connection]
  rfl

theorem Exchanging.le_ahead {h₀ : Handshake} (h : Exchanging config id came awake c h₀) :
    24 ≤ c.ahead := by
  rw [ahead_of_operations h.operations]
  cases h₀ with
  | asked => show 24 ≤ 32; omega
  | starting s => exact Nat.le_refl 24

theorem Asking.ahead_eq (h : Asking config id came awake c n link name frame) : c.ahead = 16 :=
  ahead_of_operations h.operations

theorem Closing.ahead_eq {fault : KeyspaceFault}
    (h : Closing config id came awake c n link fault) : c.ahead = 8 :=
  ahead_of_operations h.operations

theorem Asking.spent (h : Asking config id came awake c n link name frame) :
    c.ahead + 8 ≤ 24 :=
  Nat.le_of_eq (congrArg (· + 8) h.ahead_eq)

theorem Closing.spent {fault : KeyspaceFault} (h : Closing config id came awake c n link fault) :
    c.ahead + 8 ≤ 16 :=
  Nat.le_of_eq (congrArg (· + 8) h.ahead_eq)

theorem spent_of_operations (h : c.operations = []) : c.ahead + 8 ≤ 8 :=
  Nat.le_of_eq (congrArg (· + 8) (ahead_of_operations h))

/-- Between the two, the reader or the writer has done its part. -/
structure Serves (id : OperationId) (c c' : Client) : Prop where
  wakes : Wakes id c c'
  operations : c'.operations = c.operations
  released : c'.isReleased = c.isReleased

/-- Between the two, the operation has gone on. -/
structure Advances (id : OperationId) (c c' : Client) : Prop where
  wakes : ∃ tasks ready, (∀ task ∈ tasks, task ∈ [.reader, .writer, .operation id]) ∧
    Woken tasks c.ready ready ∧ (c'.ready = ready ∨ c'.ready = .operation id :: ready)
  ahead : c'.ahead + 8 ≤ c.ahead
  released : c'.isReleased = c.isReleased

/-! ## Nobody else waits -/

section Alone

variable {stage : Stage} (hoperations : c.operations = [(id, stage)])

include hoperations

/-- The only operation is all that can wait. -/
theorem eq_of_mem_waitingOn {stream : Nat} {other : OperationId}
    (hmem : other ∈ c.waitingOn stream) : other = id := by
  rw [waitingOn, hoperations] at hmem
  obtain ⟨entry, hentry, hother⟩ := List.mem_filterMap.mp hmem
  obtain rfl := List.mem_singleton.mp hentry
  cases stage with
  | waiting s goal =>
    simp only at hother
    split at hother
    · exact (Option.some.inj hother).symm
    · cases hother
  | _ => cases hother

theorem eq_of_mem_waitingOnPool {pool : StreamPool} {task : Task}
    (hmem : task ∈ c.waitingOnPool pool) : task = .operation id := by
  rw [waitingOnPool] at hmem
  split at hmem
  · cases hmem
  · obtain ⟨other, hother, rfl⟩ := List.mem_map.mp hmem
    obtain ⟨stream, -, hwaiting⟩ := List.mem_flatMap.mp hother
    rw [eq_of_mem_waitingOn hoperations hwaiting]

theorem waitingToClose_eq {outcome : Outcome} (hstage : stage = .closing outcome) :
    c.waitingToClose = [.operation id] := by
  rw [waitingToClose, hoperations, hstage]
  rfl

end Alone

theorem waitingOnPool_eq_nil (hquiet : ∀ stream, c.waitingOn stream = []) (pool : StreamPool) :
    c.waitingOnPool pool = [] := by
  rw [waitingOnPool]
  split
  · rfl
  · rw [waitingOnAny, List.map_eq_nil_iff, List.flatMap_eq_nil_iff]
    exact fun stream _ => hquiet stream

/-! ## The reader -/

/-- Between the two, envelopes have come that nobody waits for. -/
def Passes (link : Link) (c : Client) (n : Connection) (c' : Client) : Prop :=
  ∃ ready received pool reading read,
    c' = { c with ready, received, connection := some { n with pool, reading } } ∧
    Envelope.Framed link.after read received ∧ Woken [] c.ready ready ∧
    (n.pool.closed = true → pool.closed = true) ∧ (n.reading = false → reading = false)

theorem Linked.passes (h : Linked config came c n link) : Passes link c n c := by
  refine ⟨c.ready, c.received, n.pool, n.reading, link.read, ?_, h.read, .refl, id, id⟩
  rw [← h.connection]

/-- A turn of the reader, when no operation waits for an answer. -/
theorem Linked.readerTurn (h : Linked config came c n link)
    (hquiet : ∀ stream, c.waitingOn stream = []) : Passes link c n c.readerTurn := by
  rw [Client.readerTurn, h.connection]
  simp only
  split
  · refine readFrames_of_steps (P := Passes link c n) ?_ (fun c' h _ _ => h) ?_
      (Nat.lt_succ_self _) h.passes
    · rintro _ e rest
        ⟨ready, received, pool, reading, read, rfl, hread, hwoken, hclosed, hreading⟩ he
      refine ⟨_, rfl, ready, rest, (pool.complete e).2, reading, read ++ [e], ?_,
        hread.trans (.one he), hwoken, fun h => (pool.closed_complete e).trans (hclosed h),
        hreading⟩
      rw [handOver]
      split
      · rfl
      · exact congrArg _ (hquiet _)
    · rintro _ fault ⟨ready, received, pool, reading, read, rfl, hread, hwoken, -, -⟩ -
      let c' := { c with ready, received, connection := some { n with pool, reading } }
      obtain ⟨ready', hclose, hwoken'⟩ := closePool_eq (c := c') rfl (.transport fault)
      have hnobody : c'.waitingOnPool pool = [] := waitingOnPool_eq_nil hquiet pool
      refine ⟨ready', received, pool.close (.transport fault), false, read, ?_, hread,
        hwoken.trans (hnobody ▸ hwoken'), fun _ => StreamPool.closed_close .., fun _ => rfl⟩
      rw [endReading, hclose]
      rfl
  · exact h.passes

end Client

end CqlClient
