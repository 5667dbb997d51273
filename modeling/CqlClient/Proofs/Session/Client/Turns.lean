import CqlClient.Proofs.Session.Client.Frame
import CqlClient.Proofs.Session.Handshake
import CqlClient.Proofs.Session.StreamPool

/-!
# Turns and the tasks that they wake

A turn does one thing to the tasks that are ready: it wakes some. With `Woken` for that, a turn is a
change of fields:

* `Client.wake_eq`, `Client.wakeAll_eq`, `Client.closePool_eq`: the functions that wake tasks;
* `Client.writerTurn_cases`: the writer rests, stops, finds the other side gone, or writes;
* `Client.readFrames_of_steps`: what frames keep, one after the other, and what the end of them, or
  of the reading, makes of it.
-/

namespace CqlClient

/-! ## Ready tasks -/

/-- The tasks are ready now, each of them once if it was not. -/
def Woken (tasks ready ready' : List Task) : Prop :=
  ∀ task, ready'.count task = if task ∈ tasks then max (ready.count task) 1 else ready.count task

namespace Woken

variable {tasks tasks' ready ready' ready'' : List Task}

theorem refl : Woken [] ready ready := fun _ => rfl

theorem trans (h : Woken tasks ready ready') (h' : Woken tasks' ready' ready'') :
    Woken (tasks ++ tasks') ready ready'' := by
  intro task
  rw [h' task, h task]
  by_cases hfirst : task ∈ tasks <;> by_cases hsecond : task ∈ tasks' <;>
    simp only [List.mem_append, hfirst, hsecond, or_true, true_or, or_self, if_true, if_false]
  omega

theorem mem_iff (h : Woken tasks ready ready') {task : Task} :
    task ∈ ready' ↔ task ∈ ready ∨ task ∈ tasks := by
  rw [← List.count_pos_iff, ← List.count_pos_iff, h task]
  split
  next hmem =>
    refine iff_of_true ?_ (.inr hmem)
    omega
  next hmem => simp only [hmem, or_false]

theorem mem (h : Woken tasks ready ready') {task : Task} (hmem : task ∈ ready) : task ∈ ready' :=
  h.mem_iff.mpr (.inl hmem)

end Woken

namespace Client

variable {c : Client} {n : Connection}

theorem wake_eq (c : Client) (task : Task) :
    ∃ ready, c.wake task = { c with ready } ∧ Woken [task] c.ready ready := by
  rw [wake]
  split
  next hready =>
    have hmem : task ∈ c.ready := by simpa using hready
    refine ⟨c.ready, rfl, fun t => ?_⟩
    split
    next h =>
      obtain rfl := List.mem_singleton.mp h
      have hcount := List.count_pos_iff.mpr hmem
      omega
    next => rfl
  next hready =>
    have hmem : task ∉ c.ready := by simpa using hready
    refine ⟨c.ready ++ [task], rfl, fun t => ?_⟩
    rw [List.count_append]
    by_cases h : t = task
    · rw [if_pos (List.mem_singleton.mpr h), h, List.count_eq_zero_of_not_mem hmem,
        List.count_singleton_self]
      rfl
    · rw [if_neg (by simpa using h), List.count_singleton, if_neg (by simpa using Ne.symm h),
        Nat.add_zero]

/-- Tasks are woken one after the other. -/
theorem wakeTasks_eq (c : Client) (tasks : List Task) :
    ∃ ready, tasks.foldl wake c = { c with ready } ∧ Woken tasks c.ready ready := by
  induction tasks generalizing c with
  | nil => exact ⟨c.ready, rfl, .refl⟩
  | cons task tasks ih =>
    obtain ⟨ready, hwake, hwoken⟩ := c.wake_eq task
    obtain ⟨ready', hwakeAll, hwoken'⟩ := ih { c with ready }
    refine ⟨ready', ?_, hwoken.trans hwoken'⟩
    rw [List.foldl_cons, hwake]
    exact hwakeAll

theorem wakeAll_eq (c : Client) (ids : List OperationId) :
    ∃ ready, c.wakeAll ids = { c with ready } ∧ Woken (ids.map .operation) c.ready ready := by
  rw [wakeAll, ← List.foldl_map]
  exact c.wakeTasks_eq _

theorem wakeListeners_eq (c : Client) :
    ∃ ready, c.wakeListeners = { c with ready } ∧ Woken c.listeners c.ready ready :=
  c.wakeTasks_eq _

/-- The operations that wait for an answer, on any of some streams. -/
def waitingOnAny (c : Client) (streams : List Nat) : List Task :=
  (streams.flatMap c.waitingOn).map .operation

theorem wakeWaiting_eq (c : Client) (streams : List Nat) :
    ∃ ready, streams.foldl (fun c stream => c.wakeAll (c.waitingOn stream)) c = { c with ready } ∧
      Woken (c.waitingOnAny streams) c.ready ready := by
  induction streams generalizing c with
  | nil => exact ⟨c.ready, rfl, .refl⟩
  | cons stream streams ih =>
    obtain ⟨ready, hwake, hwoken⟩ := c.wakeAll_eq (c.waitingOn stream)
    obtain ⟨ready', hwakeAll, hwoken'⟩ := ih { c with ready }
    refine ⟨ready', ?_, ?_⟩
    · rw [List.foldl_cons, hwake]
      exact hwakeAll
    · rw [waitingOnAny, List.flatMap_cons, List.map_append]
      exact hwoken.trans hwoken'

/-- The operations that a pool wakes when it is closed. One that is closed already wakes none. -/
def waitingOnPool (c : Client) (pool : StreamPool) : List Task :=
  if pool.closed then [] else c.waitingOnAny (List.range pool.size)

/-- Closing a pool wakes all that wait for an answer. -/
theorem closePool_eq (hn : c.connection = some n) (fault : CallFault) :
    ∃ ready, c.closePool fault =
        { c with ready, connection := some { n with pool := n.pool.close fault } } ∧
      Woken (c.waitingOnPool n.pool) c.ready ready := by
  rw [closePool, waitingOnPool]
  simp only [hn]
  cases hclosed : n.pool.closed with
  | true =>
    refine ⟨c.ready, ?_, .refl⟩
    rw [StreamPool.close_of_closed _ _ hclosed, ← hn]
    rfl
  | false =>
    obtain ⟨ready, hwake, hwoken⟩ := c.wakeWaiting_eq (List.range n.pool.size)
    refine ⟨ready, ?_, hwoken⟩
    simp only [hwake, modifyConnection, hn]
    rfl

/-! ## The writer -/

/-- The operations that wait for the writer to stop. -/
def waitingToClose (c : Client) : List Task :=
  (c.operations.filterMap fun (id, stage) =>
    match stage with
    | .closing _ => some id
    | _ => none).map .operation

theorem stopWriter_eq (c : Client) (hsenders : n.senders = []) :
    ∃ ready, c.stopWriter n =
        { c with ready, connection := some { n with writing := false, queue := [] } } ∧
      Woken c.waitingToClose c.ready ready := by
  rw [stopWriter, hsenders]
  exact wakeAll_eq
    { c with connection := some { n with writing := false, queue := [], senders := [] } } _

theorem writeFrames_eq (c : Client) (hsenders : n.senders = []) :
    c.writeFrames n =
      { c with
        sent := n.queue.reverse ++ c.sent
        connection := some { n with queue := [] } } := by
  obtain ⟨pool, extensions, sharding, queue, senders, granted, reading, writing, stopping,
    released⟩ := n
  obtain rfl : senders = [] := hsenders
  rw [writeFrames, List.take_nil]
  simp only [List.drop_nil]
  rfl

/-- A turn of the writer, when no operation waits for room in its queue: it has nothing to do, it
stops, it finds that the other side takes nothing any more, or it writes all that is there. -/
theorem writerTurn_cases (hn : c.connection = some n) (hsenders : n.senders = []) :
    (c.writerTurn = c ∧ (n.writing = true → n.stopping = false ∧ n.queue = [])) ∨
    (n.writing = true ∧ (n.stopping = true ∨ n.released = true ∧ n.queue = []) ∧
      ∃ ready, c.writerTurn =
          { c with
            ready
            hungUp := c.hungUp || !c.deaf
            connection := some { n with writing := false, queue := [] } } ∧
        Woken c.waitingToClose c.ready ready) ∨
    (n.writing = true ∧ n.stopping = false ∧ n.queue ≠ [] ∧ c.deaf = true ∧
      ∃ ready, c.writerTurn =
          { c with
            ready
            connection := some { n with
              pool := n.pool.close (.transport .notReceived), writing := false, queue := [] } } ∧
        Woken (c.waitingOnPool n.pool ++ c.waitingToClose) c.ready ready) ∨
    (n.writing = true ∧ n.stopping = false ∧ c.writerTurn =
      { c with
        sent := n.queue.reverse ++ c.sent
        connection := some { n with queue := [] } }) := by
  rw [writerTurn]
  simp only [hn]
  by_cases hwriting : n.writing = true
  · rw [if_neg (by simp [hwriting])]
    by_cases hstopping : n.stopping = true
    · obtain ⟨ready, hstop, hwoken⟩ := c.stopWriter_eq hsenders
      refine .inr (.inl ⟨hwriting, .inl hstopping, ready, ?_, hwoken⟩)
      rw [if_pos hstopping, hstop]
      rfl
    · rw [if_neg hstopping]
      replace hstopping : n.stopping = false := by simpa using hstopping
      by_cases hqueue : n.queue = []
      · rw [if_neg (by simp [hqueue])]
        by_cases hreleased : n.released = true
        · obtain ⟨ready, hstop, hwoken⟩ := c.stopWriter_eq hsenders
          refine .inr (.inl ⟨hwriting, .inr ⟨hreleased, hqueue⟩, ready, ?_, hwoken⟩)
          rw [if_pos hreleased, hstop]
          rfl
        · exact .inl ⟨if_neg hreleased, fun _ => ⟨hstopping, hqueue⟩⟩
      · rw [if_pos (by simp [hqueue])]
        by_cases hdeaf : c.deaf = true
        · obtain ⟨ready, hclose, hwoken⟩ := closePool_eq hn (.transport .notReceived)
          let n' : Connection := { n with pool := n.pool.close (.transport .notReceived) }
          obtain ⟨ready', hstop, hwoken'⟩ :=
            stopWriter_eq { c with ready, connection := some n' } (n := n') hsenders
          refine .inr (.inr (.inl ⟨hwriting, hstopping, hqueue, hdeaf, ready', ?_,
            hwoken.trans hwoken'⟩))
          rw [if_pos hdeaf, hclose]
          exact hstop
        · refine .inr (.inr (.inr ⟨hwriting, hstopping, ?_⟩))
          rw [if_neg hdeaf, c.writeFrames_eq hsenders]
  · exact .inl ⟨if_pos (by simpa using hwriting), fun h => absurd h hwriting⟩

/-! ## The reader -/

/-- Hands an envelope to the operation that waits for it. -/
def handOver (c : Client) (n : Connection) (e : Envelope) (rest : Bytes) : Client :=
  { c with
    received := rest
    connection := some { n with pool := (n.pool.complete e).2 } }.wakeAll
    (if e.stream < 0 then [] else c.waitingOn e.stream.toInt.toNat)

/-- The fault with which the reading ends, by the bytes that have come. -/
inductive ReadingEnds (received : Bytes) (ended : Bool) : TransportFault → Prop
  | closedByPeer (next : Envelope.next received = .incomplete) (gone : ended = true) :
    ReadingEnds received ended .closedByPeer
  | malformed {fault : FrameFault} (next : Envelope.next received = .malformed fault) :
    ReadingEnds received ended (.malformed fault)

/-- The reader takes frames one after the other, until it has to wait for bytes or ends. -/
theorem readFrames_of_steps {P Q : Client → Prop}
    (hframe : ∀ c e rest, P c → Envelope.read c.received = .ok e rest →
      ∃ n, c.connection = some n ∧ P (c.handOver n e rest))
    (hwait : ∀ c, P c → Envelope.next c.received = .incomplete → c.ended = false → Q c)
    (hend : ∀ c fault, P c → ReadingEnds c.received c.ended fault → Q (c.endReading fault))
    {fuel : Nat} (hfuel : c.received.length < fuel) (h : P c) : Q (readFrames fuel c) := by
  induction fuel generalizing c with
  | zero => exact absurd hfuel (Nat.not_lt_zero _)
  | succ fuel ih =>
    rw [readFrames]
    split
    next hnext =>
      split
      next hended => exact hend c _ h (.closedByPeer hnext hended)
      next hended => exact hwait c h hnext (by simpa using hended)
    next fault hnext => exact hend c _ h (.malformed hnext)
    next e rest n hnext hconnection =>
      have hread := Envelope.next_eq_frame.mp hnext
      obtain ⟨n', hn', hP⟩ := hframe c e rest h hread
      cases hconnection.symm.trans hn'
      refine ih ?_ hP
      obtain ⟨ready, hwake, -⟩ := wakeAll_eq
        { c with
          received := rest
          connection := some { n with pool := (n.pool.complete e).2 } }
        (if e.stream < 0 then [] else c.waitingOn e.stream.toInt.toNat)
      have hlength := Envelope.read_shortens hread
      show (wakeAll _ _).received.length < fuel
      rw [hwake]
      show rest.length < fuel
      omega
    next hnext hconnection =>
      obtain ⟨n, hn, -⟩ := hframe c _ _ h (Envelope.next_eq_frame.mp hnext)
      cases hconnection.symm.trans hn

end Client

end CqlClient
