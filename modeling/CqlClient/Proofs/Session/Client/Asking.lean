import CqlClient.Proofs.Session.Client.Opening

/-!
# Waiting for the first answer

While the operation waits for the answer to its request for the keyspace, the reader and the writer
decide what it finds: an envelope on its stream, or the fault that has ended the connection.

* `Asking.answer_close`: when the pool is closed, the operation finds the fault or what was there;
* `Asking.handOver`, `Asking.endReading`: one envelope, and the end of them;
* `Asking.readerTurn`, `Asking.writerTurn`: the operation still waits, or is awake to find its
  answer.
-/

namespace CqlClient

namespace Client

variable {config : SessionConfig} {id : OperationId} {came : Bytes} {awake awake' : Task → Prop}
  {c c' : Client} {n n' : Connection} {link : Link} {name : String} {frame : Bytes}

/-! ## Waiting for an answer -/

namespace Asking

variable (h : Asking config id came awake c n link name frame)

include h

theorem waitingOn_eq (stream : Nat) : c.waitingOn stream = if stream = 0 then [id] else [] := by
  rw [waitingOn, h.operations]
  by_cases hstream : stream = 0
  · simp [hstream]
  · simp [hstream, Ne.symm hstream]

/-- When the pool is closed, the operation is awake, or is woken for the fault. -/
theorem answer_close {fault : CallFault}
    (hfault : Answering link.read c.received c.ended c.deaf (.error fault)) :
    ∃ result, (n.pool.close fault).slot 0 = .completed result ∧
      Answering link.read c.received c.ended c.deaf result ∧
      (awake (.operation id) ∨ .operation id ∈ c.waitingOnPool n.pool) := by
  rcases h.answer with ⟨hslot, hclosed, -⟩ | ⟨result, hslot, hanswering, hawake⟩
  · refine ⟨_, ?_, hfault, .inr ?_⟩
    · rw [(n.pool.close_of_open 0 fault hclosed).2.2.1, hslot]
      rfl
    · have hsize : 0 < n.pool.size := StreamPool.lt_size_of_slot hslot (by simp)
      rw [waitingOnPool, if_neg (by simp [hclosed])]
      refine List.mem_map_of_mem (List.mem_flatMap.mpr ⟨0, List.mem_range.mpr hsize, ?_⟩)
      rw [h.waitingOn_eq, if_pos rfl]
      exact List.mem_singleton_self id
  · refine ⟨result, ?_, hanswering, .inl hawake⟩
    cases hclosed : n.pool.closed with
    | true => rw [n.pool.close_of_closed fault hclosed, hslot]
    | false =>
      rw [(n.pool.close_of_open 0 fault hclosed).2.2.1, hslot]
      rfl

/-- An envelope is read, which may be the answer. -/
theorem handOver {e : Envelope} {rest : Bytes} (he : Envelope.read c.received = .ok e rest) :
    Wakes id c (c.handOver n e rest) ∧ ∀ awake' : Task → Prop,
      (∀ task, awake task → awake' task) → (∀ task ∈ (c.handOver n e rest).ready, awake' task) →
      Asking config id came awake' (c.handOver n e rest) { n with pool := (n.pool.complete e).2 }
        { link with read := link.read ++ [e] } name frame := by
  let ids := if e.stream < 0 then [] else c.waitingOn e.stream.toInt.toNat
  let n' := { n with pool := (n.pool.complete e).2 }
  obtain ⟨ready, hwake, hwoken⟩ :=
    wakeAll_eq { c with received := rest, connection := some n' } ids
  have hover : c.handOver n e rest = { c with ready, received := rest, connection := some n' } :=
    hwake
  rw [hover]
  have hids : ∀ task ∈ ids.map Task.operation, task = .operation id := by
    intro task hmem
    obtain ⟨other, hother, rfl⟩ := List.mem_map.mp hmem
    simp only [ids] at hother
    split at hother
    · cases hother
    · rw [eq_of_mem_waitingOn h.operations hother]
  refine ⟨⟨_, hids, hwoken⟩, fun awake' hawake hready => ?_⟩
  have hanswer : ((n.pool.complete e).2.slot 0 = .waiting ∧ (n.pool.complete e).2.closed = false ∧
        ∀ e' ∈ link.read ++ [e], e'.stream ≠ 0) ∨
      ∃ result, (n.pool.complete e).2.slot 0 = .completed result ∧
        Answering (link.read ++ [e]) rest c.ended c.deaf result ∧ awake' (.operation id) := by
    by_cases hstream : e.stream = 0
    · have hmine : awake' (.operation id) := by
        refine hready _ (hwoken.mem_iff.mpr (.inr ?_))
        simp only [ids, h.waitingOn_eq, hstream]
        exact List.mem_singleton_self _
      obtain ⟨hfirst, hagain⟩ :=
        n.pool.slot_complete_self 0 (e := e) (congrArg Int16.toInt hstream)
      rw [hstream] at hagain
      rcases h.answer with ⟨hwaiting, -⟩ | ⟨result, hcompleted, hanswering, -⟩
      · exact .inr ⟨_, hfirst hwaiting,
          .answered (List.mem_append_right _ (List.mem_singleton_self e)) hstream, hmine⟩
      · exact .inr ⟨_, hagain result hcompleted, hanswering.again he hstream, hmine⟩
    · have hslot := n.pool.slot_complete_of_ne 0 fun h => hstream (Int16.toInt_inj.mp h)
      rcases h.answer with ⟨hwaiting, hclosed, hnone⟩ | ⟨result, hcompleted, hanswering, hmine⟩
      · refine .inl ⟨hslot.trans hwaiting, (n.pool.closed_complete e).trans hclosed, ?_⟩
        intro e' hmem
        rcases List.mem_append.mp hmem with hmem | hmem
        · exact hnone e' hmem
        · rwa [List.mem_singleton.mp hmem]
      · exact .inr ⟨result, hslot.trans hcompleted, hanswering.read he, hawake _ hmine⟩
  exact
    { linked := h.linked.keep (h.linked.read.trans (.one he)) rfl rfl rfl (.inl rfl) rfl rfl rfl
      use := h.use
      operations := h.operations
      isOpen := h.isOpen
      finished := h.finished
      stopping := h.stopping
      released := h.released
      reading := h.reading.imp_right (n.pool.closed_complete e).trans
      answer := hanswer
      reader := fun hreading => by
        rcases h.reader hreading with hreader | ⟨hnext, -⟩
        · exact .inl (hawake _ hreader)
        · cases hnext.symm.trans (Envelope.next_eq_frame.mpr he)
      writer := by
        rcases h.writer with ⟨hwriting, hsent, hqueue⟩ | ⟨hwriting, hclosed, hdeaf⟩
        · exact .inl ⟨hwriting, hsent, hqueue.imp_right (hawake _)⟩
        · exact .inr ⟨hwriting, (n.pool.closed_complete e).trans hclosed, hdeaf⟩ }

/-- No more envelopes are read. -/
theorem endReading {fault : TransportFault} (hends : ReadingEnds c.received c.ended fault) :
    Wakes id c (c.endReading fault) ∧ ∀ awake' : Task → Prop,
      (∀ task, awake task → awake' task) → (∀ task ∈ (c.endReading fault).ready, awake' task) →
      Asking config id came awake' (c.endReading fault)
        { n with pool := n.pool.close (.transport fault), reading := false } link name frame := by
  obtain ⟨ready, hclose, hwoken⟩ := closePool_eq h.linked.connection (.transport fault)
  have hend : c.endReading fault =
      { c with
        ready
        connection := some
          { n with pool := n.pool.close (.transport fault), reading := false } } := by
    rw [Client.endReading, hclose]
    rfl
  rw [hend]
  refine ⟨⟨_, fun task => eq_of_mem_waitingOnPool h.operations, hwoken⟩,
    fun awake' hawake hready => ?_⟩
  obtain ⟨result, hslot, hanswering, hmine⟩ := h.answer_close (.lost hends)
  exact
    { linked := h.linked.keep h.linked.read rfl rfl rfl (.inl rfl) rfl rfl rfl
      use := h.use
      operations := h.operations
      isOpen := h.isOpen
      finished := h.finished
      stopping := h.stopping
      released := h.released
      reading := .inr (StreamPool.closed_close ..)
      answer := .inr ⟨result, hslot, hanswering,
        hmine.elim (hawake _) fun hmem => hready _ (hwoken.mem_iff.mpr (.inr hmem))⟩
      reader := fun hreading => absurd hreading Bool.false_ne_true
      writer := by
        rcases h.writer with ⟨hwriting, hsent, hqueue⟩ | ⟨hwriting, -, hdeaf⟩
        · exact .inl ⟨hwriting, hsent, hqueue.imp_right (hawake _)⟩
        · exact .inr ⟨hwriting, StreamPool.closed_close .., hdeaf⟩ }

omit h in
/-- Whether the reader is awake is all that its turn decides. -/
theorem of_ready
    (h : Asking config id came (fun t => t ∈ c.ready ∨ t = .reader) c n link name frame)
    (hreader : n.reading = true →
      .reader ∈ c.ready ∨ (Envelope.next c.received = .incomplete ∧ c.ended = false)) :
    Asking config id came (· ∈ c.ready) c n link name frame where
  linked := h.linked
  use := h.use
  operations := h.operations
  isOpen := h.isOpen
  finished := h.finished
  stopping := h.stopping
  released := h.released
  reading := h.reading
  answer := by simpa using h.answer
  reader := hreader
  writer := by simpa using h.writer

omit h in
/-- A turn of the reader ends when it has to wait, or may not read on. -/
theorem readerTurn
    (h : Asking config id came (fun t => t ∈ c.ready ∨ t = .reader) c n link name frame) :
    ∃ n' link', Wakes id c c.readerTurn ∧
      Asking config id came (· ∈ c.readerTurn.ready) c.readerTurn n' link' name frame := by
  rw [Client.readerTurn, h.linked.connection]
  simp only
  split
  · refine readFrames_of_steps
      (P := fun c' => ∃ n' link', Wakes id c c' ∧
        Asking config id came (fun t => t ∈ c'.ready ∨ t = .reader) c' n' link' name frame)
      (Q := fun c' => ∃ n' link', Wakes id c c' ∧
        Asking config id came (· ∈ c'.ready) c' n' link' name frame)
      ?_ ?_ ?_ (Nat.lt_succ_self _) ⟨n, link, .refl, h⟩
    · rintro c' e rest ⟨n', link', hwakes, h'⟩ he
      obtain ⟨hwakes', hover⟩ := h'.handOver he
      exact ⟨n', h'.linked.connection, _, _, hwakes.trans hwakes',
        hover _ (fun task => .imp_left hwakes'.mem) fun task => .inl⟩
    · rintro c' ⟨n', link', hwakes, h'⟩ hnext hended
      exact ⟨n', link', hwakes, h'.of_ready fun _ => .inr ⟨hnext, hended⟩⟩
    · rintro c' fault ⟨n', link', hwakes, h'⟩ hends
      obtain ⟨hwakes', hend⟩ := h'.endReading hends
      refine ⟨_, _, hwakes.trans hwakes', (hend (fun t => t ∈ _ ∨ t = .reader)
        (fun task => .imp_left hwakes'.mem) fun task => .inl).of_ready
        fun hreading => absurd hreading Bool.false_ne_true⟩
  next hreading => exact ⟨n, link, .refl, h.of_ready fun h => absurd h hreading⟩

omit h in
/-- A turn of the writer writes the request, or loses it. -/
theorem writerTurn
    (h : Asking config id came (fun t => t ∈ c.ready ∨ t = .writer) c n link name frame) :
    ∃ n' link', Wakes id c c.writerTurn ∧
      Asking config id came (· ∈ c.writerTurn.ready) c.writerTurn n' link' name frame := by
  have hreader : n.reading = true →
      .reader ∈ c.ready ∨ (Envelope.next c.received = .incomplete ∧ c.ended = false) := by
    simpa using h.reader
  have hnobody : c.waitingToClose = [] := by
    rw [waitingToClose, h.operations]
    rfl
  rcases writerTurn_cases h.linked.connection h.linked.senders with
    ⟨hturn, hidle⟩ | ⟨-, hstops | hstops, -⟩ | ⟨-, -, -, hdeaf, ready, hturn, hwoken⟩ |
      ⟨hwriting, -, hturn⟩
  · rw [hturn]
    refine ⟨n, link, .refl, ?_⟩
    exact { h with
      answer := by simpa using h.answer
      reader := hreader
      writer := h.writer.imp_left fun hwriter =>
        ⟨hwriter.1, hwriter.2.1, .inl (hidle hwriter.1).2⟩ }
  · cases h.stopping.symm.trans hstops
  · cases h.released.symm.trans hstops.1
  · rw [hnobody, List.append_nil] at hwoken
    obtain ⟨result, hslot, hanswering, hmine⟩ := h.answer_close (.unsent hdeaf)
    rw [hturn]
    refine ⟨{ n with
        pool := n.pool.close (.transport .notReceived), writing := false, queue := [] },
      link, ⟨_, fun task => eq_of_mem_waitingOnPool h.operations, hwoken⟩, ?_⟩
    exact
      { linked := h.linked.keep h.linked.read rfl rfl rfl (.inr rfl) rfl rfl rfl
        use := h.use
        operations := h.operations
        isOpen := h.isOpen
        finished := h.finished
        stopping := h.stopping
        released := h.released
        reading := .inr (StreamPool.closed_close ..)
        answer := .inr ⟨result, hslot, hanswering, hwoken.mem_iff.mpr (by simpa using hmine)⟩
        reader := fun hreading => (hreader hreading).imp_left hwoken.mem
        writer := .inr ⟨rfl, StreamPool.closed_close .., hdeaf⟩ }
  · rw [hturn]
    refine ⟨{ n with queue := [] }, { link with sent := n.queue.reverse ++ link.sent }, .refl, ?_⟩
    exact
      { linked := h.linked.write
        use := h.use
        operations := h.operations
        isOpen := h.isOpen
        finished := h.finished
        stopping := h.stopping
        released := h.released
        reading := h.reading
        answer := by simpa using h.answer
        reader := hreader
        writer := by
          rcases h.writer with ⟨-, hsent, -⟩ | ⟨hstopped, -⟩
          · refine .inl ⟨hwriting, ?_, .inl rfl⟩
            rcases List.append_eq_singleton_iff.mp hsent with ⟨hnone, hqueue⟩ | ⟨hone, hqueue⟩
            · rw [hnone, hqueue]
              rfl
            · rw [hone, hqueue]
              rfl
          · cases hwriting.symm.trans hstopped }

end Asking

end Client

end CqlClient
