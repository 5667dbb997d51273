import CqlClient.Proofs.Session.Client.Events
import CqlClient.Proofs.Session.Client.Turns

/-!
# The pool of a client

Whenever a task is done with its turn, an id can be claimed exactly while its slot is free. So an id
that is claimed and given back unsent leaves the pool as it was, to the last bit.

* `StreamPool.Consistent`: availability and slots say the same, which every step of a pool keeps;
* `StreamPool.leave_of_allocate`: an id is claimed and given back;
* `Client.link`: what a client shares with the other side, which most of its functions leave alone;
* `Client.pooled_after`: the pool is consistent from the opening of a session on, whatever happens.
-/

namespace CqlClient

namespace StreamPool

/-- An id can be claimed exactly while its slot is free. -/
def Consistent (p : StreamPool) : Prop :=
  ∀ id, id < p.size → (p.available.testBit id = true ↔ p.slot id = .free)

variable {p p' : StreamPool} {id : Nat}

/-- A step that concerns one id keeps the others consistent. -/
theorem Consistent.of_agreesOff (h : p.Consistent) (hagrees : AgreesOff id p p')
    (hself : id < p.size → (p'.available.testBit id = true ↔ p'.slot id = .free)) :
    p'.Consistent := by
  intro i hsmall
  rw [hagrees.size] at hsmall
  by_cases hsame : i = id
  · subst hsame
    exact hself hsmall
  · rw [hagrees.bit i hsame, hagrees.slot i hsame]
    exact h i hsmall

theorem Consistent.unavailable (h : p.Consistent) {s : Slot} (hslot : p.slot id = s)
    (htaken : s ≠ .free) : p.available.testBit id = false := by
  have hsmall := lt_size_of_slot hslot htaken
  rw [Bool.eq_false_iff]
  intro hbit
  exact htaken (hslot.symm.trans ((h id hsmall).mp hbit))

/-- A slot that is taken stays taken. -/
theorem Consistent.setSlot (h : p.Consistent) {s s' : Slot} (hslot : p.slot id = s)
    (htaken : s ≠ .free) (hstill : s' ≠ .free) : (p.setSlot id s').Consistent := by
  apply h.of_agreesOff (.setSlot p id s')
  intro hsmall
  rw [available_setSlot, slot_setSlot_self s' hsmall, h.unavailable hslot htaken]
  exact iff_of_false Bool.false_ne_true hstill

theorem Consistent.free (h : p.Consistent) (id : Nat) :
    ((p.setSlot id .free).release id).Consistent := by
  apply h.of_agreesOff (AgreesOff.setSlot p id .free).release
  intro hsmall
  rw [testBit_release, slot_release, slot_setSlot_self .free hsmall]
  simp

theorem consistent_new (size : Nat) : (new size).Consistent := by
  intro id hsmall
  have hbound : id < min (max size 1) maxStreams := by simpa [new, StreamPool.size] using hsmall
  refine iff_of_true ?_ ?_
  · rw [new, Nat.testBit_two_pow_sub_one]
    exact decide_eq_true hbound
  · simp [new, slot, hbound]

theorem Consistent.complete (h : p.Consistent) (e : Envelope) : (p.complete e).2.Consistent := by
  rcases p.complete_cases e with ⟨hsame, -⟩ | ⟨hslot, hstep⟩ | ⟨⟨result, hslot⟩, hstep⟩ | ⟨-, hstep⟩
  · rwa [hsame]
  · rw [hstep]
    exact h.setSlot hslot (by simp) (by simp)
  · rw [hstep]
    exact h.setSlot hslot (by simp) (by simp)
  · rw [hstep]
    exact h.free _

theorem Consistent.leave (h : p.Consistent) (id : Nat) (sent : Bool) :
    (p.leave id sent).Consistent := by
  unfold StreamPool.leave
  rcases p.vacate_cases id sent with ⟨hslot, -, -, hstep⟩ | ⟨-, hstep⟩
  · rw [hstep]
    exact h.setSlot hslot (by simp) (by simp)
  · rw [hstep]
    exact h.free id

theorem Consistent.response (h : p.Consistent) {result : Except CallFault Envelope}
    (hfound : p.response id = (some result, p')) : p'.Consistent := by
  rcases response_eq_some hfound with ⟨hslot, rfl⟩ | ⟨-, rfl⟩
  · exact h.setSlot hslot (by simp) (by simp)
  · exact h

theorem Consistent.close (h : p.Consistent) (fault : CallFault) : (p.close fault).Consistent := by
  cases hclosed : p.closed with
  | true => rwa [p.close_of_closed fault hclosed]
  | false =>
    intro id hsmall
    obtain ⟨hsize, -, hslot, hbit⟩ := p.close_of_open id fault hclosed
    rw [hsize] at hsmall
    have hbefore := h id hsmall
    rw [hslot, hbit]
    cases hfound : p.slot id <;> simp [hfound, Slot.swept, Slot.isAbandoned] at hbefore ⊢ <;>
      simpa using hbefore

theorem Consistent.allocate (h : p.Consistent) : p.allocate.2.Consistent := by
  rcases p.allocate_cases with ⟨-, hsame⟩ | ⟨-, -, hsame⟩ | ⟨id, -, hbit, hclaimed⟩
  · rwa [hsame]
  · rwa [hsame]
  · rw [hclaimed]
    apply h.of_agreesOff ((AgreesOff.claim hbit).trans (.setSlot _ id .waiting))
    intro hsmall
    have hwaiting : ((p.claim id).setSlot id .waiting).slot id = .waiting :=
      slot_setSlot_self .waiting hsmall
    simp [testBit_claim id hbit, hwaiting]

theorem leastFrom?_lt {available count start : Nat}
    (h : leastFrom? available count start = some id) : id < start + count := by
  induction count generalizing start with
  | zero => cases h
  | succ count ih =>
    rw [leastFrom?] at h
    split at h
    · cases h
      omega
    · have hbound := ih h
      omega

theorem claimed_of_allocate (h : p.allocate = (.ok id, p')) :
    id < p.size ∧ p.available.testBit id = true ∧ p' = (p.claim id).setSlot id .waiting := by
  rcases p.allocate_cases with ⟨-, hrefused⟩ | ⟨-, -, hrefused⟩ | ⟨i, hopened, hbit, hclaimed⟩
  · cases hrefused.symm.trans h
  · cases hrefused.symm.trans h
  · cases hclaimed.symm.trans h
    refine ⟨?_, hbit, rfl⟩
    unfold StreamPool.allocate claim? at hclaimed
    rw [if_neg (by simp [hopened])] at hclaimed
    cases hfound : leastFrom? p.available p.size 0 with
    | none => simp [hfound] at hclaimed
    | some i =>
      have hbound := leastFrom?_lt hfound
      simp [hfound, arm, hopened] at hclaimed
      omega

/-- An id that is claimed and given back unsent leaves the pool as it was. -/
theorem leave_of_allocate (h : p.Consistent) (hclaimed : p.allocate = (.ok id, p')) :
    p'.leave id false = p := by
  obtain ⟨hsmall, hbit, rfl⟩ := claimed_of_allocate hclaimed
  have hfree := (h id hsmall).mp hbit
  have hslots : (p.slots.setIfInBounds id .waiting).setIfInBounds id .free = p.slots := by
    rw [Array.setIfInBounds_setIfInBounds]
    apply Array.ext
    · simp
    · intro i _ hbound
      rw [Array.getElem_setIfInBounds hbound]
      split
      · next hsame =>
        subst hsame
        rw [← hfree, slot, Array.getD_eq_getD_getElem?, Array.getElem?_eq_getElem hbound]
        rfl
      · rfl
  have havailable : ((p.claim id).release id).available = p.available := by
    apply Nat.eq_of_testBit_eq
    intro i
    rw [testBit_release, testBit_claim i hbit]
    by_cases hsame : i = id
    · simp [hsame, hbit]
    · simp [bne, beq_false_of_ne hsame]
  unfold StreamPool.leave
  rcases ((p.claim id).setSlot id .waiting).vacate_cases id false with ⟨-, hsent, -⟩ | ⟨-, hstep⟩
  · cases hsent
  · rw [hstep]
    show (⟨(p.slots.setIfInBounds id .waiting).setIfInBounds id .free,
      ((p.claim id).release id).available, p.closed⟩ : StreamPool) = p
    rw [hslots, havailable]

end StreamPool

namespace Client

variable {c c' : Client} {id : OperationId} {key : Nat}

/-! ## What is shared with the other side -/

/-- The connection of a client, and the bytes that come and go. -/
def link (c : Client) : Option Connection × Bytes × Bool × Bool × List Bytes × Bool :=
  (c.connection, c.received, c.ended, c.deaf, c.sent, c.hungUp)

theorem connection_of_link (h : c'.link = c.link) : c'.connection = c.connection :=
  (Prod.mk.inj h).1

@[simp] theorem link_wake (task : Task) : (c.wake task).link = c.link := by
  obtain ⟨ready, woken, -⟩ := c.wake_eq task
  rw [woken]
  rfl

@[simp] theorem link_wakeAll (ids : List OperationId) : (c.wakeAll ids).link = c.link := by
  obtain ⟨ready, woken, -⟩ := c.wakeAll_eq ids
  rw [woken]
  rfl

@[simp] theorem link_proceed (stage : Stage) : (c.proceed id stage).link = c.link := rfl

@[simp] theorem link_modifyResult (f : SharedResult → SharedResult) :
    (c.modifyResult key f).link = c.link := rfl

@[simp] theorem link_finish (outcome : Outcome) : (c.finish id outcome).link = c.link := by
  cases outcome <;> rfl

@[simp] theorem link_unlock : (c.unlock key).link = c.link := by
  unfold unlock
  rw [link_wakeAll, link_modifyResult]

@[simp] theorem link_deliver (consumer : Consumer) (item : Option (Except ExecutionFault Row)) :
    (c.deliver id key consumer item).link = c.link := by
  unfold deliver
  split <;> simp

theorem link_acceptResult (source : PageSource) (response : Response) :
    (c.acceptResult source response).2.link = c.link := by
  unfold acceptResult
  split
  · split
    · split <;> rfl
    · rfl
  · rfl

/-! ## Pools -/

/-- The pool of the connection is consistent, if there is one. -/
structure Pooled (c : Client) : Prop where
  consistent : ∀ n, c.connection = some n → n.pool.Consistent

theorem Pooled.of_connection (h : c.Pooled) (hsame : c'.connection = c.connection) : c'.Pooled :=
  ⟨fun n hn => h.consistent n (hsame ▸ hn)⟩

theorem Pooled.of_link (h : c.Pooled) (hsame : c'.link = c.link) : c'.Pooled :=
  h.of_connection (connection_of_link hsame)

theorem Pooled.of_some {n : Connection} (h : c.Pooled) (hn : c.connection = some n)
    {n' : Connection} (hn' : c'.connection = some n')
    (hkept : n.pool.Consistent → n'.pool.Consistent) : c'.Pooled := by
  refine ⟨fun m hm => ?_⟩
  cases hn'.symm.trans hm
  exact hkept (h.consistent n hn)

theorem Pooled.modifyConnection {f : Connection → Connection} (h : c.Pooled)
    (hkept : ∀ n, n.pool.Consistent → (f n).pool.Consistent) : (c.modifyConnection f).Pooled := by
  refine ⟨fun m hm => ?_⟩
  obtain ⟨n, hn, rfl⟩ := Option.map_eq_some_iff.mp hm
  exact hkept n (h.consistent n hn)

theorem Pooled.leaveStream (h : c.Pooled) (stream : Nat) (sent : Bool) :
    (c.leaveStream stream sent).Pooled :=
  h.modifyConnection fun _ hpooled => hpooled.leave stream sent

theorem Pooled.closePool (h : c.Pooled) (fault : CallFault) : (c.closePool fault).Pooled := by
  cases hn : c.connection with
  | none =>
    unfold Client.closePool
    rwa [hn]
  | some n =>
    obtain ⟨ready, hclosed, -⟩ := closePool_eq hn fault
    rw [hclosed]
    exact h.of_some hn rfl fun hpooled => hpooled.close fault

theorem Pooled.closing (h : c.Pooled) (fault : CallFault) (outcome : Outcome) :
    ((((c.closePool fault).modifyConnection fun n => { n with stopping := true }).wake
      .writer).proceed id (.closing outcome)).Pooled := by
  refine Pooled.of_link ?_ ((link_proceed _).trans (link_wake _))
  exact (h.closePool fault).modifyConnection fun _ hpooled => hpooled

theorem Pooled.endKeyspace (h : c.Pooled) (task : KeyspaceTask)
    (result : Except KeyspaceFault Unit) : (c.endKeyspace id task result).Pooled := by
  unfold Client.endKeyspace
  split
  · exact h.of_link (link_finish _)
  · split
    · exact h.of_link (link_finish _)
    · exact h
    · exact h.closing _ _

theorem Pooled.fail (h : c.Pooled) (goal : Goal) (fault : ExecutionFault) :
    (c.fail id goal fault).Pooled := by
  cases goal with
  | result => exact h.of_link (link_finish _)
  | prepare => exact h.of_link (link_finish _)
  | keyspace _ task => exact h.endKeyspace task _
  | page key consumer => exact h.of_link ((link_deliver consumer _).trans link_unlock)

theorem Pooled.enqueue (h : c.Pooled) (stream : Nat) (frame : Bytes) (goal : Goal) :
    (c.enqueue id stream frame goal).Pooled := by
  refine Pooled.of_link ?_ ((link_proceed _).trans (link_wake _))
  exact h.modifyConnection fun _ hpooled => hpooled

theorem Pooled.call (h : c.Pooled) (request : Request) (tracing : Bool) (goal : Goal) :
    (c.call id request tracing goal).Pooled := by
  unfold Client.call
  split
  · exact h.fail goal _
  · next n hn =>
    have hallocated := (h.consistent n hn).allocate
    split
    · next fault pool refused =>
      rw [refused] at hallocated
      exact (h.modifyConnection fun _ _ => hallocated).fail goal _
    · next stream pool claimed =>
      rw [claimed] at hallocated
      have hpooled : (c.modifyConnection fun n => { n with pool }).Pooled :=
        h.modifyConnection fun _ _ => hallocated
      simp only
      split
      · exact (hpooled.leaveStream stream false).fail goal _
      · split
        · exact (hpooled.leaveStream stream false).fail goal _
        · split
          · exact hpooled.enqueue stream _ goal
          · have hwaiting : ((c.modifyConnection fun n => { n with pool }).modifyConnection
                fun n => { n with senders := n.senders ++ [id] }).Pooled :=
              hpooled.modifyConnection fun _ hpooled => hpooled
            exact hwaiting.of_connection rfl

theorem Pooled.serve (h : c.Pooled) (consumer : Consumer) : (c.serve id key consumer).Pooled := by
  unfold Client.serve
  split
  · exact h.of_link (link_finish _)
  · simp only
    split
    · exact h.of_link ((link_deliver ..).trans link_unlock)
    · exact h.of_link ((link_finish _).trans link_unlock)
    · exact h.of_link ((link_finish _).trans link_unlock)
    · refine Pooled.call ?_ ..
      exact h.of_link rfl

theorem Pooled.lock (h : c.Pooled) (consumer : Consumer) : (c.lock id key consumer).Pooled := by
  have hlocked : (c.modifyResult key (·.lock id)).Pooled := h.of_link rfl
  unfold Client.lock
  simp only
  split
  · exact hlocked.serve consumer
  · exact hlocked.of_link rfl

theorem Pooled.take (h : c.Pooled) (consumer : Consumer) : (c.take id key consumer).Pooled := by
  unfold Client.take
  split
  · exact h.lock _
  · exact h.lock _
  · simp only
    split
    · exact h.of_link (link_deliver ..)
    · exact h.lock _

theorem Pooled.addPage (h : c.Pooled) (consumer : Consumer) (body : ResponseBody) :
    (c.addPage id key consumer body).Pooled := by
  unfold Client.addPage
  split
  · exact h.of_link (link_finish _)
  · split
    · exact h.fail ..
    · simp only
      split
      · exact h.of_link ((link_finish _).trans link_unlock)
      · exact h.of_link rfl

theorem Pooled.acceptResult (h : c.Pooled) (source : PageSource) (response : Response) :
    (c.acceptResult source response).2.Pooled :=
  h.of_link (link_acceptResult source response)

theorem Pooled.settle (h : c.Pooled) (goal : Goal) (response : Response) :
    (c.settle id goal response).Pooled := by
  cases goal with
  | result source =>
    have haccepted := h.acceptResult source response
    simp only [Client.settle]
    split
    next heq =>
      rw [heq] at haccepted
      exact haccepted.of_link (link_finish _)
    next heq =>
      rw [heq] at haccepted
      exact haccepted.fail ..
  | keyspace source task =>
    have haccepted := h.acceptResult source response
    simp only [Client.settle]
    split
    next heq =>
      rw [heq] at haccepted
      exact haccepted.endKeyspace ..
    next heq =>
      rw [heq] at haccepted
      exact haccepted.fail ..
  | prepare cql =>
    simp only [Client.settle]
    split
    · exact h.of_link (link_finish _)
    · exact h.fail ..
    · exact h.fail ..
  | page key consumer => exact h.addPage consumer response.body

/-! ## Turns of operations -/

theorem Pooled.startKeyspace (h : c.Pooled) (statement : Except InvalidKeyspace String)
    (task : KeyspaceTask) : (c.startKeyspace id statement task).Pooled := by
  unfold Client.startKeyspace
  split
  · exact h.endKeyspace ..
  · exact h.call ..

theorem Pooled.startStatement (h : c.Pooled) (statement : Statement)
    (values : Except BindFault BoundRow) (options : Option QueryOptions) :
    (c.startStatement id statement values options).Pooled := by
  unfold Client.startStatement
  split
  · exact h.of_link (link_finish _)
  · exact h.call ..

theorem Pooled.start (h : c.Pooled) (operation : Operation) : (c.start id operation).Pooled := by
  cases operation with
  | query => exact h.startStatement ..
  | execute => exact h.startStatement ..
  | prepare => exact h.call ..
  | useKeyspace => exact h.startKeyspace ..
  | createKeyspace => exact h.startKeyspace ..
  | dropKeyspace => exact h.startKeyspace ..
  | close => exact h.closing ..
  | consume => exact h.take _

theorem Pooled.notOpened (h : c.Pooled) (fault : OpeningFault) : (c.notOpened id fault).Pooled :=
  h.of_connection (connection_of_link (c := c.hangUp) (link_finish _))

/-- A connection starts with a pool of its own. -/
theorem pooled_establish (c : Client) (s : Supported) (rest : Bytes) :
    (c.establish id s rest).Pooled := by
  have hwake₂ {c' : Client} (hpooled : c'.Pooled) : ((c'.wake .reader).wake .writer).Pooled :=
    hpooled.of_link ((link_wake _).trans (link_wake _))
  have hestablished {n : Connection} (hfresh : n.pool = .new c.config.connection.maxStreams) :
      ({ c with received := rest, connection := some n } : Client).Pooled := by
    refine ⟨fun m hm => ?_⟩
    cases hm
    rw [hfresh]
    exact StreamPool.consistent_new _
  unfold Client.establish
  simp only
  split
  · exact (hwake₂ (hestablished rfl)).of_link (link_finish _)
  · exact (hwake₂ (hestablished rfl)).startKeyspace ..

theorem Pooled.sendFirst (h : c.Pooled) (frame : Bytes) (next : Handshake) :
    (c.sendFirst id frame next).Pooled := by
  unfold Client.sendFirst
  split
  · exact h.notOpened _
  · exact h.of_connection rfl

theorem Pooled.openingTurn (h : c.Pooled) (next : Handshake) :
    (c.openingTurn id next).Pooled := by
  unfold Client.openingTurn
  split
  · exact h
  · exact h.notOpened _
  · refine Pooled.sendFirst ?_ ..
    exact h.of_connection rfl
  next rest _ =>
    split
    · have hunread : ({ c with received := rest }.hangUp).Pooled := h.of_connection rfl
      exact hunread.of_link (link_finish _)
    · exact pooled_establish ..

theorem Pooled.queued (h : c.Pooled) {stream : Nat} {frame : Bytes} {goal : Goal}
    (hstage : c.operations.lookup id = some (.queued stream frame goal)) :
    (c.operationTurn id).Pooled := by
  unfold Client.operationTurn
  rw [hstage]
  simp only
  split
  · exact h
  · split
    · exact (h.leaveStream stream false).fail goal _
    · split
      · exact h
      · refine Pooled.enqueue ?_ ..
        exact h.modifyConnection fun _ hpooled => hpooled

theorem Pooled.waiting (h : c.Pooled) {stream : Nat} {goal : Goal}
    (hstage : c.operations.lookup id = some (.waiting stream goal)) :
    (c.operationTurn id).Pooled := by
  unfold Client.operationTurn
  rw [hstage]
  simp only
  split
  · exact h
  · next n hn =>
    split
    · exact h
    · next result pool found =>
      have hanswered : (c.modifyConnection fun n =>
          { n with pool := pool.leave stream true }).Pooled :=
        h.modifyConnection fun _ _ => ((h.consistent n hn).response found).leave stream true
      split
      · exact hanswered.fail goal _
      · exact hanswered.settle goal _

theorem Pooled.operationTurn (h : c.Pooled) (id : OperationId) : (c.operationTurn id).Pooled := by
  cases hstage : c.operations.lookup id with
  | none =>
    rw [Client.operationTurn, hstage]
    exact h
  | some s =>
    cases s with
    | waiting stream goal => exact h.waiting hstage
    | queued stream frame goal => exact h.queued hstage
    | fresh operation =>
      rw [Client.operationTurn, hstage]
      exact h.start operation
    | opening next =>
      rw [Client.operationTurn, hstage]
      exact h.openingTurn next
    | taking key consumer =>
      rw [Client.operationTurn, hstage]
      exact h.take consumer
    | holding key consumer =>
      rw [Client.operationTurn, hstage]
      exact h.serve consumer
    | locking key consumer =>
      rw [Client.operationTurn, hstage]
      simp only
      split
      · exact h.serve consumer
      · exact h
    | closing outcome =>
      rw [Client.operationTurn, hstage]
      simp only
      split
      · exact h
      · refine Pooled.of_link ?_ (link_finish _)
        exact h.modifyConnection fun _ hpooled => hpooled

/-! ## Turns of the reader and the writer -/

theorem Pooled.endReading (h : c.Pooled) (fault : TransportFault) : (c.endReading fault).Pooled :=
  (h.closePool _).modifyConnection fun _ hpooled => hpooled

theorem Pooled.readFrames (h : c.Pooled) (fuel : Nat) : (Client.readFrames fuel c).Pooled := by
  induction fuel generalizing c with
  | zero => exact h
  | succ fuel ih =>
    rw [Client.readFrames]
    split
    · split
      · exact h.endReading _
      · exact h
    · exact h.endReading _
    · next e rest n _ hn =>
      have hcompleted : ({ c with
          received := rest
          connection := some { n with pool := (n.pool.complete e).2 } } : Client).Pooled :=
        h.of_some hn rfl fun hpooled => hpooled.complete e
      exact ih (hcompleted.of_link (link_wakeAll _))
    · exact h

theorem Pooled.readerTurn (h : c.Pooled) : c.readerTurn.Pooled := by
  unfold Client.readerTurn
  split
  · split
    · exact h.readFrames _
    · exact h
  · exact h

/-- The writer stops with the pool that it finds. -/
theorem pooled_stopWriter (c : Client) {n : Connection} (hpooled : n.pool.Consistent) :
    (c.stopWriter n).Pooled := by
  have hstopped : ({ c with
      connection := some { n with
        writing := false, queue := [], senders := [] } } : Client).Pooled := by
    refine ⟨fun m hm => ?_⟩
    cases hm
    exact hpooled
  exact hstopped.of_link ((link_wakeAll _).trans (link_wakeAll _))

theorem pooled_writeFrames (c : Client) {n : Connection} (hpooled : n.pool.Consistent) :
    (c.writeFrames n).Pooled := by
  refine Pooled.of_link ⟨fun m hm => ?_⟩ (link_wakeAll _)
  cases hm
  exact hpooled

theorem Pooled.writerTurn (h : c.Pooled) : c.writerTurn.Pooled := by
  unfold Client.writerTurn
  split
  · exact h
  · next n hn =>
    have hpooled := h.consistent n hn
    split
    · exact h
    · split
      · exact (pooled_stopWriter c hpooled).of_connection rfl
      · split
        · split
          · have hclosed := h.closePool (.transport .notReceived)
            obtain ⟨ready, hstep, -⟩ := closePool_eq hn (.transport .notReceived)
            refine pooled_stopWriter _ ?_
            rw [hstep]
            exact hpooled.close _
          · exact pooled_writeFrames c hpooled
        · split
          · exact (pooled_stopWriter c hpooled).of_connection rfl
          · exact h

/-! ## Every event -/

theorem Pooled.call? (h : c.Pooled) {call : Call} (hcalled : c.call? id call = .ok c') :
    c'.Pooled := by
  unfold Client.call? at hcalled
  simp only at hcalled
  by_cases hbusy : (c.operations.lookup id).isSome = true
  · rw [if_pos hbusy] at hcalled
    cases hcalled
  · rw [if_neg hbusy] at hcalled
    obtain ⟨operation, _, hrest⟩ := bind_eq_ok.mp hcalled
    cases hrest
    refine Pooled.of_link ?_ (link_wake _)
    cases call <;> exact h.of_connection rfl

theorem Pooled.leaveResult (h : c.Pooled) : (c.leaveResult id key).Pooled := by
  unfold Client.leaveResult
  split
  · exact h.of_link link_unlock
  · exact h.of_link rfl

theorem Pooled.leaveGoal (h : c.Pooled) (goal : Goal) : (c.leaveGoal id goal).Pooled := by
  cases goal with
  | page => exact h.leaveResult
  | _ => exact h

theorem Pooled.cancel (h : c.Pooled) (id : OperationId) : (c.cancel id).Pooled := by
  have hgone : ({ c with
      operations := removeEntry c.operations id
      ready := c.ready.filter (· != .operation id) } : Client).Pooled := h.of_connection rfl
  unfold Client.cancel
  simp only
  split
  · exact h
  · exact hgone.of_connection rfl
  · refine ((hgone.modifyConnection ?_).leaveStream ..).leaveGoal _
    exact fun _ hpooled => hpooled
  · exact (hgone.leaveStream ..).leaveGoal _
  · exact hgone.leaveResult
  · exact hgone.leaveResult
  · exact hgone
  · exact hgone
  · exact hgone

theorem Pooled.wakeListeners (h : c.Pooled) : c.wakeListeners.Pooled := by
  obtain ⟨ready, hwoken, -⟩ := c.wakeListeners_eq
  rw [hwoken]
  exact h.of_connection rfl

theorem Pooled.tryTake (h : c.Pooled) : (c.tryTake key).2.Pooled := by
  unfold Client.tryTake
  split
  · exact h
  · exact h.of_connection rfl

/-- Whatever happens to a client, its pool stays consistent. -/
theorem Pooled.happen (h : c.Pooled) (e : Event) : (c.happen e).Pooled := by
  cases e with
  | turn task ready =>
    have htaken : ({ c with ready } : Client).Pooled := h.of_connection rfl
    cases task with
    | operation id => exact htaken.operationTurn id
    | reader => exact htaken.readerTurn
    | writer => exact htaken.writerTurn
  | call id call =>
    rw [Client.happen]
    split
    next called => exact h.call? called
    · exact h
  | tryTake label =>
    cases hfound : c.held.lookup label with
    | some key =>
      rw [happen_tryTake hfound]
      exact h.tryTake
    | none =>
      rw [Client.happen, tryTake?, heldResult, hfound]
      exact h
  | cancel id => exact h.cancel id
  | receive bytes =>
    show (c.receive bytes).Pooled
    unfold receive
    split
    · exact h
    · exact Pooled.wakeListeners (h.of_connection rfl)
  | endSending => exact Pooled.wakeListeners (h.of_connection rfl)
  | endTaking => exact h.of_connection rfl
  | release =>
    rw [Client.happen]
    split
    next n hn =>
      have hreleased : ({ c with
          connection := some { n with reading := false, released := true } } : Client).Pooled :=
        h.of_some hn rfl fun hpooled => hpooled
      exact hreleased.of_link (link_wake _)
    · exact h
  | forget label => exact h.of_connection rfl
  | dropSession => exact h.of_connection rfl
  | clear => exact h.of_connection rfl

theorem Pooled.after (h : c.Pooled) (events : List Event) : (c.after events).Pooled := by
  induction events generalizing c with
  | nil => exact h
  | cons e events ih => exact ih (h.happen e)

/-- From the opening of a session on, the pool is consistent, whatever happens. -/
theorem pooled_after (config : SessionConfig) (id : OperationId) (events : List Event) :
    ((Client.opening config id).after events).Pooled := by
  refine Pooled.after ?_ events
  unfold opening
  split
  · exact Pooled.sendFirst ⟨fun n hn => by cases hn⟩ ..
  · exact Pooled.notOpened ⟨fun n hn => by cases hn⟩ _

end Client

end CqlClient
