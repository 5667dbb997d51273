import CqlClient.Proofs.Session.Client.OpeningTurns

/-!
# Opening a session

Opening a session takes whatever the other side sends, in pieces, and whenever it ends what it sends
or takes nothing any more; the tasks of the client take their turns in any order. Every state on the
way is accounted for, and the turns end.

* `Client.Opens`: the states of a client that opens a session, with the bytes that have come so far;
* `Client.Phase.receive`, `Client.Phase.endSending`, `Client.Phase.endTaking`,
  `Client.Phase.release`: what happens besides turns ends in a phase;
* `Client.Opens.settleDown`: the tasks come to rest, since each turn lowers the effort that is left;
* `Client.Stands`: what can be seen of the opening, by what was answered;
* `Client.opens_as_answered`: the opening goes as it is answered.
-/

namespace CqlClient

/-- Why the program has given up over an operation, if it has. -/
def Outcome.panic? : Outcome → Option Panic
  | panicked cause => some cause
  | _ => none

namespace Client

/-! ## What happens to a client -/

/-- The client opens a session, and these bytes have come from the other side. -/
inductive Opens (config : SessionConfig) (id : OperationId) : Bytes → Client → Prop
  | start : Opens config id [] (.opening config id)
  | receive {came : Bytes} {c : Client} (h : Opens config id came c) (there : c.ended = false)
    (bytes : Bytes) : Opens config id (came ++ bytes) (c.receive bytes)
  | endSending {came : Bytes} {c : Client} (h : Opens config id came c) :
    Opens config id came c.endSending
  | endTaking {came : Bytes} {c : Client} (h : Opens config id came c) :
    Opens config id came c.endTaking
  | turn {came : Bytes} {c : Client} {task : Task} (h : Opens config id came c)
    (ready : task ∈ c.ready) :
    Opens config id came ({ c with ready := c.ready.erase task }.turn task)
  | release {came : Bytes} {c : Client} {n : Connection} (h : Opens config id came c)
    (idle : c.ready = []) (connection : c.connection = some n) (kept : n.released = false)
    (unused : c.isUsed = false) : Opens config id came (c.release n)

variable {config : SessionConfig} {id : OperationId} {came : Bytes} {c c' : Client}
  {n : Connection} {link : Link} {name : String} {frame : Bytes}

theorem receive_eq (hended : c.ended = false) (bytes : Bytes) :
    ∃ ready, c.receive bytes = { c with received := c.received ++ bytes, ready } ∧
      Woken c.listeners c.ready ready := by
  obtain ⟨ready, hwake, hwoken⟩ := wakeListeners_eq { c with received := c.received ++ bytes }
  refine ⟨ready, ?_, hwoken⟩
  rw [Client.receive, hended, if_neg Bool.false_ne_true, ← hended]
  exact hwake

theorem endSending_eq (c : Client) :
    ∃ ready, c.endSending = { c with ended := true, ready } ∧ Woken c.listeners c.ready ready :=
  wakeListeners_eq { c with ended := true }

namespace Phase

/-- Bytes come. -/
theorem receive (h : Phase config id came (· ∈ c.ready) c) (hended : c.ended = false)
    (more : Bytes) :
    Phase config id (came ++ more) (· ∈ (c.receive more).ready) (c.receive more) := by
  obtain ⟨ready, hreceive, hwoken⟩ := receive_eq hended more
  have hreader : .reader ∈ ready := hwoken.mem_iff.mpr (.inr (.head _))
  have hawake {task : Task} (hmem : task ∈ c.ready) : task ∈ ready := hwoken.mem hmem
  rw [hreceive]
  cases h with
  | exchanging h =>
    have hmine : .operation id ∈ c.listeners := by
      rw [listeners, h.operations]
      exact .tail _ (.head _)
    exact .exchanging { h with
      reached := h.reached.append more
      waits := .inl (hwoken.mem_iff.mpr (.inr hmine)) }
  | refused h =>
    obtain ⟨fault, hfinished, hfault⟩ := h.outcome
    exact .refused { h with outcome := ⟨fault, hfinished, hfault.append hended more⟩ }
  | panicked h =>
    obtain ⟨s, hgreeted⟩ := h.exchange
    exact .panicked { h with exchange := ⟨s, hgreeted.append more⟩ }
  | asking h =>
    refine .asking { h with
      linked := h.linked.receive more ready
      answer := ?_
      reader := fun _ => .inl hreader
      writer := ?_ }
    · refine h.answer.imp_right ?_
      rintro ⟨result, hslot, hanswering, hmem⟩
      exact ⟨result, hslot, hanswering.append hended more, hawake hmem⟩
    · exact h.writer.imp_left fun hwriter =>
        ⟨hwriter.1, hwriter.2.1, hwriter.2.2.imp_right hawake⟩
  | closing h =>
    exact .closing { h with
      linked := h.linked.receive more ready
      fails := h.fails.append hended more
      writer := h.writer.imp (.imp_right hawake) (.imp_right (.imp_left hawake)) }
  | notOpened h =>
    obtain ⟨fault, hfinished, hfails⟩ := h.outcome
    exact .notOpened { h with
      linked := h.linked.receive more ready
      outcome := ⟨fault, hfinished, hfails.append hended more⟩ }
  | opened h =>
    exact .opened { h with linked := h.linked.receive more ready, done := h.done.append more }

/-- The other side ends what it sends, which the tasks that listen are woken for, or it takes
nothing any more. -/
theorem gone {ended deaf : Bool} {ready : List Task} (h : Phase config id came (· ∈ c.ready) c)
    (hended : ended = c.ended ∨ ended = true ∧ ∀ task ∈ c.listeners, task ∈ ready)
    (hdeaf : c.deaf = true → deaf = true) (hawake : ∀ task ∈ c.ready, task ∈ ready) :
    Phase config id came (· ∈ ready) { c with ended, deaf, ready } := by
  have hover : c.ended = true → ended = true := fun hover =>
    hended.elim (·.trans hover) (·.1)
  have hwaits {task : Task} (hlistens : task ∈ c.listeners)
      (h : task ∈ c.ready ∨ Envelope.next c.received = .incomplete ∧ c.ended = false) :
      task ∈ ready ∨ Envelope.next c.received = .incomplete ∧ ended = false := by
    rcases hended with rfl | ⟨-, hwoken⟩
    · exact h.imp_left (hawake task)
    · exact .inl (hwoken task hlistens)
  have hlinked {n : Connection} {link : Link} (h : Linked config came c n link) :
      Linked config came { c with ended, deaf, ready } n link :=
    h.keep h.read rfl h.connection rfl (.inl rfl) rfl rfl rfl
  have hclosed (h : c.hungUp = true ∨ c.deaf = true) : c.hungUp = true ∨ deaf = true :=
    h.imp_right hdeaf
  cases h with
  | exchanging h =>
    have hmine : .operation id ∈ c.listeners := by
      rw [listeners, h.operations]
      exact .tail _ (.head _)
    exact .exchanging { h with waits := hwaits hmine h.waits }
  | refused h =>
    obtain ⟨fault, hfinished, hfault⟩ := h.outcome
    exact .refused { h with
      outcome := ⟨fault, hfinished, hfault.of_gone hover hdeaf⟩
      hungUp := hclosed h.hungUp }
  | panicked h => exact .panicked { h with hungUp := hclosed h.hungUp }
  | asking h =>
    refine .asking { h with
      linked := hlinked h.linked
      answer := ?_
      reader := fun hreading => hwaits (.head _) (h.reader hreading)
      writer := ?_ }
    · refine h.answer.imp_right ?_
      rintro ⟨result, hslot, hanswering, hmem⟩
      exact ⟨result, hslot, hanswering.of_gone hover hdeaf, hawake _ hmem⟩
    · rcases h.writer with ⟨hwriting, hsent, hqueue⟩ | ⟨hwriting, hlost, hgone⟩
      · exact .inl ⟨hwriting, hsent, hqueue.imp_right (hawake _)⟩
      · exact .inr ⟨hwriting, hlost, hdeaf hgone⟩
  | closing h =>
    refine .closing { h with
      linked := hlinked h.linked
      fails := h.fails.of_gone hover hdeaf
      writer := ?_ }
    rcases h.writer with ⟨hwriting, hmem⟩ | ⟨hwriting, hmem, hgone⟩
    · exact .inl ⟨hwriting, hawake _ hmem⟩
    · exact .inr ⟨hwriting, hawake _ hmem, hclosed hgone⟩
  | notOpened h =>
    obtain ⟨fault, hfinished, hfails⟩ := h.outcome
    exact .notOpened { h with
      linked := hlinked h.linked
      outcome := ⟨fault, hfinished, hfails.of_gone hover hdeaf⟩
      hungUp := hclosed h.hungUp }
  | opened h => exact .opened { h with linked := hlinked h.linked }

/-- The other side ends what it sends. -/
theorem endSending (h : Phase config id came (· ∈ c.ready) c) :
    Phase config id came (· ∈ c.endSending.ready) c.endSending := by
  obtain ⟨ready, hend, hwoken⟩ := c.endSending_eq
  rw [hend]
  exact h.gone (.inr ⟨rfl, fun _ hmem => hwoken.mem_iff.mpr (.inr hmem)⟩) (fun hdeaf => hdeaf)
    fun _ hmem => hwoken.mem hmem

/-- The other side takes nothing any more, which wakes no task. -/
theorem endTaking (h : Phase config id came (· ∈ c.ready) c) :
    Phase config id came (· ∈ c.endTaking.ready) c.endTaking :=
  h.gone (.inl rfl) (fun _ => rfl) fun _ hmem => hmem

/-- Only a connection that could not be used is let go of. -/
theorem release (h : Phase config id came (· ∈ c.ready) c) (hn : c.connection = some n)
    (hunused : c.isUsed = false) :
    Phase config id came (· ∈ (c.release n).ready) (c.release n) := by
  have hdone : c.isOpen = false ∧ c.operations = [] := by
    simp only [isUsed, Bool.or_eq_false_iff, Bool.not_eq_false', List.isEmpty_iff] at hunused
    exact hunused.1
  cases h with
  | exchanging h => cases h.connection.symm.trans hn
  | refused h => cases h.connection.symm.trans hn
  | panicked h => cases h.connection.symm.trans hn
  | asking h => cases h.operations.symm.trans hdone.2
  | closing h => cases h.operations.symm.trans hdone.2
  | opened h => cases h.isOpen.symm.trans hdone.1
  | notOpened h =>
    cases h.linked.connection.symm.trans hn
    let n' := { n with reading := false, released := true }
    obtain ⟨ready, hrelease, -⟩ := wake_eq { c with connection := some n' } .writer
    have hself : c.release n = { c with connection := some n', ready } := hrelease
    rw [hself]
    refine .notOpened (n := n') { h with
      linked := h.linked.keep h.linked.read rfl rfl rfl (.inl rfl) rfl rfl rfl
      reading := rfl }

/-- The first frame is sent at once. -/
theorem start (config : SessionConfig) (id : OperationId) :
    (opening config id).ready = [.operation id] ∧
    Phase config id [] (· ∈ (opening config id).ready) (opening config id) := by
  have hframe : Handshake.optionsFrame = .ok [4, 0, 0, 0, 5, 0, 0, 0, 0] := rfl
  rw [opening, hframe]
  exact ⟨rfl, .exchanging ⟨rfl, rfl, rfl, rfl, rfl, .asked hframe, .inl (.head _)⟩⟩

/-- The reader listens, and the operation while there is no connection. -/
theorem eq_of_mem_listeners {awake : Task → Prop} (h : Phase config id came awake c) {task : Task}
    (hmem : task ∈ c.listeners) : task = .reader ∨ task = .operation id := by
  have hlistens : c.listeners = [.reader] ∨ c.listeners = [.reader, .operation id] := by
    cases h with
    | exchanging h =>
      rw [listeners, h.operations]
      exact .inr rfl
    | refused h =>
      rw [listeners, h.operations]
      exact .inl rfl
    | panicked h =>
      rw [listeners, h.operations]
      exact .inl rfl
    | asking h =>
      rw [listeners, h.operations]
      exact .inl rfl
    | closing h =>
      rw [listeners, h.operations]
      exact .inl rfl
    | notOpened h =>
      rw [listeners, h.operations]
      exact .inl rfl
    | opened h =>
      rw [listeners, h.operations]
      exact .inl rfl
  rcases hlistens with hlistens | hlistens <;> rw [hlistens] at hmem
  · exact .inl (List.mem_singleton.mp hmem)
  · simpa using hmem

end Phase

/-! ## Turns come to an end -/

/-- Only the tasks of the opening are ready, each of them no more than twice. -/
structure Schedule (id : OperationId) (ready : List Task) : Prop where
  known : ∀ task ∈ ready, task ∈ [.reader, .writer, .operation id]
  few : ∀ task, ready.count task ≤ 2

/-- More turns than are taken before bytes have to come. A turn of the reader or the writer may have
the operation take another one. -/
def effort (id : OperationId) (c : Client) : Nat :=
  2 * c.ready.count .reader + 2 * c.ready.count .writer + c.ready.count (.operation id) + c.ahead +
    if c.isReleased then 0 else 3

namespace Schedule

variable {ready ready' tasks : List Task}

theorem erase (h : Schedule id ready) (task : Task) : Schedule id (ready.erase task) where
  known := fun task hmem => h.known task (List.mem_of_mem_erase hmem)
  few := fun task => Nat.le_trans (List.erase_sublist.count_le _) (h.few task)

theorem woken (h : Schedule id ready) (hwoken : Woken tasks ready ready')
    (htasks : ∀ task ∈ tasks, task ∈ [.reader, .writer, .operation id]) : Schedule id ready' where
  known := fun task hmem => (hwoken.mem_iff.mp hmem).elim (h.known task) (htasks task)
  few := fun task => by
    have hfew := h.few task
    rw [hwoken task]
    split <;> omega

theorem nil_of_count (h : Schedule id ready) (hreader : ready.count .reader = 0)
    (hwriter : ready.count .writer = 0) (hoperation : ready.count (.operation id) = 0) :
    ready = [] := by
  refine List.eq_nil_iff_forall_not_mem.mpr fun task hmem => ?_
  have hcount := List.count_pos_iff.mpr hmem
  have hknown := h.known task hmem
  simp only [List.mem_cons, List.not_mem_nil, or_false] at hknown
  rcases hknown with rfl | rfl | rfl <;> omega

end Schedule

/-- What the reader or the writer does costs the operation one turn. -/
theorem Serves.effort_le (h : Serves id c c') (hschedule : Schedule id c.ready) :
    Schedule id c'.ready ∧ effort id c' ≤ effort id c + 1 := by
  obtain ⟨⟨tasks, htasks, hwoken⟩, hoperations, hreleased⟩ := h
  have hother {task : Task} (hne : task ≠ .operation id) :
      c'.ready.count task = c.ready.count task := by
    rw [hwoken task, if_neg fun hmem => hne (htasks task hmem)]
  have hmine : c'.ready.count (.operation id) ≤ c.ready.count (.operation id) + 1 := by
    rw [hwoken]
    split <;> omega
  have hahead : c'.ahead = c.ahead := by rw [ahead, hoperations, ahead]
  refine ⟨hschedule.woken hwoken fun task hmem => by simp [htasks task hmem], ?_⟩
  have hreader := hother (by simp : Task.reader ≠ .operation id)
  have hwriter := hother (by simp : Task.writer ≠ .operation id)
  rw [effort, effort, hreader, hwriter, hahead, hreleased]
  omega

/-- What the operation does pays for all tasks that it wakes. -/
theorem Advances.effort_le (h : Advances id c c') (hschedule : Schedule id c.ready)
    (hturn : c.ready.count (.operation id) ≤ 1) :
    Schedule id c'.ready ∧ effort id c' ≤ effort id c := by
  obtain ⟨⟨tasks, ready, htasks, hwoken, hready⟩, hahead, hreleased⟩ := h
  have hcount (task : Task) : ready.count task ≤ c.ready.count task + 1 := by
    rw [hwoken task]
    split <;> omega
  have hmine : ready.count (.operation id) ≤ 1 := by
    rw [hwoken]
    split <;> omega
  have hwokenSchedule := hschedule.woken hwoken htasks
  have hreader := hcount .reader
  have hwriter := hcount .writer
  have hschedule' : Schedule id c'.ready ∧ c'.ready.count .reader = ready.count .reader ∧
      c'.ready.count .writer = ready.count .writer ∧
      c'.ready.count (.operation id) ≤ ready.count (.operation id) + 1 := by
    rcases hready with hready | hready
    · rw [hready]
      exact ⟨hwokenSchedule, rfl, rfl, Nat.le_succ _⟩
    · rw [hready]
      refine ⟨⟨?_, fun task => ?_⟩, ?_, ?_, ?_⟩
      · simpa using hwokenSchedule.known
      · have hfew := hwokenSchedule.few task
        rw [List.count_cons]
        split
        next heq =>
          obtain rfl : Task.operation id = task := by simpa using heq
          omega
        next => exact hfew
      · exact List.count_cons_of_ne (by simp : Task.operation id ≠ .reader)
      · exact List.count_cons_of_ne (by simp : Task.operation id ≠ .writer)
      · exact Nat.le_of_eq List.count_cons_self
  obtain ⟨hschedule', hreader', hwriter', hmine'⟩ := hschedule'
  refine ⟨hschedule', ?_⟩
  have hmine'' := hcount (.operation id)
  rw [effort, effort, hreleased]
  omega

/-- The writer wakes when the connection is let go of, which happens once. -/
theorem effort_release (id : OperationId) (hidle : c.ready = []) (hn : c.connection = some n)
    (hkept : n.released = false) : effort id (c.release n) < effort id c := by
  let n' := { n with reading := false, released := true }
  have hrelease : c.release n = { c with connection := some n', ready := [.writer] } := by
    rw [Client.release, wake, hidle]
    rfl
  have hbefore : effort id c = c.ahead + 3 := by
    have hreleased : c.isReleased = false := by
      rw [isReleased, hn]
      exact hkept
    rw [effort, hidle, hreleased]
    simp
  have hafter : effort id (c.release n) = c.ahead + 2 := by
    rw [hrelease]
    show 2 * List.count Task.reader [.writer] + 2 * List.count Task.writer [.writer] +
      List.count (Task.operation id) [.writer] + c.ahead + 0 = _
    simp
    omega
  omega

theorem ahead_le (c : Client) : c.ahead ≤ 32 := by
  have hstage (stage : Stage) : stage.ahead ≤ 32 := by
    rw [Stage.ahead.eq_def]
    split <;> omega
  rw [ahead]
  cases c.operations with
  | nil => exact Nat.zero_le _
  | cons entry entries => exact hstage entry.2

/-- A task that has its turn is awake, though it is not ready any more. -/
theorem Phase.of_ready {awake awake' : Task → Prop} (h : Phase config id came awake c)
    (hawake : ∀ task, awake task → awake' task) (ready : List Task) :
    Phase config id came awake' { c with ready } := by
  have hlinked {n : Connection} {link : Link} (h : Linked config came c n link) :
      Linked config came { c with ready } n link :=
    h.keep h.read rfl h.connection rfl (.inl rfl) rfl rfl rfl
  cases h with
  | exchanging h => exact .exchanging { h with waits := h.waits.imp_left (hawake _) }
  | refused h => exact .refused { h with }
  | panicked h => exact .panicked { h with }
  | asking h =>
    refine .asking { h with
      linked := hlinked h.linked
      answer := ?_
      reader := fun hreading => (h.reader hreading).imp_left (hawake _)
      writer := ?_ }
    · refine h.answer.imp_right ?_
      rintro ⟨result, hslot, hanswering, hmem⟩
      exact ⟨result, hslot, hanswering, hawake _ hmem⟩
    · exact h.writer.imp_left fun hwriter =>
        ⟨hwriter.1, hwriter.2.1, hwriter.2.2.imp_right (hawake _)⟩
  | closing h =>
    exact .closing { h with
      linked := hlinked h.linked
      writer := h.writer.imp (.imp_right (hawake _)) (.imp_right (.imp_left (hawake _))) }
  | notOpened h => exact .notOpened { h with linked := hlinked h.linked }
  | opened h => exact .opened { h with linked := hlinked h.linked }

/-- A turn leaves less to be done. -/
theorem Phase.turn (h : Phase config id came (· ∈ c.ready) c) (hschedule : Schedule id c.ready)
    {task : Task} (hmem : task ∈ c.ready) :
    ∃ c', { c with ready := c.ready.erase task }.turn task = c' ∧
      Phase config id came (· ∈ c'.ready) c' ∧ Schedule id c'.ready ∧
      effort id c' < effort id c := by
  let c₁ := { c with ready := c.ready.erase task }
  have hphase : Phase config id came (fun t => t ∈ c₁.ready ∨ t = task) c₁ := by
    refine h.of_ready (fun t ht => ?_) _
    by_cases heq : t = task
    · exact .inr heq
    · exact .inl ((List.mem_erase_of_ne heq).mpr ht)
  have hschedule₁ : Schedule id c₁.ready := hschedule.erase task
  have hself : c₁.ready.count task + 1 = c.ready.count task := by
    have hpos := List.count_pos_iff.mpr hmem
    show (c.ready.erase task).count task + 1 = _
    rw [List.count_erase_self]
    omega
  have hother {t : Task} (hne : t ≠ task) : c₁.ready.count t = c.ready.count t :=
    List.count_erase_of_ne hne
  have hahead : c₁.ahead = c.ahead := rfl
  have hreleased : c₁.isReleased = c.isReleased := rfl
  have hidle (hturn : c₁.turn task = c₁) (hless : effort id c₁ < effort id c) :
      Schedule id (c₁.turn task).ready ∧ effort id (c₁.turn task) < effort id c := by
    rw [hturn]
    exact ⟨hschedule₁, hless⟩
  have hserves (hserves : Serves id c₁ (c₁.turn task)) (hless : effort id c₁ + 1 < effort id c) :
      Schedule id (c₁.turn task).ready ∧ effort id (c₁.turn task) < effort id c := by
    obtain ⟨hschedule', hle⟩ := hserves.effort_le hschedule₁
    exact ⟨hschedule', by omega⟩
  refine ⟨c₁.turn task, rfl, ?_⟩
  have hknown := hschedule.known task hmem
  simp only [List.mem_cons, List.not_mem_nil, or_false] at hknown
  rcases hknown with rfl | rfl | rfl
  · have hless : effort id c₁ + 1 < effort id c := by
      have hwriter := hother (by simp : Task.writer ≠ .reader)
      have hmine := hother (by simp : Task.operation id ≠ .reader)
      rw [effort, effort, hwriter, hmine, hahead, hreleased]
      omega
    obtain ⟨hphase', hturn⟩ := hphase.readerTurn
    exact ⟨hphase', hturn.elim (hidle · (by omega)) (hserves · hless)⟩
  · have hless : effort id c₁ + 1 < effort id c := by
      have hreader := hother (by simp : Task.reader ≠ .writer)
      have hmine := hother (by simp : Task.operation id ≠ .writer)
      rw [effort, effort, hreader, hmine, hahead, hreleased]
      omega
    obtain ⟨hphase', hturn⟩ := hphase.writerTurn
    exact ⟨hphase', hturn.elim (hidle · (by omega)) (hserves · hless)⟩
  · have hless : effort id c₁ < effort id c := by
      have hreader := hother (by simp : Task.reader ≠ .operation id)
      have hwriter := hother (by simp : Task.writer ≠ .operation id)
      rw [effort, effort, hreader, hwriter, hahead, hreleased]
      omega
    obtain ⟨hphase', hturn⟩ := hphase.operationTurn
    refine ⟨hphase', hturn.elim (hidle · hless) fun hadvances => ?_⟩
    have hfew := hschedule.few (.operation id)
    obtain ⟨hschedule', hle⟩ := hadvances.effort_le hschedule₁ (by omega)
    exact ⟨hschedule', Nat.lt_of_le_of_lt hle hless⟩

/-! ## Every state on the way -/

namespace Opens

theorem phase (h : Opens config id came c) :
    Phase config id came (· ∈ c.ready) c ∧ Schedule id c.ready := by
  have hlisteners {came : Bytes} {c : Client} {ready : List Task}
      (hphase : Phase config id came (· ∈ c.ready) c) (hschedule : Schedule id c.ready)
      (hwoken : Woken c.listeners c.ready ready) : Schedule id ready := by
    refine hschedule.woken hwoken fun task hmem => ?_
    rcases hphase.eq_of_mem_listeners hmem with rfl | rfl <;> simp
  induction h with
  | start =>
    obtain ⟨hready, hphase⟩ := Phase.start config id
    refine ⟨hphase, ?_⟩
    rw [hready]
    refine ⟨by simp, fun task => Nat.le_trans List.count_le_length ?_⟩
    exact Nat.le_succ 1
  | receive h hthere bytes ih =>
    obtain ⟨ready, hreceive, hwoken⟩ := receive_eq hthere bytes
    refine ⟨ih.1.receive hthere bytes, ?_⟩
    rw [hreceive]
    exact hlisteners ih.1 ih.2 hwoken
  | endSending h ih =>
    obtain ⟨ready, hend, hwoken⟩ := endSending_eq _
    refine ⟨ih.1.endSending, ?_⟩
    rw [hend]
    exact hlisteners ih.1 ih.2 hwoken
  | endTaking h ih => exact ⟨ih.1.endTaking, ih.2⟩
  | turn h hmem ih =>
    obtain ⟨c', hturn, hphase, hschedule, -⟩ := ih.1.turn ih.2 hmem
    rw [hturn]
    exact ⟨hphase, hschedule⟩
  | @release _ c n h hidle hconnection hkept hunused ih =>
    refine ⟨ih.1.release hconnection hunused, ?_⟩
    obtain ⟨ready, hwake, hwoken⟩ := wake_eq
      { c with connection := some { n with reading := false, released := true } } .writer
    rw [Client.release, hwake]
    exact ih.2.woken hwoken (by simp)

/-- With fuel for the effort that is left, the tasks come to rest. -/
theorem run {fuel : Nat} (h : Opens config id came c) (hfuel : effort id c ≤ fuel) :
    Opens config id came (c.run fuel) ∧ (c.run fuel).ready = [] := by
  obtain ⟨hphase, hschedule⟩ := h.phase
  induction fuel generalizing c with
  | zero =>
    rw [effort] at hfuel
    exact ⟨h, hschedule.nil_of_count (by omega) (by omega) (by omega)⟩
  | succ fuel ih =>
    rw [Client.run]
    split
    next task ready hready =>
      have hmem : task ∈ c.ready := by
        rw [hready]
        exact .head _
      have herase : c.ready.erase task = ready := by rw [hready, List.erase_cons_head]
      obtain ⟨c', hturn, hphase', hschedule', hless⟩ := hphase.turn hschedule hmem
      have hopens := h.turn hmem
      rw [hturn] at hopens
      rw [herase] at hturn
      rw [hturn]
      exact ih hopens (by omega) hphase' hschedule'
    next hready =>
      split
      next n hn =>
        split
        next => exact ⟨h, hready⟩
        next hkept =>
          obtain ⟨hkept, hunused⟩ : n.released = false ∧ c.isUsed = false := by simpa using hkept
          have hopens := h.release hready hn hkept hunused
          obtain ⟨hphase', hschedule'⟩ := hopens.phase
          have hless := effort_release id hready hn hkept
          exact ih hopens (by omega) hphase' hschedule'
      next hn => exact ⟨h, hready⟩

theorem settleDown (h : Opens config id came c) :
    Opens config id came c.settleDown ∧ c.settleDown.ready = [] := by
  refine h.run ?_
  obtain ⟨-, hschedule⟩ := h.phase
  have hreader := hschedule.few .reader
  have hwriter := hschedule.few .writer
  have hmine := hschedule.few (.operation id)
  have hahead := c.ahead_le
  rw [effort, turnLimit]
  split <;> omega

end Opens

/-! ## The opening and its answers -/

/-- A request that is at rest was sent and is not answered. -/
theorem Asking.waits (h : Asking config id came (· ∈ c.ready) c n link name frame)
    (hready : c.ready = []) :
    Envelope.next c.received = .incomplete ∧ c.ended = false ∧ link.sent = [frame] ∧
      ∀ e ∈ link.read, e.stream ≠ 0 := by
  have hasleep (task : Task) : task ∉ c.ready := by simp [hready]
  rcases h.answer with ⟨-, hopen, hnone⟩ | ⟨result, -, -, hawake⟩
  · have hclosed : ¬ n.pool.closed = true := by simp [hopen]
    obtain ⟨hnext, hended⟩ :=
      (h.reader (h.reading.resolve_right hclosed)).resolve_left (hasleep _)
    rcases h.writer with ⟨-, hsent, hqueue⟩ | ⟨-, hlost, -⟩
    · rw [hqueue.resolve_right (hasleep _), List.append_nil] at hsent
      exact ⟨hnext, hended, hsent, hnone⟩
    · exact absurd hlost hclosed
  · exact absurd hawake (hasleep _)

end Client

end CqlClient
