import CqlClient.Proofs.Keyspace.Statement
import CqlClient.Proofs.Session.Client.Turns
import CqlClient.Proofs.Session.ResultSet
import CqlClient.Proofs.Session.Handshake

/-!
# The first keyspace of a session

A session that is to begin on a keyspace asks for it with the first request of its connection. What
the request is, how it may be answered and what the session makes of each answer:

* `FirstUse`: the name, the request and the frame;
* `Answering`: what the request may find on its stream, by the envelopes that have come and by what
  has become of the connection;
* `UseRefused`, `KeyspaceFault.OfUse`: why an answer is of no use, and what the caller is told;
* `UseFails`, `UseDone`: why the keyspace cannot be used, and that it is;
* `Client.operationTurn_answered`: what is made of an answer;
* `Client.establish_eq`, `Client.startKeyspace_cases`: a connection begins with the request, without
  it, or is given up.
-/

namespace CqlClient

/-! ## The request -/

/-- What a keyspace is asked for with: a statement without values, under the options of the
session. -/
def SessionConfig.useSource (config : SessionConfig) (name : String) : PageSource :=
  ⟨.text ("USE \"" ++ name ++ "\""), .empty, config.queryOptions⟩

def KeyspaceTask.first (name : String) : KeyspaceTask := ⟨name, some .invalid, true⟩

/-- The session is to use the keyspace, its name is plain, and the request fits a frame. -/
structure FirstUse (config : SessionConfig) (name : String) (frame : Bytes) : Prop where
  keyspace : config.keyspace = some name
  plain : Keyspace.IsPlainName name
  framed : ∃ request, (config.useSource name).Requested none request ∧
    request.frame config.queryOptions.tracing 0 = .ok frame

/-- The frame asks for the keyspace of the session. -/
def IsUse (config : SessionConfig) (frame : Bytes) : Prop := ∃ name, FirstUse config name frame

/-! ## The connection -/

/-- There is a queue of that many frames, and a buffer of that many bytes. -/
structure ConnectionConfig.Fits (config : ConnectionConfig) : Prop where
  nonempty : 1 ≤ config.writeQueueCapacity
  queue : config.writeQueueCapacity < 2 ^ 61
  buffer : config.bufferSize < 2 ^ 63

/-- What is wrong with a configuration that no connection can be set up with. -/
inductive ConnectionConfig.Unfit (config : ConnectionConfig) : Panic → Prop
  | emptyQueue (empty : config.writeQueueCapacity = 0) : Unfit config .emptyQueue
  | wideQueue (wide : 2 ^ 61 ≤ config.writeQueueCapacity) : Unfit config .wideQueue
  | wideBuffer (nonempty : 1 ≤ config.writeQueueCapacity)
    (queue : config.writeQueueCapacity < 2 ^ 61) (wide : 2 ^ 63 ≤ config.bufferSize) :
    Unfit config .wideBuffer

theorem ConnectionConfig.fits_or_unfit (config : ConnectionConfig) :
    (config.panic? = none ∧ config.Fits) ∨
      ∃ cause, config.panic? = some cause ∧ config.Unfit cause := by
  unfold panic? maxQueueCapacity maxBufferSize
  split
  next hempty => exact .inr ⟨_, rfl, .emptyQueue hempty⟩
  next hnonempty =>
    split
    next hwide => exact .inr ⟨_, rfl, .wideQueue (by omega)⟩
    next hqueue =>
      split
      next hwide => exact .inr ⟨_, rfl, .wideBuffer (by omega) (by omega) (by omega)⟩
      next hbuffer => exact .inl ⟨rfl, by omega, by omega, by omega⟩

/-- A connection that nothing was asked on. -/
def Connection.fresh (config : ConnectionConfig) (s : Supported) : Connection where
  pool := .new config.maxStreams
  extensions := .ofSupported s
  sharding := Sharding.ofSupported? s
  queue := []
  senders := []
  granted := 0
  reading := true
  writing := true
  stopping := false
  released := false

/-! ## The answer -/

/-- What the request finds on stream 0, by the envelopes that the connection has read, by the bytes
that it has not, and by whether the other side has ended what it sends or takes nothing any more. -/
inductive Answering (es : List Envelope) (unread : Bytes) (ended deaf : Bool) :
    Except CallFault Envelope → Prop
  | answered {e : Envelope} (mem : e ∈ es) (stream : e.stream = 0) :
    Answering es unread ended deaf (.ok e)
  /-- An envelope has come for what was answered, or lost, already. -/
  | twice {e : Envelope} (mem : e ∈ es) (stream : e.stream = 0)
    (again : 2 ≤ es.countP (·.stream = 0) ∨ deaf = true) :
    Answering es unread ended deaf (.error (.violation (.completedTwice 0)))
  | lost {fault : TransportFault} (ends : Client.ReadingEnds unread ended fault) :
    Answering es unread ended deaf (.error (.transport fault))
  | unsent (gone : deaf = true) : Answering es unread ended deaf (.error (.transport .notReceived))

/-- The answer is a result that the statement can have. -/
def UseAccepted (config : SessionConfig) (e : Extensions) (name : String) (answer : Envelope) :
    Prop :=
  ∃ response result set, Response.ofEnvelope e config.depthLimit answer = .ok response ∧
    response.body = .result result ∧
    ResultSet.ofResult result response (config.useSource name) = .ok set

/-- Why that which the request finds is of no use. -/
inductive UseRefused (config : SessionConfig) (e : Extensions) (name : String) :
    Except CallFault Envelope → ExecutionFault → Prop
  | unanswered {fault : CallFault} : UseRefused config e name (.error fault) (.call fault)
  | malformed {answer : Envelope} {fault : FrameFault}
    (malformed : Response.ofEnvelope e config.depthLimit answer = .error fault) :
    UseRefused config e name (.ok answer) (.call (.violation (.malformed fault)))
  | database {answer : Envelope} {response : Response} {error : DatabaseError}
    (read : Response.ofEnvelope e config.depthLimit answer = .ok response)
    (reports : response.Reports error) : UseRefused config e name (.ok answer) (.database error)
  | unexpected {answer : Envelope} {response : Response}
    (read : Response.ofEnvelope e config.depthLimit answer = .ok response)
    (noError : ∀ error, ¬ response.Reports error)
    (noResult : ∀ result, response.body ≠ .result result) :
    UseRefused config e name (.ok answer) (.call (.violation (.unexpected response.body.name)))
  | unusable {answer : Envelope} {response : Response} {result : Result} {fault : ExecutionFault}
    (read : Response.ofEnvelope e config.depthLimit answer = .ok response)
    (body : response.body = .result result)
    (unusable : ResultSet.ofResult result response (config.useSource name) = .error fault) :
    UseRefused config e name (.ok answer) fault

/-- What a caller that has asked for a keyspace is told: some errors of the server are about the
keyspace. -/
inductive KeyspaceFault.OfUse (name : String) : ExecutionFault → KeyspaceFault → Prop
  | alreadyExists {e : DatabaseError} (code : e.error.code = 0x2400) :
    OfUse name (.database e) (.alreadyExists name e)
  | doesNotExist {e : DatabaseError} (code : e.error.code = 0x2200) :
    OfUse name (.database e) (.doesNotExist name e)
  | database {e : DatabaseError} (code : e.error.code ≠ 0x2400 ∧ e.error.code ≠ 0x2200) :
    OfUse name (.database e) (.other (.database e))
  | other {fault : ExecutionFault} (cause : ∀ e, fault ≠ .database e) :
    OfUse name fault (.other fault)

/-- Why a session cannot use its keyspace: the name, the request, or what became of it. -/
inductive UseFails (config : SessionConfig) (e : Extensions) (after : Bytes) (ended deaf : Bool) :
    KeyspaceFault → Prop
  | invalid {name : String} (keyspace : config.keyspace = some name)
    (notPlain : ¬ Keyspace.IsPlainName name) :
    UseFails config e after ended deaf (.other (.invalidKeyspace ⟨name⟩))
  | unframed {name : String} {request : Request} {fault : RequestFault}
    (keyspace : config.keyspace = some name) (plain : Keyspace.IsPlainName name)
    (requested : (config.useSource name).Requested none request)
    (unframed : request.frame config.queryOptions.tracing 0 = .error fault) :
    UseFails config e after ended deaf (.other (.call (.invalid fault)))
  | answered {name : String} {frame unread : Bytes} {es : List Envelope}
    {result : Except CallFault Envelope} {fault : ExecutionFault} {told : KeyspaceFault}
    (use : FirstUse config name frame) (read : Envelope.Framed after es unread)
    (answering : Answering es unread ended deaf result)
    (refused : UseRefused config e name result fault)
    (tells : KeyspaceFault.OfUse name fault told) :
    UseFails config e after ended deaf told

/-- The session has no keyspace to use, or its request was answered with a result. -/
def UseDone (config : SessionConfig) (e : Extensions) (after : Bytes) : Prop :=
  config.keyspace = none ∨
    ∃ name frame es unread answer, FirstUse config name frame ∧
      Envelope.Framed after es unread ∧ answer ∈ es ∧ answer.stream = 0 ∧
      UseAccepted config e name answer

/-! ## What is made of an answer -/

/-- The result that a response gives to a statement. -/
def PageSource.resultOf (source : PageSource) (response : Response) :
    Except ExecutionFault ResultSet :=
  match response.body with
  | .result result => ResultSet.ofResult result response source
  | body => .error (.call (.violation (.unexpected body.name)))

/-- The result that the request for a keyspace has, by what it finds. -/
def SessionConfig.useResult (config : SessionConfig) (e : Extensions) (name : String) :
    Except CallFault Envelope → Except ExecutionFault ResultSet
  | .error fault => .error (.call fault)
  | .ok answer =>
    match Response.ofEnvelope e config.depthLimit answer with
    | .error fault => .error (.call (.violation (.malformed fault)))
    | .ok response =>
      match response.ok with
      | .error error => .error (.database error)
      | .ok response => (config.useSource name).resultOf response

theorem ErrorCode.ofCode?_eq_some {code : UInt32} {c : ErrorCode} :
    ofCode? code = some c ↔ code = c.code := by
  constructor
  · intro h
    have hcode := List.find?_some h
    exact (beq_iff_eq.mp hcode).symm
  · rintro rfl
    exact ofCode?_code c

theorem KeyspaceFault.ofUse_keyspaceFault (name : String) (fault : ExecutionFault) :
    OfUse name fault (Client.keyspaceFault (.first name) fault) := by
  cases fault with
  | database e =>
    have hknown (c : ErrorCode) : e.error.known? = some c ↔ e.error.code = c.code :=
      ErrorCode.ofCode?_eq_some
    have hexists := hknown .alreadyExists
    have hinvalid := hknown .invalid
    rw [Client.keyspaceFault]
    split
    next hcode => exact .alreadyExists (hexists.mp hcode)
    next code hother hcode =>
      split
      next habsent =>
        rw [habsent] at hcode
        exact .doesNotExist (hinvalid.mp hcode)
      next hpresent =>
        refine .database ⟨fun h => hother ?_, fun h => hpresent ?_⟩
        · exact Option.some.inj (hcode.symm.trans (hexists.mpr h))
        · exact hcode.symm.trans (hinvalid.mpr h)
    next hcode =>
      refine .database ⟨fun h => ?_, fun h => ?_⟩
      · cases hcode.symm.trans (hexists.mpr h)
      · cases hcode.symm.trans (hinvalid.mpr h)
  | call fault => exact .other nofun
  | row fault => exact .other nofun
  | invalidKeyspace e => exact .other nofun

section Answers

variable {config : SessionConfig} {e : Extensions} {name : String}

theorem useRefused_of_useResult {found : Except CallFault Envelope} {fault : ExecutionFault}
    (h : config.useResult e name found = .error fault) : UseRefused config e name found fault := by
  unfold SessionConfig.useResult at h
  split at h
  next =>
    cases h
    exact .unanswered
  next answer =>
    split at h
    next malformed =>
      cases h
      exact .malformed malformed
    next response hread =>
      rcases response.ok_cases with hok | ⟨error, herror⟩
      · have hnoError (error : DatabaseError) : ¬ response.Reports error := fun hreports => by
          cases hok.symm.trans (Response.ok_eq_error.mpr hreports)
        rw [hok] at h
        simp only [PageSource.resultOf] at h
        split at h
        next hbody => exact .unusable hread hbody h
        next hnoResult =>
          cases h
          exact .unexpected hread hnoError hnoResult
      · rw [herror] at h
        cases h
        exact .database hread (Response.ok_eq_error.mp herror)

theorem useAccepted_of_useResult {answer : Envelope} {set : ResultSet}
    (h : config.useResult e name (.ok answer) = .ok set) : UseAccepted config e name answer := by
  simp only [SessionConfig.useResult] at h
  split at h
  next => cases h
  next response hread =>
    rcases response.ok_cases with hok | ⟨error, herror⟩
    · rw [hok] at h
      simp only [PageSource.resultOf] at h
      split at h
      next result hbody => exact ⟨response, result, set, hread, hbody, h⟩
      next => cases h
    · rw [herror] at h
      cases h

end Answers

/-! ## What comes later -/

section Monotone

variable {config : SessionConfig} {e : Extensions} {es : List Envelope} {unread after : Bytes}
  {ended ended' deaf deaf' : Bool} {result : Except CallFault Envelope} {fault : KeyspaceFault}

theorem Client.ReadingEnds.append {fault : TransportFault} (h : ReadingEnds unread ended fault)
    (hended : ended = false) (more : Bytes) : ReadingEnds (unread ++ more) ended fault := by
  cases h with
  | closedByPeer hnext hgone => cases hended.symm.trans hgone
  | malformed hnext => exact .malformed (Envelope.next_malformed_append hnext more)

theorem Client.ReadingEnds.of_gone {fault : TransportFault} (h : ReadingEnds unread ended fault)
    (hended : ended = true → ended' = true) : ReadingEnds unread ended' fault := by
  cases h with
  | closedByPeer hnext hgone => exact .closedByPeer hnext (hended hgone)
  | malformed hnext => exact .malformed hnext

/-- As long as an envelope can be read, the reading goes on. -/
theorem Client.not_readingEnds_of_read {e : Envelope} {rest : Bytes} {fault : TransportFault}
    (he : Envelope.read unread = .ok e rest) : ¬ ReadingEnds unread ended fault := by
  have hnext := Envelope.next_eq_frame.mpr he
  intro h
  cases h with
  | closedByPeer hnone => cases hnext.symm.trans hnone
  | malformed hbad => cases hnext.symm.trans hbad

theorem Answering.append (h : Answering es unread ended deaf result) (hended : ended = false)
    (more : Bytes) : Answering es (unread ++ more) ended deaf result := by
  cases h with
  | answered hmem hstream => exact .answered hmem hstream
  | twice hmem hstream hagain => exact .twice hmem hstream hagain
  | lost hends => exact .lost (hends.append hended more)
  | unsent hgone => exact .unsent hgone

theorem Answering.of_gone (h : Answering es unread ended deaf result)
    (hended : ended = true → ended' = true) (hdeaf : deaf = true → deaf' = true) :
    Answering es unread ended' deaf' result := by
  cases h with
  | answered hmem hstream => exact .answered hmem hstream
  | twice hmem hstream hagain => exact .twice hmem hstream (hagain.imp_right hdeaf)
  | lost hends => exact .lost (hends.of_gone hended)
  | unsent hgone => exact .unsent (hdeaf hgone)

/-- Reading on does not change what the request finds. -/
theorem Answering.read {e : Envelope} {rest : Bytes} (h : Answering es unread ended deaf result)
    (he : Envelope.read unread = .ok e rest) : Answering (es ++ [e]) rest ended deaf result := by
  cases h with
  | answered hmem hstream => exact .answered (List.mem_append_left _ hmem) hstream
  | twice hmem hstream hagain =>
    refine .twice (List.mem_append_left _ hmem) hstream (hagain.imp_left fun h => ?_)
    rw [List.countP_append]
    omega
  | lost hends => exact absurd hends (Client.not_readingEnds_of_read he)
  | unsent hgone => exact .unsent hgone

/-- What the request finds is spoiled by another envelope on its stream. -/
theorem Answering.again {e : Envelope} {rest : Bytes} (h : Answering es unread ended deaf result)
    (he : Envelope.read unread = .ok e rest) (hstream : e.stream = 0) :
    Answering (es ++ [e]) rest ended deaf (.error (.violation (.completedTwice 0))) := by
  refine .twice (List.mem_append_right _ (List.mem_singleton_self e)) hstream ?_
  have hcount : (es ++ [e]).countP (·.stream = 0) = es.countP (·.stream = 0) + 1 := by
    rw [List.countP_append, List.countP_singleton, if_pos (decide_eq_true hstream)]
  have hpos {e' : Envelope} (hmem : e' ∈ es) (hstream' : e'.stream = 0) :
      0 < es.countP (·.stream = 0) :=
    List.countP_pos_iff.mpr ⟨e', hmem, decide_eq_true hstream'⟩
  cases h with
  | answered hmem' hstream₀ =>
    have hfirst := hpos hmem' hstream₀
    exact .inl (by omega)
  | twice hmem' hstream₀ hagain =>
    have hfirst := hpos hmem' hstream₀
    exact .inl (by omega)
  | lost hends => exact absurd hends (Client.not_readingEnds_of_read he)
  | unsent hgone => exact .inr hgone

theorem UseFails.append (h : UseFails config e after ended deaf fault) (hended : ended = false)
    (more : Bytes) : UseFails config e (after ++ more) ended deaf fault := by
  cases h with
  | invalid hkeyspace hnotPlain => exact .invalid hkeyspace hnotPlain
  | unframed hkeyspace hplain hrequested hunframed =>
    exact .unframed hkeyspace hplain hrequested hunframed
  | answered huse hread hanswering hrefused htells =>
    exact .answered huse (hread.append more) (hanswering.append hended more) hrefused htells

theorem UseFails.of_gone (h : UseFails config e after ended deaf fault)
    (hended : ended = true → ended' = true) (hdeaf : deaf = true → deaf' = true) :
    UseFails config e after ended' deaf' fault := by
  cases h with
  | invalid hkeyspace hnotPlain => exact .invalid hkeyspace hnotPlain
  | unframed hkeyspace hplain hrequested hunframed =>
    exact .unframed hkeyspace hplain hrequested hunframed
  | answered huse hread hanswering hrefused htells =>
    exact .answered huse hread (hanswering.of_gone hended hdeaf) hrefused htells

theorem UseDone.append (h : UseDone config e after) (more : Bytes) :
    UseDone config e (after ++ more) := by
  refine h.imp_right ?_
  rintro ⟨name, frame, es, unread, answer, huse, hread, hmem, hstream, haccepted⟩
  exact ⟨name, frame, es, _, answer, huse, hread.append more, hmem, hstream, haccepted⟩

/-- Only an envelope on stream 0 makes a result. -/
theorem useDone_of_answering {name : String} {frame : Bytes} {set : ResultSet}
    (huse : FirstUse config name frame) (hread : Envelope.Framed after es unread)
    (hanswering : Answering es unread ended deaf result)
    (haccepted : config.useResult e name result = .ok set) : UseDone config e after := by
  cases hanswering with
  | answered hmem hstream =>
    exact .inr ⟨name, frame, es, unread, _, huse, hread, hmem, hstream,
      useAccepted_of_useResult haccepted⟩
  | _ => cases haccepted

end Monotone

/-! ## Answers and what follows -/

namespace Client

variable {c : Client} {n : Connection} {id : OperationId}

theorem acceptResult_eq (c : Client) (source : PageSource) (response : Response) :
    ∃ keyspace,
      c.acceptResult source response = (source.resultOf response, { c with keyspace }) := by
  rw [acceptResult, PageSource.resultOf]
  cases response.body with
  | result result =>
    simp only
    cases ResultSet.ofResult result response source with
    | error fault => exact ⟨c.keyspace, rfl⟩
    | ok set =>
      simp only
      cases set.kind with
      | setKeyspace keyspace => exact ⟨some keyspace, rfl⟩
      | _ => exact ⟨c.keyspace, rfl⟩
  | _ => exact ⟨c.keyspace, rfl⟩

/-- A session that cannot use its keyspace closes its connection before it says so. -/
theorem endKeyspace_error (hn : c.connection = some n) (id : OperationId) (name : String)
    (fault : KeyspaceFault) :
    ∃ ready, c.endKeyspace id (.first name) (.error fault) =
        { c with
          ready := .operation id :: ready
          operations := setEntry c.operations id (.closing (.notOpened (.keyspace fault)))
          connection := some { n with pool := n.pool.close .closed, stopping := true } } ∧
      Woken (c.waitingOnPool n.pool ++ [.writer]) c.ready ready := by
  obtain ⟨ready, hclose, hwoken⟩ := closePool_eq hn .closed
  let n' : Connection := { n with pool := n.pool.close .closed, stopping := true }
  obtain ⟨ready', hwake, hwoken'⟩ := wake_eq { c with ready, connection := some n' } .writer
  refine ⟨ready', ?_, hwoken.trans hwoken'⟩
  simp only [endKeyspace, KeyspaceTask.first, Bool.not_true, Bool.false_eq_true, if_false, hclose]
  exact congrArg (·.proceed id (.closing (.notOpened (.keyspace fault)))) hwake

theorem endKeyspace_ok (hn : c.connection = some n) (name : String) :
    c.endKeyspace id (.first name) (.ok ()) =
      { c with
        operations := removeEntry c.operations id
        finished := (id, .opened n.sharding n.extensions c.config.queryOptions) :: c.finished
        isOpen := true } := by
  simp only [endKeyspace, KeyspaceTask.first, Bool.not_true, Bool.false_eq_true, if_false, hn,
    finish]

theorem useResult_eq {config : SessionConfig} (name : String) (found : Except CallFault Envelope) :
    config.useResult n.extensions name found =
      readAnswer n config.depthLimit found >>= (config.useSource name).resultOf := by
  cases found with
  | error fault => rfl
  | ok answer =>
    rw [SessionConfig.useResult, readAnswer]
    show _ = ((Response.ofEnvelope n.extensions config.depthLimit answer).mapError _ >>= _) >>= _
    cases Response.ofEnvelope n.extensions config.depthLimit answer with
    | error fault => rfl
    | ok response =>
      simp only
      show _ = response.ok.mapError _ >>= _
      cases response.ok <;> rfl

/-- What the request finds decides, whatever its id is good for then. -/
theorem operationTurn_answered {name : String} {result : Except CallFault Envelope}
    (hn : c.connection = some n)
    (hoperations : c.operations =
      [(id, .waiting 0 (.keyspace (c.config.useSource name) (.first name)))])
    (hslot : n.pool.slot 0 = .completed result) :
    ∃ pool keyspace, c.operationTurn id =
      { c with connection := some { n with pool }, keyspace }.endKeyspace id (.first name)
        (((c.config.useResult n.extensions name result).mapError (keyspaceFault (.first name))).map
          fun _ => ()) := by
  have hresponse : n.pool.response 0 = (some result, n.pool.setSlot 0 .consumed) := by
    rw [StreamPool.response, hslot]
  let pool := (n.pool.setSlot 0 .consumed).leave 0 true
  let c' : Client := { c with connection := some { n with pool } }
  rw [useResult_eq]
  cases hread : readAnswer n c.config.depthLimit result with
  | error fault =>
    have hturn : c.operationTurn id =
        c'.endKeyspace id (.first name) (.error (keyspaceFault (.first name) fault)) := by
      rw [operationTurn, hoperations, List.lookup_cons_self]
      simp only [hn, hresponse, modifyConnection, hread]
      rfl
    exact ⟨pool, c.keyspace, hturn⟩
  | ok response =>
    have hturn : c.operationTurn id =
        c'.settle id (.keyspace (c.config.useSource name) (.first name)) response := by
      rw [operationTurn, hoperations, List.lookup_cons_self]
      simp only [hn, hresponse, modifyConnection, hread]
      rfl
    obtain ⟨keyspace, haccept⟩ := c'.acceptResult_eq (c.config.useSource name) response
    refine ⟨pool, keyspace, ?_⟩
    have hbind : (Except.ok response >>= (c.config.useSource name).resultOf) =
        (c.config.useSource name).resultOf response := rfl
    simp only [hturn, settle, haccept, hbind]
    cases (c.config.useSource name).resultOf response <;> rfl

/-! ## The beginning of a connection -/

/-- What a client is whose connection has just begun. -/
theorem establish_eq (c : Client) (id : OperationId) (s : Supported) (rest : Bytes) :
    ∃ ready, Woken [.reader, .writer] c.ready ready ∧ c.establish id s rest =
      let n := Connection.fresh c.config.connection s
      let c' := { c with ready, received := rest, connection := some n }
      match c.config.keyspace with
      | none => c'.finish id (.opened n.sharding n.extensions c.config.queryOptions)
      | some name => c'.startKeyspace id (Keyspace.useStatement name) (.first name) := by
  let n := Connection.fresh c.config.connection s
  let c' := { c with received := rest, connection := some n }
  obtain ⟨ready, hreader, hwoken⟩ := c'.wake_eq .reader
  obtain ⟨ready', hwriter, hwoken'⟩ := wake_eq { c' with ready } .writer
  refine ⟨ready', hwoken.trans hwoken', ?_⟩
  have hwake : (c'.wake .reader).wake .writer = { c' with ready := ready' } := by
    rw [hreader, hwriter]
  have hestablish : c.establish id s rest =
      (fun c : Client =>
        match c.config.keyspace with
        | none => c.finish id (.opened n.sharding n.extensions c.config.queryOptions)
        | some name => c.startKeyspace id (Keyspace.useStatement name) (.first name))
      ((c'.wake .reader).wake .writer) := rfl
  rw [hestablish, hwake]

/-- A request that has a stream and finds room is handed to the writer, if it fits a frame. -/
theorem call_of_room {pool : StreamPool} (hn : c.connection = some n)
    (hallocate : n.pool.allocate = (.ok 0, pool)) (hwriting : n.writing = true)
    (hsenders : n.senders = [])
    (hroom : n.queue.length + n.granted < c.config.connection.writeQueueCapacity)
    (id : OperationId) (request : Request) (tracing : Bool) (goal : Goal) :
    c.call id request tracing goal =
      match request.frame tracing 0 with
      | .error fault =>
        { c with connection := some { n with pool := pool.leave 0 false } }.fail id goal
          (.call (.invalid fault))
      | .ok frame => { c with connection := some { n with pool } }.enqueue id 0 frame goal := by
  simp only [call, hn, hallocate, modifyConnection, Option.map_some]
  show (match request.frame tracing 0 with
    | .error fault => _
    | .ok frame => _) = _
  cases request.frame tracing 0 with
  | error fault => rfl
  | ok frame =>
    simp only [hwriting, hsenders, List.isEmpty_nil, Bool.true_and, decide_eq_true hroom]
    rfl

/-- The first request of a connection is handed to the writer at once. -/
theorem startKeyspace_cases {config : SessionConfig} {s : Supported} {name : String}
    (hconfig : c.config = config) (hfits : config.connection.Fits)
    (hkeyspace : config.keyspace = some name)
    (hn : c.connection = some (.fresh config.connection s)) (id : OperationId) :
    (∃ pool fault, (∀ e after ended deaf, UseFails config e after ended deaf fault) ∧
      c.startKeyspace id (Keyspace.useStatement name) (.first name) =
        { c with
          connection := some { Connection.fresh config.connection s with pool } }.endKeyspace id
          (.first name) (.error fault)) ∨
    ∃ frame pool ready, FirstUse config name frame ∧ pool.slot 0 = .waiting ∧
      pool.closed = false ∧ Woken [.writer] c.ready ready ∧
      c.startKeyspace id (Keyspace.useStatement name) (.first name) =
        { c with
          ready := .operation id :: ready
          operations := setEntry c.operations id
            (.waiting 0 (.keyspace (config.useSource name) (.first name)))
          connection :=
            some { Connection.fresh config.connection s with pool, queue := [frame] } } := by
  subst hconfig
  by_cases hplain : Keyspace.IsPlainName name
  · obtain ⟨pool, hallocate, hslot, hclosed⟩ :=
      StreamPool.allocate_new c.config.connection.maxStreams
    let request := (c.config.useSource name).request none
    have hrequested : (c.config.useSource name).Requested none request :=
      PageSource.requested_request ..
    have hcall := c.call_of_room hn hallocate rfl rfl hfits.nonempty id request
      c.config.queryOptions.tracing (.keyspace (c.config.useSource name) (.first name))
    have hstart : c.startKeyspace id (Keyspace.useStatement name) (.first name) =
        c.call id request c.config.queryOptions.tracing
          (.keyspace (c.config.useSource name) (.first name)) := by
      rw [Keyspace.useStatement_of_isPlainName hplain]
      rfl
    rw [hstart]
    cases hframe : request.frame c.config.queryOptions.tracing 0 with
    | error fault =>
      refine .inl ⟨pool.leave 0 false, _,
        fun _ _ _ _ => .unframed hkeyspace hplain hrequested hframe, ?_⟩
      rw [hframe] at hcall
      exact hcall
    | ok frame =>
      let n := { Connection.fresh c.config.connection s with pool, queue := [frame] }
      obtain ⟨ready, hwake, hwoken⟩ := wake_eq { c with connection := some n } .writer
      refine .inr ⟨frame, pool, ready, ⟨hkeyspace, hplain, request, hrequested, hframe⟩, hslot,
        hclosed, hwoken, ?_⟩
      rw [hframe] at hcall
      exact hcall.trans (congrArg (·.proceed id
        (.waiting 0 (.keyspace (c.config.useSource name) (.first name)))) hwake)
  · refine .inl ⟨(Connection.fresh c.config.connection s).pool, _,
      fun _ _ _ _ => .invalid hkeyspace hplain, ?_⟩
    rw [Keyspace.useStatement_of_not_isPlainName hplain, startKeyspace, ← hn]

end Client

end CqlClient
