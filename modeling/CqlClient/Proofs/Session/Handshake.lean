import CqlClient.Proofs.Frame.Stream
import CqlClient.Proofs.Session.Startup

/-!
# What the opening exchange makes of bytes

An answer is one envelope on stream 0 and the response in it: `Handshake.Answered`. Whether the
exchange goes on, is over or has failed depends on the next answer alone, and so does the fault:

* `Response.Reports`: the response is an error of the server;
* `Handshake.Refuses`: the fault for each way in which the exchange ends without a connection;
* `Handshake.step_cases`: what a step comes to, by the bytes that have come;
* `Handshake.Reached`, `Greeted` and `Ended`: how far the exchange has come, and what was sent.
-/

namespace CqlClient

/-! ## Answers -/

/-- The response is an error of the server, with all that came with it. -/
structure Response.Reports (response : Response) (e : DatabaseError) : Prop where
  error : response.body = .error e.error
  tracingId : e.tracingId = response.tracingId
  warnings : e.warnings = response.warnings
  customPayload : e.customPayload = response.customPayload

theorem Response.ok_eq_error {response : Response} {e : DatabaseError} :
    response.ok = .error e ↔ response.Reports e := by
  rw [Response.ok]
  split
  next error hbody =>
    constructor
    · rintro ⟨⟩
      exact ⟨hbody, rfl, rfl, rfl⟩
    · rintro ⟨herror, hid, hwarnings, hpayload⟩
      cases hbody.symm.trans herror
      rw [← hid, ← hwarnings, ← hpayload]
  next hbody =>
    constructor
    · nofun
    · exact fun h => absurd h.error (hbody _)

theorem Response.ok_cases (response : Response) :
    response.ok = .ok response ∨ ∃ e, response.ok = .error e := by
  rw [Response.ok]
  split
  · exact .inr ⟨_, rfl⟩
  · exact .inl rfl

namespace Handshake

/-- The bytes begin with an envelope on stream 0, which holds the response, and go on with the
rest. -/
def Answered (bytes : Bytes) (response : Response) (rest : Bytes) : Prop :=
  ∃ front e, bytes = front ++ rest ∧ Reads Envelope.read front e ∧ e.stream = 0 ∧
    Response.ofEnvelope .none defaultDepthLimit e = .ok response

theorem answered_iff {bytes rest : Bytes} {response : Response} :
    Answered bytes response rest ↔ ∃ e, Envelope.read bytes = .ok e rest ∧ e.stream = 0 ∧
      Response.ofEnvelope .none defaultDepthLimit e = .ok response := by
  constructor
  · rintro ⟨front, e, rfl, hfront, hstream, hresponse⟩
    exact ⟨e, hfront rest, hstream, hresponse⟩
  · rintro ⟨e, hread, hstream, hresponse⟩
    obtain ⟨front, rfl, hfront⟩ := Envelope.accepts_read _ _ _ hread
    exact ⟨front, e, rfl, hfront, hstream, hresponse⟩

/-- Bytes begin with one answer at most. -/
theorem Answered.unique {bytes rest rest' : Bytes} {response response' : Response}
    (h : Answered bytes response rest) (h' : Answered bytes response' rest') :
    response = response' ∧ rest = rest' := by
  obtain ⟨e, hread, -, hresponse⟩ := answered_iff.mp h
  obtain ⟨e', hread', -, hresponse'⟩ := answered_iff.mp h'
  cases hread.symm.trans hread'
  cases hresponse.symm.trans hresponse'
  exact ⟨rfl, rfl⟩

/-- What comes later does not change an answer. -/
theorem Answered.append {bytes rest : Bytes} {response : Response}
    (h : Answered bytes response rest) (more : Bytes) :
    Answered (bytes ++ more) response (rest ++ more) := by
  obtain ⟨front, e, rfl, hfront, hstream, hresponse⟩ := h
  exact ⟨front, e, List.append_assoc .., hfront, hstream, hresponse⟩

/-- The exchange knows what to make of the response: it goes on with it, or is a fault by name. -/
def Heeds : Handshake → Response → Prop
  | asked, response => (∃ e, response.Reports e) ∨ ∃ s, response.body = .supported s
  | starting _, response =>
    (∃ e, response.Reports e) ∨ response.body = .ready ∨
      ∃ authenticator, response.body = .authenticate authenticator

/-- The bytes begin with the answer that the exchange goes on with: the frame to be sent next and
where the exchange is then. -/
structure Starts (config : ConnectionConfig) (bytes : Bytes) (s : Supported) (frame : Bytes)
    (rest : Bytes) : Prop where
  answered : ∃ response, Answered bytes response rest ∧ response.body = .supported s
  framed : ∃ request, IsStartup config s request ∧ request.frame false 0 = .ok frame

/-- The bytes begin with the answer that ends the exchange well. -/
def IsReady (bytes rest : Bytes) : Prop :=
  ∃ response, Answered bytes response rest ∧ response.body = .ready

/-- The fault with which the exchange ends, by the bytes that have come, by whether the other side
has ended what it sends, and by whether it takes nothing any more. -/
inductive Refuses (config : ConnectionConfig) (bytes : Bytes) (ended deaf : Bool) :
    Handshake → OpeningFault → Prop
  | database {h : Handshake} {response : Response} {rest : Bytes} {e : DatabaseError}
    (answered : Answered bytes response rest) (reports : response.Reports e) :
    Refuses config bytes ended deaf h (.database e)
  | authentication {s : Supported} {response : Response} {rest : Bytes} {authenticator : String}
    (answered : Answered bytes response rest)
    (body : response.body = .authenticate authenticator) :
    Refuses config bytes ended deaf (starting s) (.authenticationRequired authenticator)
  | options {s : Supported} {response : Response} {rest : Bytes} {request : Request}
    {fault : RequestFault} (answered : Answered bytes response rest)
    (body : response.body = .supported s) (startup : IsStartup config s request)
    (unframed : request.frame false 0 = .error fault) :
    Refuses config bytes ended deaf asked (.invalid fault)
  /-- The exchange could go on, but the next frame does not arrive. -/
  | unsent {s : Supported} {frame rest : Bytes} (starts : Starts config bytes s frame rest)
    (gone : deaf = true) : Refuses config bytes ended deaf asked (.transport .notReceived)
  /-- Whatever else comes, and nothing, if nothing more can come. -/
  | other {h : Handshake} {fault : TransportFault}
    (unheeded : ∀ response rest, Answered bytes response rest → ¬ h.Heeds response)
    (whole : Envelope.next bytes = .incomplete → ended = true) :
    Refuses config bytes ended deaf h (.transport fault)

/-! ## Steps -/

variable {config : ConnectionConfig} {h h₀ next : Handshake} {received rest frame : Bytes}
  {ended deaf : Bool} {fault : OpeningFault} {s : Supported}

/-- The bytes that have come are answered, or they hold no answer. -/
theorem answered_or_not (received : Bytes) :
    (∃ response rest, Answered received response rest) ∨
      ∀ response rest, ¬ Answered received response rest := by
  by_cases h : ∃ response rest, Answered received response rest
  · exact .inl h
  · exact .inr fun response rest hanswered => h ⟨response, rest, hanswered⟩

/-- An error of the server ends the exchange. -/
theorem step_of_error {response : Response} {e : DatabaseError}
    (hanswered : Answered received response rest) (herror : response.ok = .error e) :
    h.step config received ended = .failed (.database e) := by
  obtain ⟨envelope, hread, hstream, hresponse⟩ := answered_iff.mp hanswered
  simp only [step, Envelope.next_eq_frame.mpr hread, answer, if_neg (not_not.mpr hstream),
    hresponse, herror]

/-- Any other answer is looked at as soon as it has come. -/
theorem step_of_ok {response : Response} (hanswered : Answered received response rest)
    (hok : response.ok = .ok response) :
    h.step config received ended = h.onAnswer config response.body rest := by
  obtain ⟨envelope, hread, hstream, hresponse⟩ := answered_iff.mp hanswered
  simp only [step, Envelope.next_eq_frame.mpr hread, answer, if_neg (not_not.mpr hstream),
    hresponse, hok]

/-- Bytes that hold no answer are waited for or refused, for no other reason. -/
theorem step_of_unanswered (hnone : ∀ response rest, ¬ Answered received response rest) :
    (h.step config received ended = .wait ∧ ended = false ∧
      Envelope.next received = .incomplete) ∨
    ∃ fault, (Envelope.next received = .incomplete → ended = true) ∧
      h.step config received ended = .failed (.transport fault) := by
  rw [step]
  cases hnext : Envelope.next received with
  | incomplete =>
    cases ended with
    | false => exact .inl ⟨rfl, rfl, rfl⟩
    | true => exact .inr ⟨_, fun _ => rfl, rfl⟩
  | malformed fault => exact .inr ⟨_, nofun, rfl⟩
  | frame e rest =>
    have hread := Envelope.next_eq_frame.mp hnext
    by_cases hstream : e.stream = 0
    · cases hresponse : Response.ofEnvelope .none defaultDepthLimit e with
      | error fault =>
        refine .inr ⟨.ofFrame fault, nofun, ?_⟩
        simp only [answer, hstream, hresponse]
        rfl
      | ok response => exact absurd (answered_iff.mpr ⟨e, hread, hstream, hresponse⟩) (hnone _ _)
    · refine .inr ⟨.ofFrame .streamMismatch, nofun, ?_⟩
      simp only [answer, ne_eq, hstream, not_false_eq_true, if_true]
      rfl

theorem Starts.append {bytes rest : Bytes} (h : Starts config bytes s frame rest) (more : Bytes) :
    Starts config (bytes ++ more) s frame (rest ++ more) := by
  obtain ⟨response, hanswered, hbody⟩ := h.answered
  exact ⟨⟨response, hanswered.append more, hbody⟩, h.framed⟩

theorem IsReady.append {bytes rest : Bytes} (h : IsReady bytes rest) (more : Bytes) :
    IsReady (bytes ++ more) (rest ++ more) := by
  obtain ⟨response, hanswered, hbody⟩ := h
  exact ⟨response, hanswered.append more, hbody⟩

/-- What comes later does not excuse a fault. -/
theorem Refuses.append {bytes : Bytes} (h : Refuses config bytes ended deaf h₀ fault)
    (hended : ended = false) (more : Bytes) :
    Refuses config (bytes ++ more) ended deaf h₀ fault := by
  subst hended
  cases h with
  | database hanswered hreports => exact .database (hanswered.append more) hreports
  | authentication hanswered hbody => exact .authentication (hanswered.append more) hbody
  | options hanswered hbody hstartup hunframed =>
    exact .options (hanswered.append more) hbody hstartup hunframed
  | unsent hstarts hgone => exact .unsent (hstarts.append more) hgone
  | other hunheeded hwhole =>
    cases hnext : Envelope.next bytes with
    | incomplete => cases hwhole hnext
    | malformed fault =>
      have hmore := Envelope.next_malformed_append hnext more
      refine .other (fun response rest hanswered => ?_) fun h => by cases hmore.symm.trans h
      obtain ⟨e, hread, -, -⟩ := answered_iff.mp hanswered
      cases hmore.symm.trans (Envelope.next_eq_frame.mpr hread)
    | frame e rest =>
      obtain ⟨front, rfl, hfront⟩ := Envelope.accepts_read _ _ _ (Envelope.next_eq_frame.mp hnext)
      have hmore : Envelope.read (front ++ rest ++ more) = .ok e (rest ++ more) := by
        rw [List.append_assoc]
        exact hfront _
      refine .other (fun response rest' hanswered => ?_) fun h => by
        cases (Envelope.next_eq_frame.mpr hmore).symm.trans h
      obtain ⟨e', hread, hstream, hresponse⟩ := answered_iff.mp hanswered
      cases hmore.symm.trans hread
      exact hunheeded response rest ⟨front, e, rfl, hfront, hstream, hresponse⟩

/-- What the other side does later does not excuse a fault either. -/
theorem Refuses.of_gone {bytes : Bytes} {ended' deaf' : Bool}
    (h : Refuses config bytes ended deaf h₀ fault) (hended : ended = true → ended' = true)
    (hdeaf : deaf = true → deaf' = true) : Refuses config bytes ended' deaf' h₀ fault := by
  cases h with
  | database hanswered hreports => exact .database hanswered hreports
  | authentication hanswered hbody => exact .authentication hanswered hbody
  | options hanswered hbody hstartup hunframed => exact .options hanswered hbody hstartup hunframed
  | unsent hstarts hgone => exact .unsent hstarts (hdeaf hgone)
  | other hunheeded hwhole => exact .other hunheeded fun hnext => hended (hwhole hnext)

theorem Answered.next_ne {bytes rest : Bytes} {response : Response}
    (h : Answered bytes response rest) : Envelope.next bytes ≠ .incomplete := by
  obtain ⟨e, hread, -, -⟩ := answered_iff.mp h
  rw [Envelope.next_eq_frame.mpr hread]
  exact nofun

/-- An answer that the exchange does not know is refused. -/
theorem refuses_of_unheeded {response : Response} (hanswered : Answered received response rest)
    (hunheeded : ¬ h.Heeds response) (fault : TransportFault) :
    h.Refuses config received ended deaf (.transport fault) := by
  refine .other (fun response' rest' hanswered' => ?_) fun hnext => absurd hnext hanswered.next_ne
  rw [(hanswered'.unique hanswered).1]
  exact hunheeded

theorem not_error_of_ok {response : Response} (h : response.ok = .ok response) :
    ¬ ∃ e, response.Reports e := by
  rintro ⟨e, hreports⟩
  cases h.symm.trans (Response.ok_eq_error.mpr hreports)

/-- A step fails with an answer that the exchange does not know. -/
theorem fails_of_unheeded {response : Response} (hanswered : Answered received response rest)
    (hok : response.ok = .ok response) (hunheeded : ¬ h.Heeds response)
    (hfailed : h.onAnswer config response.body rest =
      .failed (malformed (.unexpectedResponse response.body.name))) :
    ∃ fault, h.Refuses config received ended deaf fault ∧
      h.step config received ended = .failed fault :=
  ⟨_, refuses_of_unheeded hanswered hunheeded _, (step_of_ok hanswered hok).trans hfailed⟩

/-- What an answer to the first request comes to. -/
theorem step_asked {response : Response} (hanswered : Answered received response rest)
    (hok : response.ok = .ok response) :
    (∃ s frame, Starts config received s frame rest ∧
      asked.step config received ended = .send frame (starting s) rest) ∨
    ∃ fault, asked.Refuses config received ended deaf fault ∧
      asked.step config received ended = .failed fault := by
  by_cases hsupported : ∃ s, response.body = .supported s
  · obtain ⟨s, hbody⟩ := hsupported
    have hstep : asked.step config received ended = asked.onAnswer config (.supported s) rest :=
      hbody ▸ step_of_ok hanswered hok
    have hstartup := isStartup_startupOptions config s
    cases hframe : (Request.startup (startupOptions config s)).frame false 0 with
    | ok frame =>
      refine .inl ⟨s, frame, ⟨⟨response, hanswered, hbody⟩, _, hstartup, hframe⟩, ?_⟩
      simp only [hstep, onAnswer, hframe]
    | error fault =>
      refine .inr ⟨_, .options hanswered hbody hstartup hframe, ?_⟩
      simp only [hstep, onAnswer, hframe]
  · refine .inr (fails_of_unheeded hanswered hok (fun hheeds => ?_) ?_)
    · exact hheeds.elim (not_error_of_ok hok) hsupported
    · cases hbody : response.body with
      | supported s => exact absurd ⟨s, hbody⟩ hsupported
      | _ => rfl

/-- What an answer to the startup comes to. -/
theorem step_starting {response : Response} (hanswered : Answered received response rest)
    (hok : response.ok = .ok response) :
    (IsReady received rest ∧
      (starting s).step config received ended = .opened s rest) ∨
    ∃ fault, (starting s).Refuses config received ended deaf fault ∧
      (starting s).step config received ended = .failed fault := by
  have hstep : (starting s).step config received ended =
      (starting s).onAnswer config response.body rest := step_of_ok hanswered hok
  cases hbody : response.body with
  | ready =>
    rw [hbody] at hstep
    exact .inl ⟨⟨response, hanswered, hbody⟩, hstep⟩
  | authenticate authenticator =>
    rw [hbody] at hstep
    exact .inr ⟨_, .authentication hanswered hbody, hstep⟩
  | _ =>
    refine .inr (fails_of_unheeded hanswered hok (fun hheeds => ?_) (by rw [hbody]; rfl))
    rcases hheeds with herror | hready | ⟨_, hauthenticate⟩
    · exact not_error_of_ok hok herror
    · cases hbody.symm.trans hready
    · cases hbody.symm.trans hauthenticate

/-- What a step comes to, by the bytes that have come. -/
theorem step_cases (config : ConnectionConfig) (h : Handshake) (received : Bytes)
    (ended deaf : Bool) :
    (h.step config received ended = .wait ∧ ended = false ∧
      Envelope.next received = .incomplete) ∨
    (∃ s frame rest, h = asked ∧ Starts config received s frame rest ∧
      h.step config received ended = .send frame (starting s) rest) ∨
    (∃ s rest, h = starting s ∧ IsReady received rest ∧
      h.step config received ended = .opened s rest) ∨
    ∃ fault, h.Refuses config received ended deaf fault ∧
      h.step config received ended = .failed fault := by
  rcases answered_or_not received with ⟨response, rest, hanswered⟩ | hnone
  · rcases response.ok_cases with hok | ⟨e, herror⟩
    · cases h with
      | asked =>
        rcases step_asked hanswered hok with ⟨s, frame, hstarts, hstep⟩ | hfails
        · exact .inr (.inl ⟨s, frame, rest, rfl, hstarts, hstep⟩)
        · exact .inr (.inr (.inr hfails))
      | starting s =>
        rcases step_starting hanswered hok with ⟨hready, hstep⟩ | hfails
        · exact .inr (.inr (.inl ⟨s, rest, rfl, hready, hstep⟩))
        · exact .inr (.inr (.inr hfails))
    · exact .inr (.inr (.inr ⟨_, .database hanswered (Response.ok_eq_error.mp herror),
        step_of_error hanswered herror⟩))
  · rcases step_of_unanswered hnone with hwait | ⟨fault, hwhole, hfailed⟩
    · exact .inl hwait
    · exact .inr (.inr (.inr ⟨_, .other (fun _ _ h => absurd h (hnone _ _)) hwhole, hfailed⟩))

/-! ## The exchange as a whole -/

/-- How far the exchange has come: the frames sent, the last one first, and the bytes that are not
read, of all that have come. -/
inductive Reached (config : ConnectionConfig) (came : Bytes) : List Bytes → Handshake → Bytes → Prop
  | asked {options : Bytes} (framed : Request.options.frame false 0 = .ok options) :
    Reached config came [options] asked came
  | starting {options startup rest : Bytes} {s : Supported}
    (framed : Request.options.frame false 0 = .ok options)
    (starts : Starts config came s startup rest) :
    Reached config came [startup, options] (starting s) rest

/-- The exchange has ended well after the frames, and these are the bytes behind it. -/
def Greeted (config : ConnectionConfig) (came : Bytes) (sent : List Bytes) (s : Supported)
    (after : Bytes) : Prop :=
  ∃ unread, Reached config came sent (starting s) unread ∧ IsReady unread after

/-- The exchange has ended with a fault after the frames. -/
def Ended (config : ConnectionConfig) (came : Bytes) (ended deaf : Bool) (sent : List Bytes)
    (fault : OpeningFault) : Prop :=
  ∃ h unread, Reached config came sent h unread ∧ Refuses config unread ended deaf h fault

section Reached

variable {came after : Bytes} {sent : List Bytes}

theorem Reached.append (h : Reached config came sent h₀ rest) (more : Bytes) :
    Reached config (came ++ more) sent h₀ (rest ++ more) := by
  cases h with
  | asked hframed => exact .asked hframed
  | starting hframed hstarts => exact .starting hframed (hstarts.append more)

/-- The answer to the first request lets the exchange go on. -/
theorem Reached.start (h : Reached config came sent Handshake.asked received)
    (hstarts : Starts config received s frame rest) :
    Reached config came (frame :: sent) (Handshake.starting s) rest := by
  cases h with
  | asked hframed => exact .starting hframed hstarts

theorem Greeted.append (h : Greeted config came sent s after) (more : Bytes) :
    Greeted config (came ++ more) sent s (after ++ more) := by
  obtain ⟨unread, hreached, hready⟩ := h
  exact ⟨_, hreached.append more, hready.append more⟩

theorem Ended.append (h : Ended config came ended deaf sent fault) (hended : ended = false)
    (more : Bytes) : Ended config (came ++ more) ended deaf sent fault := by
  obtain ⟨h₀, unread, hreached, hrefuses⟩ := h
  exact ⟨h₀, _, hreached.append more, hrefuses.append hended more⟩

theorem Ended.of_gone {ended' deaf' : Bool} (h : Ended config came ended deaf sent fault)
    (hended : ended = true → ended' = true) (hdeaf : deaf = true → deaf' = true) :
    Ended config came ended' deaf' sent fault := by
  obtain ⟨h₀, unread, hreached, hrefuses⟩ := h
  exact ⟨h₀, unread, hreached, hrefuses.of_gone hended hdeaf⟩

end Reached

end Handshake

end CqlClient
