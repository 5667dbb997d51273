import CqlClient.Proofs.Session.Client.Cursors
import CqlClient.Proofs.Session.Undelivered

/-!
# What a client does with a result

`Client.use` says of every event what it does with the result of a key: an operation is served or
asks for a page, a page comes, or a row is tried for. All other events, and those in which a page
does not come, do nothing with it.

* `Client.Effect`: a result changes by its use, and no operation waits for a page that has not asked
  for it;
* `Client.Sound`: so it is with every result, and cursors stay with their holders;
* `Client.Leaves.sound`, `Client.ActsOn.sound`: what follows from the steps that operations take.
-/

namespace CqlClient

/-- What an event does with a result. -/
inductive Client.Use where
  | nothing
  /-- An operation gets something of what has come, or learns that there is nothing. -/
  | serve (id : OperationId) (consumer : Consumer) (service : Service)
  /-- An operation asks for the next page. Whether it can be sent is another matter. -/
  | ask (id : OperationId) (request : Request × Bool)
  /-- The page that an operation has asked for is taken in. -/
  | receive (id : OperationId) (rows : Rows)
  | tryTake (item : Option (Except ExecutionFault Row))

namespace Client

/-- What an operation that has the cursor does at its turn. -/
def serveUse (r : Registry) (id : OperationId) (consumer : Consumer) (s : ResultSet) : Use :=
  match (s.serve r consumer.want).1 with
  | .inl service => .serve id consumer service
  | .inr request => .ask id request

/-- The answer that an operation finds on its stream. -/
def answer? (c : Client) (stream : Nat) : Option (Except ExecutionFault Response) := do
  let n ← c.connection
  let result ← (n.pool.response stream).1
  return readAnswer n c.config.depthLimit result

/-- What an operation that waits for a page does at its turn: only rows that can be read are a
page. -/
def pageUse (c : Client) (id : OperationId) (stream : Nat) (consumer : Consumer) (s : ResultSet) :
    Use :=
  match c.answer? stream with
  | some (.ok response) =>
    match s.receive consumer.want response.body, response.body with
    | .ok _, .result (.rows rows) => .receive id rows
    | _, _ => .nothing
  | _ => .nothing

/-- What an operation does with the result of a key at its turn. -/
def stageUse (c : Client) (id : OperationId) (key : Nat) (shared : SharedResult) : Stage → Use
  | .fresh (.consume k consumer) | .taking k consumer =>
    if k = key ∧ shared.holder = none ∧ ¬ (consumer.want = .row ∧ shared.result.exhausted = true)
    then serveUse c.config.registry id consumer shared.result
    else .nothing
  | .locking k consumer =>
    if k = key ∧ shared.holder = some id then
      serveUse c.config.registry id consumer shared.result
    else .nothing
  | .holding k consumer =>
    if k = key then serveUse c.config.registry id consumer shared.result else .nothing
  | .waiting stream (.page k consumer) =>
    if k = key then c.pageUse id stream consumer shared.result else .nothing
  | _ => .nothing

def eventUse (c : Client) (key : Nat) (shared : SharedResult) : Event → Use
  | .turn (.operation id) _ =>
    match c.operations.lookup id with
    | some stage => c.stageUse id key shared stage
    | none => .nothing
  | .tryTake label =>
    if c.held.lookup label = some key ∧ shared.holder = none then
      .tryTake (shared.result.tryTake c.config.registry).1
    else .nothing
  | _ => .nothing

/-- What an event does with the result of a key. -/
def use (c : Client) (key : Nat) (e : Event) : Use :=
  match c.results.lookup key with
  | some shared => c.eventUse key shared e
  | none => .nothing

/-- How a result changes by its use. -/
inductive Use.Changes (r : Registry) (s : ResultSet) : Use → ResultSet → Prop
  | nothing : Changes r s .nothing s
  | serve {id : OperationId} {consumer : Consumer} {service : Service} {s' : ResultSet} :
      s.serve r consumer.want = (.inl service, s') → Changes r s (.serve id consumer service) s'
  | ask {id : OperationId} {want : Want} {request : Request × Bool} {s' : ResultSet} :
      s.serve r want = (.inr request, s') → Changes r s (.ask id request) s'
  | receive {id : OperationId} {want : Want} {rows : Rows} {service : Option Service}
      {s' : ResultSet} :
      s.receive want (.result (.rows rows)) = .ok (service, s') → Changes r s (.receive id rows) s'
  | tryTake {item : Option (Except ExecutionFault Row)} {s' : ResultSet} :
      s.tryTake r = (item, s') → Changes r s (.tryTake item) s'

/-- An operation waits for a page of the result. -/
def Fetches (c : Client) (id : OperationId) (key : Nat) : Prop :=
  ∃ stage, c.operations.lookup id = some stage ∧ stage.asks? = some key

/-- Between the two, the result of a key has changed by its use. An operation that waits for a page
has asked for it just now, or has waited before and nothing was done with the result; and while it
waits, nothing is done with the result but that the page comes. -/
structure Effect (key : Nat) (c : Client) (u : Use) (c' : Client) : Prop where
  result : ∀ shared, c.results.lookup key = some shared → ∃ shared',
    c'.results.lookup key = some shared' ∧ u.Changes c.config.registry shared.result shared'.result
  fetches : ∀ q, c'.Fetches q key →
    (u = .nothing ∧ c.Fetches q key) ∨ ∃ request, u = .ask q request
  waits : ∀ q, c.Fetches q key → u = .nothing ∨ ∃ rows, u = .receive q rows

variable {c c' c₀ c₁ : Client} {id : OperationId} {key : Nat} {shared shared' : SharedResult}
  {u : Use}

theorem fetches_of_eq {q : OperationId} (h : c'.operations.lookup q = c.operations.lookup q)
    (hfetches : c'.Fetches q key) : c.Fetches q key := by
  obtain ⟨stage, hstage, hasks⟩ := hfetches
  exact ⟨stage, h ▸ hstage, hasks⟩

theorem not_fetches_of_free (h : c.IsFree id) : ¬ c.Fetches id key := by
  rintro ⟨stage, hstage, hasks⟩
  cases (h stage hstage).symm.trans (Stage.cursor?_of_asks? hasks)

theorem not_fetches_set {stage : Stage} (hasks : stage.asks? = none) :
    ¬ (c.set id stage).Fetches id key := by
  rintro ⟨stage', hstage, hasks'⟩
  rw [lookup_set, if_pos (beq_self_eq_true id)] at hstage
  cases hstage
  cases hasks.symm.trans hasks'

theorem Effect.of_eq (hoperations : c'.operations = c.operations)
    (hresults : c'.results = c.results) : Effect key c .nothing c' := by
  refine ⟨fun shared hkey => ⟨shared, ?_, .nothing⟩, fun q hq =>
    .inl ⟨rfl, fetches_of_eq ?_ hq⟩, fun _ _ => .inl rfl⟩
  · rw [hresults]
    exact hkey
  · rw [hoperations]

theorem Leaves.effect (h : Leaves id c c') : Effect key c .nothing c' := by
  refine ⟨fun shared hkey => ⟨shared, h.results key shared hkey, .nothing⟩, fun q hq => ?_,
    fun _ _ => .inl rfl⟩
  by_cases heq : q = id
  · subst heq
    exact absurd hq (not_fetches_of_free h.free)
  · exact .inl ⟨rfl, fetches_of_eq (h.others q heq) hq⟩

/-- A step on a result, as this result sees it and as all others do. -/
theorem ActsOn.effect (h : ActsOn id key shared' c c') (hkey : c.results.lookup key = some shared)
    (hchanges : u.Changes c.config.registry shared.result shared'.result)
    (hmine : c'.Fetches id key →
      (u = .nothing ∧ c.Fetches id key) ∨ ∃ request, u = .ask id request)
    (hothers : ∀ q, q ≠ id → c.Fetches q key → u = .nothing)
    (hbefore : c.Fetches id key → u = .nothing ∨ ∃ rows, u = .receive id rows) (k : Nat) :
    Effect k c (if key = k then u else .nothing) c' := by
  split
  next heq =>
    subst heq
    refine ⟨fun shared₀ hkey₀ => ?_, fun q hq => ?_, fun q hq => ?_⟩
    · cases hkey.symm.trans hkey₀
      exact ⟨shared', h.here, hchanges⟩
    · by_cases heq : q = id
      · subst heq
        exact hmine hq
      · have hbefore := fetches_of_eq (h.others q heq) hq
        exact .inl ⟨hothers q heq hbefore, hbefore⟩
    · by_cases heq : q = id
      · subst heq
        exact hbefore hq
      · exact .inl (hothers q heq hq)
  next hne =>
    refine ⟨fun shared₀ hk => ⟨shared₀, h.there k shared₀ (Ne.symm hne) hk, .nothing⟩,
      fun q hq => ?_, fun _ _ => .inl rfl⟩
    by_cases heq : q = id
    · subst heq
      obtain ⟨stage, hstage, hasks⟩ := hq
      exact absurd (h.cursor stage k hstage (Stage.cursor?_of_asks? hasks)).1.symm hne
    · exact .inl ⟨rfl, fetches_of_eq (h.others q heq) hq⟩

/-- Cursors stay with their holders, and every result changes by its use. -/
structure Sound (c : Client) (u : Nat → Use) (c' : Client) : Prop where
  config : c'.config = c.config
  held : c'.CursorsHeld
  effect : ∀ key, Effect key c (u key) c'

theorem CursorsHeld.sound (h : c.CursorsHeld) (hconfig : c'.config = c.config)
    (hoperations : c'.operations = c.operations) (hresults : c'.results = c.results) :
    Sound c (fun _ => .nothing) c' :=
  ⟨hconfig, h.of_eq hoperations hresults, fun _ => .of_eq hoperations hresults⟩

theorem Sound.of_books {use : Nat → Use} (h : Sound c₀ use c') (hbooks : c₀.books = c.books) :
    Sound c use c' := by
  refine ⟨h.config.trans (config_of_books hbooks), h.held,
    fun key => ⟨fun shared hkey => ?_, fun q hq => ?_, fun q hq => (h.effect key).waits q ?_⟩⟩
  · rw [← results_of_books hbooks] at hkey
    rw [← config_of_books hbooks]
    exact (h.effect key).result shared hkey
  · rcases (h.effect key).fetches q hq with ⟨hnothing, hq⟩ | hq
    · exact .inl ⟨hnothing, fetches_of_eq (by rw [operations_of_books hbooks]) hq⟩
    · exact .inr hq
  · exact fetches_of_eq (by rw [operations_of_books hbooks]) hq

theorem Leaves.sound (hleaves : Leaves id c c') (h : c.CursorsHeld) :
    Sound c (fun _ => .nothing) c' :=
  ⟨hleaves.config, h.leaves hleaves, fun _ => hleaves.effect⟩

/-- A step on a result by an operation that has its cursor, or finds it free. -/
theorem ActsOn.sound (hacts : ActsOn id key shared' c c') (h : c.CursorsHeld)
    (hkey : c.results.lookup key = some shared)
    (hholder : ∀ q, shared.holder = some q → q = id)
    (hchanges : u.Changes c.config.registry shared.result shared'.result)
    (hbefore : c.Fetches id key → u = .nothing ∨ ∃ rows, u = .receive id rows)
    (hfetches : c'.Fetches id key → ∃ request, u = .ask id request) :
    Sound c (fun k => if key = k then u else .nothing) c' := by
  refine ⟨hacts.config, h.actsOn hkey hacts fun q hq hq' => absurd (hholder q hq') hq,
    hacts.effect hkey hchanges (fun hf => .inr (hfetches hf)) (fun q hq hf => ?_) hbefore⟩
  obtain ⟨stage, hstage, hasks⟩ := hf
  exact absurd (h.eq_of_cursor? hkey hholder hstage (Stage.cursor?_of_asks? hasks)) hq

/-- A step that leaves what a result holds, and its cursor with whoever has it. -/
theorem ActsOn.sound_of_eq (hacts : ActsOn id key shared' c c') (h : c.CursorsHeld)
    (hkey : c.results.lookup key = some shared) (hresult : shared'.result = shared.result)
    (hholder : ∀ q, q ≠ id → shared.holder = some q → shared'.holder = some q)
    (hfetches : c'.Fetches id key → c.Fetches id key) :
    Sound c (fun _ => .nothing) c' := by
  refine ⟨hacts.config, h.actsOn hkey hacts hholder, fun k => ?_⟩
  have heffect := hacts.effect (u := .nothing) hkey (hresult ▸ .nothing)
    (fun hf => .inl ⟨rfl, hfetches hf⟩) (fun _ _ _ => rfl) (fun _ => .inl rfl) k
  simpa only [ite_self] using heffect

end Client

end CqlClient
