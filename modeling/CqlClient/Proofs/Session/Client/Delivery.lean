import CqlClient.Proofs.Session.Client.Served

/-!
# Rows and failed fetches

A page may fail to come in many ways, or its operation may be given up, and any number of operations
use the result meanwhile. `Client.History` has every event of a client over a node that answers the
same request with the same page, if it answers at all.

* `Client.Running`, `Client.CutShort`: the rows taken, the rows left and those of the pages to come
  are those of the result, in their order; or a row could not be read, and the result has ended;
* `Client.History.accounted`: so it is after every history;
* `Client.Ended.happen`: a result that has ended stays so, and hands out nothing;
* `Client.fetches_lose_nothing`: what this says of results whose fetches fail.
-/

namespace CqlClient

/-- The pages that a node has from a paging state on: each request has its page, whenever it is
made. -/
inductive PageSource.Leads (node : Request → Rows) (source : PageSource) :
    Option Bytes → List Rows → Prop
  | nil : Leads node source none []
  | cons {t : Bytes} {pages : List Rows} :
      Leads node source (node (source.request (some t))).metadata.pagingState pages →
      Leads node source (some t) (node (source.request (some t)) :: pages)

namespace Client

/-- The rows and faults that an event hands out of a result. -/
def Use.items : Use → List (Except ExecutionFault Row)
  | .serve _ _ service => service.items
  | .tryTake item => item.toList
  | .nothing | .ask .. | .receive .. => []

/-- What was handed out of a result, in order, and what each operation has asked for last. -/
structure Account where
  taken : List (Except ExecutionFault Row)
  asked : OperationId → Option (Request × Bool)

open Function

def Account.note (a : Account) (u : Use) : Account where
  taken := a.taken ++ u.items
  asked :=
    match u with
    | .ask id request => update a.asked id (some request)
    | _ => a.asked

theorem Account.taken_note (a : Account) (u : Use) : (a.note u).taken = a.taken ++ u.items := rfl

/-- What may happen to a client whose requests for pages of a result are answered by a node, or not
at all. -/
inductive History (node : Request → Rows) (key : Nat) (c : Client) (a : Account) :
    Client → Account → Prop
  | start : History node key c a c a
  | step {c' : Client} {a' : Account} {e : Event} : History node key c a c' a' →
      (∀ id rows, c'.use key e = .receive id rows →
        ∃ request, a'.asked id = some request ∧ rows = node request.1) →
      History node key c a (c'.happen e) (a'.note (c'.use key e))

/-- No row was refused, and none is lost: the rows taken, those left and those of the pages to come
are all rows of the result. Whoever waits for a page has asked for the next one. -/
structure Running (node : Request → Rows) (source : PageSource) (columns : Option Columns)
    (all : List (Except ExecutionFault Row)) (key : Nat) (c : Client) (a : Account)
    (s : ResultSet) : Prop where
  origin : s.cursor.source = some source
  fallback : s.fallback = columns
  taken : ∀ item, item ∈ a.taken → item.isOk = true
  pages : ∃ pages : List Rows, source.Leads node s.cursor.pagingState pages ∧
    a.taken ++ s.cursor.items c.config.registry ++
      pages.flatMap (·.items c.config.registry columns) = all
  asked : ∀ id, c.Fetches id key → ∃ request, a.asked id = some request ∧ s.Asks request

/-- The result has ended, and nobody waits for a page. -/
structure Ended (key : Nat) (c : Client) (s : ResultSet) : Prop where
  isOver : s.IsOver
  idle : ∀ id, ¬ c.Fetches id key

/-- A row was refused: it was the last thing to be taken. -/
structure CutShort (all : List (Except ExecutionFault Row)) (key : Nat) (c : Client) (a : Account)
    (s : ResultSet) : Prop extends Ended key c s where
  taken : ∃ before fault unread, a.taken = before ++ [.error fault] ∧
    (∀ item, item ∈ before → item.isOk = true) ∧ a.taken ++ unread = all

variable {node : Request → Rows} {source : PageSource} {columns : Option Columns}
  {all : List (Except ExecutionFault Row)} {c c' : Client} {a a' : Account} {key : Nat}
  {shared : SharedResult} {u : Use} {r : Registry} {s s' : ResultSet}

/-- All that is done with a result but taking in a page is a take. -/
theorem Use.Changes.take (h : u.Changes r s s') (hpage : ∀ id rows, u ≠ .receive id rows) :
    ResultSet.Take r s s' u.items := by
  cases h with
  | nothing => exact .nothing rfl rfl ⟨rfl, rfl⟩
  | serve hserve => exact ResultSet.serve_inl hserve
  | ask hserve =>
    have hrest := (ResultSet.serve_inr hserve).1
    exact .nothing hrest.items hrest.pagingState hrest.toSameSource
  | receive => exact absurd rfl (hpage _ _)
  | tryTake htake =>
    have htaken := ResultSet.tryTake_cases (r := r) (s := s)
    rw [htake] at htaken
    exact htaken

theorem Use.Changes.asks {id : OperationId} {request : Request × Bool}
    (h : (Use.ask id request).Changes r s s') : ResultSet.SameRest r s s' ∧ s.Asks request := by
  cases h with
  | ask hserve => exact ResultSet.serve_inr hserve

/-! ## What an event keeps -/

/-- A page that comes takes the place of the first of the pages to come. -/
theorem Running.receive {id : OperationId} {rows : Rows}
    (h : Running node source columns all key c a s)
    (hchanges : (Use.receive id rows).Changes c.config.registry s s')
    (hfetches : c.Fetches id key)
    (hnode : ∃ request, a.asked id = some request ∧ rows = node request.1)
    (hconfig : c'.config = c.config) (hidle : ∀ q, ¬ c'.Fetches q key) :
    Running node source columns all key c' (a.note (.receive id rows)) s' := by
  obtain ⟨request, hasked, rfl⟩ := hnode
  obtain ⟨request', hasked', source', t, hsource, hstate, rfl⟩ := h.asked id hfetches
  cases hasked.symm.trans hasked'
  cases h.origin.symm.trans hsource
  obtain ⟨pages, hleads, hall⟩ := h.pages
  rw [hstate] at hleads
  cases hleads with
  | @cons _ pages hleads =>
    cases hchanges with
    | receive hreceive =>
      obtain ⟨rows, hbody, hitems, hnext, hsame⟩ :=
        ResultSet.receive_ok (r := c.config.registry) hreceive
      cases hbody
      refine ⟨hsame.source.trans h.origin, hsame.fallback.trans h.fallback, ?_,
        ⟨pages, hnext ▸ hleads, ?_⟩, fun q hq => absurd hq (hidle q)⟩
      · simpa [Account.note, Use.items] using h.taken
      · rw [← hall, hconfig, hitems, h.fallback]
        simp [Account.note, Use.items]

theorem Running.take (h : Running node source columns all key c a s)
    (heffect : Effect key c u c') (hchanges : u.Changes c.config.registry s s')
    (hpage : ∀ id rows, u ≠ .receive id rows) (hconfig : c'.config = c.config) :
    Running node source columns all key c' (a.note u) s' ∨
      CutShort all key c' (a.note u) s' := by
  obtain ⟨pages, hleads, hall⟩ := h.pages
  have htake := hchanges.take hpage
  generalize hitems : u.items = items at htake
  have hnote : (a.note u).taken = a.taken ++ items := by rw [← hitems, Account.taken_note]
  -- Whoever waits has waited before, or asks now; in both cases nothing was handed out.
  have hquiet : items ≠ [] → ∀ q, ¬ c'.Fetches q key := by
    intro hne q hq
    rcases heffect.fetches q hq with ⟨rfl, _⟩ | ⟨request, rfl⟩
    · exact hne hitems.symm
    · exact hne hitems.symm
  cases htake with
  | @row row hrow hstate hsame =>
    refine .inl ⟨hsame.source.trans h.origin, hsame.fallback.trans h.fallback, ?_,
      ⟨pages, hstate ▸ hleads, ?_⟩, fun q hq => absurd hq (hquiet nofun q)⟩
    · rw [hnote]
      intro item hitem
      rcases List.mem_append.mp hitem with hitem | hitem
      · exact h.taken item hitem
      · rw [List.mem_singleton.mp hitem]
        rfl
    · rw [← hall, hconfig, hnote, hrow]
      simp
  | @fault fault rest hfault hover _ =>
    refine .inr ⟨⟨hover, hquiet nofun⟩, a.taken, fault,
      rest ++ pages.flatMap (·.items c.config.registry columns), hnote, h.taken, ?_⟩
    rw [← hall, hnote, hfault]
    simp
  | nothing hrest hstate hsame =>
    rw [List.append_nil] at hnote
    refine .inl ⟨hsame.source.trans h.origin, hsame.fallback.trans h.fallback, ?_,
      ⟨pages, hstate ▸ hleads, ?_⟩, fun q hq => ?_⟩
    · rw [hnote]
      exact h.taken
    · rw [← hall, hconfig, hnote, hrest]
    · rcases heffect.fetches q hq with ⟨rfl, hq⟩ | ⟨request, rfl⟩
      · obtain ⟨request, hasked, hasks⟩ := h.asked q hq
        exact ⟨request, hasked, hasks.of_same hsame hstate⟩
      · exact ⟨request, update_self .., hchanges.asks.2.of_same hsame hstate⟩

/-- A result that has ended stays so, and hands out nothing. -/
theorem Ended.step (h : Ended key c s) (heffect : Effect key c u c')
    (hchanges : u.Changes c.config.registry s s')
    (hpage : ∀ id rows, u = .receive id rows → c.Fetches id key) :
    Ended key c' s' ∧ u.items = [] ∧ (∀ id request, u ≠ .ask id request) ∧
      ∀ id rows, u ≠ .receive id rows := by
  have hask : ∀ id request, u ≠ .ask id request := by
    rintro id request rfl
    exact h.isOver.not_asks request hchanges.asks.2
  have hreceive : ∀ id rows, u ≠ .receive id rows :=
    fun id rows hu => h.idle id (hpage id rows hu)
  have hidle : ∀ q, ¬ c'.Fetches q key := by
    intro q hq
    rcases heffect.fetches q hq with ⟨_, hq⟩ | ⟨request, hu⟩
    · exact h.idle q hq
    · exact hask q request hu
  have hkept : s'.IsOver ∧ u.items = [] := by
    cases hchanges with
    | nothing => exact ⟨h.isOver, rfl⟩
    | @serve id consumer service _ hserve =>
      obtain ⟨s', hserve', hover⟩ := h.isOver.serve (r := c.config.registry) consumer.want
      cases hserve.symm.trans hserve'
      refine ⟨hover, ?_⟩
      cases consumer <;> rfl
    | ask => exact absurd rfl (hask _ _)
    | receive => exact absurd rfl (hreceive _ _)
    | tryTake htake =>
      obtain ⟨hnone, hover⟩ := h.isOver.tryTake (r := c.config.registry)
      rw [htake] at hnone hover
      refine ⟨hover, ?_⟩
      simp only at hnone
      rw [hnone]
      rfl
  exact ⟨⟨hkept.1, hidle⟩, hkept.2, hask, hreceive⟩

/-! ## Histories -/

/-- An event in which no page comes. -/
theorem History.quiet {u : Use} (h : History node key c a c' a') (e : Event)
    (huse : c'.use key e = u) (hu : ∀ id rows, u ≠ .receive id rows) :
    History node key c a (c'.happen e) (a'.note u) := by
  rw [← huse]
  exact h.step fun id rows hr => absurd (huse.symm.trans hr) (hu id rows)

theorem Running.step {e : Event} (h : Running node source columns all key c a shared.result)
    (hc : c.CursorsHeld) (hkey : c.results.lookup key = some shared)
    (hnode : ∀ id rows, c.use key e = .receive id rows →
      ∃ request, a.asked id = some request ∧ rows = node request.1) :
    ∃ shared', (c.happen e).results.lookup key = some shared' ∧
      (Running node source columns all key (c.happen e) (a.note (c.use key e)) shared'.result ∨
        CutShort all key (c.happen e) (a.note (c.use key e)) shared'.result) := by
  have hsound := happen_sound hc e
  have heffect := hsound.effect key
  obtain ⟨shared', hkey', hchanges⟩ := heffect.result shared hkey
  refine ⟨shared', hkey', ?_⟩
  by_cases hpage : ∃ id rows, c.use key e = .receive id rows
  · obtain ⟨id, rows, huse⟩ := hpage
    have hfetches := (pageComes_of_use hkey huse).fetches
    rw [huse] at hchanges heffect ⊢
    refine .inl (h.receive hchanges hfetches (hnode id rows huse) hsound.config fun q hq => ?_)
    rcases heffect.fetches q hq with ⟨hf, _⟩ | ⟨_, hf⟩
    · cases hf
    · cases hf
  · exact h.take heffect hchanges (fun id rows huse => hpage ⟨id, rows, huse⟩) hsound.config

theorem Ended.happen (h : Ended key c shared.result) (hc : c.CursorsHeld)
    (hkey : c.results.lookup key = some shared) (e : Event) :
    ∃ shared', (c.happen e).results.lookup key = some shared' ∧
      Ended key (c.happen e) shared'.result ∧ (c.use key e).items = [] ∧
      (∀ id request, c.use key e ≠ .ask id request) ∧
        ∀ id rows, c.use key e ≠ .receive id rows := by
  have heffect := (happen_sound hc e).effect key
  obtain ⟨shared', hkey', hchanges⟩ := heffect.result shared hkey
  refine ⟨shared', hkey', h.step heffect hchanges fun _ _ huse => ?_⟩
  exact (pageComes_of_use hkey huse).fetches

/-- After every history: the rows are those of the result, or a row was refused. -/
theorem History.accounted (h : History node key c a c' a') (hc : c.CursorsHeld)
    (hkey : c.results.lookup key = some shared)
    (hrunning : Running node source columns all key c a shared.result) :
    c'.CursorsHeld ∧ ∃ shared', c'.results.lookup key = some shared' ∧
      (Running node source columns all key c' a' shared'.result ∨
        CutShort all key c' a' shared'.result) := by
  induction h with
  | start => exact ⟨hc, shared, hkey, .inl hrunning⟩
  | @step c' a' e _ hnode ih =>
    obtain ⟨hheld, shared', hkey', hcase⟩ := ih
    refine ⟨(happen_sound hheld e).held, ?_⟩
    rcases hcase with hrunning | hcut
    · exact hrunning.step hheld hkey' hnode
    · obtain ⟨shared'', hkey'', hended, hitems, _⟩ := hcut.toEnded.happen hheld hkey' e
      refine ⟨shared'', hkey'', .inr ⟨hended, ?_⟩⟩
      rw [Account.taken_note, hitems, List.append_nil]
      exact hcut.taken

theorem Ended.after (h : Ended key c shared.result) (hc : c.CursorsHeld)
    (hkey : c.results.lookup key = some shared) (events : List Event) :
    (c.after events).CursorsHeld ∧ ∃ shared', (c.after events).results.lookup key = some shared' ∧
      Ended key (c.after events) shared'.result := by
  induction events generalizing c shared with
  | nil => exact ⟨hc, shared, hkey, h⟩
  | cons e events ih =>
    obtain ⟨shared', hkey', hended, _⟩ := h.happen hc hkey e
    exact ih hended (happen_sound hc e).held hkey'

/-- A fault ends a result. -/
theorem ended_of_fault {e : Event} {fault : ExecutionFault} (hc : c.CursorsHeld)
    (hkey : c.results.lookup key = some shared) (hfault : (c.use key e).items = [.error fault]) :
    ∃ shared', (c.happen e).results.lookup key = some shared' ∧
      Ended key (c.happen e) shared'.result := by
  have heffect := (happen_sound hc e).effect key
  obtain ⟨shared', hkey', hchanges⟩ := heffect.result shared hkey
  have hpage : ∀ id rows, c.use key e ≠ .receive id rows := by
    intro id rows huse
    rw [huse] at hfault
    cases hfault
  have htake := hchanges.take hpage
  rw [hfault] at htake
  cases htake with
  | fault _ hover =>
    refine ⟨shared', hkey', hover, fun q hq => ?_⟩
    rcases heffect.fetches q hq with ⟨huse, _⟩ | ⟨request, huse⟩
    · rw [huse] at hfault
      cases hfault
    · rw [huse] at hfault
      cases hfault

/-! ## What is done with a result that has ended -/

theorem serve_ending {id : OperationId} (hkey : c.results.lookup key = some shared)
    (hover : shared.result.IsOver) (consumer : Consumer) :
    (c.serve id key consumer).finished = (id, consumer.ending) :: c.finished := by
  obtain ⟨result, hserve, _⟩ := hover.serve (r := c.config.registry) consumer.want
  have hcomes : c.Comes id (c.serve id key consumer) (consumer.given key consumer.want.ending) :=
    serve_comes hkey (by rw [hserve])
  rw [Consumer.given_ending] at hcomes
  exact hcomes

theorem take_ending {id : OperationId} {consumer : Consumer}
    (hkey : c.results.lookup key = some shared) (hover : shared.result.IsOver)
    (hserved : consumer.want = .row ∨ shared.holder = none) :
    (c.take id key consumer).finished = (id, consumer.ending) :: c.finished := by
  rw [take_eq hkey]
  split
  next hwant =>
    have hcomes : c.Comes id (c.deliver id key consumer none)
        (consumer.given key consumer.want.ending) := by
      rw [hwant.1]
      exact deliver_comes none
    rw [Consumer.given_ending] at hcomes
    exact hcomes
  next hwant =>
    have hholder : shared.holder = none := by
      rcases hserved with hrow | hfree
      · exact absurd ⟨hrow, hover.exhausted⟩ hwant
      · exact hfree
    rw [lock, hkey, Option.bind_some, hholder]
    refine serve_ending (lookup_modifyResult_self hkey _) ?_ consumer
    rw [Paging.lock_result]
    exact hover

/-- An operation that is to start taking from a result. -/
def Starts (c : Client) (id : OperationId) (key : Nat) (consumer : Consumer) : Prop :=
  c.operations.lookup id = some (.fresh (.consume key consumer)) ∨
    c.operations.lookup id = some (.taking key consumer)

/-- Nothing is to be had of a result: neither rows nor faults, and no page is asked for. Who wants a
row learns it at once, and who wants anything else as soon as the cursor is free. -/
structure GivesNothing (c : Client) (key : Nat) : Prop where
  items : ∀ e, (c.use key e).items = []
  requests : ∀ e id request, c.use key e ≠ .ask id request
  pages : ∀ e id rows, c.use key e ≠ .receive id rows
  idle : ∀ id, ¬ c.Fetches id key
  next : ∀ id consumer ready, c.Starts id key consumer → consumer.want = .row →
    (c.happen (.turn (.operation id) ready)).finished = (id, consumer.ending) :: c.finished
  free : ∀ id consumer ready, c.Starts id key consumer →
    (c.results.lookup key).bind (·.holder) = none →
    (c.happen (.turn (.operation id) ready)).finished = (id, consumer.ending) :: c.finished
  granted : ∀ id consumer ready, c.operations.lookup id = some (.locking key consumer) ∧
      (c.results.lookup key).bind (·.holder) = some id ∨
      c.operations.lookup id = some (.holding key consumer) →
    (c.happen (.turn (.operation id) ready)).finished = (id, consumer.ending) :: c.finished
  tried : ∀ label, c.held.lookup label = some key →
    c.tryTake? label = .ok (.ok none, c.happen (.tryTake label))

theorem Starts.turn {id : OperationId} {consumer : Consumer} (h : c.Starts id key consumer)
    (ready : List Task) : c.happen (.turn (.operation id) ready) =
      ({ c with ready } : Client).take id key consumer := by
  rw [Client.happen, Client.turn, operationTurn]
  rcases h with h | h
  · rw [show ({ c with ready } : Client).operations.lookup id = _ from h]
    rfl
  · rw [show ({ c with ready } : Client).operations.lookup id = _ from h]

theorem Ended.givesNothing (h : Ended key c shared.result) (hc : c.CursorsHeld)
    (hkey : c.results.lookup key = some shared) : c.GivesNothing key := by
  constructor
  case items =>
    intro e
    obtain ⟨_, _, _, hitems, _⟩ := h.happen hc hkey e
    exact hitems
  case requests =>
    intro e
    obtain ⟨_, _, _, _, hask, _⟩ := h.happen hc hkey e
    exact hask
  case pages =>
    intro e
    obtain ⟨_, _, _, _, _, hreceive⟩ := h.happen hc hkey e
    exact hreceive
  case idle => exact h.idle
  case next =>
    intro id consumer ready hstarts hwant
    rw [hstarts.turn]
    exact take_ending (c := { c with ready }) hkey h.isOver (.inl hwant)
  case free =>
    intro id consumer ready hstarts hfree
    rw [hkey, Option.bind_some] at hfree
    rw [hstarts.turn]
    exact take_ending (c := { c with ready }) hkey h.isOver (.inr hfree)
  case granted =>
    intro id consumer ready hgranted
    have hturn : c.happen (.turn (.operation id) ready) =
        ({ c with ready } : Client).serve id key consumer := by
      rw [Client.happen, turn, operationTurn]
      rcases hgranted with ⟨hstage, hholder⟩ | hstage
      · rw [show ({ c with ready } : Client).operations.lookup id = _ from hstage]
        exact if_pos hholder
      · rw [show ({ c with ready } : Client).operations.lookup id = _ from hstage]
    rw [hturn]
    exact serve_ending (c := { c with ready }) hkey h.isOver consumer
  case tried =>
    intro label hlabel
    have htake : (shared.tryTake c.config.registry).1 = none := by
      unfold SharedResult.tryTake
      split
      · rfl
      · exact (h.isOver.tryTake (r := c.config.registry)).1
    rw [tryTake?_eq hlabel hkey, htake]
    rfl

/-! ## Failed fetches -/

/-- An event that finds an operation waiting for a page, or in which one asks for it, leaves what is
left of the result as it was, unless the page comes: whether the request cannot be sent, is never
answered, is answered by anything but rows that can be read, or is given up. -/
theorem sameRest_of_fetch (hc : c.CursorsHeld) (hkey : c.results.lookup key = some shared)
    {e : Event} (hfetch : (∃ id, c.Fetches id key) ∨ ∃ id request, c.use key e = .ask id request) :
    (∃ id rows, c.use key e = .receive id rows ∧ c.PageComes key shared.result id rows e) ∨
    ∃ shared', (c.happen e).results.lookup key = some shared' ∧
      ResultSet.SameRest c.config.registry shared.result shared'.result := by
  have heffect := (happen_sound hc e).effect key
  obtain ⟨shared', hkey', hchanges⟩ := heffect.result shared hkey
  rcases hfetch with ⟨id, hfetches⟩ | ⟨id, request, huse⟩
  · rcases heffect.waits id hfetches with huse | ⟨rows, huse⟩
    · rw [huse] at hchanges
      generalize hs : shared'.result = s' at hchanges
      cases hchanges
      exact .inr ⟨shared', hkey', hs ▸ .refl _⟩
    · exact .inl ⟨id, rows, huse, pageComes_of_use hkey huse⟩
  · rw [huse] at hchanges
    exact .inr ⟨shared', hkey', hchanges.asks.1⟩

/-- In every state of a client whose cursors are held by those who need them: what is handed out
reaches who asked for it, and while a page is asked for or waited for, nothing but its coming
changes what is left of the result. In every history from there, with any number of pages that did
not come, each request is for the page of the present paging state, and the rows taken, those left
and those of the pages to come are all rows in their order; unless one was refused, which was then
the last. And once a row is refused, nothing is to be had of the result, whatever happens. -/
theorem fetches_lose_nothing (hc : c.CursorsHeld) (hkey : c.results.lookup key = some shared) :
    (∀ e, c.HandsOver key e) ∧
    (∀ e, ((∃ id, c.Fetches id key) ∨ ∃ id request, c.use key e = .ask id request) →
      (∃ id rows, c.use key e = .receive id rows ∧ c.PageComes key shared.result id rows e) ∨
      ∃ shared', (c.happen e).results.lookup key = some shared' ∧
        ResultSet.SameRest c.config.registry shared.result shared'.result) ∧
    (∀ (node : Request → Rows) (source : PageSource) (pages : List Rows)
      (asked : OperationId → Option (Request × Bool)) (all : List (Except ExecutionFault Row)),
      shared.result.cursor.source = some source →
      source.Leads node shared.result.cursor.pagingState pages →
      all = shared.result.cursor.items c.config.registry ++
        pages.flatMap (·.items c.config.registry shared.result.fallback) →
      (∀ id, c.Fetches id key → ∃ request, asked id = some request ∧ shared.result.Asks request) →
      ∀ c' a', History node key c ⟨[], asked⟩ c' a' →
        c'.CursorsHeld ∧ ∃ shared', c'.results.lookup key = some shared' ∧
          (∀ e id request, c'.use key e = .ask id request → shared'.result.Asks request) ∧
          (Running node source shared.result.fallback all key c' a' shared'.result ∨
            CutShort all key c' a' shared'.result)) ∧
    ∀ e fault, (c.use key e).items = [.error fault] →
      ∀ events, ((c.happen e).after events).GivesNothing key := by
  refine ⟨handsOver hkey, fun e => sameRest_of_fetch hc hkey, ?histories, ?faults⟩
  case histories =>
    intro node source pages asked all hsource hleads hall hasked c' a' h
    have hrunning : Running node source shared.result.fallback all key c ⟨[], asked⟩
        shared.result := ⟨hsource, rfl, nofun, ⟨pages, hleads, hall.symm⟩, hasked⟩
    obtain ⟨hheld, shared', hkey', hcase⟩ := h.accounted hc hkey hrunning
    refine ⟨hheld, shared', hkey', fun e id request huse => ?_, hcase⟩
    obtain ⟨shared'', _, hchanges⟩ := ((happen_sound hheld e).effect key).result shared' hkey'
    rw [huse] at hchanges
    exact hchanges.asks.2
  case faults =>
    intro e fault hfault events
    obtain ⟨shared', hkey', hended⟩ := ended_of_fault hc hkey hfault
    obtain ⟨hheld, shared'', hkey'', hended'⟩ :=
      hended.after (happen_sound hc e).held hkey' events
    exact hended'.givesNothing hheld hkey''

open Paging

/-- A client of one operation, which has the cursor of a result of integers. -/
def intClient (cursor : Cursor) (stage : Stage) : Client where
  config := {}
  received := []
  ended := false
  deaf := false
  sent := []
  hungUp := false
  connection := some {
    pool := ⟨#[.waiting, .free], 2, false⟩
    extensions := ⟨none, none⟩
    sharding := none
    queue := []
    senders := []
    granted := 0
    reading := true
    writing := true
    stopping := false
    released := false }
  isOpen := true
  keyspace := none
  results := [(0, ⟨{ intResult with cursor }, some "a", []⟩)]
  held := [("r", 0)]
  statements := []
  operations := [("a", stage)]
  ready := []
  finished := []

theorem cursorsHeld_intClient {cursor : Cursor} {stage : Stage}
    (hstage : ∀ key, stage.cursor? = some key → key = 0) :
    (intClient cursor stage).CursorsHeld := by
  intro id stage' key hlookup hcursor
  have hid : id = "a" := by
    by_contra hne
    have hother : (id == "a") = false := by simpa using hne
    simp [intClient, List.lookup_cons, hother] at hlookup
  subst hid
  cases hlookup
  obtain rfl := hstage key hcursor
  exact ⟨_, rfl, rfl⟩

/-- The answer to a request for the last page: a row with the number 8. -/
def intAnswer : Bytes :=
  [0x84, 0, 0, 1, 8, 0, 0, 0, 41, 0, 0, 0, 2, 0, 0, 0, 1, 0, 0, 0, 1, 0, 4, 115, 104, 111, 112,
    0, 4, 105, 116, 101, 109, 0, 1, 110, 0, 9, 0, 0, 0, 1, 0, 0, 0, 4, 0, 0, 0, 8]

def waitingClient : Client :=
  intClient ⟨[], some [1], some intSource⟩ (.waiting 0 (.page 0 .row))

def retry : List Event :=
  [.cancel "a", .call "b" (.consume "r" .row), .turn (.operation "b") [], .turn .writer [],
    .receive intAnswer, .turn .reader [], .turn (.operation "b") [], .turn (.operation "b") []]

/-- The same, where bytes follow the only row that has come. -/
def trailingClient : Client :=
  intClient ⟨[⟨[0, 0, 0, 4, 0, 0, 0, 7, 9], 1, intColumns⟩], some [1], some intSource⟩
    (.holding 0 .row)

set_option maxRecDepth 10000 in
/-- A fetch is given up, the next one succeeds; and the last row of a page is followed by bytes. -/
theorem fetches_lose_nothing_of_retry :
    (∃ shared, (waitingClient.happen (.cancel "a")).results.lookup 0 = some shared ∧
      ResultSet.SameRest .standard { intResult with cursor := ⟨[], some [1], some intSource⟩ }
        shared.result) ∧
    (∃ a shared, (waitingClient.after retry).results.lookup 0 = some shared ∧
      Running (fun _ => (pageOfInts none [8]).rows) intSource (some intColumns)
        [.ok [some (.int 8)]] 0 (waitingClient.after retry) a shared.result ∧
      a.taken = [.ok [some (.int 8)]]) ∧
    ∀ events, (trailingClient.after (.turn (.operation "a") [] :: events)).GivesNothing 0 := by
  have hheld : waitingClient.CursorsHeld := cursorsHeld_intClient fun _ hk => by
    cases hk
    rfl
  have hkey : waitingClient.results.lookup 0 = some ⟨_, some "a", []⟩ := rfl
  obtain ⟨_, hfetch, hhistories, _⟩ := fetches_lose_nothing hheld hkey
  refine ⟨?failed, ?retried, ?ended⟩
  case failed =>
    rcases hfetch (.cancel "a") (.inl ⟨"a", _, rfl, rfl⟩) with ⟨_, _, hf, _⟩ | hkept
    · cases hf
    · exact hkept
  case retried =>
    let node := fun _ : Request => (pageOfInts none [8]).rows
    let asked := (intSource.request (some [1]), false)
    have h : History node 0 waitingClient ⟨[], fun _ => some asked⟩ _ _ := .start
    have h := h.quiet (.cancel "a") rfl nofun
    have h := h.quiet (.call "b" (.consume "r" .row)) rfl nofun
    have h := h.quiet (.turn (.operation "b") []) (u := .ask "b" asked) rfl nofun
    have h := h.quiet (.turn .writer []) rfl nofun
    have h := h.quiet (.receive intAnswer) rfl nofun
    have h := h.quiet (.turn .reader []) rfl nofun
    have h := h.step (e := .turn (.operation "b") []) fun id rows huse => by
      cases huse
      exact ⟨asked, rfl, rfl⟩
    have h := h.quiet (.turn (.operation "b") [])
      (u := .serve "b" .row (.row (some (.ok [some (.int 8)])))) rfl nofun
    obtain ⟨_, shared, hkey, _, hcase⟩ := hhistories node intSource _ _ _ rfl (.cons .nil) rfl
      (fun id _ => ⟨asked, rfl, intSource, [1], rfl, rfl, rfl⟩) _ _ h
    rcases hcase with hrunning | hcut
    · exact ⟨_, shared, hkey, hrunning, rfl⟩
    · obtain ⟨before, fault, _, htaken, _⟩ := hcut.taken
      have htaken : [.ok [some (.int 8)]] = before ++ [.error fault] := htaken
      have hlast := congrArg List.getLast? htaken
      simp at hlast
  case ended =>
    have hheld : trailingClient.CursorsHeld := cursorsHeld_intClient fun _ hk => by
      cases hk
      rfl
    have hkey : trailingClient.results.lookup 0 = some ⟨_, some "a", []⟩ := rfl
    obtain ⟨_, _, _, hfaults⟩ := fetches_lose_nothing hheld hkey
    exact hfaults (.turn (.operation "a") []) (.call (.violation (.trailingBytes 1))) rfl

end Client

end CqlClient
