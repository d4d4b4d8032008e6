/-
  What running an entry with a bundled command comes to.

  An `Outcome` is the result, the entry as it is left and what could be seen.  Those of the
  bundled commands depend on the entry, on the call and on the actors (`Narrate.perform_has`,
  `Wait.perform_has`), and warnings about tags come first (`Executor.dispatch_has`).

  The identity of the entry makes no difference to a reporter that is `Impartial`
  (`Outcome.Blind`).
-/
import Cuelist.Desk.Crew
import Cuelist.Proofs.Session.Drive

namespace Cuelist

variable {σ : Type}

/-- What running an entry comes to: the result, the entry as it is left, and what could be
    seen. -/
structure Outcome where
  result : Except CommandError Unit
  entry : Entry
  events : List Event

/-- The outcome with something seen before. -/
def Outcome.after (o : Outcome) (events : List Event) : Outcome :=
  { o with events := events ++ o.events }

/-- Whether a world has a log to which events were added since another one. -/
def World.Logged (w w' : World σ) (events : List Event) : Prop :=
  w'.log = (events.map (Prod.mk w.now)).reverse ++ w.log

/-- Whether a reply, given in the world `w`, has an outcome. -/
structure Reply.Has (w : World σ) (r : Reply σ) (o : Outcome) : Prop where
  result : r.result = o.result
  entry : r.entry = o.entry
  logged : w.Logged r.world o.events

/-- Whether two replies, given in the worlds `w` and `w'`, have the same result and logged the
    same as far as the events go that `p` picks. -/
def Reply.Agrees (p : Event → Bool) (w : World σ) (r : Reply σ) (w' : World σ) (r' : Reply σ) :
    Prop :=
  r'.result = r.result ∧ ∃ events events', w.Logged r.world events ∧ w'.Logged r'.world events' ∧
    events'.filter p = events.filter p

theorem Reply.Has.agrees {p : Event → Bool} {w w' : World σ} {r r' : Reply σ} {o o' : Outcome}
    (h : r.Has w o) (h' : r'.Has w' o') (hresult : o'.result = o.result)
    (hevents : o'.events.filter p = o.events.filter p) : r.Agrees p w w' r' :=
  ⟨by rw [h'.result, h.result, hresult], _, _, h.logged, h'.logged, hevents⟩

/-! ## Events -/

namespace World

theorem foldl_observe_eq (events : List Event) (w : World σ) :
    events.foldl observe w = { w with log := (events.map (Prod.mk w.now)).reverse ++ w.log } := by
  induction events generalizing w with
  | nil => rfl
  | cons e es ih =>
    rw [List.foldl_cons, ih]
    simp [observe]

theorem logged_foldl_observe (events : List Event) (w : World σ) :
    w.Logged (events.foldl observe w) events := by
  rw [foldl_observe_eq]
  rfl

theorem Logged.foldl_observe {w w' : World σ} {events events' : List Event}
    (h : (events.foldl observe w).Logged w' events') : w.Logged w' (events ++ events') := by
  rw [foldl_observe_eq] at h
  unfold Logged at *
  simp [h]

end World

/-! ## Reading arguments -/

namespace Narrate
variable {find : String → Option ActorRef} {scripts : Library} {e : Entry}

/-- What the arguments of an entry give, one after the other. -/
def taken (find : String → Option ActorRef) (scripts : Library) (e : Entry) : Reading :=
  (e.arguments.map Argument.parse).foldl (Reading.takeArgument find scripts) ⟨e, []⟩

theorem read_many (h : maxArguments < e.arguments.length) :
    read find scripts e =
      (.error (.invalidArguments "Too many arguments! Did you forget a 'quote'?"), ⟨e, []⟩) := by
  simp only [read, h, if_true]

theorem read_eq (h : e.arguments.length ≤ maxArguments) :
    read find scripts e =
      (if (aimAtSubject (taken find scripts e).entry).has "text" then .ok ()
        else .error (.invalidArguments "Missing any text!"),
      ⟨aimAtSubject (taken find scripts e).entry, (taken find scripts e).errors⟩) := by
  have htaken : (e.arguments.map Argument.parse).foldl (Reading.takeArgument find scripts) ⟨e, []⟩ =
    taken find scripts e := rfl
  simp only [read, Nat.not_lt.2 h, if_false, htaken]
  split <;> rfl

end Narrate

namespace Wait

/-- The entry with the standard duration, if it has none. -/
def timed (e : Entry) : Entry :=
  if e.has "duration" then e else e.add "duration" (.duration standardDuration)

variable {e e' : Entry}

theorem read_of_ok (h : takeArguments e (e.arguments.map Argument.parse) = (.ok (), e')) :
    read e = (.ok (), timed e') := by
  unfold read timed
  rw [h]
  cases hhas : e'.has "duration" <;> simp [Entry.ensure, hhas]

theorem read_of_error {err : CommandError}
    (h : takeArguments e (e.arguments.map Argument.parse) = (.error err, e')) :
    read e = (.error err, e') := by
  unfold read
  rw [h]

end Wait

/-! ## Outcomes of the bundled commands -/

/-- The outcome of sending a line of text. -/
def Narrate.outcome (directory : Directory) (cast : Cast) (call : Call) (e : Entry) : Outcome :=
  let (result, r) := read (directory cast) call.scripts e
  let errors := r.errors.flatMap fun m => call.reporter.events (.error m)
  match result with
  | .error err => ⟨.error err, r.entry, errors⟩
  | .ok () =>
    match work cast r.entry with
    | .error err => ⟨.error err, r.entry, errors⟩
    | .ok effects => ⟨.ok (), r.entry, errors ++ effects.flatMap (Effect.events call r.entry)⟩

/-- The outcome of holding a queue. -/
def Wait.outcome (call : Call) (e : Entry) : Outcome :=
  let (result, e) := read e
  match result with
  | .error err => ⟨.error err, e, []⟩
  | .ok () =>
    match length e with
    | .error err => ⟨.error err, e, []⟩
    | .ok d =>
      ⟨.ok (), e, call.reporter.events (.summary e call.command (reportPart "Duration" d.render))⟩

section
variable {x : Executor σ}

theorem Narrate.perform_has (directory : Directory) (e : Entry) (w : World σ) :
    (x.perform (command directory) e w).Has w
      (outcome directory w.cast ⟨e.command, x.reporter, x.scripts⟩ e) := by
  rcases hread : read (directory w.cast) x.scripts e with ⟨result, r⟩
  simp only [Executor.perform, command, outcome, hread, World.foldl_tell]
  cases result with
  | error err => exact ⟨rfl, rfl, World.logged_foldl_observe _ _⟩
  | ok =>
    simp only [World.cast_foldl_observe]
    cases work w.cast r.entry with
    | error err => exact ⟨rfl, rfl, World.logged_foldl_observe _ _⟩
    | ok effects =>
      refine ⟨rfl, rfl, World.Logged.foldl_observe ?_⟩
      simp only [funext₂ (apply_eq _ _), ← List.foldl_flatMap]
      exact World.logged_foldl_observe _ _

theorem Wait.log_arm (w : World σ) (id : EntryId) (d : Span) : (arm w id d).log = w.log := by
  unfold arm
  split
  · rw [World.spawn_eq]; rfl
  · simp only [World.markFinished, if_true]; rw [World.ring_eq]; rfl

theorem Wait.perform_has (e : Entry) (w : World σ) :
    (x.perform command e w).Has w (outcome ⟨e.command, x.reporter, x.scripts⟩ e) := by
  rcases hread : read e with ⟨result, e'⟩
  simp only [Executor.perform, command, outcome, hread]
  cases result with
  | error err => exact ⟨rfl, rfl, rfl⟩
  | ok =>
    simp only
    cases length e' with
    | error err => exact ⟨rfl, rfl, rfl⟩
    | ok d =>
      refine ⟨rfl, rfl, ?_⟩
      unfold World.Logged
      rw [log_arm]
      exact World.logged_foldl_observe _ _

/-- The bundled commands of a host without actors. -/
def Executor.deserted (scripts : Library) : Executor Unit :=
  ⟨Registry.empty.withBundled fun _ _ => none, Tag.resolve, .plain, scripts⟩

/-- What is seen of the tags of an entry. -/
def Executor.warned (x : Executor σ) (e : Entry) : List Event :=
  (Tag.resolveEntry x.resolver e).2.flatMap fun m => x.reporter.events (.warning m)

/-- **Running an entry comes to what its command makes of it**, after the warnings. -/
theorem Executor.dispatch_has {c : Command σ} {outcome : Cast → Call → Entry → Outcome}
    (hc : ∀ e w, (x.perform c e w).Has w (outcome w.cast ⟨e.command, x.reporter, x.scripts⟩ e))
    {e : Entry} (hl : x.registry.lookup (Tag.resolveEntry x.resolver e).1.command = .ok c)
    (w : World σ) :
    (x.dispatch e w).Has w
      ((outcome w.cast ⟨(Tag.resolveEntry x.resolver e).1.command, x.reporter, x.scripts⟩
        (Tag.resolveEntry x.resolver e).1).after (x.warned e)) := by
  have hdone := hc (Tag.resolveEntry x.resolver e).1 ((x.warned e).foldl World.observe w)
  rw [World.cast_foldl_observe] at hdone
  simp only [Executor.dispatch, hl, World.foldl_tell]
  exact ⟨hdone.result, hdone.entry, hdone.logged.foldl_observe⟩

end

/-! ## Reporters that are impartial -/

/-- Whether an event is a summary or a message, and not about an error or a warning. -/
def Event.isNews : Event → Bool
  | .summary .. | .sent .. | .trace .info .. => true
  | _ => false

/-- Whether a reporter looks at no more of an entry than its script and its queue, and what
    it makes of errors and warnings cannot be taken for anything else. -/
structure Reporter.Impartial (r : Reporter) : Prop where
  summary : ∀ (e e' : Entry) (command text : String), e'.script = e.script → e'.queue = e.queue →
    r.events (.summary e' command text) = r.events (.summary e command text)
  error : ∀ m, ∀ event ∈ r.events (.error m), event.isNews = false
  warning : ∀ m, ∀ event ∈ r.events (.warning m), event.isNews = false

namespace Reporter

theorem plain_impartial : plain.Impartial where
  summary _ _ _ _ _ _ := rfl
  error m event h := by rw [List.mem_singleton.1 h]; rfl
  warning m event h := by rw [List.mem_singleton.1 h]; rfl

theorem trace_impartial (enabled : Bool) (filters : List String) :
    (trace enabled filters).Impartial where
  summary e e' _ _ hscript hqueue := by
    have hfilter : e'.passesFilter = e.passesFilter := by
      funext filter
      simp only [Entry.passesFilter, hscript]
    have hadmits : admits enabled filters e' = admits enabled filters e := by
      simp only [admits, Entry.shouldDebug, hfilter, hscript]
    simp only [trace, hadmits, hqueue]
  error m event h := by rw [List.mem_singleton.1 h]; rfl
  warning m event h := by rw [List.mem_singleton.1 h]; rfl

/-- Errors are no news. -/
theorem Impartial.news_errors {r : Reporter} (hr : r.Impartial) (messages : List String) :
    (messages.flatMap fun m => r.events (.error m)).filter Event.isNews = [] := by
  rw [List.filter_eq_nil_iff]
  intro event hevent
  obtain ⟨m, -, hm⟩ := List.mem_flatMap.1 hevent
  simp [hr.error m event hm]

theorem Impartial.news_warnings {r : Reporter} (hr : r.Impartial) (messages : List String) :
    (messages.flatMap fun m => r.events (.warning m)).filter Event.isNews = [] := by
  rw [List.filter_eq_nil_iff]
  intro event hevent
  obtain ⟨m, -, hm⟩ := List.mem_flatMap.1 hevent
  simp [hr.warning m event hm]

end Reporter

theorem Narrate.Effect.events_congr {call : Call} (hr : call.reporter.Impartial) {e e' : Entry}
    (hscript : e'.script = e.script) (hqueue : e'.queue = e.queue) :
    Effect.events call e' = Effect.events call e := by
  funext effect
  cases effect with
  | report text => exact hr.summary e e' call.command text hscript hqueue
  | send | fail => rfl

/-! ## The identity of an entry -/

/-- The entry with another identity. -/
def Entry.withId (e : Entry) (id : EntryId) : Entry :=
  { e with id }

/-- The outcome with another identity of the entry. -/
def Outcome.withId (o : Outcome) (id : EntryId) : Outcome :=
  { o with entry := o.entry.withId id }

section
variable (id : EntryId)

theorem Tag.resolveEntry_withId (r : Resolver) (e : Entry) :
    resolveEntry r (e.withId id) = ((resolveEntry r e).1.withId id, (resolveEntry r e).2) := by
  unfold resolveEntry
  have htags : (e.withId id).hasTags = e.hasTags := rfl
  rw [htags]
  split <;> rfl

namespace Narrate

/-- An entry that is being read, with another identity. -/
def Reading.withId (r : Reading) : Reading :=
  { r with entry := r.entry.withId id }

theorem takeArgument_withId (find : String → Option ActorRef) (scripts : Library) (r : Reading)
    (a : Argument) :
    (r.withId id).takeArgument find scripts a = (r.takeArgument find scripts a).withId id := by
  have hhas : ∀ key, (r.withId id).entry.has key = r.entry.has key := fun _ => rfl
  simp only [Reading.takeArgument, hhas]
  split
  · unfold Reading.takeFormat; split <;> rfl
  split
  · rfl
  split <;> rfl

theorem aimAtSubject_withId (e : Entry) :
    aimAtSubject (e.withId id) = (aimAtSubject e).withId id := by
  have hhas : (e.withId id).has "targets" = e.has "targets" := rfl
  have hsubject : (e.withId id).subject = e.subject := rfl
  simp only [aimAtSubject, hhas, hsubject]
  split
  · rfl
  · cases e.subject <;> rfl

theorem read_withId (find : String → Option ActorRef) (scripts : Library) (e : Entry) :
    read find scripts (e.withId id) =
      ((read find scripts e).1, (read find scripts e).2.withId id) := by
  have hargs : (e.withId id).arguments = e.arguments := rfl
  have hstart : (⟨e.withId id, []⟩ : Reading) = Reading.withId id ⟨e, []⟩ := rfl
  have hfold : ∀ (as : List Argument) (r : Reading),
      as.foldl (Reading.takeArgument find scripts) (r.withId id) =
        (as.foldl (Reading.takeArgument find scripts) r).withId id := fun as r =>
    (List.foldl_hom (Reading.withId id) fun r a => takeArgument_withId id find scripts r a)
  have hhas : ∀ e : Entry, (e.withId id).has "text" = e.has "text" := fun _ => rfl
  by_cases hlen : e.arguments.length ≤ maxArguments
  · rw [read_eq hlen, read_eq (e := e.withId id) hlen, taken, hargs, hstart, hfold]
    simp only [Reading.withId, aimAtSubject_withId, hhas]
    rfl
  · rw [read_many (Nat.lt_of_not_le hlen), read_many (e := e.withId id) (Nat.lt_of_not_le hlen)]
    rfl

theorem outcome_withId (directory : Directory) (cast : Cast) {call : Call}
    (hr : call.reporter.Impartial) (e : Entry) :
    outcome directory cast call (e.withId id) = (outcome directory cast call e).withId id := by
  have hwork : ∀ e : Entry, work cast (e.withId id) = work cast e := fun _ => rfl
  have hevents : ∀ e : Entry, Effect.events call (e.withId id) = Effect.events call e :=
    fun e => Effect.events_congr hr rfl rfl
  rcases hread : read (directory cast) call.scripts e with ⟨result, r⟩
  simp only [outcome, read_withId, hread]
  cases result with
  | error err => rfl
  | ok =>
    simp only [Reading.withId, hwork, hevents]
    cases work cast r.entry <;> rfl

end Narrate

namespace Wait

theorem takeArgument_withId (e : Entry) (a : Argument) :
    takeArgument (e.withId id) a = (takeArgument e a).map (Entry.withId · id) := by
  have hhas : (e.withId id).has "duration" = e.has "duration" := rfl
  simp only [takeArgument, hhas]
  split
  · rfl
  · cases a.duration <;> rfl

theorem takeArguments_withId (e : Entry) (as : List Argument) :
    takeArguments (e.withId id) as =
      ((takeArguments e as).1, (takeArguments e as).2.withId id) := by
  induction as generalizing e with
  | nil => rfl
  | cons a as ih =>
    simp only [takeArguments, takeArgument_withId]
    cases takeArgument e a with
    | error err => rfl
    | ok e' => exact ih e'

theorem read_withId (e : Entry) :
    read (e.withId id) = ((read e).1, (read e).2.withId id) := by
  have htimed : ∀ e : Entry, timed (e.withId id) = (timed e).withId id := by
    intro e
    have hhas : (e.withId id).has "duration" = e.has "duration" := rfl
    simp only [timed, hhas]
    split <;> rfl
  have htake := takeArguments_withId id e (e.arguments.map Argument.parse)
  rcases hread : takeArguments e (e.arguments.map Argument.parse) with ⟨err | _, e'⟩
  · rw [hread] at htake
    rw [read_of_error hread, read_of_error htake]
  · rw [hread] at htake
    rw [read_of_ok hread, read_of_ok htake, htimed]

theorem outcome_withId {call : Call} (hr : call.reporter.Impartial) (e : Entry) :
    outcome call (e.withId id) = (outcome call e).withId id := by
  have hlength : ∀ e : Entry, length (e.withId id) = length e := fun _ => rfl
  rcases hread : read e with ⟨result, e'⟩
  simp only [outcome, read_withId, hread]
  cases result with
  | error err => rfl
  | ok =>
    simp only [hlength]
    cases length e' with
    | error err => rfl
    | ok d =>
      simp only [Outcome.withId]
      rw [hr.summary e' (e'.withId id) _ _ rfl rfl]

end Wait

end

/-! ## Entries that are run with the bundled commands -/

/-- Whether an event is one that a reporter makes of a notice, or a message. -/
def Event.From (r : Reporter) (event : Event) : Prop :=
  (∃ n, event ∈ r.events n) ∨ ∃ actor message, event = .sent actor message

theorem Event.from_flatMap {r : Reporter} {α : Type} {notice : α → Notice} {as : List α}
    {event : Event} (he : event ∈ as.flatMap fun a => r.events (notice a)) : event.From r := by
  obtain ⟨a, -, ha⟩ := List.mem_flatMap.1 he
  exact .inl ⟨notice a, ha⟩

theorem Narrate.outcome_from (directory : Directory) (cast : Cast) (call : Call) (e : Entry) :
    ∀ event ∈ (outcome directory cast call e).events, event.From call.reporter := by
  intro event he
  rcases hread : read (directory cast) call.scripts e with ⟨result, r⟩
  simp only [outcome, hread] at he
  cases result with
  | error err => exact Event.from_flatMap he
  | ok =>
    simp only at he
    cases hwork : work cast r.entry with
    | error err =>
      rw [hwork] at he
      exact Event.from_flatMap he
    | ok effects =>
      rw [hwork] at he
      rcases List.mem_append.1 he with he | he
      · exact Event.from_flatMap he
      obtain ⟨effect, -, he⟩ := List.mem_flatMap.1 he
      cases effect with
      | report text => exact .inl ⟨_, he⟩
      | send actor message => exact .inr ⟨actor, message, List.mem_singleton.1 he⟩
      | fail message => exact .inl ⟨_, he⟩

theorem Wait.outcome_from (call : Call) (e : Entry) :
    ∀ event ∈ (outcome call e).events, event.From call.reporter := by
  intro event he
  rcases hread : read e with ⟨result, e'⟩
  simp only [outcome, hread] at he
  cases result with
  | error err => cases he
  | ok =>
    simp only at he
    cases hlength : length e' with
    | error err => rw [hlength] at he; cases he
    | ok d => rw [hlength] at he; exact .inl ⟨_, he⟩

/-- What running an entry comes to whatever its identity, if that makes no difference to
    its command. -/
theorem Executor.dispatch_has_withId {x : Executor σ} {c : Command σ}
    (outcome : Cast → Call → Entry → Outcome)
    (hc : ∀ e w, (x.perform c e w).Has w (outcome w.cast ⟨e.command, x.reporter, x.scripts⟩ e))
    (hid : ∀ cast command e id, outcome cast ⟨command, x.reporter, x.scripts⟩ (Entry.withId e id) =
      (outcome cast ⟨command, x.reporter, x.scripts⟩ e).withId id)
    {e : Entry} (hl : x.registry.lookup (Tag.resolveEntry x.resolver e).1.command = .ok c)
    (id : EntryId) (w : World σ) :
    (x.dispatch (e.withId id) w).Has w
      (((outcome w.cast ⟨(Tag.resolveEntry x.resolver e).1.command, x.reporter, x.scripts⟩
        (Tag.resolveEntry x.resolver e).1).after (x.warned e)).withId id) := by
  have hresolve := Tag.resolveEntry_withId id x.resolver e
  have hwarned : x.warned (e.withId id) = x.warned e := by simp only [Executor.warned, hresolve]
  have hcommand : (Tag.resolveEntry x.resolver (e.withId id)).1.command =
      (Tag.resolveEntry x.resolver e).1.command := by rw [hresolve]; rfl
  have hdone := Executor.dispatch_has hc (hcommand.symm ▸ hl) w
  rw [hcommand, hresolve, hid, hwarned] at hdone
  exact hdone

/-- An entry whose command is not found comes to the error, whatever its identity. -/
theorem Executor.dispatch_has_error {x : Executor σ} {e : Entry} {err : CommandError}
    (hl : x.registry.lookup (Tag.resolveEntry x.resolver e).1.command = .error err)
    (id : EntryId) (w : World σ) :
    (x.dispatch (e.withId id) w).Has w
      (Outcome.withId ⟨.error err, (Tag.resolveEntry x.resolver e).1, x.warned e⟩ id) := by
  have hresolve := Tag.resolveEntry_withId id x.resolver e
  have hl' : x.registry.lookup ((Tag.resolveEntry x.resolver e).1.withId id).command =
    .error err := hl
  simp only [Executor.dispatch, hresolve, hl', World.foldl_tell]
  exact ⟨rfl, rfl, World.logged_foldl_observe _ _⟩

/-- **Running an entry with the bundled commands comes to the same in all worlds with the
    same actors**, whatever the identity of the entry; all that is seen comes from the
    reporter or is a message. -/
theorem Executor.bundled_has {x : Executor σ} {directory : Narrate.Directory}
    (hx : ∀ p ∈ x.registry.index.pairs, p.2 = Wait.command ∨ p.2 = Narrate.command directory)
    (hr : x.reporter.Impartial) (e : Entry) (cast : Cast) :
    ∃ o : Outcome,
      (∀ id w, w.cast = cast → (x.dispatch (e.withId id) w).Has w (o.withId id)) ∧
      ∀ event ∈ o.events, event.From x.reporter := by
  let e' := (Tag.resolveEntry x.resolver e).1
  let call : Call := ⟨e'.command, x.reporter, x.scripts⟩
  have hwarned : ∀ event ∈ x.warned e, event.From x.reporter := fun _ => Event.from_flatMap
  have hafter : ∀ o : Outcome, (∀ event ∈ o.events, event.From x.reporter) →
      ∀ event ∈ (o.after (x.warned e)).events, event.From x.reporter :=
    fun o ho event he => (List.mem_append.1 he).elim (hwarned event) (ho event)
  cases hl : x.registry.lookup e'.command with
  | error err =>
    exact ⟨⟨.error err, e', x.warned e⟩, fun id w _ => Executor.dispatch_has_error hl id w, hwarned⟩
  | ok c =>
    obtain ⟨key, hm⟩ := Registry.mem_of_lookup hl
    rcases hx _ hm with hc | hc
    · obtain rfl : c = Wait.command := hc
      refine ⟨(Wait.outcome call e').after (x.warned e), fun id w _ => ?_,
        hafter _ (Wait.outcome_from call e')⟩
      exact Executor.dispatch_has_withId (fun _ => Wait.outcome)
        (fun _ _ => Wait.perform_has ..) (fun _ _ _ id => Wait.outcome_withId id hr _) hl id w
    · obtain rfl : c = Narrate.command directory := hc
      refine ⟨(Narrate.outcome directory cast call e').after (x.warned e), fun id w hw => ?_,
        hafter _ (Narrate.outcome_from directory cast call e')⟩
      have hdone := Executor.dispatch_has_withId (Narrate.outcome directory)
        (fun _ _ => Narrate.perform_has ..)
        (fun cast _ _ id => Narrate.outcome_withId id directory cast hr _) hl id w
      rwa [hw] at hdone

end Cuelist
