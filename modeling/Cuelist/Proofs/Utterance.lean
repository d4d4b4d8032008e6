/-
  What a bundled command does, it does completely or not at all.

  What running an entry says to the host is a list of utterances: notices to the reporter and
  messages to actors.  They add to the log and leave the rest of the world alone
  (`World.after_eq`).  What is said does not depend on the reporter.

  * `Narrate.Acts`: a line of text is refused with complaints only, or there is one summary, and
    then one utterance for each target in order: the message, or an error (`Narrate.Delivered`).
  * `Wait.Acts`: a queue is not held, with complaints only, or there is one summary, and then the
    alarm is armed; `Wait.waiting_arm` says what becomes of the flag of the entry.
  * `done_or_refused` puts these together for the run of an entry.
-/
import Cuelist.Proofs.Registry
import Cuelist.Proofs.Reuse
import Cuelist.Proofs.Signal

namespace Cuelist

variable {σ : Type}

/-! ## Utterances -/

/-- What a command says to its host. -/
inductive Utterance where
  /-- Tells the reporter something. -/
  | tell (n : Notice)
  /-- Sends a message to an actor. -/
  | send (actor message : String)

/-- Says one thing. -/
def Utterance.apply (r : Reporter) (w : World σ) : Utterance → World σ
  | tell n => w.tell r n
  | send actor message => w.observe (.sent actor message)

/-- Whether it is an error or a warning that the reporter is told: no summary, and no message. -/
def Utterance.isComplaint : Utterance → Bool
  | tell (.error _) | tell (.warning _) => true
  | tell (.summary ..) | send .. => false

theorem Utterance.isComplaint_of_mem {notice : String → Notice} {messages : List String}
    {d : Utterance} (hnotice : ∀ m, (tell (notice m)).isComplaint = true)
    (hd : d ∈ messages.map fun m => tell (notice m)) : d.isComplaint = true := by
  obtain ⟨m, -, rfl⟩ := List.mem_map.1 hd
  exact hnotice m

namespace World

/-- The world after utterances, in order. -/
def after (w : World σ) (r : Reporter) (said : List Utterance) : World σ :=
  said.foldl (Utterance.apply r) w

theorem after_append (w : World σ) (r : Reporter) (ds ds' : List Utterance) :
    (w.after r ds).after r ds' = w.after r (ds ++ ds') :=
  List.foldl_append.symm

/-- What is said is seen in the log, and nowhere else: no task is started and no flag is changed. -/
theorem after_eq (w : World σ) (r : Reporter) (said : List Utterance) :
    w.after r said = { w with log := (w.after r said).log } := by
  induction said generalizing w with
  | nil => rfl
  | cons d ds ih =>
    have hstep : d.apply r w = { w with log := (d.apply r w).log } := by
      cases d with
      | tell n => exact tell_eq w r n
      | send actor message => rfl
    have hrest : w.after r (d :: ds) = (d.apply r w).after r ds := rfl
    rw [hrest, ih, hstep]

theorem cast_after (w : World σ) (r : Reporter) (said : List Utterance) :
    (w.after r said).cast = w.cast := by
  rw [after_eq]

/-- Notices of one kind, told one after the other. -/
theorem foldl_tell_eq_after (w : World σ) (r : Reporter) (notice : String → Notice)
    (messages : List String) : messages.foldl (fun w m => w.tell r (notice m)) w =
      w.after r (messages.map fun m => .tell (notice m)) := by
  rw [after, List.foldl_map]
  rfl

end World

/-! ## Lines of text -/

namespace Narrate

/-- The targets of an entry that was read. -/
def targetList? (e : Entry) : Option (List ActorRef) :=
  (e.get? "targets").bind Value.actors?

/-- The format of an entry that was read. -/
def chosenFormat? (e : Entry) : Option Script :=
  (e.get? "format").bind Value.script?

/-- The message for a text: put into the format, if there is one. -/
def message (e : Entry) (text : String) : String :=
  ((chosenFormat? e).map fun s => s.render text).getD text

/-- What is said for one target: the message is sent to an actor who is there and can be
    reached, and an error is reported otherwise. -/
inductive Delivered (cast : Cast) (message : String) (a : ActorRef) : Utterance → Prop where
  | sent {actor : Actor} : cast.actor? a = some actor → cast.isOnline a = true →
    Delivered cast message a (.send actor.name message)
  | missed : cast.isOnline a = false →
    Delivered cast message a (.tell (.error "Narrated to non-existent or offline actor!"))

/-- What running an entry says: complaints alone if it fails; otherwise one summary follows, and
    then one utterance for each target, if there are targets. -/
inductive Acts (cast : Cast) (command : String) :
    Except CommandError Unit → Entry → List Utterance → Prop where
  | refused {err : CommandError} {left : Entry} {complaints : List Utterance} :
    (∀ d ∈ complaints, d.isComplaint = true) → Acts cast command (.error err) left complaints
  | done {left : Entry} {text : String} {label : Option String}
      {complaints deliveries : List Utterance} :
    (∀ d ∈ complaints, d.isComplaint = true) →
    left.get? "text" = some (.text text label) →
    List.Forall₂ (Delivered cast (message left text)) ((targetList? left).getD []) deliveries →
    Acts cast command (.ok ()) left (complaints ++ .tell (.summary left command
      (summary text (targetList? left) (chosenFormat? left))) :: deliveries)

/-- What an effect says. -/
def Effect.utter (command : String) (e : Entry) : Effect → Utterance
  | report text => .tell (.summary e command text)
  | send actor message => .send actor message
  | fail message => .tell (.error message)

theorem foldl_apply_eq_after (c : Call) (e : Entry) (w : World σ) (effects : List Effect) :
    effects.foldl (Effect.apply c e) w =
      w.after c.reporter (effects.map (Effect.utter c.command e)) := by
  rw [World.after, List.foldl_map]
  congr 1
  funext w effect
  cases effect <;> rfl

theorem delivered_deliver (cast : Cast) (message command : String) (e : Entry) (a : ActorRef) :
    Delivered cast message a ((deliver cast message a).utter command e) := by
  unfold deliver
  cases hactor : cast.actor? a with
  | none => exact .missed (by simp [Cast.isOnline, hactor])
  | some actor =>
    simp only
    split
    next honline => exact .sent hactor (by simp [Cast.isOnline, hactor, honline])
    next hoffline => exact .missed (by simpa [Cast.isOnline, hactor] using hoffline)

/-- What the work comes to if it can be done. -/
theorem work_eq_ok {cast : Cast} {e : Entry} {effects : List Effect}
    (h : work cast e = .ok effects) : ∃ text label, e.get? "text" = some (.text text label) ∧
      effects = .report (summary text (targetList? e) (chosenFormat? e)) ::
        ((targetList? e).getD []).map (deliver cast (message e text)) := by
  unfold work at h
  split at h
  next => cases h
  next text label hlabel =>
    obtain ⟨v, hv, htext⟩ := Option.bind_eq_some_iff.1 hlabel
    cases v with
    | text content label' =>
      obtain ⟨rfl, rfl⟩ := Prod.mk.inj (Option.some.inj htext)
      exact ⟨content, label', hv, (Except.ok.inj h).symm⟩
    | _ => cases htext

/-- **Sending a line is done completely or not at all.**  It comes after
    complaints about the tags, and what is said does not depend on the reporter. -/
theorem exists_acts (directory : Directory) (scripts : Library) (e : Entry) (cast : Cast)
    {first : List Utterance} (hfirst : ∀ d ∈ first, d.isComplaint = true) :
    ∃ result left said, Acts cast e.command result left (first ++ said) ∧
      ∀ (x : Executor σ) (w : World σ), x.scripts = scripts → w.cast = cast →
        x.perform (command directory) e w = ⟨result, left, w.after x.reporter said⟩ := by
  rcases hread : read (directory cast) scripts e with ⟨result, r⟩
  let errors : List Utterance := r.errors.map fun m => .tell (.error m)
  have herrors : ∀ d ∈ first ++ errors, d.isComplaint = true := by
    intro d hd
    rcases List.mem_append.1 hd with hd | hd
    · exact hfirst d hd
    · exact Utterance.isComplaint_of_mem (fun _ => rfl) hd
  cases result with
  | error err =>
    refine ⟨.error err, r.entry, errors, .refused herrors, ?_⟩
    rintro x w rfl rfl
    simp only [Executor.perform, command, hread, World.foldl_tell_eq_after]
    rfl
  | ok =>
    cases hwork : work cast r.entry with
    | error err =>
      refine ⟨.error err, r.entry, errors, .refused herrors, ?_⟩
      rintro x w rfl rfl
      simp only [Executor.perform, command, hread, World.foldl_tell_eq_after, World.cast_after,
        hwork]
      rfl
    | ok effects =>
      obtain ⟨text, label, htext, heffects⟩ := work_eq_ok hwork
      refine ⟨.ok (), r.entry, errors ++ effects.map (Effect.utter e.command r.entry), ?_, ?_⟩
      · rw [← List.append_assoc, heffects, List.map_cons, List.map_map]
        refine .done herrors htext ?_
        rw [List.forall₂_map_right_iff]
        exact List.forall₂_same.2 fun a _ => delivered_deliver cast _ e.command r.entry a
      · rintro x w rfl rfl
        simp only [Executor.perform, command, hread, World.foldl_tell_eq_after, World.cast_after,
          hwork, foldl_apply_eq_after, World.after_append]
        rfl

end Narrate

/-! ## Lengths of time -/

namespace Wait

/-- What running an entry says, before an alarm is armed: complaints alone if it fails;
    otherwise one summary follows. -/
inductive Acts (command : String) : Except CommandError Span → Entry → List Utterance → Prop where
  | refused {err : CommandError} {left : Entry} {complaints : List Utterance} :
    (∀ d ∈ complaints, d.isComplaint = true) → Acts command (.error err) left complaints
  | done {d : Span} {left : Entry} {complaints : List Utterance} :
    (∀ d ∈ complaints, d.isComplaint = true) →
    Acts command (.ok d) left (complaints ++ [.tell (.summary left command
      (reportPart "Duration" d.render))])

/-- What becomes of a world when a length of time is held or refused. -/
def ending (id : EntryId) (w : World σ) : Except CommandError Span → World σ
  | .ok d => arm w id d
  | .error _ => w

/-- The entry waits for its signal from then on if there is a clock, and no longer if there is
    none. -/
theorem waiting_arm (w : World σ) (id : EntryId) (d : Span) :
    (arm w id d).waiting = put w.waiting id w.live := by
  unfold arm
  cases w.live with
  | true =>
    rw [if_pos rfl, World.spawn_eq]
    rfl
  | false => exact World.waiting_markFinished w id true

/-- **Holding a queue is done completely or not at all.** -/
theorem exists_acts (e : Entry) {first : List Utterance}
    (hfirst : ∀ d ∈ first, d.isComplaint = true) :
    ∃ result left said, Acts e.command result left (first ++ said) ∧
      ∀ (x : Executor σ) (w : World σ), x.perform Wait.command e w =
        ⟨result.map fun _ => (), left, ending e.id (w.after x.reporter said) result⟩ := by
  have hid : (read e).2.id = e.id := by rw [(touched_read e).rest]
  rcases hread : read e with ⟨result, left⟩
  rw [hread] at hid
  cases result with
  | error err =>
    refine ⟨.error err, left, [], ?_, ?_⟩
    · rw [List.append_nil]
      exact .refused hfirst
    · intro x w
      simp only [Executor.perform, Wait.command, hread]
      rfl
  | ok =>
    cases hlength : length left with
    | error err =>
      refine ⟨.error err, left, [], ?_, ?_⟩
      · rw [List.append_nil]
        exact .refused hfirst
      · intro x w
        simp only [Executor.perform, Wait.command, hread, hlength]
        rfl
    | ok d =>
      refine ⟨.ok d, left, [_], .done hfirst, ?_⟩
      intro x w
      have hleft : left.id = e.id := hid
      simp only [Executor.perform, Wait.command, hread, hlength, ← hleft]
      rfl

end Wait

/-! ## The main result -/

/-- An entry runs with the command that is found, after complaints about its tags. -/
theorem Executor.dispatch_after {x : Executor σ} {e : Entry} {c : Command σ}
    (h : x.registry.lookup e.command = .ok c) (w : World σ) :
    x.dispatch e w = x.perform c (Tag.resolveEntry x.resolver e).1
      (w.after x.reporter ((Tag.resolveEntry x.resolver e).2.map fun m => .tell (.warning m))) := by
  rw [dispatch_found h]
  simp only [performFilled, World.foldl_tell_eq_after]

/-- **A bundled command acts completely or not at all.**  For every entry and world, and whatever
    reporter there is:

    * if sending a line fails, then only complaints were reported, and nothing else of the world
      has changed; if it succeeds, one summary was reported, and then for each target in order the
      message was sent if the actor is there and can be reached, and an error reported if not;
    * if holding a queue fails, the same is true; if it succeeds, one summary was reported, and
      the entry waits for its signal exactly if there is a clock. -/
theorem done_or_refused (x : Executor σ) (e : Entry) (w : World σ) :
    (∀ directory, x.registry.lookup e.command = .ok (Narrate.command directory) →
      ∃ result left said, Narrate.Acts w.cast e.command result left said ∧
        ∀ reporter, let reply := { x with reporter }.dispatch e w
          reply = ⟨result, left, w.after reporter said⟩ ∧
            reply.world = { w with log := reply.world.log }) ∧
    (x.registry.lookup e.command = .ok Wait.command →
      ∃ result left said, Wait.Acts e.command result left said ∧
        ∀ reporter, let reply := { x with reporter }.dispatch e w
          reply.result = (result.map fun _ => ()) ∧ reply.entry = left ∧
          (∀ err, result = .error err → reply.world = w.after reporter said ∧
            reply.world = { w with log := reply.world.log }) ∧
          ∀ d, result = .ok d → reply.world = Wait.arm (w.after reporter said) e.id d ∧
            reply.world.waiting = put w.waiting e.id w.live) := by
  let e' := (Tag.resolveEntry x.resolver e).1
  let warnings : List Utterance := (Tag.resolveEntry x.resolver e).2.map fun m => .tell (.warning m)
  have hwarnings : ∀ d ∈ warnings, d.isComplaint = true :=
    fun _ hd => Utterance.isComplaint_of_mem (fun _ => rfl) hd
  have hcommand : e'.command = e.command := Tag.command_resolveEntry x.resolver e
  have hid : e'.id = e.id := Tag.id_resolveEntry x.resolver e
  constructor
  · intro directory hfound
    obtain ⟨result, left, said, hacts, hperform⟩ :=
      Narrate.exists_acts (σ := σ) directory x.scripts e' w.cast hwarnings
    rw [hcommand] at hacts
    refine ⟨result, left, warnings ++ said, hacts, ?_⟩
    intro reporter reply
    have hreply : reply = ⟨result, left, w.after reporter (warnings ++ said)⟩ := by
      rw [← World.after_append]
      exact (Executor.dispatch_after (x := { x with reporter }) hfound w).trans
        (hperform { x with reporter } _ rfl (World.cast_after ..))
    refine ⟨hreply, ?_⟩
    rw [hreply]
    exact World.after_eq ..
  · intro hfound
    obtain ⟨result, left, said, hacts, hperform⟩ := Wait.exists_acts (σ := σ) e' hwarnings
    rw [hcommand] at hacts
    rw [hid] at hperform
    refine ⟨result, left, warnings ++ said, hacts, ?_⟩
    intro reporter reply
    have hreply : reply = ⟨result.map fun _ => (), left,
        Wait.ending e.id (w.after reporter (warnings ++ said)) result⟩ := by
      rw [← World.after_append]
      exact (Executor.dispatch_after (x := { x with reporter }) hfound w).trans
        (hperform { x with reporter } _)
    rw [hreply]
    refine ⟨rfl, rfl, ?_, ?_⟩
    · rintro err rfl
      exact ⟨rfl, World.after_eq ..⟩
    · rintro d rfl
      refine ⟨rfl, ?_⟩
      have hworld := w.after_eq reporter (warnings ++ said)
      change (Wait.arm (w.after reporter (warnings ++ said)) e.id d).waiting = _
      rw [Wait.waiting_arm, hworld]

theorem Registry.lookup_wait (directory : Narrate.Directory) {name : String}
    (h : Key.normalize name = "WAIT") :
    (Registry.empty.withBundled directory).lookup name = .ok (Wait.command (σ := σ)) := by
  have hwait : "WAIT" = Key.normalize "wait" := by decide
  simp only [lookup, withBundled, register, h, Index.get?_insert, if_pos hwait]

/-- A greeting to one who is there, and a second on the clock. -/
theorem done_or_refused_steve :
    let steve : Actor := ⟨⟨0⟩, "Steve", none⟩
    let x : Executor Unit := ⟨Registry.empty.withBundled Narrate.byName, Tag.resolve, .plain, {}⟩
    let w : World Unit := .start () ⟨[some steve]⟩ true
    let greeting := Entry.make ⟨0⟩ .normal "NARRATE" ["t:steve", "hello"] none
    let second := Entry.make ⟨1⟩ .normal "WAIT" ["1s"] none
    (∃ left said, Narrate.Acts w.cast "NARRATE" (.ok ()) left said ∧
      (x.dispatch greeting w).world = w.after .plain said) ∧
    (x.dispatch second w).world.waiting = put w.waiting ⟨1⟩ true := by
  intro steve x w greeting second
  constructor
  · have hfound : x.registry.lookup greeting.command = .ok (Narrate.command Narrate.byName) :=
      Registry.lookup_narrate _ (by decide)
    have hok : (x.dispatch greeting w).result = .ok () := by decide
    obtain ⟨result, left, said, hacts, hreply⟩ := (done_or_refused x greeting w).1 _ hfound
    have hdispatch : x.dispatch greeting w = ⟨result, left, w.after .plain said⟩ :=
      (hreply .plain).1
    rw [hdispatch] at hok
    subst hok
    exact ⟨left, said, hacts, congrArg Reply.world hdispatch⟩
  · have hfound : x.registry.lookup second.command = .ok Wait.command :=
      Registry.lookup_wait _ (by decide)
    have hok : (x.dispatch second w).result = .ok () := by decide
    obtain ⟨result, left, said, -, hreply⟩ := (done_or_refused x second w).2 hfound
    obtain ⟨hresult, -, -, hdone⟩ := hreply .plain
    have hmap : result.map (fun _ => ()) = .ok () := hresult.symm.trans hok
    cases result with
    | error err => cases hmap
    | ok d => exact (hdone d rfl).2

end Cuelist
