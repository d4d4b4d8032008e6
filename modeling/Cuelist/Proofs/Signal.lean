/-
  Who looks at a signal.

  A signal can be given for an entry at any time, also when the entry is gone.  Two
  worlds are `SameBut` for the signal of an entry if they differ at most in whether
  the entry waits, in who listens for its signal and in who was woken by it.  What
  queues and reporters do keeps two worlds the same but for the signal.

  An executor is `Unaware` of an entry if the entries that it runs do not look at the
  signal of that one.  It is unaware if its commands are (`unaware_of_commands`), and
  the bundled commands look at no signal but that of their own entry
  (`unaware_bundled`).
-/
import Cuelist.Desk.Crew
import Cuelist.Proofs.Bell

namespace Cuelist

variable {σ : Type}

/-! ## Queues that look at the same signals -/

namespace Queue

variable {waiting waiting' : EntryId → Bool} {q : Queue}

theorem holder?_congr (hw : ∀ e, q.inFlight = some e → waiting' e.id = waiting e.id) :
    q.holder? waiting' = q.holder? waiting := by
  unfold holder?
  cases hi : q.inFlight with
  | none => rfl
  | some e => simp [Option.filter, hw e hi]

theorem takeNext_congr (hw : ∀ e, q.inFlight = some e → waiting' e.id = waiting e.id) :
    q.takeNext waiting' = q.takeNext waiting := by
  simp only [takeNext, holder?_congr hw]

theorem state_congr (hw : ∀ e, q.inFlight = some e → waiting' e.id = waiting e.id) :
    q.state waiting' = q.state waiting := by
  simp only [state, holder?_congr hw]

theorem finish_congr {c : Claim} (hw : waiting' c.entry.id = waiting c.entry.id)
    (result : Except CommandError Unit) :
    q.finish waiting' c result = q.finish waiting c result := by
  simp only [finish, hw]

end Queue

/-! ## Worlds that are the same but for a signal -/

namespace World

/-- Whether two worlds differ at most in what the signal of an entry did. -/
structure SameBut (id : EntryId) (w v : World σ) : Prop where
  waiting : ∀ id', id' ≠ id → v.waiting id' = w.waiting id'
  bells : ∀ b, b ≠ .entry id → v.bells b = w.bells b
  rest : v = { w with waiting := v.waiting, bells := v.bells, ready := v.ready }

namespace SameBut

variable {id : EntryId} {w v u : World σ}

theorem refl (id : EntryId) (w : World σ) : SameBut id w w :=
  ⟨fun _ _ => rfl, fun _ _ => rfl, rfl⟩

theorem trans (h : SameBut id w v) (h' : SameBut id v u) : SameBut id w u where
  waiting id' hne := (h'.waiting id' hne).trans (h.waiting id' hne)
  bells b hne := (h'.bells b hne).trans (h.bells b hne)
  rest := by rw [h'.rest, h.rest]

theorem queues (h : SameBut id w v) : v.queues = w.queues := by rw [h.rest]

theorem setQueue (h : SameBut id w v) (i : Handle) (q : Queue) :
    SameBut id (w.setQueue i q) (v.setQueue i q) where
  waiting := h.waiting
  bells := h.bells
  rest := by
    have hq := h.queues
    rw [h.rest]
    simp only [World.setQueue]

theorem setWaiting (h : SameBut id w v) (id' : EntryId) (waits : Bool) :
    SameBut id (w.setWaiting id' waits) (v.setWaiting id' waits) where
  waiting id'' hne := by
    by_cases hid : id'' = id'
    · subst hid; exact (put_same ..).trans (put_same ..).symm
    · exact (put_other _ _ hid).trans ((h.waiting id'' hne).trans (put_other _ _ hid).symm)
  bells := h.bells
  rest := by rw [h.rest]; rfl

theorem ring (h : SameBut id w v) {b : Bell} (hb : b ≠ .entry id) :
    SameBut id (w.ring b) (v.ring b) where
  waiting := by rw [waiting_ring, waiting_ring]; exact h.waiting
  bells b' hne := by
    rw [bells_ring, bells_ring, h.bells b hb]
    by_cases hid : b' = b
    · subst hid; rw [put_same, put_same]
    · rw [put_other _ _ hid, put_other _ _ hid]; exact h.bells b' hne
  rest := by rw [ring_eq v, ring_eq w, h.rest]

/-- A signal of the entry itself makes no other difference. -/
theorem signal (id : EntryId) (finished : Bool) (w : World σ) :
    SameBut id w (w.markFinished id finished) where
  waiting id' hne := by rw [waiting_markFinished]; exact put_other _ _ hne
  bells b hne := by
    cases finished with
    | true => rw [bells_markFinished]; exact put_other _ _ hne
    | false => rfl
  rest := by
    cases finished with
    | true => simp only [markFinished, World.setWaiting]; rw [ring_eq]; rfl
    | false => rfl

theorem markFinished (h : SameBut id w v) {id' : EntryId} (hne : id' ≠ id) (finished : Bool) :
    SameBut id (w.markFinished id' finished) (v.markFinished id' finished) := by
  cases finished with
  | true => exact (h.setWaiting id' false).ring fun hc => hne (Bell.entry.inj hc)
  | false => exact h.setWaiting id' true

theorem observe (h : SameBut id w v) (e : Event) : SameBut id (w.observe e) (v.observe e) where
  waiting := h.waiting
  bells := h.bells
  rest := by rw [h.rest]; rfl

theorem tell (h : SameBut id w v) (r : Reporter) (n : Notice) :
    SameBut id (w.tell r n) (v.tell r n) :=
  List.foldl_rel h fun e _ _ _ h => h.observe e

theorem tellEach (h : SameBut id w v) (r : Reporter) {α : Type} (notice : α → Notice)
    (as : List α) : SameBut id (as.foldl (fun w a => w.tell r (notice a)) w)
      (as.foldl (fun w a => w.tell r (notice a)) v) :=
  List.foldl_rel h fun a _ _ _ h => h.tell r (notice a)

theorem spawn (h : SameBut id w v) (task : Task) : SameBut id (w.spawn task) (v.spawn task) where
  waiting := by rw [spawn_eq v, spawn_eq w]; exact h.waiting
  bells := by rw [spawn_eq v, spawn_eq w]; exact h.bells
  rest := by rw [spawn_eq v, spawn_eq w, h.rest]; rfl

/-- A queue that heard of news. -/
theorem news (h : SameBut id w v) (i : Handle) (q : Queue) :
    SameBut id ((w.setQueue i q).ring (.queue i)) ((v.setQueue i q).ring (.queue i)) :=
  (h.setQueue i q).ring nofun

theorem finish (h : SameBut id w v) (r : Reporter) (i : Handle) {c : Claim} (hc : c.entry.id ≠ id)
    (result : Except CommandError Unit) :
    (v.finish r i c result).1 = (w.finish r i c result).1 ∧
      SameBut id (w.finish r i c result).2 (v.finish r i c result).2 := by
  have hq := congrFun h.queues i
  have hfin := Queue.finish_congr (q := w.queues i) (h.waiting _ hc) result
  refine ⟨by rw [record_finish, record_finish, hq, hfin], ?_⟩
  have hset : SameBut id (w.setQueue i ((w.queues i).finish w.waiting c result).2)
      (v.setQueue i ((v.queues i).finish v.waiting c result).2) := by
    rw [hq, hfin]; exact h.setQueue i _
  have hrung := hset.ring (nofun : Bell.queue i ≠ .entry id)
  unfold World.finish
  rw [hq] at hset hrung ⊢
  cases result with
  | ok =>
    simp only
    split
    · exact hrung
    · exact hset
  | error err =>
    simp only
    split
    · exact hrung.tell r _
    · exact hset.tell r _

theorem enqueueAll (h : SameBut id w v) (i : Handle) (es : List Entry) :
    SameBut id (w.enqueueAll i es).2 (v.enqueueAll i es).2 := by
  induction es generalizing w v with
  | nil => exact h
  | cons e es ih =>
    have hq := congrFun h.queues i
    cases hs : (w.queues i).stopped with
    | true =>
      simp only [World.enqueueAll, enqueue_stopped e hs, enqueue_stopped e (hq ▸ hs)]
      exact h
    | false =>
      simp only [World.enqueueAll, enqueue_open e hs, enqueue_open e (hq ▸ hs)]
      rw [hq]
      exact ih (h.news i _)

end SameBut

end World

/-! ## Entries that are gone -/

/-- Whether an entry is neither to run nor in flight. -/
structure Queue.Lacks (id : EntryId) (q : Queue) : Prop where
  pending : ∀ e ∈ q.pending, e.id ≠ id
  inFlight : ∀ e, q.inFlight = some e → e.id ≠ id

theorem Queue.lacks_of_none {id : EntryId} {q : Queue} (hp : ∀ e ∈ q.pending, e.id ≠ id)
    (hi : q.inFlight = none) : q.Lacks id where
  pending := hp
  inFlight e he := by rw [hi] at he; cases he

/-- A take looks at no signal of an entry that the queue lacks. -/
theorem World.SameBut.takeNext {id : EntryId} {w v : World σ} (h : w.SameBut id v) (i : Handle)
    (hlacks : (w.queues i).Lacks id) :
    (v.takeNext i).1 = (w.takeNext i).1 ∧ (w.takeNext i).2.SameBut id (v.takeNext i).2 := by
  have hq := congrFun h.queues i
  have hnext := Queue.takeNext_congr fun e he => h.waiting _ (hlacks.inFlight e he)
  simp only [World.takeNext]
  rw [hq, hnext]
  exact ⟨rfl, h.setQueue i _⟩

/-! ## Executors -/

/-- Whether two replies differ at most in what the signal of an entry did. -/
structure Reply.SameBut (id : EntryId) (r r' : Reply σ) : Prop where
  result : r'.result = r.result
  entry : r'.entry = r.entry
  world : r.world.SameBut id r'.world

/-- Whether an executor that runs other entries does not look at the signal of an
    entry that the queue in `h` lacks, and does not put it in the place of another. -/
def Executor.Unaware (h : Handle) (id : EntryId) (x : Executor σ) : Prop :=
  ∀ e w v, e.id ≠ id → (w.queues h).Lacks id → w.SameBut id v →
    (x.dispatch e w).SameBut id (x.dispatch e v) ∧ (x.dispatch e w).entry.id ≠ id

/-! ## Commands -/

/-- Whether a phase that runs other entries does not look at the signal of an entry that
    the queue in `h` lacks, and does not bring it back. -/
def Phase.Unaware (h : Handle) (id : EntryId) (p : Phase σ) : Prop :=
  ∀ call e w v, e.id ≠ id → (w.queues h).Lacks id → w.SameBut id v →
    (p call e w).SameBut id (p call e v) ∧ (p call e w).entry.id ≠ id ∧
      ((p call e w).world.queues h).Lacks id

theorem Tag.id_resolveEntry (r : Resolver) (e : Entry) : (resolveEntry r e).1.id = e.id := by
  unfold resolveEntry
  split <;> rfl

section
variable {h : Handle} {id : EntryId}

/-- **An executor whose commands are unaware is unaware.** -/
theorem unaware_of_commands {x : Executor σ} (hc : ∀ p ∈ x.registry.index.pairs,
    Phase.Unaware h id p.2.parse ∧ Phase.Unaware h id p.2.execute) : x.Unaware h id := by
  intro e w v hid hlacks hs
  have hid' : (Tag.resolveEntry x.resolver e).1.id ≠ id := by rwa [Tag.id_resolveEntry]
  rcases hr : Tag.resolveEntry x.resolver e with ⟨e', warnings⟩
  rw [hr] at hid'
  have hwarn := hs.tellEach x.reporter .warning warnings
  have hqueues : (warnings.foldl (fun w m => w.tell x.reporter (.warning m)) w).queues = w.queues :=
    List.foldlRecOn (motive := fun v : World σ => v.queues = w.queues) warnings _ rfl
      fun v hv m _ => (World.queues_tell v x.reporter (.warning m)).trans hv
  simp only [Executor.dispatch, hr]
  cases hl : x.registry.lookup e'.command with
  | error err => exact ⟨⟨rfl, rfl, hwarn⟩, hid'⟩
  | ok c =>
    obtain ⟨key, hm⟩ := Registry.mem_of_lookup hl
    have hphases : Phase.Unaware h id c.parse ∧ Phase.Unaware h id c.execute := hc _ hm
    obtain ⟨hsame, hid', hlacks⟩ := hphases.1 ⟨e'.command, x.reporter, x.scripts⟩ e' _ _ hid'
      (by rwa [hqueues]) hwarn
    simp only [Executor.perform]
    rw [hsame.result, hsame.entry]
    cases (c.parse ⟨e'.command, x.reporter, x.scripts⟩ e' (warnings.foldl
      (fun w m => w.tell x.reporter (.warning m)) w)).result with
    | error err => exact ⟨hsame, hid'⟩
    | ok =>
      obtain ⟨hsame, hid', -⟩ := hphases.2 _ _ _ _ hid' hlacks hsame.world
      exact ⟨hsame, hid'⟩

theorem Narrate.id_takeArgument (find : String → Option ActorRef) (scripts : Library)
    (r : Reading) (a : Argument) :
    (r.takeArgument find scripts a).entry.id = r.entry.id := by
  unfold Reading.takeArgument
  split
  · unfold Reading.takeFormat; split <;> rfl
  split
  · rfl
  split <;> rfl

theorem Narrate.id_aimAtSubject (e : Entry) : (aimAtSubject e).id = e.id := by
  unfold aimAtSubject
  split
  · rfl
  · cases e.subject <;> rfl

theorem Narrate.id_read (find : String → Option ActorRef) (scripts : Library) (e : Entry) :
    (read find scripts e).2.entry.id = e.id := by
  have hfold : ∀ (as : List Argument) (r : Reading),
      (as.foldl (Reading.takeArgument find scripts) r).entry.id = r.entry.id := fun as r =>
    List.foldlRecOn (motive := fun r' => r'.entry.id = r.entry.id) as _ rfl
      fun r' hr a _ => (id_takeArgument find scripts r' a).trans hr
  unfold read
  split
  · rfl
  · simp only
    split <;> exact (id_aimAtSubject _).trans (hfold _ _)

theorem Narrate.unaware (directory : Narrate.Directory) :
    Phase.Unaware h id (Narrate.command (σ := σ) directory).parse ∧
      Phase.Unaware h id (Narrate.command (σ := σ) directory).execute := by
  constructor
  · intro call e w v hid hlacks hs
    have hcast : v.cast = w.cast := by rw [hs.rest]
    have herrors := hs.tellEach call.reporter .error
      (read (directory w.cast) call.scripts e).2.errors
    have hlacks' : (((Narrate.command directory).parse call e w).world.queues h).Lacks id :=
      (command_keeps (P := fun v => (v.queues h).Lacks id) (fun _ _ hw => hw) directory call e
        hlacks).1
    simp only [Narrate.command, hcast] at hlacks' ⊢
    exact ⟨⟨rfl, rfl, herrors⟩, by rwa [id_read], hlacks'⟩
  · intro call e w v hid hlacks hs
    have hcast : v.cast = w.cast := by rw [hs.rest]
    have hlacks' : (((Narrate.command directory).execute call e w).world.queues h).Lacks id :=
      (command_keeps (P := fun v => (v.queues h).Lacks id) (fun _ _ hw => hw) directory call e
        hlacks).2
    simp only [Narrate.command, hcast] at hlacks' ⊢
    cases hw : work w.cast e with
    | error err => exact ⟨⟨rfl, rfl, hs⟩, hid, hlacks⟩
    | ok effects =>
      have hdone : World.SameBut id (effects.foldl (Effect.apply call e) w)
          (effects.foldl (Effect.apply call e) v) := by
        refine List.foldl_rel hs fun effect _ w v hs => ?_
        cases effect with
        | report | fail => exact hs.tell ..
        | send => exact hs.observe _
      rw [hw] at hlacks'
      exact ⟨⟨rfl, rfl, hdone⟩, hid, hlacks'⟩

theorem Entry.id_ensure {e e' : Entry} {key : String} {candidates : List (Option Value)}
    {ensured : Ensured} (h : e.ensure key candidates = .ok (ensured, e')) : e'.id = e.id := by
  unfold ensure at h
  split at h
  · rw [← (Prod.mk.inj (Except.ok.inj h)).2]
  split at h
  · rw [← (Prod.mk.inj (Except.ok.inj h)).2]; rfl
  · cases h

theorem Wait.id_takeArgument {e e' : Entry} {a : Argument} (h : takeArgument e a = .ok e') :
    e'.id = e.id := by
  unfold takeArgument at h
  split at h
  · cases h
  split at h
  · rw [← Except.ok.inj h]; rfl
  · cases h

theorem Wait.id_takeArguments (e : Entry) (as : List Argument) :
    (takeArguments e as).2.id = e.id := by
  fun_induction takeArguments e as with
  | case1 => rfl
  | case2 e a as e' he ih => rw [ih, id_takeArgument he]
  | case3 => rfl

theorem Wait.id_read (e : Entry) : (read e).2.id = e.id := by
  have htake := id_takeArguments e (e.arguments.map Argument.parse)
  unfold read
  split
  next e' he =>
    rw [he] at htake
    split
    next hensure => exact (Entry.id_ensure hensure).trans htake
    next => exact htake
  next => exact htake

theorem Wait.same_arm {w v : World σ} (hs : w.SameBut id v) {id' : EntryId} (hne : id' ≠ id)
    (d : Span) : (arm w id' d).SameBut id (arm v id' d) := by
  have hlive : v.live = w.live := by rw [hs.rest]
  unfold arm
  rw [hlive]
  split
  · exact (hs.setWaiting id' true).spawn _
  · exact hs.markFinished hne true

theorem Wait.queues_arm (w : World σ) (id : EntryId) (d : Span) :
    (arm w id d).queues = w.queues := by
  unfold arm
  split
  · rw [World.spawn_eq]; rfl
  · exact World.queues_markFinished ..

theorem Wait.unaware : Phase.Unaware h id (Wait.command (σ := σ)).parse ∧
    Phase.Unaware h id (Wait.command (σ := σ)).execute := by
  constructor
  · intro call e w v hid hlacks hs
    exact ⟨⟨rfl, rfl, hs⟩, by simpa only [Wait.command, id_read] using hid, hlacks⟩
  · intro call e w v hid hlacks hs
    simp only [Wait.command]
    cases Wait.length e with
    | error err => exact ⟨⟨rfl, rfl, hs⟩, hid, hlacks⟩
    | ok d =>
      have htold := hs.tell call.reporter (.summary e call.command (reportPart "Duration" d.render))
      refine ⟨⟨rfl, rfl, same_arm htold hid d⟩, hid, ?_⟩
      rw [queues_arm, World.summarize, World.queues_tell]
      exact hlacks

/-- **The bundled commands are unaware of every entry but their own.** -/
theorem unaware_bundled (directory : Narrate.Directory) (resolver : Resolver)
    (reporter : Reporter) (scripts : Library) :
    Executor.Unaware (σ := σ) h id
      ⟨Registry.empty.withBundled directory, resolver, reporter, scripts⟩ := by
  refine unaware_of_commands fun p hp => ?_
  rcases Registry.mem_withBundled hp with hc | hc
  · rw [hc]; exact Wait.unaware
  · rw [hc]; exact Narrate.unaware directory

end

end Cuelist
