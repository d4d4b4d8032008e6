/-
  Sessions: what any number of callers do with one queue, in any order.

  A `Session` is a world together with the claims of one queue that are out and
  a log of what became of the queue's entries.  An `Act` is one call of one
  caller, or anything else that happens in the world; `run` does acts in order.
  Claims go back to the queue that handed them out, with an entry and a result
  of any kind.

  * `run_parts`: admitting several entries and advancing the queue are runs of
    single acts;
  * `act_outcome`: the seven things that a single act can make of the queue, the
    claims and the log;
  * `Along p` are the runs in which `p` allows every act in the session that it
    meets; `along_induction` is the induction on them, and `run_induction` that on
    all runs.
-/
import Cuelist.Executor

namespace Cuelist

/-! ## Takes and deeds -/

/-- Something that became of entries of a queue. -/
inductive Deed where
  | admitted (entry : Entry)
  /-- An entry was handed out. -/
  | claimed (entry : Entry)
  /-- A claim was taken back. -/
  | finished (record : Record)
  /-- The queue was cleared or stopped while these entries were to run. -/
  | dropped (entries : List Entry)

/-- The claims that are handed out. -/
def Next.claims : Next → List Claim
  | .ready c => [c]
  | _ => []

/-- What a queue hands out if nothing holds it. -/
def Queue.front (q : Queue) : Next :=
  match q.pending with
  | [] => .empty
  | e :: _ => .ready ⟨e, q.generation⟩

theorem Queue.takeNext_free {waiting : EntryId → Bool} {q : Queue} (hd : q.dispatching = false)
    (hh : q.holder? waiting = none) :
    (q.takeNext waiting).1 = q.front ∧ (q.takeNext waiting).2.inFlight = none := by
  unfold front
  split
  next hp => simp [takeNext_empty hd hh hp]
  next e rest hp => simp [takeNext_ready hd hh hp]

/-- What a take hands out, with what is to run after it, is what was to run
    before. -/
theorem Queue.pending_takeNext (waiting : EntryId → Bool) (q : Queue) :
    q.pending =
      (q.takeNext waiting).1.claims.map Claim.entry ++ (q.takeNext waiting).2.pending := by
  unfold takeNext
  split
  · rfl
  split
  · rfl
  split
  next hp => simp [hp, Next.claims]
  next hp => exact hp

theorem World.pending_takeNext {σ : Type} {h : Handle} {w w' : World σ} {next : Next}
    (hn : w.takeNext h = (next, w')) :
    (w.queues h).pending = next.claims.map Claim.entry ++ (w'.queues h).pending := by
  obtain ⟨rfl, rfl⟩ := Prod.mk.inj hn
  rw [queues_setQueue]
  exact (w.queues h).pending_takeNext w.waiting

/-- The records of a run. -/
def Tick.records : Tick → List Record
  | .ran r => [r]
  | _ => []

/-- The dealings of callers with a queue. -/
structure Session (σ : Type) where
  world : World σ
  /-- The claims that are out, in the order in which they were handed out. -/
  claims : List Claim
  /-- What became of the entries of the queue, oldest first. -/
  log : List Deed

/-! ## Acts -/

/-- What a caller can do with a queue. -/
inductive Act (σ : Type) where
  | enqueue (e : Entry)
  | enqueueAll (es : List Entry)
  | takeNext
  /-- Gives back the claim in a place with what became of its entry. -/
  | finish (place : Nat) (e : Entry) (result : Except CommandError Unit) (r : Reporter)
  | tick (x : Executor σ)
  | clear
  | stop
  | signal (id : EntryId) (finished : Bool)
  /-- Anything that does not touch the queue. -/
  | elsewhere (change : World σ → World σ)

namespace Session

variable {σ : Type}

/-- A session with a new queue in a place of a world. -/
def start (h : Handle) (w : World σ) (id : QueueId) (limit : Nat) : Session σ :=
  ⟨w.setQueue h (Queue.make id limit), [], []⟩

/-- The queue of a session. -/
def queue (h : Handle) (s : Session σ) : Queue := s.world.queues h

/-- The claim that a take hands out, if it does. -/
def handed (h : Handle) (s : Session σ) : List Claim := (s.world.takeNext h).1.claims

/-- A session after an act. -/
def act (h : Handle) (s : Session σ) : Act σ → Session σ
  | .enqueue e =>
    match s.world.enqueue h e with
    | .ok w => ⟨w, s.claims, s.log ++ [.admitted (e.attach (s.queue h).id)]⟩
    | .error _ => s
  | .enqueueAll es =>
    ⟨(s.world.enqueueAll h es).2, s.claims,
      s.log ++ if (s.queue h).stopped then []
        else es.map fun e => .admitted (e.attach (s.queue h).id)⟩
  | .takeNext =>
    ⟨(s.world.takeNext h).2, s.claims ++ s.handed h,
      s.log ++ (s.handed h).map fun c => .claimed c.entry⟩
  | .finish place e result r =>
    match s.claims[place]? with
    | some c =>
      let done := s.world.finish r h { c with entry := e } result
      ⟨done.2, s.claims.eraseIdx place, s.log ++ [.finished done.1]⟩
    | none => s
  | .tick x =>
    let done := Executor.holding h s.world (x.tick h)
    ⟨done.2, s.claims,
      s.log ++ ((s.handed h).map fun c => .claimed c.entry) ++ done.1.records.map .finished⟩
  | .clear => ⟨(s.world.clear h).2, s.claims, s.log ++ [.dropped (s.queue h).pending]⟩
  | .stop => ⟨(s.world.stop h).2, s.claims, s.log ++ [.dropped (s.queue h).pending]⟩
  | .signal id finished => { s with world := s.world.markFinished id finished }
  | .elsewhere change => { s with world := (change s.world).setQueue h (s.queue h) }

/-- A session after acts. -/
def run (h : Handle) (s : Session σ) (acts : List (Act σ)) : Session σ :=
  acts.foldl (act h) s

theorem run_append (h : Handle) (s : Session σ) (as bs : List (Act σ)) :
    s.run h (as ++ bs) = (s.run h as).run h bs :=
  List.foldl_append

theorem run_cons (h : Handle) (s : Session σ) (a : Act σ) (as : List (Act σ)) :
    s.run h (a :: as) = (s.act h a).run h as := rfl

/-! ## Single acts -/

/-- The single acts that an act comes down to. -/
def parts (h : Handle) (s : Session σ) : Act σ → List (Act σ)
  | .enqueueAll es => es.map .enqueue
  | .tick x =>
    .takeNext :: (s.handed h).flatMap fun c =>
      let reply := x.dispatch c.entry s.world
      [.elsewhere fun _ => reply.world,
        .finish s.claims.length reply.entry reply.result x.reporter]
  | a => [a]

end Session

/-- Whether an act calls the queue once. -/
def Act.Single {σ : Type} : Act σ → Prop
  | .enqueueAll _ | .tick _ => False
  | _ => True

namespace Session

variable {σ : Type} {h : Handle}

theorem single_of_mem_parts {s : Session σ} {a b : Act σ} (hb : b ∈ s.parts h a) : b.Single := by
  cases a with
  | enqueueAll es =>
    obtain ⟨e, -, rfl⟩ := List.mem_map.1 hb
    trivial
  | tick x =>
    simp only [parts, List.mem_cons, List.mem_flatMap, List.not_mem_nil, or_false] at hb
    rcases hb with rfl | ⟨c, -, rfl | rfl⟩ <;> trivial
  | _ => simp only [parts, List.mem_singleton] at hb; subst hb; trivial

theorem act_enqueue_stopped {s : Session σ} (e : Entry) (hs : (s.queue h).stopped = true) :
    s.act h (.enqueue e) = s := by
  simp only [act, World.enqueue_stopped e hs]

theorem act_enqueueAll_nil (s : Session σ) : s.act h (.enqueueAll []) = s := by
  simp [act, World.enqueueAll]

theorem act_enqueueAll_cons (s : Session σ) (e : Entry) (es : List Entry) :
    s.act h (.enqueueAll (e :: es)) = (s.act h (.enqueue e)).act h (.enqueueAll es) := by
  cases hs : (s.queue h).stopped with
  | true =>
    have hall : ∀ es, s.act h (.enqueueAll es) = s := by
      intro es
      cases es with
      | nil => exact act_enqueueAll_nil s
      | cons e es => simp [act, World.enqueueAll, World.enqueue_stopped e hs, hs]
    rw [act_enqueue_stopped e hs, hall, hall]
  | false =>
    simp [act, World.enqueueAll, World.enqueue_open e hs, queue] at hs ⊢
    simp [hs]

theorem run_enqueue (s : Session σ) (es : List Entry) :
    s.run h (es.map .enqueue) = s.act h (.enqueueAll es) := by
  induction es generalizing s with
  | nil => exact (act_enqueueAll_nil s).symm
  | cons e es ih => rw [List.map_cons, run_cons, ih, act_enqueueAll_cons]

/-- **Every act is a run of single acts.** -/
theorem run_parts (s : Session σ) (a : Act σ) : s.run h (s.parts h a) = s.act h a := by
  cases a with
  | enqueueAll es => exact run_enqueue s es
  | tick x =>
    rcases hn : (s.world.queues h).takeNext s.world.waiting with ⟨next, q⟩
    cases next with
    | ready c =>
      simp [parts, act, run, handed, queue, Executor.holding, Executor.tick, World.takeNext, hn,
        Next.claims, Tick.records, List.eraseIdx_append_of_length_le]
    | _ =>
      simp [parts, act, run, handed, Executor.holding, Executor.tick, World.takeNext, hn,
        Next.claims, Tick.records, Next.idleTick]
  | _ => rfl

/-! ## Outcomes -/

/-- What a single act can make of the queue, the claims and the log. -/
inductive Outcome (h : Handle) (s t : Session σ) : Act σ → Prop
  | same {a : Act σ} (queue : t.queue h = s.queue h) (claims : t.claims = s.claims)
      (log : t.log = s.log) : Outcome h s t a
  | accept (e : Entry) (opened : (s.queue h).stopped = false)
      (queue : t.queue h = { s.queue h with
        pending := Queue.splice (e.attach (s.queue h).id) (s.queue h).pending })
      (claims : t.claims = s.claims)
      (log : t.log = s.log ++ [.admitted (e.attach (s.queue h).id)]) : Outcome h s t (.enqueue e)
  | release (free : (s.queue h).dispatching = false)
      (unheld : (s.queue h).holder? s.world.waiting = none) (none_left : (s.queue h).pending = [])
      (queue : t.queue h = { s.queue h with inFlight := none }) (claims : t.claims = s.claims)
      (log : t.log = s.log) : Outcome h s t .takeNext
  | hand (e : Entry) (rest : List Entry) (free : (s.queue h).dispatching = false)
      (unheld : (s.queue h).holder? s.world.waiting = none)
      (first : (s.queue h).pending = e :: rest)
      (queue : t.queue h = { s.queue h with
        inFlight := none, pending := rest, started := true, dispatching := true })
      (claims : t.claims = s.claims ++ [⟨e, (s.queue h).generation⟩])
      (log : t.log = s.log ++ [.claimed e]) : Outcome h s t .takeNext
  | takeBack (place : Nat) (c : Claim) (e : Entry) (result : Except CommandError Unit)
      (r : Reporter) (out : s.claims[place]? = some c)
      (queue : t.queue h =
        ((s.queue h).finish s.world.waiting { c with entry := e } result).2)
      (claims : t.claims = s.claims.eraseIdx place)
      (log : t.log = s.log ++
        [.finished ((s.queue h).finish s.world.waiting { c with entry := e } result).1]) :
      Outcome h s t (.finish place e result r)
  | clear (queue : t.queue h = (s.queue h).clear) (claims : t.claims = s.claims)
      (log : t.log = s.log ++ [.dropped (s.queue h).pending]) : Outcome h s t .clear
  | stop (queue : t.queue h = (s.queue h).stop) (claims : t.claims = s.claims)
      (log : t.log = s.log ++ [.dropped (s.queue h).pending]) : Outcome h s t .stop

theorem takeNext_outcome (s : Session σ) : Outcome h s (s.act h .takeNext) .takeNext := by
  cases hd : (s.queue h).dispatching with
  | true =>
    have hn := World.takeNext_eq (Queue.takeNext_busy hd)
    apply Outcome.same <;> simp [act, handed, queue, hn, Next.claims]
  | false =>
    cases hh : (s.queue h).holder? s.world.waiting with
    | some id =>
      have hn := World.takeNext_eq (Queue.takeNext_awaiting hd hh)
      apply Outcome.same <;> simp [act, handed, queue, hn, Next.claims]
    | none =>
      cases hp : (s.queue h).pending with
      | nil =>
        have hn := World.takeNext_eq (Queue.takeNext_empty hd hh hp)
        apply Outcome.release hd hh hp <;> simp [act, handed, queue, hn, Next.claims]
      | cons e rest =>
        have hn := World.takeNext_eq (Queue.takeNext_ready hd hh hp)
        apply Outcome.hand e rest hd hh hp <;> simp [act, handed, queue, hn, Next.claims]

/-- **A single act has one of the outcomes.** -/
theorem act_outcome (s : Session σ) {a : Act σ} (ha : a.Single) : Outcome h s (s.act h a) a := by
  cases a with
  | enqueue e =>
    cases hs : (s.queue h).stopped with
    | true => rw [act_enqueue_stopped e hs]; exact .same rfl rfl rfl
    | false =>
      have he := World.enqueue_open e hs
      apply Outcome.accept e hs <;> simp [act, he, queue]
  | takeNext => exact takeNext_outcome s
  | finish place e result r =>
    cases hc : s.claims[place]? with
    | none => apply Outcome.same <;> simp [act, hc]
    | some c =>
      apply Outcome.takeBack place c e result r hc <;>
        simp [act, hc, queue, World.queues_finish, World.record_finish]
  | clear => apply Outcome.clear <;> simp [act, queue, World.clear]
  | stop => apply Outcome.stop <;> simp [act, queue, World.stop]
  | signal id finished =>
    apply Outcome.same <;> simp [act, queue, World.markFinished, World.setWaiting]
    split <;> simp
  | elsewhere change => apply Outcome.same <;> simp [act, queue]
  | enqueueAll | tick => exact ha.elim

/-! ## Runs of allowed acts -/

/-- Whether every act of a run is allowed by `p` in the session that it meets. -/
def Along (p : Session σ → Act σ → Prop) (h : Handle) : Session σ → List (Act σ) → Prop
  | _, [] => True
  | s, a :: as => p s a ∧ Along p h (s.act h a) as

section
variable {p : Session σ → Act σ → Prop} {P : Session σ → Prop}

theorem along_append {s : Session σ} {as bs : List (Act σ)} :
    Along p h s (as ++ bs) ↔ Along p h s as ∧ Along p h (s.run h as) bs := by
  induction as generalizing s with
  | nil => simp [Along, run]
  | cons a as ih => simp only [List.cons_append, Along, ih, run_cons, and_assoc]

theorem along_of_forall (hp : ∀ s, ∀ a, p s a) (acts : List (Act σ)) (s : Session σ) :
    Along p h s acts := by
  induction acts generalizing s with
  | nil => trivial
  | cons a as ih => exact ⟨hp s a, ih _⟩

theorem along_of_mem {q : Act σ → Prop} {acts : List (Act σ)} (hq : ∀ a ∈ acts, q a)
    (s : Session σ) : Along (fun _ a => q a) h s acts := by
  induction acts generalizing s with
  | nil => trivial
  | cons a as ih => exact ⟨hq a (by simp), ih (fun b hb => hq b (by simp [hb])) _⟩

theorem along_enqueue (hp : ∀ s e, p s (.enqueue e)) (es : List Entry) (s : Session σ) :
    Along p h s (es.map .enqueue) := by
  induction es generalizing s with
  | nil => trivial
  | cons e es ih => exact ⟨hp s e, ih _⟩

/-- **What every allowed outcome keeps is kept by every allowed run**, if the parts
    of an allowed act are allowed. -/
theorem along_induction (hparts : ∀ s a, P s → p s a → Along p h s (s.parts h a))
    (hP : ∀ s t a, Outcome h s t a → p s a → P s → P t) {s : Session σ} (hs : P s)
    {acts : List (Act σ)} (ha : Along p h s acts) : P (s.run h acts) := by
  have hsingle : ∀ (as : List (Act σ)) (s : Session σ), (∀ a ∈ as, a.Single) → Along p h s as →
      P s → P (s.run h as) := by
    intro as
    induction as with
    | nil => exact fun s _ _ hs => hs
    | cons a as ih =>
      intro s hsing ha hs
      rw [run_cons]
      exact ih _ (fun b hb => hsing b (by simp [hb])) ha.2
        (hP _ _ a (act_outcome s (hsing a (by simp))) ha.1 hs)
  induction acts generalizing s with
  | nil => exact hs
  | cons a as ih =>
    rw [run_cons]
    refine ih ?_ ha.2
    rw [← run_parts s a]
    exact hsingle _ s (fun _ hb => single_of_mem_parts hb) (hparts s a hs ha.1) hs

/-- **What every outcome keeps is kept by every run.** -/
theorem run_induction (hP : ∀ s t a, Outcome h s t a → P s → P t) {s : Session σ} (hs : P s)
    (acts : List (Act σ)) : P (s.run h acts) :=
  along_induction (p := fun _ _ => True) (fun _ _ _ _ => along_of_forall (fun _ _ => trivial) _ _)
    (fun s t a ho _ => hP s t a ho) hs (along_of_forall (fun _ _ => trivial) acts s)

end

end Session

end Cuelist
