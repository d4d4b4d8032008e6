/-
  Executors that keep off a queue and off the clock.

  An executor is `Aloof` from a queue if the entries that it runs neither look at the
  queue nor change it.  Then it makes no difference whether the queue is open to them
  or held (`step_eq_tick`), and running the queue with any sufficient limit is the same
  as running it until it is blocked (`runQueue_eq`).

  Two worlds are `Alike` if they differ at most in the time, in what goes on by itself
  and in who listens for news of the queue.  An executor is `Timeless` if it does the same
  in both and leaves alone what goes on by itself.  Then so does a step of the queue
  (`Alike.step`, `Calm.step`).
-/
import Cuelist.Proofs.Bell
import Cuelist.Proofs.Session

namespace Cuelist

variable {σ : Type} {x : Executor σ} {h : Handle}

namespace Executor

/-! ## Open and held queues -/

/-- Whether the entries that are run neither look at the queue in `h` nor change it. -/
def Aloof (h : Handle) (x : Executor σ) : Prop :=
  ∀ e w q, x.dispatch e (w.setQueue h q) =
    { x.dispatch e w with world := (x.dispatch e w).world.setQueue h q }

/-- An open queue is advanced as a held one. -/
theorem step_eq_tick (hx : x.Aloof h) (w : World σ) : x.step h w = holding h w (x.tick h) := by
  rcases hn : (w.queues h).takeNext w.waiting with ⟨next, q⟩
  have hnext := World.takeNext_eq hn
  cases next with
  | ready c => simp only [step, hnext, hx _ _ _, holding, tick, hn, World.setQueue_self]
  | awaiting | empty | busy => simp only [step, hnext, holding, tick, hn]

section
variable {q q' : Queue} {w w' : World σ} {r : Record}

/-- A held queue that ran an entry is in its place again, has no claim out and has one
    entry less to run. -/
theorem tick_ran (ht : x.tick h q w = (.ran r, q', w')) :
    w'.queues h = q' ∧ q'.dispatching = false ∧ q'.stopped = q.stopped ∧
      q.pending.length = q'.pending.length + 1 := by
  rcases hn : q.takeNext w.waiting with ⟨next, q₁⟩
  cases next with
  | ready c =>
    simp only [tick, hn, Prod.mk.injEq] at ht
    obtain ⟨-, rfl, rfl⟩ := ht
    obtain ⟨e, rest, hp, rfl, rfl⟩ := Queue.takeNext_eq_ready hn
    rw [World.queues_finish, World.queues_setQueue]
    refine ⟨rfl, Queue.finish_dispatching rfl, Queue.finish_stopped, ?_⟩
    rw [Queue.finish_pending, hp, List.length_cons]
  | awaiting | empty | busy => simp only [tick, hn, Next.idleTick] at ht; cases ht

end

/-- What a step of a queue without a claim comes to. -/
theorem step_cases {w : World σ} (hd : (w.queues h).dispatching = false) :
    (∃ r w', x.step h w = (.ran r, w')) ∨
      (∃ id, w.holder? h = some id ∧ x.step h w = (.awaiting id, w)) ∨
        x.step h w = (.empty, w.setQueue h { w.queues h with inFlight := none }) := by
  cases hh : (w.queues h).holder? w.waiting with
  | some id =>
    have hn := World.takeNext_eq (Queue.takeNext_awaiting hd hh)
    rw [World.setQueue_self] at hn
    exact .inr (.inl ⟨id, hh, step_awaiting hn⟩)
  | none =>
    cases hp : (w.queues h).pending with
    | nil =>
      have hn := World.takeNext_eq (Queue.takeNext_empty hd hh hp)
      exact .inr (.inr (step_empty hn))
    | cons e rest =>
      have hn := World.takeNext_eq (Queue.takeNext_ready hd hh hp)
      exact .inl ⟨_, _, step_ready hn⟩

theorem step_ran (hx : x.Aloof h) {w w' : World σ} {r : Record}
    (hs : x.step h w = (.ran r, w')) :
    (w'.queues h).dispatching = false ∧ (w'.queues h).stopped = (w.queues h).stopped ∧
      (w.queues h).pending.length = (w'.queues h).pending.length + 1 := by
  rw [step_eq_tick hx] at hs
  rcases ht : x.tick h (w.queues h) w with ⟨tick, q, v⟩
  simp only [holding, ht, Prod.mk.injEq] at hs
  obtain ⟨rfl, rfl⟩ := hs
  rw [World.queues_setQueue]
  exact (tick_ran ht).2

theorem runQueue_eq_runHeld (hx : x.Aloof h) (n : Nat) (w : World σ) :
    x.runQueue h n w = holding h w (x.runHeld h n) := by
  induction n generalizing w with
  | zero => simp [runQueue, holding, runHeld]
  | succ n ih =>
    rcases ht : x.tick h (w.queues h) w with ⟨tick, q, w'⟩
    have hstep := step_eq_tick hx w
    simp only [holding, ht] at hstep
    cases tick with
    | ran r =>
      obtain ⟨hq, -⟩ := tick_ran ht
      rw [← hq, World.setQueue_self] at hstep
      simp only [runQueue, holding, runHeld, hstep, ht, ih, hq]
    | awaiting | empty | busy => simp only [runQueue, holding, runHeld, hstep, ht]

/-- More than as many steps as there are entries to run make no difference. -/
theorem runHeld_of_lt {n : Nat} {q : Queue} (hn : q.pending.length < n) (w : World σ) :
    x.runHeld h n q w = x.runUntilBlocked h q w := by
  unfold runUntilBlocked
  induction n generalizing q w with
  | zero => exact absurd hn (Nat.not_lt_zero _)
  | succ n ih =>
    rcases ht : x.tick h q w with ⟨tick, q', w'⟩
    cases tick with
    | ran r =>
      obtain ⟨-, -, -, hlen⟩ := tick_ran ht
      have hrest := ih (q := q') (by omega) w'
      simp only [runHeld, ht, hrest, hlen]
    | awaiting | empty | busy => simp only [runHeld, ht]

/-- **Running an open queue is running a held one until it is blocked.** -/
theorem runQueue_eq (hx : x.Aloof h) {n : Nat} {w : World σ}
    (hn : (w.queues h).pending.length < n) :
    x.runQueue h n w = holding h w (x.runUntilBlocked h) := by
  rw [runQueue_eq_runHeld hx, holding, holding, runHeld_of_lt hn]

end Executor

namespace World

/-! ## Worlds that are alike but for the clock -/

/-- Whether two worlds differ at most in the time, in what goes on by itself and in who
    listens for news of the queue in `h`. -/
structure Alike (h : Handle) (w v : World σ) : Prop where
  bells : ∀ b, b ≠ .queue h → v.bells b = w.bells b
  /-- What could be seen is the same, though not when. -/
  events : v.log.map Prod.snd = w.log.map Prod.snd
  rest : v = { w with
    bells := v.bells, tasks := v.tasks, taskCount := v.taskCount, ready := v.ready,
    timers := v.timers, now := v.now, log := v.log }

namespace Alike

variable {w v u : World σ}

theorem refl (h : Handle) (w : World σ) : Alike h w w := ⟨fun _ _ => rfl, rfl, rfl⟩

theorem trans (hs : Alike h w v) (hs' : Alike h v u) : Alike h w u where
  bells b hb := (hs'.bells b hb).trans (hs.bells b hb)
  events := hs'.events.trans hs.events
  rest := by rw [hs'.rest, hs.rest]

theorem queues (hs : Alike h w v) : v.queues = w.queues := by rw [hs.rest]

theorem waiting (hs : Alike h w v) : v.waiting = w.waiting := by rw [hs.rest]

theorem setQueue (hs : Alike h w v) (i : Handle) (q : Queue) :
    Alike h (w.setQueue i q) (v.setQueue i q) where
  bells := hs.bells
  events := hs.events
  rest := by
    rw [hs.rest]
    simp only [World.setQueue]

theorem ring (hs : Alike h w v) (b : Bell) : Alike h (w.ring b) (v.ring b) where
  bells b' hne := by
    rw [bells_ring, bells_ring]
    by_cases hb : b' = b
    · subst hb; rw [put_same, put_same, hs.bells b' hne]
    · rw [put_other _ _ hb, put_other _ _ hb]; exact hs.bells b' hne
  events := by rw [ring_eq v, ring_eq w]; exact hs.events
  rest := by rw [ring_eq v, ring_eq w, hs.rest]

theorem observe (hs : Alike h w v) (e : Event) : Alike h (w.observe e) (v.observe e) where
  bells := hs.bells
  events := by simp only [World.observe, List.map_cons, hs.events]
  rest := by rw [hs.rest]; rfl

theorem tell (hs : Alike h w v) (r : Reporter) (n : Notice) :
    Alike h (w.tell r n) (v.tell r n) :=
  List.foldl_rel hs fun e _ _ _ hs => hs.observe e

theorem finish (hs : Alike h w v) (r : Reporter) (i : Handle) (c : Claim)
    (result : Except CommandError Unit) :
    (v.finish r i c result).1 = (w.finish r i c result).1 ∧
      Alike h (w.finish r i c result).2 (v.finish r i c result).2 := by
  have hset := hs.setQueue i ((w.queues i).finish w.waiting c result).2
  have hrung := hset.ring (.queue i)
  simp only [World.finish, hs.queues, hs.waiting]
  cases result with
  | ok =>
    refine ⟨rfl, ?_⟩
    simp only
    split
    · exact hrung
    · exact hset
  | error err =>
    refine ⟨rfl, ?_⟩
    simp only
    split
    · exact hrung.tell r _
    · exact hset.tell r _

theorem takeNext (hs : Alike h w v) (i : Handle) :
    (v.takeNext i).1 = (w.takeNext i).1 ∧ Alike h (w.takeNext i).2 (v.takeNext i).2 := by
  simp only [World.takeNext, hs.queues, hs.waiting, true_and]
  exact hs.setQueue i _

end Alike

/-! ## Changes that nobody hears -/

/-- Whether nobody listens to a bell. -/
def Hushed (w : World σ) : Prop :=
  ∀ b, (w.bells b).waiting = [] ∧ (w.bells b).woken = []

/-- A change that leaves alone what goes on by itself, after which nobody listens to a
    bell. -/
structure Calm (w v : World σ) : Prop where
  hushed : v.Hushed
  tasks : v.tasks = w.tasks
  taskCount : v.taskCount = w.taskCount
  ready : v.ready = w.ready
  timers : v.timers = w.timers
  now : v.now = w.now

namespace Calm

variable {w v u : World σ}

theorem trans (hc : Calm w v) (hc' : Calm v u) : Calm w u where
  hushed := hc'.hushed
  tasks := hc'.tasks.trans hc.tasks
  taskCount := hc'.taskCount.trans hc.taskCount
  ready := hc'.ready.trans hc.ready
  timers := hc'.timers.trans hc.timers
  now := hc'.now.trans hc.now

theorem setQueue (hw : w.Hushed) (i : Handle) (q : Queue) : Calm w (w.setQueue i q) :=
  ⟨hw, rfl, rfl, rfl, rfl, rfl⟩

theorem ring (hw : w.Hushed) (b : Bell) : Calm w (w.ring b) := by
  rw [ring_of_none (hw b).1]
  refine ⟨fun b' => ?_, rfl, rfl, rfl, rfl, rfl⟩
  by_cases hb : b' = b
  · subst hb
    simp only [put_same]
    exact hw b'
  · simp only [put_other _ _ hb]
    exact hw b'

theorem tell (hw : w.Hushed) (r : Reporter) (n : Notice) : Calm w (w.tell r n) := by
  rw [tell_eq]
  exact ⟨hw, rfl, rfl, rfl, rfl, rfl⟩

theorem finish (hw : w.Hushed) (r : Reporter) (i : Handle) (c : Claim)
    (result : Except CommandError Unit) : Calm w (w.finish r i c result).2 := by
  have hset := setQueue hw i ((w.queues i).finish w.waiting c result).2
  have hrung := hset.trans (ring hset.hushed (.queue i))
  simp only [World.finish]
  cases result with
  | ok =>
    simp only
    split
    · exact hrung
    · exact hset
  | error err =>
    simp only
    split
    · exact hrung.trans (tell hrung.hushed r _)
    · exact hset.trans (tell hset.hushed r _)

end Calm

end World

/-! ## Executors that keep off the clock -/

/-- Whether the entries that are run do the same in worlds that are alike, and leave
    alone what goes on by itself. -/
structure Executor.Timeless (h : Handle) (x : Executor σ) : Prop where
  alike : ∀ e w v, w.Alike h v →
    (x.dispatch e v).result = (x.dispatch e w).result ∧
      (x.dispatch e v).entry = (x.dispatch e w).entry ∧
        (x.dispatch e w).world.Alike h (x.dispatch e v).world
  calm : ∀ e (w : World σ), w.Hushed → w.Calm (x.dispatch e w).world

section
variable {w v : World σ}

/-- **A step does the same in worlds that are alike.** -/
theorem World.Alike.step (hx : x.Timeless h) (hs : w.Alike h v) :
    (x.step h v).1 = (x.step h w).1 ∧ (x.step h w).2.Alike h (x.step h v).2 := by
  obtain ⟨hnext, htake⟩ := hs.takeNext h
  rcases hn : w.takeNext h with ⟨next, w'⟩
  rcases hn' : v.takeNext h with ⟨next', v'⟩
  rw [hn, hn'] at hnext htake
  obtain rfl : next' = next := hnext
  cases next' with
  | ready c =>
    obtain ⟨hresult, hentry, hworld⟩ := hx.alike c.entry w' v' htake
    rw [Executor.step_ready hn, Executor.step_ready hn', hresult, hentry]
    obtain ⟨hrecord, hdone⟩ := hworld.finish x.reporter h
      { c with entry := (x.dispatch c.entry w').entry } (x.dispatch c.entry w').result
    exact ⟨by rw [hrecord], hdone⟩
  | awaiting | empty | busy =>
    simp only [Executor.step, hn, hn', true_and]
    exact htake

/-- **A step leaves alone what goes on by itself** if nobody listens to a bell. -/
theorem World.Calm.step (hx : x.Timeless h) (hw : w.Hushed) : w.Calm (x.step h w).2 :=
  Executor.step_keeps (P := w.Calm) (.setQueue hw h _)
    (fun e v hv => hv.trans (hx.calm e v hv.hushed))
    fun _ _ _ hv => hv.trans (.finish hv.hushed ..)

end

end Cuelist
