/-
  What is done with one queue leaves the others alone.

  `World.Leaves P`: a change leaves the board and the queues with `P` as they are, and makes no
  queue.  Each operation on a queue leaves every other one.  The entries of a `QuietExecutor` do
  not touch queues at all; `QuietExecutor.ofBundled` makes one of the bundled commands.

  * `QuietExecutor.leaves_step`, `leaves_runQueue`, `leaves_tick` and `leaves_runHeld`: so
    advancing a queue, open or held, leaves every other one.
  * `QuietExecutor.runQueue_of_lt`: there is an end to it.  More steps than there are entries to
    run make no difference.
-/
import Cuelist.Desk.Crew
import Cuelist.Proofs.Bell

namespace Cuelist

variable {σ : Type} {w v u : World σ} {P P' : Handle → Prop}

/-! ## What a change leaves alone -/

/-- Whether a queue, with those who listen to it, is the same in two worlds. -/
def World.Same (h : Handle) (w v : World σ) : Prop :=
  v.queues h = w.queues h ∧ v.bells (.queue h) = w.bells (.queue h)

theorem World.Same.trans {h : Handle} (hs : w.Same h v) (hs' : v.Same h u) : w.Same h u :=
  ⟨hs'.1.trans hs.1, hs'.2.trans hs.2⟩

/-- Whether a change leaves alone the board and the queues with a property, and makes no
    queue. -/
structure World.Leaves (P : Handle → Prop) (w v : World σ) : Prop where
  same : ∀ h, P h → w.Same h v
  board : v.board = w.board
  queueCount : v.queueCount = w.queueCount

namespace World.Leaves

theorem refl (P : Handle → Prop) (w : World σ) : w.Leaves P w := ⟨fun _ _ => ⟨rfl, rfl⟩, rfl, rfl⟩

theorem trans (hs : w.Leaves P v) (hs' : v.Leaves P u) : w.Leaves P u where
  same h hP := (hs.same h hP).trans (hs'.same h hP)
  board := hs'.board.trans hs.board
  queueCount := hs'.queueCount.trans hs.queueCount

theorem mono (hs : w.Leaves P v) (h : ∀ h, P' h → P h) : w.Leaves P' v :=
  ⟨fun h' hP => hs.same h' (h h' hP), hs.board, hs.queueCount⟩

theorem tell (P : Handle → Prop) (w : World σ) (r : Reporter) (n : Notice) :
    w.Leaves P (w.tell r n) := by
  rw [tell_eq]
  exact ⟨fun _ _ => ⟨rfl, rfl⟩, rfl, rfl⟩

/-- A ring changes no bell but its own. -/
theorem ring {b : Bell} (h : ∀ h, P h → .queue h ≠ b) (w : World σ) : w.Leaves P (w.ring b) where
  same h' hP := by
    rw [Same, queues_ring, bells_ring, put_other _ _ (h h' hP)]
    exact ⟨rfl, rfl⟩
  board := by rw [ring_eq]
  queueCount := by rw [ring_eq]

variable {h : Handle}

theorem setQueue (h : Handle) (w : World σ) (q : Queue) : w.Leaves (· ≠ h) (w.setQueue h q) :=
  ⟨fun _ hne => ⟨put_other _ _ hne, rfl⟩, rfl, rfl⟩

/-- News of a queue concern this queue. -/
theorem news (h : Handle) (w : World σ) (q : Queue) :
    w.Leaves (· ≠ h) ((w.setQueue h q).ring (.queue h)) :=
  (setQueue h w q).trans (ring (fun _ hne => by simpa using hne) _)

theorem enqueue {e : Entry} (he : w.enqueue h e = .ok v) : w.Leaves (· ≠ h) v := by
  rw [enqueue_eq he]
  exact news h w _

theorem enqueueAll (h : Handle) (w : World σ) (es : List Entry) :
    w.Leaves (· ≠ h) (w.enqueueAll h es).2 := by
  induction es generalizing w with
  | nil => exact refl _ w
  | cons e es ih =>
    cases he : w.enqueue h e with
    | ok v => simp only [World.enqueueAll, he]; exact (enqueue he).trans (ih v)
    | error err => simp only [World.enqueueAll, he]; exact refl _ w

theorem takeNext (h : Handle) (w : World σ) : w.Leaves (· ≠ h) (w.takeNext h).2 :=
  setQueue h w _

theorem finish (h : Handle) (w : World σ) (r : Reporter) (c : Claim)
    (result : Except CommandError Unit) : w.Leaves (· ≠ h) (w.finish r h c result).2 := by
  have hrung : ∀ q, w.Leaves (· ≠ h)
      (if c.generation = (w.queues h).generation then (w.setQueue h q).ring (.queue h)
        else w.setQueue h q) := by
    intro q
    split
    · exact news h w q
    · exact setQueue h w q
  cases result with
  | ok => exact hrung _
  | error err => exact (hrung _).trans (tell ..)

theorem clear (h : Handle) (w : World σ) : w.Leaves (· ≠ h) (w.clear h).2 := news h w _

theorem stop (h : Handle) (w : World σ) : w.Leaves (· ≠ h) (w.stop h).2 := news h w _

end World.Leaves

/-! ## Commands that do not touch queues -/

/-- An executor whose entries do not touch queues. -/
structure QuietExecutor (σ : Type) extends Executor σ where
  quiet : ∀ (e : Entry) (w : World σ), w.Leaves (fun _ => True) (toExecutor.dispatch e w).world

theorem Wait.leaves_arm (w : World σ) (id : EntryId) (d : Span) :
    w.Leaves (fun _ => True) (arm w id d) := by
  unfold arm
  split
  · rw [World.spawn_eq]
    exact ⟨fun _ _ => ⟨rfl, rfl⟩, rfl, rfl⟩
  · have hwaiting : w.Leaves (fun _ => True) (w.setWaiting id false) :=
      ⟨fun _ _ => ⟨rfl, rfl⟩, rfl, rfl⟩
    exact hwaiting.trans (.ring (fun _ _ => by simp) _)

/-- The bundled commands do not touch queues. -/
def QuietExecutor.ofBundled (x : Executor σ) (directory : Narrate.Directory)
    (hx : ∀ p ∈ x.registry.index.pairs, p.2 = Wait.command ∨ p.2 = Narrate.command directory) :
    QuietExecutor σ where
  toExecutor := x
  quiet e w := by
    obtain ⟨log, hdone | ⟨id, d, hdone⟩⟩ := Executor.bundled_arms hx e w
    · rw [hdone]
      exact ⟨fun _ _ => ⟨rfl, rfl⟩, rfl, rfl⟩
    · rw [hdone]
      have hlog : w.Leaves (fun _ => True) { w with log } := ⟨fun _ _ => ⟨rfl, rfl⟩, rfl, rfl⟩
      exact hlog.trans (Wait.leaves_arm ..)

namespace QuietExecutor
variable (x : QuietExecutor σ) (h : Handle)

theorem leaves_dispatch (e : Entry) (w : World σ) : w.Leaves P (x.dispatch e w).world :=
  (x.quiet e w).mono fun _ _ => trivial

theorem leaves_step (w : World σ) : w.Leaves (· ≠ h) (x.step h w).2 :=
  Executor.step_keeps (P := w.Leaves (· ≠ h)) (.takeNext h w)
    (fun e _ hv => hv.trans (x.leaves_dispatch e _)) fun _ _ _ hv => hv.trans (.finish ..)

theorem leaves_runQueue (n : Nat) (w : World σ) : w.Leaves (· ≠ h) (x.runQueue h n w).2 := by
  induction n generalizing w with
  | zero => exact .refl _ w
  | succ n ih =>
    have hstep := x.leaves_step h w
    rcases hs : x.step h w with ⟨tick, v⟩
    rw [hs] at hstep
    cases tick with
    | ran r => simp only [Executor.runQueue, hs]; exact hstep.trans (ih v)
    | awaiting | empty | busy => simp only [Executor.runQueue, hs]; exact hstep

theorem leaves_tick (q : Queue) (w : World σ) : w.Leaves (· ≠ h) (x.tick h q w).2.2 := by
  unfold Executor.tick
  rcases q.takeNext w.waiting with ⟨next, q'⟩
  cases next with
  | ready c =>
    exact (x.leaves_dispatch c.entry w).trans ((World.Leaves.setQueue h _ q').trans (.finish ..))
  | awaiting | empty | busy => exact .refl _ w

theorem leaves_runHeld (n : Nat) (q : Queue) (w : World σ) :
    w.Leaves (· ≠ h) (x.runHeld h n q w).2.2 := by
  induction n generalizing q w with
  | zero => exact .refl _ w
  | succ n ih =>
    have htick := x.leaves_tick h q w
    rcases ht : x.tick h q w with ⟨tick, q', v⟩
    rw [ht] at htick
    cases tick with
    | ran r => simp only [Executor.runHeld, ht]; exact htick.trans (ih q' v)
    | awaiting | empty | busy => simp only [Executor.runHeld, ht]; exact htick

/-- A step that runs an entry takes it from those that are there. -/
theorem pending_step {r : Record} (hs : x.step h w = (.ran r, v)) :
    (w.queues h).pending.length = (v.queues h).pending.length + 1 := by
  rcases hn : (w.queues h).takeNext w.waiting with ⟨next, q⟩
  have hnext := World.takeNext_eq hn
  cases next with
  | ready c =>
    rw [Executor.step_ready hnext] at hs
    obtain ⟨-, rfl⟩ := Prod.mk.inj hs
    obtain ⟨e, rest, hp, rfl, rfl⟩ := Queue.takeNext_eq_ready hn
    rw [World.queues_finish, Queue.finish_pending, ((x.quiet _ _).same h trivial).1,
      World.queues_setQueue, hp, List.length_cons]
  | awaiting | empty | busy =>
    simp only [Executor.step, hnext, Next.idleTick] at hs
    cases hs

/-- **More steps than there are entries to run make no difference.** -/
theorem runQueue_of_lt {n m : Nat} (hn : (w.queues h).pending.length < n)
    (hm : (w.queues h).pending.length < m) : x.runQueue h n w = x.runQueue h m w := by
  induction n generalizing w m with
  | zero => exact absurd hn (Nat.not_lt_zero _)
  | succ n ih =>
    obtain ⟨m, rfl⟩ := Nat.exists_eq_succ_of_ne_zero (Nat.ne_zero_of_lt hm)
    rcases hs : x.step h w with ⟨tick, v⟩
    cases tick with
    | ran r =>
      have hlen := x.pending_step h hs
      have hrest := ih (w := v) (m := m) (by omega) (by omega)
      simp only [Executor.runQueue, hs, hrest]
    | awaiting | empty | busy => simp only [Executor.runQueue, hs]

end QuietExecutor

end Cuelist
