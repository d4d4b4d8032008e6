/-
  What others do around players.

  A task `Plays` a queue if it is a player of it; `bell` is the bell of a queue.  A `Stir`
  is a change of the world that leaves the players of a queue alone: it may ring their
  bell, and does so if it stops the queue.  Whatever is done to queues and entries from
  outside is a stir, and so is what the commands of a `Tactful` executor do; the bundled
  ones are tactful (`tactful_bundled`).
-/
import Cuelist.Desk.Crew
import Cuelist.Proofs.Player
import Mathlib.Logic.Function.Iterate

namespace Cuelist

open World

variable {σ : Type} {x : Executor σ} {h : Handle} {t : TaskId}

namespace World

/-- Whether a task plays the queue in `h`, as which player. -/
def Plays (h : Handle) (w : World σ) (t : TaskId) (p : Player) : Prop :=
  w.tasks t = .player p ∧ p.queue = h

/-- The bell of the queue in `h`. -/
def bell (h : Handle) (w : World σ) : Listeners := w.bells (.queue h)

/-! ## What others do -/

/-- A change that leaves the players of the queue in `h` alone.  It may ring the bell of
    the queue, and does so if it stops the queue. -/
structure Stir (h : Handle) (w w' : World σ) : Prop where
  players : ∀ t p, w'.Plays h t p ↔ w.Plays h t p
  known : w.taskCount ≤ w'.taskCount
  rings : ∃ n, w'.bell h = Listeners.struck^[n] (w.bell h) ∧
    ((w.queues h).stopped = false → (w'.queues h).stopped = true → 0 < n)
  roused : ∀ t p, w.Plays h t p →
    (t ∈ w.ready → t ∈ w'.ready) ∧ (t ∈ (w.bell h).waiting → t ∈ (w'.bell h).waiting ∨ t ∈ w'.ready)
  stopped : (w.queues h).stopped = true → (w'.queues h).stopped = true

namespace Stir

variable {w w' w'' : World σ}

/-- A change that nobody hears. -/
theorem quiet (tasks : w'.tasks = w.tasks) (known : w'.taskCount = w.taskCount)
    (bells : w'.bells = w.bells) (ready : w.ready ⊆ w'.ready)
    (stopped : (w'.queues h).stopped = (w.queues h).stopped) : Stir h w w' where
  players t p := by simp only [Plays, tasks]
  known := Nat.le_of_eq known.symm
  rings := ⟨0, by simp only [bell, bells, Function.iterate_zero, id], fun ho hs => by
    rw [stopped, ho] at hs; cases hs⟩
  roused t p _ := ⟨fun hr => ready hr, fun hw => .inl (by rw [bell, bells]; exact hw)⟩
  stopped hs := stopped.trans hs

theorem refl (w : World σ) : Stir h w w := quiet rfl rfl rfl (List.Subset.refl _) rfl

theorem trans (hs : Stir h w w') (hs' : Stir h w' w'') : Stir h w w'' where
  players t p := (hs'.players t p).trans (hs.players t p)
  known := Nat.le_trans hs.known hs'.known
  rings := by
    obtain ⟨n, hbell, hstop⟩ := hs.rings
    obtain ⟨n', hbell', hstop'⟩ := hs'.rings
    refine ⟨n' + n, by rw [hbell', hbell, Function.iterate_add_apply], fun ho hc => ?_⟩
    cases hmid : (w'.queues h).stopped with
    | true => have := hstop ho hmid; omega
    | false => have := hstop' hmid hc; omega
  roused t p hp := by
    obtain ⟨hready, hwait⟩ := hs.roused t p hp
    obtain ⟨hready', hwait'⟩ := hs'.roused t p ((hs.players t p).2 hp)
    refine ⟨fun hr => hready' (hready hr), fun hw => ?_⟩
    exact (hwait hw).elim hwait' fun hr => .inr (hready' hr)
  stopped hs₀ := hs'.stopped (hs.stopped hs₀)

/-- What can be seen stirs nobody. -/
theorem observe (v : World σ) (e : Event) (hv : Stir h w v) : Stir h w (v.observe e) :=
  hv.trans (quiet rfl rfl rfl (List.Subset.refl _) rfl)

theorem tell (w : World σ) (r : Reporter) (n : Notice) : Stir h w (w.tell r n) :=
  tell_keeps observe (.refl w) r n

theorem setWaiting (w : World σ) (id : EntryId) (waiting : Bool) :
    Stir h w (w.setWaiting id waiting) :=
  quiet rfl rfl rfl (List.Subset.refl _) rfl

/-- A queue that changes and stays as open as it was. -/
theorem setQueue (w : World σ) (i : Handle) {q : Queue} (hq : q.stopped = (w.queues i).stopped) :
    Stir h w (w.setQueue i q) := by
  refine quiet rfl rfl rfl (List.Subset.refl _) ?_
  by_cases hi : h = i
  · subst hi; rw [queues_setQueue, hq]
  · simp only [World.setQueue, put_other _ _ hi]

theorem ring (w : World σ) (b : Bell) : Stir h w (w.ring b) where
  players t p := by simp only [Plays, tasks_ring]
  known := Nat.le_of_eq (taskCount_ring w b).symm
  rings := by
    by_cases hb : .queue h = b
    · refine ⟨1, ?_, fun _ _ => Nat.one_pos⟩
      rw [bell, bells_ring, hb, put_same, Function.iterate_one, bell, hb]
    · refine ⟨0, by rw [bell, bells_ring, put_other _ _ hb]; rfl, fun ho hs => ?_⟩
      rw [queues_ring, ho] at hs; cases hs
  roused t p _ := ⟨fun hr => ready_subset_ring w b hr, waiting_or_ready_ring w⟩
  stopped hs := by rw [queues_ring]; exact hs

/-- A queue that changes, with a ring; it stays closed if it was. -/
theorem news (w : World σ) (i : Handle) {q : Queue}
    (hq : (w.queues i).stopped = true → q.stopped = true) :
    Stir h w ((w.setQueue i q).ring (.queue i)) := by
  have hring := ring (h := h) (w.setQueue i q) (.queue i)
  refine ⟨hring.players, hring.known, ?_, hring.roused, fun hs => hring.stopped ?_⟩
  · by_cases hi : h = i
    · subst hi
      refine ⟨1, ?_, fun _ _ => Nat.one_pos⟩
      rw [bell, bells_ring, put_same, Function.iterate_one]
      rfl
    · obtain ⟨n, hbell, hstop⟩ := hring.rings
      refine ⟨n, hbell, fun ho => hstop ?_⟩
      simpa only [World.setQueue, put_other _ _ hi] using ho
  · by_cases hi : h = i
    · subst hi; rw [queues_setQueue]; exact hq hs
    · simpa only [World.setQueue, put_other _ _ hi] using hs

theorem enqueue {e : Entry} {i : Handle} (he : w.enqueue i e = .ok w') : Stir h w w' := by
  rw [enqueue_eq he]
  exact news w i fun hs => hs

theorem clear (w : World σ) (i : Handle) : Stir h w (w.clear i).2 := news w i fun hs => hs

theorem stop (w : World σ) (i : Handle) : Stir h w (w.stop i).2 := news w i fun _ => rfl

theorem markFinished (w : World σ) (id : EntryId) (finished : Bool) :
    Stir h w (w.markFinished id finished) := by
  cases finished with
  | true => exact (setWaiting w id false).trans (ring _ _)
  | false => exact setWaiting w id true

theorem takeNext (w : World σ) (i : Handle) : Stir h w (w.takeNext i).2 :=
  setQueue w i (Queue.takeNext_stopped _ _)

theorem finish (w : World σ) (r : Reporter) (i : Handle) (c : Claim)
    (result : Except CommandError Unit) : Stir h w (w.finish r i c result).2 := by
  have hset : Stir h w (w.setQueue i ((w.queues i).finish w.waiting c result).2) :=
    setQueue w i Queue.finish_stopped
  have hrung := hset.trans (ring _ (.queue i))
  simp only [World.finish]
  cases result with
  | ok =>
    simp only
    split
    · exact hrung
    · exact hset
  | error err =>
    simp only
    split
    · exact hrung.trans (tell ..)
    · exact hset.trans (tell ..)

end Stir

/-- Whether the tasks that play the queue in `h` are among those that were made. -/
def Known (h : Handle) (w : World σ) : Prop := ∀ t p, w.Plays h t p → t.number < w.taskCount

section
variable {w w' : World σ}

/-- A task that is made plays no queue yet. -/
theorem Known.ne_new {p : Player} (hk : Known h w) (hp : w.Plays h t p) : t ≠ ⟨w.taskCount⟩ := by
  rintro rfl
  exact Nat.lt_irrefl _ (hk _ p hp)

theorem Known.stir (hk : Known h w) (hs : Stir h w w') : Known h w' := fun t p hp =>
  Nat.lt_of_lt_of_le (hk t p ((hs.players t p).1 hp)) hs.known

/-- A new task that is no player of the queue. -/
theorem Stir.spawn (hk : Known h w) {task : Task} (ht : ∀ p : Player, task ≠ .player p) :
    Stir h w (w.spawn task) := by
  have hready := ready_subset_spawn w task
  rw [spawn_eq] at hready ⊢
  refine ⟨fun t p => ?_, Nat.le_succ _, ⟨0, rfl, fun ho hs => ?_⟩,
    fun t p _ => ⟨fun hr => hready hr, .inl⟩, id⟩
  · by_cases hnew : t = ⟨w.taskCount⟩
    · subst hnew
      constructor
      · rintro ⟨hp, -⟩
        exact absurd ((put_same ..).symm.trans hp) (ht p)
      · intro hp
        exact absurd (hk _ p hp) (Nat.lt_irrefl _)
    · simp only [Plays, setTask, put_other _ _ hnew]
  · rw [show (w.queues h).stopped = true from hs] at ho
    cases ho

end

/-! ## Tactful executors -/

/-- Whether the entries that are run leave the players of the queue in `h` alone. -/
def Tactful (h : Handle) (x : Executor σ) : Prop :=
  ∀ e w, Known h w → Stir h w (x.dispatch e w).world

/-- A step of the queue leaves the players alone. -/
theorem Stir.step (hx : Tactful h x) {w : World σ} (hk : Known h w) (i : Handle) :
    Stir h w (x.step i w).2 :=
  Executor.step_keeps (P := Stir h w) (takeNext w i)
    (fun e v hv => hv.trans (hx e v (hk.stir hv))) fun _ _ _ hv => hv.trans (finish ..)

/-- Whether a phase of a command leaves the players of the queue in `h` alone. -/
def Phase.Tactful (h : Handle) (run : Phase σ) : Prop :=
  ∀ call e w, Known h w → Stir h w (run call e w).world

/-- **An executor whose commands are tactful is tactful.** -/
theorem tactful_of_commands (hc : ∀ p ∈ x.registry.index.pairs,
    Phase.Tactful h p.2.parse ∧ Phase.Tactful h p.2.execute) : Tactful h x := by
  intro e w hk
  refine x.dispatch_keeps (P := Stir h w) Stir.observe (fun p hp call e v hv => ?_) e (.refl w)
  obtain ⟨hparse, hexecute⟩ := hc p hp
  have hk' := hk.stir hv
  exact ⟨hv.trans (hparse call e v hk'), hv.trans (hexecute call e v hk')⟩

theorem Narrate.tactful (directory : Narrate.Directory) :
    Phase.Tactful h (Narrate.command (σ := σ) directory).parse ∧
      Phase.Tactful h (Narrate.command (σ := σ) directory).execute :=
  ⟨fun call e w _ => (Narrate.command_keeps Stir.observe directory call e (.refl w)).1,
    fun call e w _ => (Narrate.command_keeps Stir.observe directory call e (.refl w)).2⟩

theorem Wait.tactful : Phase.Tactful h (Wait.command (σ := σ)).parse ∧
    Phase.Tactful h (Wait.command (σ := σ)).execute := by
  constructor
  · intro _ _ w _
    exact .refl w
  · intro call e w hk
    simp only [Wait.command]
    split
    next => exact .refl w
    next d _ =>
      have htell : Stir h w (w.summarize call e (reportPart "Duration" d.render)) := .tell ..
      refine htell.trans ?_
      unfold Wait.arm
      split
      · have hwait := Stir.setWaiting (h := h) (w.summarize call e
          (reportPart "Duration" d.render)) e.id true
        exact hwait.trans (.spawn (hk.stir (htell.trans hwait)) (by simp))
      · exact .markFinished _ e.id true

/-- **The bundled commands are tactful.** -/
theorem tactful_bundled (directory : Narrate.Directory) (resolver : Resolver)
    (reporter : Reporter) (scripts : Library) :
    Tactful (σ := σ) h ⟨Registry.empty.withBundled directory, resolver, reporter, scripts⟩ := by
  refine tactful_of_commands fun p hp => ?_
  rcases Registry.mem_withBundled hp with hc | hc
  · rw [hc]; exact Wait.tactful
  · rw [hc]; exact Narrate.tactful directory

end World

end Cuelist
