/-
  Executors that leave a player alone.

  An entry that runs may admit entries, clear and stop queues and signal entries, but
  the player alone advances its queue.  An executor is discreet if its commands are
  (`discreet_of_commands`), and the bundled commands are: they report, send messages,
  signal their entry and start alarms (`discreet_bundled`).
-/
import Cuelist.Desk.Crew
import Cuelist.Proofs.Player

namespace Cuelist

open World

variable {σ : Type} {h : Handle} {t : TaskId}

/-! ## Changes that nobody hears -/

section
variable {w w' : World σ}

/-- A change that leaves the bells and the queues as they are is apart, if it does not
    touch the task and the signal that the queue waits for. -/
theorem World.Apart.of_bells (hq : w'.queues = w.queues) (hb : w'.bells = w.bells)
    (hs : ∀ e, (w.queues h).inFlight = some e → w'.waiting e.id = w.waiting e.id)
    (ht : w'.tasks t = w.tasks t) (hk : w.taskCount ≤ w'.taskCount) (hr : w.ready ⊆ w'.ready) :
    Apart h t w w' where
  queue := by rw [hq]
  signal := hs
  bell := by rw [hb]
  heard _ _ := by rw [hb]
  unheard _ hz := by rw [hb]; exact hz
  task := ht
  known := hk
  ready := fun hm => hr hm

theorem apart_tell (w : World σ) (r : Reporter) (n : Notice) : Apart h t w (w.tell r n) := by
  rw [tell_eq]
  exact .of_bells rfl rfl (fun _ _ => rfl) rfl (Nat.le_refl _) (List.Subset.refl _)

theorem apart_observe (w : World σ) (e : Event) : Apart h t w (w.observe e) :=
  .of_bells rfl rfl (fun _ _ => rfl) rfl (Nat.le_refl _) (List.Subset.refl _)

theorem apart_setWaiting (hi : (w.queues h).inFlight = none) (id : EntryId) (waiting : Bool) :
    Apart h t w (w.setWaiting id waiting) :=
  .of_bells rfl rfl (fun e he => by rw [hi] at he; cases he) rfl (Nat.le_refl _)
    (List.Subset.refl _)

theorem apart_spawn (hk : t.number < w.taskCount) (task : Task) : Apart h t w (w.spawn task) := by
  have hne : t ≠ ⟨w.taskCount⟩ := fun hc => by rw [hc] at hk; exact Nat.lt_irrefl _ hk
  have hready := ready_subset_spawn w task
  rw [spawn_eq] at hready ⊢
  exact .of_bells rfl rfl (fun _ _ => rfl) (put_other _ _ hne) (Nat.le_succ _) hready

/-- What can be seen is no more than a nudge. -/
theorem nudges_observe (v : World σ) (e : Event) (hv : Nudges h t w v) :
    Nudges h t w (v.observe e) :=
  hv.tail (.apart (apart_observe v e))

end

/-! ## Nudges during a run -/

section
variable {w w' : World σ}

theorem World.Undisturbed.news (hu : Undisturbed h t w) {q : Queue} (hq : q.inFlight = none) :
    Undisturbed h t ((w.setQueue h q).ring (.queue h)) where
  inFlight := by rw [queues_ring, queues_setQueue, hq]
  known := by rw [taskCount_ring]; exact hu.known
  unheard b := by rw [places_ring]; exact hu.unheard b

theorem World.Undisturbed.markFinished (hu : Undisturbed h t w) (id : EntryId) (finished : Bool) :
    Undisturbed h t (w.markFinished id finished) := by
  have hw : ∀ waits, Undisturbed h t (w.setWaiting id waits) := fun _ =>
    ⟨hu.inFlight, hu.known, hu.unheard⟩
  cases finished with
  | true =>
    refine ⟨by rw [queues_markFinished, hu.inFlight], ?_, fun b => ?_⟩
    · exact (taskCount_ring _ _).symm ▸ (hw false).known
    · exact (places_ring _ _ b t).trans ((hw false).unheard b)
  | false => exact hw true

theorem World.Undisturbed.nudge (hu : Undisturbed h t w) (hn : Nudge h t w w') :
    Undisturbed h t w' := by
  cases hn with
  | enqueue e he => rw [enqueue_eq he]; exact hu.news hu.inFlight
  | clear hc => rw [hc]; exact hu.news rfl
  | stop hs => rw [hs]; exact hu.news rfl
  | signal id finished hm => rw [hm]; exact hu.markFinished id finished
  | apart ha =>
    exact ⟨by rw [ha.queue, hu.inFlight], Nat.lt_of_lt_of_le hu.known ha.known,
      fun b => ha.unheard b (hu.unheard b)⟩

theorem World.Undisturbed.nudges (hu : Undisturbed h t w) (hn : Nudges h t w w') :
    Undisturbed h t w' := by
  induction hn with
  | refl => exact hu
  | tail _ hn ih => exact ih.nudge hn

end

/-! ## Discreet commands -/

/-- Whether both phases of a command come down to nudges. -/
structure Command.Discreet (h : Handle) (t : TaskId) (c : Command σ) : Prop where
  parse : ∀ call e w, Undisturbed h t w → Nudges h t w (c.parse call e w).world
  execute : ∀ call e w, Undisturbed h t w → Nudges h t w (c.execute call e w).world

/-- **An executor whose commands are discreet is discreet.** -/
theorem discreet_of_commands {x : Executor σ}
    (hc : ∀ p ∈ x.registry.index.pairs, p.2.Discreet h t) : Discreet h t x := by
  intro e w hu
  refine x.dispatch_keeps (P := Nudges h t w) nudges_observe (fun p hp call e v hv => ?_) e .refl
  have hu' := hu.nudges hv
  exact ⟨hv.trans ((hc p hp).parse call e v hu'), hv.trans ((hc p hp).execute call e v hu')⟩

/-! ## The bundled commands -/

theorem Narrate.discreet (directory : Narrate.Directory) :
    (Narrate.command (σ := σ) directory).Discreet h t where
  parse call e _ _ := (command_keeps nudges_observe directory call e .refl).1
  execute call e _ _ := (command_keeps nudges_observe directory call e .refl).2

theorem Wait.discreet : (Wait.command (σ := σ)).Discreet h t where
  parse _ _ _ _ := .refl
  execute call e w hu := by
    simp only [Wait.command]
    split
    next => exact .refl
    next d _ =>
      have htell : Nudges h t w (w.summarize call e (reportPart "Duration" d.render)) :=
        .single (.apart (apart_tell ..))
      have hu' := hu.nudges htell
      refine htell.trans ?_
      unfold Wait.arm
      split
      · have hwait := apart_setWaiting (t := t) hu'.inFlight e.id true
        have hspawn := apart_spawn (h := h) (hu'.nudge (.apart hwait)).known (.alarm e.id d)
        exact .head (.apart hwait) (.single (.apart hspawn))
      · exact .single (.signal e.id true rfl)

/-- **The bundled commands leave a player alone.** -/
theorem discreet_bundled (directory : Narrate.Directory) (resolver : Resolver)
    (reporter : Reporter) (scripts : Library) :
    Discreet (σ := σ) h t ⟨Registry.empty.withBundled directory, resolver, reporter, scripts⟩ := by
  refine discreet_of_commands fun p hp => ?_
  rcases Registry.mem_withBundled hp with hc | hc
  · rw [hc]; exact Wait.discreet
  · rw [hc]; exact Narrate.discreet directory

end Cuelist
