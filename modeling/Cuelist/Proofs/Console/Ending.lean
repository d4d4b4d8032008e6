/-
  A run at the console ends unless an entry holds its queue.

  Nothing goes on by itself in the end (`play_rests`).  By then the player has left, or it
  waits for something.  It is not a time, because for that the player has a timer (`Alert`),
  nor an entry to run, because the player is to leave when there is none.  So it is the signal
  of an entry in flight, and as no ring is lost, the entry still waits for it
  (`endless_iff_held`).
-/
import Cuelist.Proofs.Console.Rest
import Cuelist.Proofs.Player.Discreet
import Cuelist.Proofs.Player.Wakeup

namespace Cuelist

open World

/-! ## Around a player -/

namespace World

variable {σ : Type} {x : Executor σ} {h : Handle} {t t' : TaskId} {p p' : Player}
  {w w' w'' : World σ}

/-- What goes on beside a player that plays the queue in `h`. -/
structure Meanwhile (h : Handle) (t : TaskId) (w w' : World σ) : Prop where
  nudges : Nudges h t w w'
  ready : t ∈ w.ready → t ∈ w'.ready
  timers : ∀ due, ⟨due, t⟩ ∈ w.timers → t ∈ w'.ready ∨ ⟨due, t⟩ ∈ w'.timers

namespace Meanwhile

theorem trans (hm : Meanwhile h t w w') (hm' : Meanwhile h t w' w'') : Meanwhile h t w w'' where
  nudges := hm.nudges.trans hm'.nudges
  ready hr := hm'.ready (hm.ready hr)
  timers due htimer := (hm.timers due htimer).elim (fun hr => .inl (hm'.ready hr)) (hm'.timers due)

/-- A change that the player does not hear of. -/
theorem unheard {tasks : TaskId → Task} {ready : List TaskId} {timers : List Timer} {now : Nat}
    (htask : tasks t = w.tasks t) (hready : t ∈ w.ready → t ∈ ready)
    (htimers : ∀ due, ⟨due, t⟩ ∈ w.timers → t ∈ ready ∨ ⟨due, t⟩ ∈ timers) :
    Meanwhile h t w { w with tasks, ready, timers, now } where
  nudges := .single (.apart ⟨rfl, fun _ _ => rfl, rfl, fun _ _ => rfl, fun _ hz => hz, htask,
    Nat.le_refl _, hready⟩)
  ready := hready
  timers := htimers

theorem sleep (w : World σ) (ht : t' ≠ t) :
    Meanwhile h t w { w with ready := w.ready.erase t' } :=
  unheard rfl (fun hr => (List.mem_erase_of_ne ht.symm).2 hr) fun _ htimer => .inr htimer

theorem setTask (w : World σ) (ht : t' ≠ t) (task : Task) : Meanwhile h t w (w.setTask t' task) :=
  unheard (put_other _ _ ht.symm) (fun hr => hr) fun _ htimer => .inr htimer

theorem disarm (w : World σ) (ht : t' ≠ t) : Meanwhile h t w (w.disarm t') :=
  unheard rfl (fun hr => hr) fun _ htimer =>
    .inr (List.mem_filter.2 ⟨htimer, by simpa using ht.symm⟩)

theorem arm (w : World σ) (due : Nat) (t' : TaskId) : Meanwhile h t w (w.arm due t') := by
  have hkept := timers_subset_arm w due t'
  rw [arm_eq]
  exact unheard rfl (fun hr => hr) fun _ htimer => .inr (hkept htimer)

theorem markFinished (w : World σ) (id : EntryId) : Meanwhile h t w (w.markFinished id true) where
  nudges := .single (.signal id true rfl)
  ready hr := ready_subset_ring (w.setWaiting id false) _ hr
  timers due htimer := .inr (by rw [World.markFinished, if_pos rfl, ring_eq]; exact htimer)

theorem strike (w : World σ) (time : Nat) : Meanwhile h t w (w.strike time) := by
  obtain ⟨hready, hwoken⟩ := ready_strike w time
  have hkept := mem_timers_strike w time
  rw [strike_eq] at hready hwoken hkept ⊢
  refine unheard rfl (fun hr => hready hr) fun due htimer => ?_
  by_cases hdue : due ≤ time
  · exact .inl (hwoken _ htimer hdue)
  · exact .inr ((hkept _).2 ⟨htimer, Nat.lt_of_not_le hdue⟩)

/-- Another task is polled that is no player. -/
theorem poll (ht : t' ≠ t) (hn : ∀ p, w.tasks t' ≠ .player p) : Meanwhile h t w (w.poll x t') := by
  have halarm : ∀ id due, Meanwhile h t w (afterTurn t' (w.advanceAlarm t' id due)) := by
    intro id due
    unfold advanceAlarm
    split
    · have hdone := (disarm (h := h) w ht).trans (setTask _ ht .done)
      exact (hdone.trans (markFinished _ id)).trans (sleep _ ht)
    · exact ((arm w due t').trans (setTask _ ht (.armed id due))).trans (sleep _ ht)
  rw [World.poll, advance]
  cases htask : w.tasks t' with
  | player p => exact absurd htask (hn p)
  | alarm id length => exact halarm id _
  | armed id due => exact halarm id due
  | done => exact sleep w ht

end Meanwhile

end World

/-- A steady player is steady after any number of nudges. -/
theorem Steady.nudges {σ : Type} {t : TaskId} {p : Player} {w w' : World σ} (hs : Steady t p w)
    (hn : Nudges p.queue t w w') : Steady t p w' := by
  induction hn with
  | refl => exact hs
  | tail _ hn ih => exact ih.nudge hn

namespace Console

/-! ## The player of a run -/

/-- The player of a console that misses nothing: no ring, and not its time. -/
structure Alert (w : World Unit) (p : Player) : Prop extends Manned w p where
  steady : Steady ⟨0⟩ p w
  timed : ∀ due, p.rest = .delayed due → ⟨0⟩ ∈ w.ready ∨ ⟨due, ⟨0⟩⟩ ∈ w.timers

section
variable {s : Settings} {queue : QueueId} {lines : List ConsoleLine} {w v : World Unit} {p : Player}

namespace Alert

theorem alone_listens (ha : Alert w p) : World.Alone ⟨0⟩ ⟨0⟩ w := by
  intro e _ t ht
  have hsole := ha.sole (.entry e.id)
  generalize w.bells (.entry e.id) = l at hsole ht
  cases hsole with
  | away | woken => cases ht
  | waiting => exact List.mem_singleton.1 ht

theorem meanwhile (ha : Alert w p) (hm : Meanwhile ⟨0⟩ ⟨0⟩ w v) {p' : Player} (hv : Manned v p') :
    Alert v p' := by
  have hsteady : Steady ⟨0⟩ p v := ha.steady.nudges (by rw [ha.handle]; exact hm.nudges)
  obtain rfl := Task.player.inj (hv.task.symm.trans hsteady.task)
  exact ⟨hv, hsteady, fun due hd =>
    (ha.timed due hd).elim (fun hr => .inl (hm.ready hr)) (hm.timers due)⟩

/-- A pulse leaves the player alert. -/
theorem pulse (ha : Alert w p) : ∃ p', Alert (World.pulse (executor s) w) p' := by
  cases hready : w.ready with
  | nil =>
    have hsame : World.pulse (executor s) w = w := by simp [World.pulse, hready]
    exact ⟨p, by rwa [hsame]⟩
  | cons t others =>
    obtain ⟨p', hm, -⟩ := ha.toManned.pulse (by simp [hready]) s
    refine ⟨p', ?_⟩
    rw [pulse_eq_poll _ hready] at hm ⊢
    by_cases ht : t = ⟨0⟩
    · subst ht
      have hfirst : ⟨0⟩ ∈ w.ready := by simp [hready]
      have hdiscreet : Discreet p.queue ⟨0⟩ (executor s) := discreet_bundled _ _ _ _
      obtain ⟨q, -, hsteady⟩ :=
        ha.steady.poll hdiscreet (by rw [ha.handle]; exact ha.alone_listens) hfirst
      obtain rfl := Task.player.inj (hm.task.symm.trans hsteady.task)
      exact ⟨hm, hsteady, fun due hd => poll_delayed ha.task hfirst hm.task hd⟩
    · exact ha.meanwhile (.poll ht fun q hq => ht (ha.alone t q hq)) hm

theorem strike (ha : Alert w p) (time : Nat) : Alert (w.strike time) p :=
  ha.meanwhile (.strike w time) (ha.toManned.setClock time)

end Alert

/-- The player of a run is alert to the end. -/
theorem play_alert (hplay : play s queue lines = .ok w) : ∃ p, Alert w p := by
  obtain ⟨v, -, ha, rfl⟩ := of_play hplay
  obtain ⟨pending, hqueue⟩ := ha.queue
  have hfree : (v.queues ⟨0⟩).dispatching = false := by rw [hqueue]; rfl
  have hunheard : ∀ b, (v.bells b).places ⟨0⟩ = 0 := fun b => by
    simp [Listeners.places, ha.calm.hushed b]
  have hsteady := start_steady (t := ⟨0⟩) ha.calm.taskCount.symm hfree (ha.calm.hushed.sole _ _)
    hunheard s.speed true
  refine playOut_keeps (P := fun u => ∃ p, Alert u p) ?_ ?_ _ _
    ⟨_, ha.manned.1, hsteady, fun due hd => by cases hd⟩
  · rintro u ⟨p, hu⟩
    exact hu.pulse
  · rintro u time ⟨p, hu⟩
    exact ⟨p, hu.strike time⟩

/-- A player that sleeps for good waits for the signal of the entry that holds the queue. -/
theorem Alert.holds (ha : Alert w p) (hready : w.ready = []) (htimers : w.timers = [])
    (hhere : p.rest ≠ .gone) : ∃ id, w.holder? ⟨0⟩ = some id := by
  obtain hgone | ⟨due, hdue⟩ | hheld := ha.steady.waits (by simp [hready]) ha.leaves
  · exact absurd hgone hhere
  · simpa [hready, htimers] using ha.timed due hdue
  · rwa [ha.handle] at hheld

/-- **A run has no end exactly if an entry that waits for its signal holds the queue.** -/
theorem endless_iff_held (hplay : play s queue lines = .ok w) :
    ending? w = none ↔ ∃ id, w.holder? handle = some id := by
  obtain ⟨_, _, p, -, hs⟩ := play_solo hplay
  obtain ⟨q, ha⟩ := play_alert hplay
  obtain rfl := Task.player.inj (hs.task.symm.trans ha.task)
  obtain ⟨hready, htimers⟩ := play_rests hplay
  rw [ending?, Option.map_eq_none_iff]
  constructor
  · intro hnone
    refine ha.holds hready htimers fun hgone => ?_
    obtain ⟨-, -, _, hleft⟩ := hs.gone hgone
    cases hnone.symm.trans hleft
  · rintro ⟨id, hheld⟩
    refine hs.here fun hgone => ?_
    obtain ⟨e, hflight, -⟩ := Queue.holder?_eq_some.1 hheld
    cases (hs.gone hgone).2.1.symm.trans hflight

end

end Console

end Cuelist
