/-
  A run at the console comes to rest.

  `play` lets tasks take a number of steps that grows with the number of entries.  These
  suffice: in the end no task is ready and no timer is left (`play_rests`).

  A player is `Manned` as long as it is the only one and nobody else listens to a bell.  Then
  every pulse and every move of the clock lowers the work that is left (`Manned.pulse`,
  `Manned.strike`): a look uses up a ring or goes to sleep (`Manned.watchDelay`), an alarm
  that goes off is done (`Manned.ends`), and what the run of an entry adds is less than what
  the entry was worth (`Manned.runs`).
-/
import Cuelist.Proofs.Console.Work

namespace Cuelist

open World

namespace Console

/-! ## A player that looks -/

/-- The player of a console, with what is known of the tasks beside it and of the clock. -/
structure Manned (w : World Unit) (p : Player) : Prop where
  task : w.tasks ⟨0⟩ = .player p
  alone : ∀ t p', w.tasks t = .player p' → t = ⟨0⟩
  beyond : ∀ t, w.taskCount ≤ t.number → w.tasks t = .done
  handle : p.queue = ⟨0⟩
  leaves : p.leavesWhenDrained = true
  /-- Alarms ring and do not listen. -/
  sole : ∀ b, (w.bells b).Sole ⟨0⟩
  /-- No timer is overdue. -/
  later : ∀ timer ∈ w.timers, w.now < timer.due
  /-- The player waits only for the time of its next normal entry. -/
  delayed : ∀ due, p.rest = .delayed due → p.nextNormal = some due

/-- A change of who listens, of what is ready and of the timers that adds `cost` to the
    shared work. -/
structure Spends (cost : Int) (w v : World Unit) : Prop where
  glanced : Glanced w v
  work : (sharedWork v : Int) ≤ sharedWork w + cost
  sole : (∀ b, (w.bells b).Sole ⟨0⟩) → ∀ b, (v.bells b).Sole ⟨0⟩
  later : (∀ timer ∈ w.timers, w.now < timer.due) → ∀ timer ∈ v.timers, v.now < timer.due

section
variable {w v u : World Unit} {p : Player} {cost cost' : Int}

theorem sole_put {b : Bell} {l : Listeners} (hl : l.Sole ⟨0⟩) (h : ∀ b, (w.bells b).Sole ⟨0⟩)
    (b' : Bell) : (put w.bells b l b').Sole ⟨0⟩ := by
  by_cases hb : b' = b
  · rw [hb, put_same]; exact hl
  · rw [put_other _ _ hb]; exact h b'

/-- Alarms have no more work if only the timers of the player went. -/
theorem alarmsWork_glanced (hg : Glanced w v) (ht : w.tasks ⟨0⟩ = .player p)
    (htimers : ∀ due t, t ≠ ⟨0⟩ → ⟨due, t⟩ ∈ w.timers → ⟨due, t⟩ ∈ v.timers) :
    alarmsWork v v.taskCount ≤ alarmsWork w w.taskCount := by
  obtain ⟨_, _, _, rfl⟩ := hg
  refine alarmsWork_le fun i _ => ?_
  by_cases hi : (⟨i⟩ : TaskId) = ⟨0⟩
  · simp [alarmWork, hi, ht]
  · exact alarmWork_le rfl rfl fun due hm => htimers due _ hi hm

namespace Spends

theorem refl (w : World Unit) : Spends 0 w w := ⟨.refl w, by omega, fun h => h, fun h => h⟩

theorem trans (h : Spends cost w v) (h' : Spends cost' v u) : Spends (cost + cost') w u where
  glanced := h.glanced.trans h'.glanced
  work := by have := h.work; have := h'.work; omega
  sole := h'.sole ∘ h.sole
  later := h'.later ∘ h.later

/-- Others listen, or others are ready. -/
theorem ofBells {bells : Bell → Listeners} {ready : List TaskId}
    (hwork : (5 * rings (bells (.queue ⟨0⟩)) + ready.length : Int) ≤
      5 * rings (w.bells (.queue ⟨0⟩)) + w.ready.length + cost)
    (hsole : (∀ b, (w.bells b).Sole ⟨0⟩) → ∀ b, (bells b).Sole ⟨0⟩) :
    Spends cost w { w with bells, ready } := by
  refine ⟨⟨_, _, _, rfl⟩, ?_, hsole, fun h => h⟩
  have halarms := alarmsWork_le (w := w) (v := { w with bells, ready }) (n := w.taskCount)
    fun i _ => alarmWork_le rfl rfl fun _ hm => hm
  simp only [sharedWork]
  omega

theorem listen {b : Bell} {rung : Bool} (hl : w.listen b ⟨0⟩ = (rung, v)) : Spends 0 w v := by
  obtain ⟨hlook, rfl⟩ := of_listen hl
  refine ofBells ?_ fun h => sole_put (h b).look h
  by_cases hb : Bell.queue ⟨0⟩ = b
  · subst hb
    rw [put_same]
    cases rung with
    | true => have := rings_look_true hlook; omega
    | false => have := rings_look_false hlook; omega
  · rw [put_other _ _ hb]; omega

/-- The player finds a ring of its queue. -/
theorem rung (hl : w.listen (.queue ⟨0⟩) ⟨0⟩ = (true, v)) : Spends (-5) w v := by
  obtain ⟨hlook, rfl⟩ := of_listen hl
  refine ofBells ?_ fun h => sole_put (h _).look h
  have hrings := rings_look_true hlook
  rw [put_same]
  omega

theorem leave (w : World Unit) (b : Bell) : Spends 1 w (w.leave b ⟨0⟩) := by
  have hready := length_ready_leave w b ⟨0⟩
  rw [leave_eq]
  refine ofBells ?_ fun h => sole_put (h b).without h
  by_cases hb : Bell.queue ⟨0⟩ = b
  · subst hb
    have hrings := rings_without (w.bells (.queue ⟨0⟩))
    rw [put_same]
    omega
  · rw [put_other _ _ hb]; omega

/-- A task sleeps. -/
theorem sleep {t : TaskId} (h : t ∈ w.ready) :
    Spends (-1) w { w with ready := w.ready.erase t } := by
  refine ofBells ?_ fun h => h
  have hlength := List.length_erase_of_mem h
  have hpos := List.length_pos_of_mem h
  omega

/-- The timers of the player change. -/
theorem ofTimers (ht : w.tasks ⟨0⟩ = .player p) {timers : List Timer}
    (hwork : (2 * timers.length : Int) ≤ 2 * w.timers.length + cost)
    (hothers : ∀ due t, t ≠ ⟨0⟩ → ⟨due, t⟩ ∈ w.timers → ⟨due, t⟩ ∈ timers)
    (hlater : (∀ timer ∈ w.timers, w.now < timer.due) → ∀ timer ∈ timers, w.now < timer.due) :
    Spends cost w { w with timers } := by
  refine ⟨⟨_, _, _, rfl⟩, ?_, fun h => h, hlater⟩
  have halarms := alarmsWork_glanced (v := { w with timers }) ⟨_, _, _, rfl⟩ ht hothers
  simp only [sharedWork] at halarms ⊢
  omega

theorem disarm (ht : w.tasks ⟨0⟩ = .player p) : Spends 0 w (w.disarm ⟨0⟩) := by
  refine ofTimers ht ?_ (fun due t hne hm => ?_) fun h timer hm => h timer (List.mem_filter.1 hm).1
  · have := List.length_filter_le (fun timer : Timer => timer.task ≠ ⟨0⟩) w.timers
    omega
  · exact List.mem_filter.2 ⟨hm, by simpa using hne⟩

theorem arm (ht : w.tasks ⟨0⟩ = .player p) {due : Nat} (hdue : w.now < due) :
    Spends (timerWork w due ⟨0⟩) w (w.arm due ⟨0⟩) := by
  have hlength := length_timers_arm w due ⟨0⟩
  have hkept := timers_subset_arm w due ⟨0⟩
  have hlater := fun h => timers_arm_keeps (w := w) (t := ⟨0⟩) (P := fun timer => w.now < timer.due)
    h hdue
  rw [arm_eq]
  exact ofTimers ht (by omega) (fun _ _ _ hm => hkept hm) hlater

end Spends

/-- Whether less work is left in another world with the player. -/
def Lowers (w : World Unit) (p : Player) (v : World Unit) : Prop :=
  ∃ p', Manned v p' ∧ work v p' < work w p

theorem Lowers.log (h : Lowers w p v) (log : List (Nat × Event)) : Lowers w p { v with log } := by
  obtain ⟨p', hm, hlow⟩ := h
  refine ⟨p', { hm with }, ?_⟩
  have hrest : restWork { v with log } p' = restWork v p' := rfl
  have hdelay : delayWork { v with log } p' = delayWork v p' := rfl
  rwa [work, sharedWork_log, hrest, hdelay]

/-- The state of the player is no part of the shared work. -/
theorem sharedWork_player (w : World Unit) (p' : Player) :
    sharedWork (w.setTask ⟨0⟩ (.player p')) ≤ sharedWork w := by
  have halarms := alarmsWork_le (v := w.setTask ⟨0⟩ (.player p')) (w := w) (n := w.taskCount)
    fun i _ => by
      by_cases hi : (⟨i⟩ : TaskId) = ⟨0⟩
      · simp [alarmWork, hi, setTask, put_same]
      · exact alarmWork_le (put_other _ _ hi) rfl fun _ hm => hm
  simp only [sharedWork, setTask] at halarms ⊢
  omega

@[simp] theorem restWork_setTask (w : World Unit) (p : Player) (t : TaskId) (task : Task) :
    restWork (w.setTask t task) p = restWork w p := rfl

@[simp] theorem delayWork_setTask (w : World Unit) (p : Player) (t : TaskId) (task : Task) :
    delayWork (w.setTask t task) p = delayWork w p := rfl

theorem restWork_awake (w : World Unit) (p : Player) : restWork w { p with rest := .awake } = 3 :=
  rfl

theorem restWork_afterRun (hr : p.rest = .awake) (w : World Unit) (now : Nat) (instant : Bool) :
    restWork w (p.afterRun now instant) = 3 := by
  simp only [restWork, Player.afterRun, hr]

/-- The time for the next normal entry comes closer. -/
theorem delayWork_le (h : w.now ≤ v.now) (p : Player) : delayWork v p ≤ delayWork w p := by
  unfold delayWork
  cases p.nextNormal with
  | none => exact Nat.le_refl _
  | some due =>
    simp only [Option.any_some, decide_eq_true_eq]
    split <;> split <;> omega

theorem delayWork_glanced (hg : Glanced w v) (p : Player) : delayWork v p = delayWork w p := by
  obtain ⟨_, _, _, rfl⟩ := hg
  rfl

namespace Manned

theorem beyond_ne (hm : Manned w p) {t : TaskId} (ht : w.taskCount ≤ t.number) : t ≠ ⟨0⟩ := by
  rintro rfl
  cases hm.task.symm.trans (hm.beyond ⟨0⟩ ht)

/-- The player is in another state. -/
theorem setPlayer (hm : Manned w p) {p' : Player} (hh : p'.queue = ⟨0⟩)
    (hl : p'.leavesWhenDrained = true)
    (hd : ∀ due, p'.rest = .delayed due → p'.nextNormal = some due) :
    Manned (w.setTask ⟨0⟩ (.player p')) p' where
  task := put_same w.tasks ⟨0⟩ _
  alone t p'' ht := by
    by_contra hne
    exact hne (hm.alone t p'' ((put_other _ _ hne).symm.trans ht))
  beyond t ht := (put_other _ _ (hm.beyond_ne ht)).trans (hm.beyond t ht)
  handle := hh
  leaves := hl
  sole := hm.sole
  later := hm.later
  delayed := hd

theorem spends (hm : Manned w p) (hs : Spends cost w v) : Manned v p := by
  obtain ⟨_, _, _, rfl⟩ := hs.glanced
  exact { hm with sole := hs.sole hm.sole, later := hs.later hm.later }

/-- The player is in another state, and with it less work is left. -/
theorem becomes (hm : Manned v p) {p' : Player} (hh : p'.queue = ⟨0⟩)
    (hl : p'.leavesWhenDrained = true)
    (hd : ∀ due, p'.rest = .delayed due → p'.nextNormal = some due)
    (hlow : work v p' < work w p) : Lowers w p (v.setTask ⟨0⟩ (.player p')) := by
  refine ⟨p', hm.setPlayer hh hl hd, ?_⟩
  have hshared := sharedWork_player v p'
  simp only [work, restWork_setTask, delayWork_setTask] at hlow ⊢
  omega

/-- The player goes over to another state of rest. -/
theorem goesOver (hm : Manned w p) (hs : Spends cost w v) {r : Rest}
    (hr : ∀ due, r = .delayed due → p.nextNormal = some due)
    (hlow : cost + restWork v { p with rest := r } < restWork w p) :
    Lowers w p (v.rest ⟨0⟩ p r) := by
  refine (hm.spends hs).becomes hm.handle hm.leaves hr ?_
  have hwork := hs.work
  have hdelay : delayWork v { p with rest := r } = delayWork w p := delayWork_glanced hs.glanced p
  simp only [work, hdelay]
  omega

/-- The player stays in its state of rest. -/
theorem stays (hm : Manned w p) (hs : Spends cost w v) (hlow : cost + restWork v p < restWork w p) :
    Lowers w p v := by
  refine ⟨p, hm.spends hs, ?_⟩
  have hwork := hs.work
  simp only [work, delayWork_glanced hs.glanced]
  omega

/-! ### Looks -/

theorem watchDelay (hm : Manned w p) (hready : ⟨0⟩ ∈ w.ready) {due : Nat}
    (hr : p.rest = .delayed due) : Lowers w p (afterTurn ⟨0⟩ (w.watchDelay ⟨0⟩ p due)) := by
  unfold World.watchDelay
  rw [hm.handle]
  by_cases hdue : due ≤ w.now
  · rw [if_pos hdue]
    refine hm.goesOver ((Spends.disarm hm.task).trans (.leave ..)) (by simp) ?_
    simp [restWork, hr, Nat.not_lt.2 hdue]
  · rw [if_neg hdue]
    have hlater : w.now < due := Nat.lt_of_not_le hdue
    have harm := Spends.arm hm.task hlater
    have hbefore : restWork w p = timerWork w due ⟨0⟩ := by simp [restWork, hr, hlater]
    rcases hl : (w.arm due ⟨0⟩).listen (.queue ⟨0⟩) ⟨0⟩ with ⟨rung, v⟩
    cases rung with
    | true =>
      have hrung := harm.trans (.rung hl)
      refine hm.goesOver (hrung.trans (.disarm (hm.spends hrung).task)) (by simp) ?_
      rw [hbefore, restWork_awake]
      omega
    | false =>
      change Lowers w p { v with ready := v.ready.erase ⟨0⟩ }
      have hlisten := harm.trans (.listen hl)
      obtain ⟨-, rfl⟩ := of_listen hl
      have hthere : ⟨0⟩ ∈ (w.arm due ⟨0⟩).ready := by rw [arm_eq]; exact hready
      refine hm.stays (hlisten.trans (.sleep hthere)) ?_
      have hnow : (w.arm due ⟨0⟩).now = w.now := by rw [arm_eq]
      rw [hbefore]
      simp only [restWork, hr, hnow, if_pos hlater]
      simp only [timerWork, if_pos (mem_timers_arm w due ⟨0⟩)]
      omega

theorem watchEntry (hm : Manned w p) (hready : ⟨0⟩ ∈ w.ready) {id : EntryId}
    (hr : p.rest = .holding id) : Lowers w p (afterTurn ⟨0⟩ (w.watchEntry ⟨0⟩ p id)) := by
  have hrest : ∀ v : World Unit, restWork v p =
      (if v.waiting id then 0 else 5) + rings (v.bells (.entry id)) := fun v => by
    simp only [restWork, hr]
  unfold World.watchEntry
  rw [hm.handle]
  split
  next =>
    rcases hl : w.listen (.entry id) ⟨0⟩ with ⟨signalled, v⟩
    have hlisten := Spends.listen hl
    have hlook := (of_listen hl).1
    cases signalled with
    | true =>
      change Lowers w p v
      refine hm.stays hlisten ?_
      have hrings := rings_look_true hlook
      rw [hrest, hrest, waiting_listen hl, bells_listen hl, put_same]
      omega
    | false =>
      have hrings := rings_look_false hlook
      rcases hl' : v.listen (.queue ⟨0⟩) ⟨0⟩ with ⟨rung, v'⟩
      cases rung with
      | true =>
        simp only [hl']
        refine hm.goesOver ((hlisten.trans (.rung hl')).trans (.leave ..)) (by simp) ?_
        rw [restWork_awake]
        omega
      | false =>
        simp only [hl']
        change Lowers w p { v' with ready := v'.ready.erase ⟨0⟩ }
        have hthere : ⟨0⟩ ∈ v'.ready := by rw [ready_listen hl', ready_listen hl]; exact hready
        refine hm.stays ((hlisten.trans (.listen hl')).trans (.sleep hthere)) ?_
        have hbells : v'.bells (.entry id) = v.bells (.entry id) :=
          bells_listen_other hl' (by simp)
        rw [hrest, hrest, waiting_listen hl', waiting_listen hl, hbells, bells_listen hl, put_same,
          hrings]
        omega
  next hn =>
    refine hm.goesOver (.leave ..) (by simp) ?_
    have hwaits : w.waiting id = false := by simp at hn; exact hn.2
    rw [restWork_awake, hrest, hwaits, if_neg (by simp)]
    omega

theorem watchQueue (hm : Manned w p) (hready : ⟨0⟩ ∈ w.ready) (hr : p.rest = .idle) :
    Lowers w p (afterTurn ⟨0⟩ (w.watchQueue ⟨0⟩ p)) := by
  have hrest : ∀ v : World Unit, restWork v p = 0 := fun v => by simp only [restWork, hr]
  unfold World.watchQueue
  rw [hm.handle]
  rcases hl : w.listen (.queue ⟨0⟩) ⟨0⟩ with ⟨rung, v⟩
  cases rung with
  | true =>
    refine hm.goesOver (.rung hl) (by simp) ?_
    rw [restWork_awake]
    omega
  | false =>
    change Lowers w p { v with ready := v.ready.erase ⟨0⟩ }
    have hthere : ⟨0⟩ ∈ v.ready := by rw [ready_listen hl]; exact hready
    refine hm.stays ((Spends.listen hl).trans (.sleep hthere)) ?_
    rw [hrest, hrest]
    omega

/-! ### Alarms -/

theorem beyond_lt (hm : Manned w p) {t : TaskId} (ht : w.tasks t ≠ .done) :
    t.number < w.taskCount := by
  by_contra hge
  exact ht (hm.beyond t (Nat.le_of_not_lt hge))

/-- Another task than the player goes on. -/
theorem setTask (hm : Manned w p) {t : TaskId} (ht : t ≠ ⟨0⟩) (hb : t.number < w.taskCount)
    (task : Task) (hn : ∀ p', task ≠ .player p') : Manned (w.setTask t task) p where
  task := (put_other _ _ ht.symm).trans hm.task
  alone t' p' hp := by
    by_cases hsame : t' = t
    · subst hsame
      exact absurd ((put_same ..).symm.trans hp) (hn p')
    · exact hm.alone t' p' ((put_other _ _ hsame).symm.trans hp)
  beyond t' (ht' : w.taskCount ≤ t'.number) := by
    have hne : t' ≠ t := by rintro rfl; omega
    exact (put_other _ _ hne).trans (hm.beyond t' ht')
  handle := hm.handle
  leaves := hm.leaves
  sole := hm.sole
  later := hm.later
  delayed := hm.delayed

theorem ring (hm : Manned w p) (b : Bell) : Manned (w.ring b) p := by
  have hsole : ∀ b', ((w.ring b).bells b').Sole ⟨0⟩ := by
    rw [bells_ring]
    exact sole_put (hm.sole b).struck hm.sole
  rw [ring_eq] at hsole ⊢
  exact { hm with sole := hsole }

/-- An entry is signalled. -/
theorem markFinished (hm : Manned w p) (id : EntryId) : Manned (w.markFinished id true) p := by
  have hset : Manned (w.setWaiting id false) p := { hm with }
  exact hset.ring (.entry id)

/-- A task goes to sleep after a change that adds no work. -/
theorem sleeps (hm : Manned v p) {t : TaskId} (hready : t ∈ v.ready) (hle : work v p ≤ work w p) :
    Lowers w p (afterTurn t (.sleep, v)) := by
  have hrest : restWork { v with ready := v.ready.erase t } p = restWork v p := rfl
  obtain ⟨p', hp', hlow⟩ := hm.stays (.sleep hready) (by rw [hrest]; omega)
  exact ⟨p', hp', Nat.lt_of_lt_of_le hlow hle⟩

end Manned

/-- What is left to do if an alarm changed, and its timers. -/
theorem work_beside {t : TaskId} (ht : t ≠ ⟨0⟩) (hb : t.number < w.taskCount) (task : Task)
    (timers : List Timer) (hothers : ∀ due t', t' ≠ t → ⟨due, t'⟩ ∈ w.timers → ⟨due, t'⟩ ∈ timers)
    {c : Nat} (hone : 2 * timers.length +
      alarmWork { w with tasks := put w.tasks t task, timers } t + c ≤
        2 * w.timers.length + alarmWork w t) (p : Player) :
    work { w with tasks := put w.tasks t task, timers } p + c ≤ work w p := by
  generalize htasks : put w.tasks t task = tasks at *
  have halarms : alarmsWork { w with tasks, timers } w.taskCount + alarmWork w t ≤
      alarmsWork w w.taskCount + alarmWork { w with tasks, timers } t :=
    alarmsWork_but hb fun i _ hi => by
      have hne : (⟨i⟩ : TaskId) ≠ t := by rintro rfl; exact hi rfl
      exact alarmWork_le (htasks ▸ put_other _ _ hne) rfl fun due hm => hothers due _ hne hm
  have hrest : restWork { w with tasks, timers } p ≤ restWork w p := by
    unfold restWork
    cases p.rest with
    | delayed due =>
      have hset := timerWork_le (w := w) (v := { w with tasks, timers }) (hothers due ⟨0⟩ ht.symm)
      by_cases hlater : w.now < due
      · simp only [if_pos hlater]; exact hset
      · simp only [if_neg hlater]; exact Nat.le_refl _
    | holding | awake | idle | gone => exact Nat.le_refl _
  have hdelay : delayWork { w with tasks, timers } p = delayWork w p := rfl
  simp only [work, sharedWork, hdelay]
  omega

namespace Manned

/-- An alarm that ends lets the player look once more. -/
theorem ends (hm : Manned w p) {t : TaskId} (ht : t ≠ ⟨0⟩) (hready : t ∈ w.ready)
    (hb : t.number < w.taskCount) (hwork : 7 ≤ alarmWork w t) (id : EntryId) :
    Lowers w p (afterTurn t (.sleep, ((w.disarm t).setTask t .done).markFinished id true)) := by
  have hdisarm : Manned (w.disarm t) p :=
    { hm with later := fun timer htimer => hm.later timer (List.mem_filter.1 htimer).1 }
  have hdone := (hdisarm.setTask ht hb .done (by simp)).markFinished id
  refine hdone.sleeps (ready_subset_ring _ _ hready) ?_
  have hfilter : (w.disarm t).timers.length ≤ w.timers.length := List.length_filter_le ..
  have hbefore := work_beside ht hb .done (w.disarm t).timers (c := 7)
    (fun due t' hne hmem => List.mem_filter.2 ⟨hmem, by simpa using hne⟩)
    (by simp only [alarmWork, put_same] at hwork ⊢; omega) p
  have hafter := work_markFinished ((w.disarm t).setTask t .done) p id
  exact Nat.le_trans hafter hbefore

/-- An alarm is set for a time. -/
theorem arms (hm : Manned w p) {t : TaskId} (ht : t ≠ ⟨0⟩) (hready : t ∈ w.ready)
    (hb : t.number < w.taskCount) {due : Nat} (hdue : w.now < due)
    (hwork : 7 + timerWork w due t ≤ alarmWork w t) (id : EntryId) :
    Lowers w p (afterTurn t (.sleep, (w.arm due t).setTask t (.armed id due))) := by
  have hlength := length_timers_arm w due t
  have hthere := mem_timers_arm w due t
  have hkept := timers_subset_arm w due t
  have hlater := timers_arm_keeps (t := t) hm.later hdue
  rw [arm_eq]
  generalize (w.arm due t).timers = timers at *
  have harmed : Manned { w with timers } p := { hm with later := hlater }
  have hnone : alarmWork { w with tasks := put w.tasks t (.armed id due), timers } t = 7 := by
    simp [alarmWork, put_same, timerWork, hthere]
  refine (harmed.setTask ht hb (.armed id due) (by simp)).sleeps hready ?_
  exact work_beside ht hb (.armed id due) timers (c := 0) (fun due t' _ hmem => hkept hmem)
    (by omega) p

/-- **A task beside the player does some of the work.** -/
theorem poll_beside (hm : Manned w p) {x : Executor Unit} {t : TaskId} (ht : t ≠ ⟨0⟩)
    (hready : t ∈ w.ready) : Lowers w p (w.poll x t) := by
  have halarm : ∀ id due, t.number < w.taskCount → 7 ≤ alarmWork w t →
      (w.now < due → 7 + timerWork w due t ≤ alarmWork w t) →
      Lowers w p (afterTurn t (w.advanceAlarm t id due)) := fun id due hb hend harm => by
    unfold advanceAlarm
    split
    next => exact hm.ends ht hready hb hend id
    next hdue =>
      have hlater := Nat.lt_of_not_le hdue
      exact hm.arms ht hready hb hlater (harm hlater) id
  rw [World.poll, advance]
  cases htask : w.tasks t with
  | player p' => exact absurd (hm.alone t p' htask) ht
  | alarm id length =>
    have hwork : alarmWork w t = 9 := by simp [alarmWork, htask]
    refine halarm id _ (hm.beyond_lt (by simp [htask])) (by omega) fun _ => ?_
    have := timerWork_le_two w (alarmDue w.now length) t
    omega
  | armed id due =>
    have hwork : alarmWork w t = 7 + if w.now < due then timerWork w due t else 0 := by
      simp [alarmWork, htask]
    refine halarm id due (hm.beyond_lt (by simp [htask])) (by omega) fun hlater => ?_
    rw [hwork, if_pos hlater]
  | done => exact hm.sleeps hready (Nat.le_refl _)

/-! ### Runs of entries -/

theorem setQueue (hm : Manned w p) (q : Queue) : Manned (w.setQueue ⟨0⟩ q) p := { hm with }

theorem setLog (hm : Manned w p) (log : List (Nat × Event)) : Manned { w with log } p := { hm with }

theorem spawn (hm : Manned w p) {task : Task} (hn : ∀ p', task ≠ .player p') :
    Manned (w.spawn task) p := by
  have hne := hm.beyond_ne (t := ⟨w.taskCount⟩) (Nat.le_refl _)
  rw [spawn_eq]
  exact {
    task := (put_other _ _ hne.symm).trans hm.task
    alone := fun t p' hp => by
      by_cases hsame : t = ⟨w.taskCount⟩
      · subst hsame
        exact absurd ((put_same ..).symm.trans hp) (hn p')
      · exact hm.alone t p' ((put_other _ _ hsame).symm.trans hp)
    beyond := fun t (ht : w.taskCount + 1 ≤ t.number) => by
      have hsame : t ≠ ⟨w.taskCount⟩ := by rintro rfl; exact absurd ht (Nat.lt_irrefl _)
      exact (put_other _ _ hsame).trans (hm.beyond t (Nat.le_of_succ_le ht))
    handle := hm.handle
    leaves := hm.leaves
    sole := hm.sole
    later := hm.later
    delayed := hm.delayed }

/-- An entry is run: it may start an alarm. -/
theorem dispatch (hm : Manned w p) {s : Settings} (e : Entry) :
    Manned ((executor s).dispatch e w).world p ∧
      sharedWork ((executor s).dispatch e w).world ≤ sharedWork w + 10 := by
  obtain ⟨log, hw | ⟨id, d, hw⟩⟩ := Executor.bundled_arms (x := executor s) mem_commands e w
  · rw [hw, sharedWork_log]
    exact ⟨hm.setLog log, Nat.le_add_right _ _⟩
  · rw [hw, ← sharedWork_log w log]
    have hm := hm.setLog log
    generalize { w with log } = v at hm ⊢
    have hset : ∀ waits, Manned (v.setWaiting id waits) p := fun _ => { hm with }
    unfold Wait.arm
    split
    · refine ⟨(hset true).spawn (by simp), ?_⟩
      have hspawn := sharedWork_spawn (v.setWaiting id true) id d
      rwa [sharedWork_setWaiting] at hspawn
    · refine ⟨hm.markFinished id, ?_⟩
      have hring := sharedWork_ring (v.setWaiting id false) (.entry id)
      rw [sharedWork_setWaiting] at hring
      exact Nat.le_trans hring (Nat.add_le_add_left (by decide) _)

/-- A claim is taken back. -/
theorem finish (hm : Manned w p) {s : Settings} (c : Claim) (result : Except CommandError Unit) :
    Manned (w.finish (executor s).reporter ⟨0⟩ c result).2 p ∧
      sharedWork (w.finish (executor s).reporter ⟨0⟩ c result).2 ≤ sharedWork w + 6 := by
  let q := ((w.queues ⟨0⟩).finish w.waiting c result).2
  have hq : sharedWork (w.setQueue ⟨0⟩ q) = sharedWork w :=
    sharedWork_setQueue_same Queue.finish_pending
  have hset := hm.setQueue q
  have hrung : ∀ v, v = w.setQueue ⟨0⟩ q ∨ v = (w.setQueue ⟨0⟩ q).ring (.queue ⟨0⟩) →
      Manned v p ∧ sharedWork v ≤ sharedWork w + 6 := by
    rintro v (rfl | rfl)
    · exact ⟨hset, by omega⟩
    · have hring := sharedWork_ring (w.setQueue ⟨0⟩ q) (.queue ⟨0⟩)
      exact ⟨hset.ring _, by omega⟩
  have htell : ∀ v m, Manned v p ∧ sharedWork v ≤ sharedWork w + 6 →
      Manned (v.tell (executor s).reporter m) p ∧
        sharedWork (v.tell (executor s).reporter m) ≤ sharedWork w + 6 := by
    rintro v m ⟨hv, hwork⟩
    rw [tell_eq, sharedWork_log]
    exact ⟨hv.setLog _, hwork⟩
  have hend : ∀ current : Prop, [Decidable current] → _ := fun current _ =>
    hrung (if current then (w.setQueue ⟨0⟩ q).ring (.queue ⟨0⟩) else w.setQueue ⟨0⟩ q)
      (by split; exacts [.inr rfl, .inl rfl])
  unfold World.finish
  cases result with
  | ok u => exact hend _
  | error err => exact htell _ _ (hend _)

/-- What the run of an entry costs is paid by the entry, which is no longer to run. -/
theorem runs (hm : Manned w p) {c : Claim} (hn : w.takeNext ⟨0⟩ = (.ready c, v)) (s : Settings) :
    ∃ r u, (executor s).step ⟨0⟩ w = (.ran r, u) ∧ Manned u p ∧
      sharedWork u + 6 ≤ sharedWork w := by
  rcases htake : (w.queues ⟨0⟩).takeNext w.waiting with ⟨next, q⟩
  obtain ⟨rfl, rfl⟩ := Prod.mk.inj ((World.takeNext_eq htake).symm.trans hn)
  obtain ⟨e, rest, hpending, rfl, hq⟩ := Queue.takeNext_eq_ready htake
  obtain ⟨hrun, hran⟩ := (hm.setQueue q).dispatch (s := s) e
  have hset := sharedWork_setQueue w q
  have hlength : (w.queues ⟨0⟩).pending.length = q.pending.length + 1 := by
    rw [hpending, hq, List.length_cons]
  rw [Executor.step_ready hn]
  generalize (executor s).dispatch e (w.setQueue ⟨0⟩ q) = reply at hrun hran ⊢
  obtain ⟨hu, hfinished⟩ :=
    hrun.finish (s := s) ⟨reply.entry, (w.queues ⟨0⟩).generation⟩ reply.result
  refine ⟨_, _, rfl, hu, ?_⟩
  exact Nat.le_trans (Nat.add_le_add_right hfinished 6) (by omega)

/-- **A player that is awake does some of the work in its turn.** -/
theorem play (hm : Manned w p) (hr : p.rest = .awake) (s : Settings) :
    Lowers w p (World.play (executor s) w ⟨0⟩ p) := by
  have hthree : restWork w p = 3 := by simp only [restWork, hr]
  have hrests : ∀ v r, r = .idle ∨ r = .gone → Manned v p →
      sharedWork v + delayWork v p = sharedWork w + delayWork w p →
      Lowers w p (v.rest ⟨0⟩ p r) := by
    intro v r hkind hv hwork
    have hnone : restWork v { p with rest := r } = 0 := by rcases hkind with rfl | rfl <;> rfl
    have hdelay : delayWork v { p with rest := r } = delayWork v p := rfl
    refine hv.becomes hv.handle hv.leaves (fun due hdue => ?_) ?_
    · rcases hkind with rfl | rfl <;> cases hdue
    · simp only [work, hnone, hdelay]
      omega
  have hidle : ∀ v, Manned v p → sharedWork v + delayWork v p = sharedWork w + delayWork w p →
      Lowers w p (v.rest ⟨0⟩ p .idle) := fun v => hrests v _ (.inl rfl)
  have hdepart : ∀ v, Manned v p → sharedWork v + delayWork v p = sharedWork w + delayWork w p →
      Lowers w p (v.depart ⟨0⟩ p) := fun v hv hwork => (hrests v _ (.inr rfl) hv hwork).log _
  simp only [World.play]
  cases hask : w.chance p with
  | leave => exact hdepart w hm rfl
  | delay due =>
    obtain ⟨hnext, hlater⟩ := chance_delay_due hask
    refine hm.goesOver (.refl w) (fun due' hdue => by rw [hnext, Rest.delayed.inj hdue]) ?_
    have htimer := timerWork_le_two w due ⟨0⟩
    simp only [restWork, if_pos hlater, hr]
    omega
  | ask instant =>
    simp only [hm.handle]
    by_cases hd : (w.queues ⟨0⟩).dispatching = true
    · have hn := World.takeNext_eq (w := w) (Queue.takeNext_busy hd)
      rw [setQueue_self] at hn
      simp only [Executor.step, hn, Next.idleTick]
      exact hidle w hm rfl
    have hfree : (w.queues ⟨0⟩).dispatching = false := by simpa using hd
    cases hh : (w.queues ⟨0⟩).holder? w.waiting with
    | some id =>
      have hn := World.takeNext_eq (Queue.takeNext_awaiting hfree hh)
      rw [setQueue_self] at hn
      rw [Executor.step_awaiting hn]
      refine hm.goesOver (.refl w) (by simp) ?_
      obtain ⟨_, _, _, hwaits⟩ := Queue.holder?_eq_some.1 hh
      have hrings := rings_le (hm.sole (.entry id))
      simp only [restWork, hwaits, hr, if_true]
      omega
    | none =>
      cases hpending : (w.queues ⟨0⟩).pending with
      | nil =>
        rw [Executor.step_empty (World.takeNext_eq (Queue.takeNext_empty hfree hh hpending))]
        have hwork := sharedWork_setQueue_same (q := { w.queues ⟨0⟩ with inFlight := none }) rfl
        simp only
        split
        · exact hdepart _ (hm.setQueue _) (congrArg (· + delayWork w p) hwork)
        · exact hidle _ (hm.setQueue _) (congrArg (· + delayWork w p) hwork)
      | cons e rest =>
        obtain ⟨r, u, hstep, hu, hwork⟩ :=
          hm.runs (World.takeNext_eq (Queue.takeNext_ready hfree hh hpending)) s
        rw [hstep]
        refine hu.becomes hm.handle hm.leaves (fun due hdue => ?_) ?_
        · simp [Player.afterRun, hr] at hdue
        · have hdelay := delayWork_le_five u (p.afterRun u.now instant)
          simp only [work, restWork_afterRun hr]
          omega

/-- **A pulse does some of the work.** -/
theorem pulse (hm : Manned w p) (hw : w.ready ≠ []) (s : Settings) :
    Lowers w p (World.pulse (executor s) w) := by
  obtain ⟨t, others, hready⟩ := List.exists_cons_of_ne_nil hw
  have hfirst : t ∈ w.ready := by simp [hready]
  rw [pulse_eq_poll _ hready]
  by_cases ht : t = ⟨0⟩
  · subst ht
    rw [World.poll, advance, hm.task]
    simp only [advancePlayer]
    cases hr : p.rest with
    | awake => exact hm.play hr s
    | delayed due => exact hm.watchDelay hfirst hr
    | holding id => exact hm.watchEntry hfirst hr
    | idle => exact hm.watchQueue hfirst hr
    | gone => exact hm.sleeps hfirst (Nat.le_refl _)
  · exact hm.poll_beside ht hfirst

/-! ### The clock -/

theorem setClock (hm : Manned w p) (time : Nat) : Manned (w.strike time) p := by
  have hlater : ∀ timer ∈ (w.strike time).timers, time < timer.due := fun timer htimer =>
    ((mem_timers_strike w time timer).1 htimer).2
  rw [strike_eq] at hlater ⊢
  exact { hm with later := hlater }

/-- A player whose time has come has the work of a look, but waits for no time any more. -/
theorem playerWork_strike (hm : Manned w p) {time : Nat} (hnow : w.now ≤ time) :
    restWork (w.strike time) p + delayWork (w.strike time) p ≤ restWork w p + delayWork w p := by
  have hclock : (w.strike time).now = time := by rw [strike_eq]
  cases hr : p.rest with
  | delayed due =>
    simp only [restWork, delayWork, hr, hm.delayed due hr, hclock, Option.any_some,
      decide_eq_true_eq]
    by_cases hlater : time < due
    · simp only [if_pos hlater, if_pos (Nat.lt_of_le_of_lt hnow hlater), timerWork_strike w hlater]
      exact Nat.le_refl _
    · simp only [if_neg hlater]
      split <;> omega
  | holding | awake | idle | gone =>
    refine Nat.add_le_add (Nat.le_of_eq ?_) (delayWork_le (hnow.trans_eq hclock.symm) p)
    rw [strike_eq]
    simp only [restWork, hr]

/-- **A move of the clock to the next timer does some of the work.** -/
theorem strike (hm : Manned w p) {due : Nat} (hdue : w.firstDue = some due) :
    Lowers w p (w.strike due) := by
  obtain ⟨timer, htimer, rfl⟩ : ∃ timer ∈ w.timers, timer.due = due := by
    simpa using List.min?_mem hdue
  have hnow := Nat.le_of_lt (hm.later timer htimer)
  have hshared := sharedWork_strike w htimer hnow
  have hplayer := hm.playerWork_strike hnow
  exact ⟨p, hm.setClock timer.due, by simp only [work]; omega⟩

end Manned

/-! ## Rest -/

/-- **Pulses suffice** to get all tasks to sleep. -/
theorem Manned.settle (hm : Manned w p) (s : Settings) {limit : Nat} (hlimit : work w p ≤ limit) :
    ∃ p', Manned (World.settle (executor s) limit w) p' ∧
      work (World.settle (executor s) limit w) p' ≤ work w p ∧
      (World.settle (executor s) limit w).ready = [] := by
  induction limit generalizing w p with
  | zero =>
    refine ⟨p, hm, Nat.le_refl _, List.length_eq_zero_iff.1 ?_⟩
    change w.ready.length = 0
    simp only [work, sharedWork] at hlimit
    omega
  | succ limit ih =>
    by_cases hready : w.ready = []
    · rw [settle_quiet hready]
      exact ⟨p, hm, Nat.le_refl _, hready⟩
    · obtain ⟨p', hm', hlow⟩ := hm.pulse hready s
      obtain ⟨p'', hrest⟩ := ih hm' (by omega)
      rw [settle_busy hready]
      exact ⟨p'', hrest.1, Nat.le_trans hrest.2.1 (Nat.le_of_lt hlow), hrest.2.2⟩

/-- **Pulses and moves of the clock suffice** to come to rest. -/
theorem Manned.playOut (hm : Manned w p) (s : Settings) {limit timers : Nat}
    (hlimit : work w p ≤ limit) (htimers : work w p < timers) :
    (World.playOut (executor s) limit timers w).ready = [] ∧
      (World.playOut (executor s) limit timers w).timers = [] := by
  induction timers generalizing w p with
  | zero => cases htimers
  | succ timers ih =>
    obtain ⟨p', hm', hless, hready⟩ := hm.settle s hlimit
    simp only [World.playOut]
    split
    next due hdue =>
      obtain ⟨p'', hm'', hlow⟩ := hm'.strike hdue
      exact ih hm'' (by omega) (by omega)
    next hnone =>
      exact ⟨hready, by simpa [firstDue] using hnone⟩

/-- A player that starts where nothing else goes on has the entries to run, and may find a
    ring at once. -/
theorem Manned.start (hushed : w.Hushed) (tasks : ∀ t, w.tasks t = .done) (count : w.taskCount = 0)
    (ready : w.ready = []) (timers : w.timers = []) (speed : Span) :
    let p : Player := ⟨⟨0⟩, speed, true, none, 0, .awake⟩
    Manned (w.startPlayer ⟨0⟩ speed true) p ∧
      work (w.startPlayer ⟨0⟩ speed true) p ≤ 22 * (w.queues ⟨0⟩).pending.length + 9 := by
  intro p
  have hstart : w.startPlayer ⟨0⟩ speed true =
      { w with tasks := put w.tasks ⟨0⟩ (.player p), ready := [⟨0⟩], taskCount := 1 } := by
    simp [startPlayer, World.spawn, wake, World.setTask, ready, count, p]
  rw [hstart]
  constructor
  · exact {
      task := put_same w.tasks ⟨0⟩ _
      alone := fun t p' ht => by
        by_contra hne
        cases (tasks t).symm.trans ((put_other _ _ hne).symm.trans ht)
      beyond := fun t (ht : 1 ≤ t.number) =>
        (put_other _ _ (by rintro rfl; exact absurd ht (by decide))).trans (tasks t)
      handle := rfl
      leaves := rfl
      sole := fun b => hushed.sole b _
      later := fun timer htimer => by simp [timers] at htimer
      delayed := fun due hdue => by cases hdue }
  · have hrings : rings (w.bells (.queue ⟨0⟩)) ≤ 1 := by
      simpa [rings, (hushed _).2] using Bool.toNat_le _
    simp only [work, sharedWork, alarmsWork, alarmWork, put_same, restWork, delayWork, timers, p]
    simp
    omega

end

section
variable {s : Settings} {queue : QueueId} {lines : List ConsoleLine} {v w : World Unit}

/-- A player starts where nothing else goes on. -/
theorem Admits.manned (ha : Admits ⟨0⟩ (opened s queue) v) :
    let p : Player := ⟨⟨0⟩, s.speed, true, none, 0, .awake⟩
    Manned (v.startPlayer ⟨0⟩ s.speed true) p ∧
      work (v.startPlayer ⟨0⟩ s.speed true) p ≤ 22 * (v.queues ⟨0⟩).pending.length + 9 :=
  Manned.start ha.calm.hushed (fun t => by rw [ha.calm.tasks]; rfl) ha.calm.taskCount ha.calm.ready
    ha.calm.timers s.speed

/-- **A run at the console comes to rest**: in the end no task is ready and no timer is left. -/
theorem play_rests (hplay : play s queue lines = .ok w) : w.ready = [] ∧ w.timers = [] := by
  obtain ⟨v, hlined, ha, rfl⟩ := of_play hplay
  obtain ⟨hm, hwork⟩ := ha.manned
  have hlength := hlined.length_eq
  exact hm.playOut s (by rw [stepBound]; omega) (by rw [stepBound]; omega)

end

end Console

end Cuelist
