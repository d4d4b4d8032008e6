/-
  The work that is left in a run at the console.

  The `work` is an amount that every pulse and every move of the clock lowers.  Whatever
  may make somebody else go on has to be worth its consequences: a timer the waking of its
  task, a ring the look that it causes, an alarm the ring that it gives, and an entry all
  that comes of its run.
-/
import Cuelist.Proofs.Console
import Cuelist.Proofs.Player.Timers

namespace Cuelist

open World

namespace World

variable {σ : Type}

/-- If nobody listens, then nobody else does. -/
theorem Hushed.sole {w : World σ} (hw : w.Hushed) (b : Bell) (t : TaskId) :
    (w.bells b).Sole t := by
  obtain ⟨hwaiting, hwoken⟩ := hw b
  rcases hl : w.bells b with ⟨kept, waiting, woken⟩
  simp only [hl] at hwaiting hwoken
  rw [hwaiting, hwoken]
  exact .away kept

/-! ## Ready tasks -/

theorem length_ready_wake (w : World σ) (t : TaskId) :
    (w.wake t).ready.length ≤ w.ready.length + 1 := by
  unfold World.wake
  split <;> simp

theorem length_ready_ring (w : World σ) (b : Bell) :
    (w.ring b).ready.length ≤ w.ready.length + 1 := by
  cases hw : (w.bells b).waiting with
  | nil => rw [ring_of_none hw]; exact Nat.le_succ _
  | cons t rest => rw [ring_of_waiting hw]; exact length_ready_wake _ t

theorem length_ready_leave (w : World σ) (b : Bell) (t : TaskId) :
    (w.leave b t).ready.length ≤ w.ready.length + 1 := by
  by_cases hm : t ∈ (w.bells b).woken
  · rw [leave_of_woken hm]; exact length_ready_ring _ b
  · simp [World.leave, hm]

/-- A timer that goes off makes one task ready at most. -/
theorem length_ready_strike (w : World σ) (time : Nat) :
    (w.strike time).ready.length ≤
      w.ready.length + (w.timers.filter fun timer => timer.due ≤ time).length := by
  have hfold : ∀ (due : List Timer) (v : World σ),
      (due.foldl (fun v timer => v.wake timer.task) v).ready.length ≤
        v.ready.length + due.length := by
    intro due
    induction due with
    | nil => exact fun v => Nat.le_refl _
    | cons timer due ih =>
      intro v
      have hwake := length_ready_wake v timer.task
      refine Nat.le_trans (ih (v.wake timer.task)) ?_
      rw [List.length_cons]
      omega
  exact hfold ..

/-- When a timer goes off, the timer is worth more than what it wakes. -/
theorem length_strike (w : World σ) {timer : Timer} (h : timer ∈ w.timers) :
    (w.strike timer.due).ready.length + 2 * (w.strike timer.due).timers.length <
      w.ready.length + 2 * w.timers.length := by
  have htimers := timers_strike w timer.due
  have hready := length_ready_strike w timer.due
  have hgone : 0 < (w.timers.filter fun other => other.due ≤ timer.due).length :=
    List.length_pos_of_mem (List.mem_filter.2 ⟨h, by simp⟩)
  have hall := List.length_eq_length_filter_add (l := w.timers) fun other => other.due ≤ timer.due
  simp only [← Nat.not_lt, decide_not, Bool.not_not] at hall hready hgone
  rw [htimers]
  omega

end World

namespace Console

/-! ## Amounts of work -/

/-- How many rings are there for the player at a bell. -/
def rings (l : Listeners) : Nat := l.woken.count ⟨0⟩ + l.kept.toNat

/-- The work of setting a timer that is not there. -/
def timerWork (w : World Unit) (due : Nat) (t : TaskId) : Nat :=
  if ⟨due, t⟩ ∈ w.timers then 0 else 2

/-- The work that an alarm has left. -/
def alarmWork (w : World Unit) (t : TaskId) : Nat :=
  match w.tasks t with
  | .player _ | .done => 0
  | .alarm _ _ => 9
  | .armed _ due => 7 + if w.now < due then timerWork w due t else 0

/-- The work that the first alarms have left. -/
def alarmsWork (w : World Unit) : (tasks : Nat) → Nat
  | 0 => 0
  | tasks + 1 => alarmsWork w tasks + alarmWork w ⟨tasks⟩

/-- The work of waiting until the next normal entry may be run. -/
def delayWork (w : World Unit) (p : Player) : Nat :=
  if p.nextNormal.any (w.now < ·) then 5 else 0

/-- The work until the player asks for an entry or sleeps. -/
def restWork (w : World Unit) (p : Player) : Nat :=
  match p.rest with
  | .awake => 3
  | .delayed due => if w.now < due then timerWork w due ⟨0⟩ else 5
  | .holding id => (if w.waiting id then 0 else 5) + rings (w.bells (.entry id))
  | .idle | .gone => 0

/-- The work that is left apart from the state of the player. -/
def sharedWork (w : World Unit) : Nat :=
  22 * (w.queues ⟨0⟩).pending.length + 5 * rings (w.bells (.queue ⟨0⟩)) + w.ready.length +
    2 * w.timers.length + alarmsWork w w.taskCount

/-- The work that is left. -/
def work (w : World Unit) (p : Player) : Nat := sharedWork w + restWork w p + delayWork w p

/-! ### Rings -/

section
variable {l : Listeners}

theorem rings_struck (l : Listeners) : rings l.struck ≤ rings l + 1 := by
  unfold Listeners.struck
  split
  · simp only [rings, List.count_append, List.count_singleton]
    split <;> omega
  · cases l.kept <;> simp [rings]

theorem rings_look_true (h : (l.look ⟨0⟩).1 = true) : rings (l.look ⟨0⟩).2 + 1 = rings l := by
  unfold Listeners.look at h ⊢
  split
  next hm =>
    have hpos := List.count_pos_iff.2 hm
    simp only [rings, List.count_erase_self]
    omega
  next hm =>
    rw [if_neg hm] at h
    split
    next hw => rw [if_pos hw] at h; cases h
    next hw =>
      rw [if_neg hw] at h
      split
      next hk => simp [rings, hk]
      next hk => rw [if_neg hk] at h; cases h

theorem rings_look_false (h : (l.look ⟨0⟩).1 = false) : rings (l.look ⟨0⟩).2 = rings l := by
  unfold Listeners.look at h ⊢
  split
  next hm => rw [if_pos hm] at h; cases h
  next hm =>
    rw [if_neg hm] at h
    split
    next hw => rfl
    next hw =>
      rw [if_neg hw] at h
      split
      next hk => rw [if_pos hk] at h; cases h
      next hk => rfl

theorem rings_without (l : Listeners) : rings (l.without ⟨0⟩) ≤ rings l := by
  unfold Listeners.without
  split
  next hm =>
    have hpos := List.count_pos_iff.2 hm
    refine Nat.le_trans (rings_struck _) ?_
    simp only [rings, List.count_erase_self]
    omega
  next => exact Nat.le_refl _

/-- A player that is alone at a bell finds two rings at most. -/
theorem rings_le (h : l.Sole ⟨0⟩) : rings l ≤ 2 := by
  cases h with
  | away kept | woken kept => cases kept <;> decide
  | waiting => decide

end

/-! ### Alarms -/

section
variable {w v : World Unit} {t : TaskId}

theorem alarmsWork_le {n : Nat} (h : ∀ i < n, alarmWork v ⟨i⟩ ≤ alarmWork w ⟨i⟩) :
    alarmsWork v n ≤ alarmsWork w n := by
  induction n with
  | zero => exact Nat.le_refl _
  | succ n ih =>
    have hlast := h n (Nat.lt_succ_self n)
    have hfirst := ih fun i hi => h i (Nat.lt_succ_of_lt hi)
    simp only [alarmsWork]
    omega

/-- All alarms but one have no more work left. -/
theorem alarmsWork_but {n : Nat} (ht : t.number < n)
    (h : ∀ i < n, i ≠ t.number → alarmWork v ⟨i⟩ ≤ alarmWork w ⟨i⟩) :
    alarmsWork v n + alarmWork w t ≤ alarmsWork w n + alarmWork v t := by
  induction n with
  | zero => cases ht
  | succ n ih =>
    simp only [alarmsWork]
    by_cases hlast : n = t.number
    · subst hlast
      have hfirst := alarmsWork_le (v := v) (w := w) (n := t.number) fun i hi =>
        h i (Nat.lt_succ_of_lt hi) (by omega)
      change _ + alarmWork v t + alarmWork w t ≤ _ + alarmWork w t + alarmWork v t
      omega
    · have hfirst := ih (by omega) fun i hi => h i (Nat.lt_succ_of_lt hi)
      have hother := h n (Nat.lt_succ_self n) hlast
      omega

theorem timerWork_le_two (w : World Unit) (due : Nat) (t : TaskId) : timerWork w due t ≤ 2 := by
  unfold timerWork
  split <;> omega

theorem length_timers_arm (w : World Unit) (due : Nat) (t : TaskId) :
    2 * (w.arm due t).timers.length = 2 * w.timers.length + timerWork w due t := by
  unfold World.arm timerWork
  split
  · rfl
  · simp only [List.length_append, List.length_singleton]
    omega

theorem delayWork_le_five (w : World Unit) (p : Player) : delayWork w p ≤ 5 := by
  unfold delayWork
  split <;> omega

theorem timerWork_le {due : Nat} (h : ⟨due, t⟩ ∈ w.timers → ⟨due, t⟩ ∈ v.timers) :
    timerWork v due t ≤ timerWork w due t := by
  unfold timerWork
  by_cases hm : ⟨due, t⟩ ∈ w.timers
  · rw [if_pos hm, if_pos (h hm)]
  · rw [if_neg hm]; split <;> omega

/-- An alarm whose timers stay has no more work left. -/
theorem alarmWork_le (htask : v.tasks t = w.tasks t) (hnow : v.now = w.now)
    (htimers : ∀ due, ⟨due, t⟩ ∈ w.timers → ⟨due, t⟩ ∈ v.timers) :
    alarmWork v t ≤ alarmWork w t := by
  unfold alarmWork
  rw [htask, hnow]
  split
  · exact Nat.le_refl _
  · exact Nat.le_refl _
  · exact Nat.le_refl _
  next due _ =>
    have hset := timerWork_le (htimers due)
    split <;> omega

end

/-- Alarms have the same work left if neither they nor the clock nor the timers changed. -/
theorem alarmsWork_congr {w v : World Unit} (htasks : v.tasks = w.tasks) (hnow : v.now = w.now)
    (htimers : v.timers = w.timers) (n : Nat) : alarmsWork v n = alarmsWork w n := by
  have hle : ∀ {w v : World Unit}, v.tasks = w.tasks → v.now = w.now → v.timers = w.timers →
      alarmsWork v n ≤ alarmsWork w n := fun htasks hnow htimers =>
    alarmsWork_le fun i _ => alarmWork_le (congrFun htasks _) hnow fun _ hm => htimers ▸ hm
  exact Nat.le_antisymm (hle htasks hnow htimers) (hle htasks.symm hnow.symm htimers.symm)

/-! ### Bells and queues -/

/-- Only the queue, its bell and the ready tasks count if the other tasks, the clock and the
    timers stay as they are. -/
theorem sharedWork_congr {w v : World Unit} (htasks : v.tasks = w.tasks)
    (hcount : v.taskCount = w.taskCount) (hnow : v.now = w.now) (htimers : v.timers = w.timers) :
    sharedWork v + 22 * (w.queues ⟨0⟩).pending.length + 5 * rings (w.bells (.queue ⟨0⟩)) +
        w.ready.length =
      sharedWork w + 22 * (v.queues ⟨0⟩).pending.length + 5 * rings (v.bells (.queue ⟨0⟩)) +
        v.ready.length := by
  simp only [sharedWork, hcount, htimers, alarmsWork_congr htasks hnow htimers]
  omega

/-- The log does not count, nor do the entries that wait. -/
theorem sharedWork_log (w : World Unit) (log : List (Nat × Event)) :
    sharedWork { w with log } = sharedWork w := by
  have hsame := sharedWork_congr (w := w) (v := { w with log }) rfl rfl rfl rfl
  simpa only [Nat.add_right_cancel_iff] using hsame

theorem sharedWork_setWaiting (w : World Unit) (id : EntryId) (waits : Bool) :
    sharedWork (w.setWaiting id waits) = sharedWork w := by
  have hsame := sharedWork_congr (w := w) (v := w.setWaiting id waits) rfl rfl rfl rfl
  simpa only [setWaiting, Nat.add_right_cancel_iff] using hsame

theorem sharedWork_setQueue (w : World Unit) (q : Queue) :
    sharedWork (w.setQueue ⟨0⟩ q) + 22 * (w.queues ⟨0⟩).pending.length =
      sharedWork w + 22 * q.pending.length := by
  have hsame := sharedWork_congr (w := w) (v := w.setQueue ⟨0⟩ q) rfl rfl rfl rfl
  rw [queues_setQueue] at hsame
  simpa only [setQueue, Nat.add_right_cancel_iff] using hsame

theorem sharedWork_setQueue_same {w : World Unit} {q : Queue}
    (h : q.pending = (w.queues ⟨0⟩).pending) : sharedWork (w.setQueue ⟨0⟩ q) = sharedWork w := by
  have hset := sharedWork_setQueue w q
  rw [h] at hset
  exact Nat.add_right_cancel hset

theorem rings_ring (w : World Unit) (b b' : Bell) :
    rings ((w.ring b).bells b') ≤ rings (w.bells b') + 1 := by
  rw [bells_ring]
  by_cases hb : b' = b
  · rw [hb, put_same]; exact rings_struck _
  · rw [put_other _ _ hb]; exact Nat.le_succ _

theorem sharedWork_ring (w : World Unit) (b : Bell) :
    sharedWork (w.ring b) ≤ sharedWork w + 6 := by
  have hready := length_ready_ring w b
  have hrings := rings_ring w b (.queue ⟨0⟩)
  have hsame := sharedWork_congr (w := w) (v := w.ring b) (tasks_ring w b) (taskCount_ring w b)
    (by rw [ring_eq]) (by rw [ring_eq])
  rw [queues_ring] at hsame
  omega

theorem sharedWork_spawn (w : World Unit) (id : EntryId) (d : Span) :
    sharedWork (w.spawn (.alarm id d)) ≤ sharedWork w + 10 := by
  have hready : (w.spawn (.alarm id d)).ready.length ≤ w.ready.length + 1 :=
    length_ready_wake (w.setTask ⟨w.taskCount⟩ _) _
  rw [spawn_eq] at *
  generalize (w.spawn (.alarm id d)).ready = ready at *
  have hlast : alarmWork { w.setTask ⟨w.taskCount⟩ (.alarm id d) with
      ready, taskCount := w.taskCount + 1 } ⟨w.taskCount⟩ = 9 := by
    simp [alarmWork, setTask, put_same]
  have hfirst := alarmsWork_le (w := w) (n := w.taskCount)
    (v := { w.setTask ⟨w.taskCount⟩ (.alarm id d) with ready, taskCount := w.taskCount + 1 })
    fun i hi => alarmWork_le (put_other _ _ (by simp; omega)) rfl fun _ hm => hm
  simp only [sharedWork, alarmsWork, hlast]
  simp only [setTask] at *
  omega

/-! ### Signals -/

/-- A ring of an entry may let a player look once more that waits for the entry. -/
theorem work_ring_entry (w : World Unit) (p : Player) (id : EntryId) :
    work (w.ring (.entry id)) p ≤ work w p + 2 := by
  have hready := length_ready_ring w (.entry id)
  have hqueue : (w.ring (.entry id)).bells (.queue ⟨0⟩) = w.bells (.queue ⟨0⟩) := by
    rw [bells_ring]; exact put_other _ _ (by simp)
  have hshared := sharedWork_congr (w := w) (v := w.ring (.entry id)) (tasks_ring ..)
    (taskCount_ring ..) (by rw [ring_eq]) (by rw [ring_eq])
  rw [queues_ring, hqueue] at hshared
  have hrest : restWork (w.ring (.entry id)) p ≤ restWork w p + 1 := by
    have hentry := rings_ring w (.entry id)
    rw [ring_eq] at hentry ⊢
    unfold restWork
    cases p.rest with
    | holding id' => have := hentry (.entry id'); simp only at this ⊢; omega
    | delayed | awake | idle | gone => exact Nat.le_succ _
  have hdelay : delayWork (w.ring (.entry id)) p = delayWork w p := by rw [ring_eq]; rfl
  simp only [work, hdelay]
  omega

/-- A signal may let a player go on that waits for the entry. -/
theorem work_markFinished (w : World Unit) (p : Player) (id : EntryId) :
    work (w.markFinished id true) p ≤ work w p + 7 := by
  have hfive : ∀ b : Bool, (if b then 0 else 5) ≤ 5 := by decide
  have hrest : restWork (w.setWaiting id false) p ≤ restWork w p + 5 := by
    unfold restWork
    cases p.rest with
    | holding id' =>
      have := hfive ((w.setWaiting id false).waiting id')
      simp only [setWaiting] at this ⊢
      omega
    | delayed | awake | idle | gone => exact Nat.le_add_right _ 5
  have hdelay : delayWork (w.setWaiting id false) p = delayWork w p := rfl
  have hset : work (w.setWaiting id false) p ≤ work w p + 5 := by
    simp only [work, sharedWork_setWaiting, hdelay]
    omega
  rw [World.markFinished, if_pos rfl]
  exact Nat.le_trans (work_ring_entry _ p id) (Nat.add_le_add_right hset 2)

/-! ### The clock -/

theorem timerWork_strike (w : World Unit) {time due : Nat} (h : time < due) (t : TaskId) :
    timerWork (w.strike time) due t = timerWork w due t := by
  simp only [timerWork, mem_timers_strike, h, and_true]

/-- An alarm has less work left when its time has come. -/
theorem alarmsWork_strike (w : World Unit) {time : Nat} (hnow : w.now ≤ time) (n : Nat) :
    alarmsWork (w.strike time) n ≤ alarmsWork w n := by
  refine alarmsWork_le fun i _ => ?_
  have htasks : (w.strike time).tasks = w.tasks := by rw [strike_eq]
  have hclock : (w.strike time).now = time := by rw [strike_eq]
  simp only [alarmWork, htasks, hclock]
  cases w.tasks ⟨i⟩ with
  | player | alarm | done => exact Nat.le_refl _
  | armed _ due =>
    simp only
    split
    next hlater => rw [if_pos (Nat.lt_of_le_of_lt hnow hlater), timerWork_strike w hlater]
    next => omega

theorem sharedWork_strike (w : World Unit) {timer : Timer} (h : timer ∈ w.timers)
    (hnow : w.now ≤ timer.due) : sharedWork (w.strike timer.due) < sharedWork w := by
  have hcount := length_strike w h
  have halarms := alarmsWork_strike w hnow w.taskCount
  rw [strike_eq] at hcount halarms ⊢
  simp only [sharedWork] at hcount ⊢
  omega

end Console

end Cuelist
