/-
  Timers of players.

  A player that waits for a time has a timer, unless it is ready (`poll_delayed`).  A poll
  takes no timer away but the player's own, and then the player is ready (`timers_poll`); a
  move of the clock makes those ready whose timers go off (`ready_strike`).  So no timer of a
  player is lost: a change is `Timely` if each one is still set, or woke its player.
-/
import Cuelist.Proofs.Player.Crowd

namespace Cuelist

open World

variable {σ : Type} {x : Executor σ} {h : Handle} {t : TaskId}

namespace World

/-! ## Timers -/

theorem timers_strike (w : World σ) (time : Nat) :
    (w.strike time).timers = w.timers.filter fun timer => time < timer.due := by
  unfold World.strike
  refine List.foldlRecOn (motive := fun v : World σ =>
    v.timers = w.timers.filter fun timer => time < timer.due) _ _ rfl fun v hv timer _ => ?_
  rw [wake_eq, ← hv]

theorem mem_timers_strike (w : World σ) (time : Nat) (timer : Timer) :
    timer ∈ (w.strike time).timers ↔ timer ∈ w.timers ∧ time < timer.due := by
  simp [timers_strike]

/-- A timer that goes off wakes its task. -/
theorem ready_strike (w : World σ) (time : Nat) : w.ready ⊆ (w.strike time).ready ∧
    ∀ timer ∈ w.timers, timer.due ≤ time → timer.task ∈ (w.strike time).ready := by
  have hfold : ∀ (due : List Timer) (v : World σ),
      v.ready ⊆ (due.foldl (fun v timer => v.wake timer.task) v).ready ∧
        ∀ timer ∈ due, timer.task ∈ (due.foldl (fun v timer => v.wake timer.task) v).ready := by
    intro due
    induction due with
    | nil => exact fun v => ⟨List.Subset.refl _, fun _ hm => absurd hm List.not_mem_nil⟩
    | cons timer due ih =>
      intro v
      obtain ⟨hready, hwoken⟩ := ih (v.wake timer.task)
      refine ⟨List.Subset.trans (ready_subset_wake v timer.task) hready, fun other hm => ?_⟩
      rcases List.mem_cons.1 hm with rfl | hm
      · exact hready (mem_ready_wake v other.task)
      · exact hwoken other hm
  obtain ⟨hready, hwoken⟩ := hfold (w.timers.filter fun timer => timer.due ≤ time)
    { w with now := time, timers := w.timers.filter fun timer => time < timer.due }
  exact ⟨hready, fun timer hm hdue => hwoken timer (List.mem_filter.2 ⟨hm, by simpa using hdue⟩)⟩

theorem timers_subset_arm (w : World σ) (due : Nat) (t : TaskId) :
    w.timers ⊆ (w.arm due t).timers := by
  unfold World.arm
  split
  · exact List.Subset.refl _
  · exact List.subset_append_left ..

/-- A timer that is set is the only one that is new. -/
theorem timers_arm_keeps {w : World σ} {P : Timer → Prop} (hw : ∀ timer ∈ w.timers, P timer)
    {due : Nat} {t : TaskId} (hnew : P ⟨due, t⟩) : ∀ timer ∈ (w.arm due t).timers, P timer := by
  intro timer htimer
  unfold World.arm at htimer
  split at htimer
  · exact hw timer htimer
  · rcases List.mem_append.1 htimer with htimer | htimer
    · exact hw timer htimer
    · rw [List.mem_singleton.1 htimer]
      exact hnew

theorem mem_timers_arm (w : World σ) (due : Nat) (t : TaskId) :
    ⟨due, t⟩ ∈ (w.arm due t).timers := by
  unfold World.arm
  split
  next h => exact h
  next => simp

/-! ## Players that wait for a time -/

section
variable {w w' : World σ} {p p' : Player}

/-- A look leaves the player at rest as it is, or the player wakes up. -/
theorem poll_resting (ht : w.tasks t = .player p) (ha : p.rest ≠ .awake) :
    (w.poll x t).tasks = w.tasks ∨ ∃ v : World σ, w.poll x t = v.rest t p .awake := by
  rw [World.poll, advance, ht]
  simp only [advancePlayer]
  cases hr : p.rest with
  | awake => exact absurd hr ha
  | gone => exact .inl rfl
  | delayed due =>
    simp only [watchDelay]
    split
    · exact .inr ⟨_, rfl⟩
    · rcases hl : (w.arm due t).listen (.queue p.queue) t with ⟨rung, v⟩
      cases rung with
      | true => exact .inr ⟨_, rfl⟩
      | false => exact .inl ((tasks_listen hl).trans (by rw [arm_eq]))
  | holding id =>
    simp only [watchEntry]
    split
    · rcases hl : w.listen (.entry id) t with ⟨signalled, v⟩
      cases signalled with
      | true => exact .inl (tasks_listen hl)
      | false =>
        rcases hl' : v.listen (.queue p.queue) t with ⟨rung, v'⟩
        cases rung with
        | true => exact .inr ⟨_, rfl⟩
        | false => exact .inl ((tasks_listen hl').trans (tasks_listen hl))
    · exact .inr ⟨_, rfl⟩
  | idle =>
    simp only [watchQueue]
    rcases hl : w.listen (.queue p.queue) t with ⟨rung, v⟩
    cases rung with
    | true => exact .inr ⟨_, rfl⟩
    | false => exact .inl (show v.tasks = w.tasks from tasks_listen hl)

/-- A look for a time leaves the player ready or sets its timer. -/
theorem watchDelay_timed (hr : t ∈ w.ready) (due : Nat) :
    t ∈ (afterTurn t (w.watchDelay t p due)).ready ∨
      ⟨due, t⟩ ∈ (afterTurn t (w.watchDelay t p due)).timers := by
  unfold World.watchDelay
  split
  · exact .inl (ready_subset_leave (w.disarm t) _ t hr)
  · have hready : t ∈ (w.arm due t).ready := by rw [arm_eq]; exact hr
    have htimer := mem_timers_arm w due t
    rcases hl : (w.arm due t).listen (.queue p.queue) t with ⟨rung, v⟩
    cases rung with
    | true => exact .inl (show t ∈ v.ready by rw [ready_listen hl]; exact hready)
    | false =>
      obtain ⟨-, rfl⟩ := of_listen hl
      exact .inr htimer

/-- A player that waits for a time has its timer if it sleeps after a poll. -/
theorem poll_delayed (ht : w.tasks t = .player p) (hr : t ∈ w.ready) {due : Nat}
    (ht' : (w.poll x t).tasks t = .player p') (hd : p'.rest = .delayed due) :
    t ∈ (w.poll x t).ready ∨ ⟨due, t⟩ ∈ (w.poll x t).timers := by
  have hset : ∀ {v : World σ} {q : Player}, (v.setTask t (.player q)).tasks t = .player p' →
      q.rest = .delayed due := fun ht' => by
    rw [Task.player.inj ((put_same ..).symm.trans ht')]
    exact hd
  by_cases ha : p.rest = .awake
  · rw [poll_awake ht ha] at ht' ⊢
    simp only [play] at ht' ⊢
    cases hc : w.chance p with
    | leave =>
      simp only [hc] at ht'
      cases hset ht'
    | delay due' => exact .inl hr
    | ask instant =>
      rcases hs : x.step p.queue w with ⟨tick, v⟩
      simp only [hc, hs] at ht'
      cases tick with
      | ran r =>
        have hrest : p.rest = .delayed due := hset (q := p.afterRun v.now instant) ht'
        rw [ha] at hrest
        cases hrest
      | awaiting id => cases hset ht'
      | empty =>
        simp only at ht'
        split at ht'
        · cases hset ht'
        · cases hset ht'
      | busy => cases hset ht'
  · rcases poll_resting (x := x) ht ha with htasks | ⟨v, hv⟩
    · rw [htasks, ht] at ht'
      obtain rfl := Task.player.inj ht'
      rw [World.poll, advance, ht]
      simp only [advancePlayer, hd]
      exact watchDelay_timed hr due
    · rw [hv] at ht'
      cases hset ht'

/-! ## Timers that are kept -/

theorem timers_listen {b : Bell} {rung : Bool} (hl : w.listen b t = (rung, w')) :
    w'.timers = w.timers := by
  rw [(of_listen hl).2]

theorem timers_leave (w : World σ) (b : Bell) (t : TaskId) : (w.leave b t).timers = w.timers := by
  rw [leave_eq]

/-- A turn takes no timer away. -/
theorem timers_play (hx : ∀ e v, v.timers ⊆ (x.dispatch e v).world.timers) (w : World σ)
    (t : TaskId) (p : Player) : w.timers ⊆ (play x w t p).timers := by
  have hstep : w.timers ⊆ (x.step p.queue w).2.timers :=
    Executor.step_keeps (P := fun v => w.timers ⊆ v.timers) (List.Subset.refl _)
      (fun e v hv => List.Subset.trans hv (hx e v)) fun c result v hv => by rw [finish_eq]; exact hv
  simp only [play]
  cases w.chance p with
  | leave => exact List.Subset.refl _
  | delay due => exact List.Subset.refl _
  | ask instant =>
    rcases hs : x.step p.queue w with ⟨tick, v⟩
    rw [hs] at hstep
    cases tick with
    | ran | awaiting | busy => exact hstep
    | empty =>
      simp only
      split
      · exact hstep
      · exact hstep

/-- **A poll takes no timer away but the player's own**, and then the player is ready. -/
theorem timers_poll (hx : ∀ e v, v.timers ⊆ (x.dispatch e v).world.timers)
    (ht : w.tasks t = .player p) (hr : t ∈ w.ready) {timer : Timer} (hm : timer ∈ w.timers) :
    timer ∈ (w.poll x t).timers ∨ timer.task = t ∧ t ∈ (w.poll x t).ready := by
  have hdisarm : ∀ {v : World σ}, timer ∈ v.timers → timer ∈ (v.disarm t).timers ∨ timer.task = t :=
    fun hv => (em (timer.task = t)).symm.imp_left fun hne => List.mem_filter.2 ⟨hv, by simpa⟩
  by_cases ha : p.rest = .awake
  · rw [poll_awake ht ha]
    exact .inl (timers_play hx w t p hm)
  rw [World.poll, advance, ht]
  simp only [advancePlayer]
  cases hrest : p.rest with
  | awake => exact absurd hrest ha
  | gone => exact .inl hm
  | delayed due =>
    simp only [watchDelay]
    split
    · refine (hdisarm hm).imp (fun hkept => ?_) fun hown =>
        ⟨hown, ready_subset_leave (w.disarm t) _ t hr⟩
      exact (timers_leave (w.disarm t) (.queue p.queue) t).symm ▸ hkept
    · rcases hl : (w.arm due t).listen (.queue p.queue) t with ⟨rung, v⟩
      have hm' : timer ∈ v.timers := by
        rw [timers_listen hl]
        exact timers_subset_arm w due t hm
      have hr' : t ∈ v.ready := by
        rw [ready_listen hl, arm_eq]
        exact hr
      cases rung with
      | true => exact (hdisarm hm').imp_right fun hown => ⟨hown, hr'⟩
      | false => exact .inl hm'
  | holding id =>
    simp only [watchEntry]
    split
    · rcases hl : w.listen (.entry id) t with ⟨signalled, v⟩
      rw [← timers_listen hl] at hm
      cases signalled with
      | true => exact .inl hm
      | false =>
        rcases hl' : v.listen (.queue p.queue) t with ⟨rung, v'⟩
        rw [← timers_listen hl'] at hm
        cases rung with
        | true => exact .inl ((timers_leave v' (.entry id) t).symm ▸ hm)
        | false => exact .inl hm
    · exact .inl ((timers_leave w (.queue p.queue) t).symm ▸ hm)
  | idle =>
    simp only [watchQueue]
    rcases hl : w.listen (.queue p.queue) t with ⟨rung, v⟩
    rw [← timers_listen hl] at hm
    cases rung with
    | true => exact .inl hm
    | false => exact .inl hm

/-- The bundled commands set no timers and take none away. -/
theorem timers_bundled (directory : Narrate.Directory) (resolver : Resolver) (reporter : Reporter)
    (scripts : Library) (e : Entry) (w : World σ) :
    let x : Executor σ := ⟨Registry.empty.withBundled directory, resolver, reporter, scripts⟩
    w.timers ⊆ (x.dispatch e w).world.timers := by
  intro x
  refine Executor.bundled_keeps (x := x) (P := fun v => w.timers ⊆ v.timers)
    (fun _ => Registry.mem_withBundled) (fun _ _ hv => hv) (fun v id d hv => ?_) e
    (List.Subset.refl _)
  unfold Wait.arm
  split
  · rw [spawn_eq]; exact hv
  · rw [World.markFinished, if_pos rfl, ring_eq]; exact hv

/-- A change by which no timer of a player of the queue in `h` is lost: it is set still, or
    it woke the player. -/
def Timely (h : Handle) (w w' : World σ) : Prop :=
  ∀ t p due, w.Plays h t p → ⟨due, t⟩ ∈ w.timers → t ∈ w'.ready ∨ ⟨due, t⟩ ∈ w'.timers

theorem Timely.poll (hx : ∀ e v, v.timers ⊆ (x.dispatch e v).world.timers)
    (ht : w.tasks t = .player p) (hr : t ∈ w.ready) : Timely h w (w.poll x t) :=
  fun _ _ _ _ hm => (timers_poll hx ht hr hm).symm.imp_left fun hown => by
    obtain ⟨rfl, hready⟩ := hown
    exact hready

theorem Timely.strike (w : World σ) (time : Nat) : Timely h w (w.strike time) := by
  intro t p due _ hm
  by_cases hdue : due ≤ time
  · exact .inl ((ready_strike w time).2 _ hm hdue)
  · exact .inr ((mem_timers_strike w time _).2 ⟨hm, Nat.lt_of_not_le hdue⟩)

/-- The players hear nothing of a move of the clock but their timers. -/
theorem Stir.strike (w : World σ) (time : Nat) : Stir h w (w.strike time) := by
  have hready := (ready_strike w time).1
  rw [strike_eq] at hready ⊢
  exact .quiet rfl rfl rfl hready rfl

end

end World

end Cuelist
