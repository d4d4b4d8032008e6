/-
  Players that leave by themselves.

  A queue lets its players go if it was stopped, or if it has drained and they are to leave
  then (`Over`).  It still does after the polls of its players and while time passes
  (`Over.poll`, `Ebbs.strike`).  A player that waits for nothing, that only waits for its time,
  or that a ring of its queue woke needs no other ring to find that out: it `GoesOn` and
  leaves, however many others play the queue and whatever they do (`gone_of_goesOn`).
-/
import Cuelist.Proofs.Player.Timers

namespace Cuelist

open World

variable {σ : Type} {x : Executor σ} {h : Handle} {t : TaskId}

namespace World

variable {w w' : World σ} {p : Player}

/-! ## What lets players go -/

/-- Whether the queue in `h` lets players go: it was stopped, or it has drained and they are
    to leave then. -/
def Over (h : Handle) (leaves : Bool) (w : World σ) : Prop :=
  (w.queues h).stopped = true ∨ leaves = true ∧ (w.queues h).state w.waiting = .drained

/-- One thing that happens around the queue in `h` while it lets players go: no timer of a
    player is lost, and unless the queue was stopped before, it lets them go afterwards. -/
structure Ebbs (x : Executor σ) (h : Handle) (leaves : Bool) (w w' : World σ) : Prop where
  bustle : Bustle x h w w'
  timely : Timely h w w'
  ending : (w.queues h).stopped = false → Over h leaves w'

/-- There is nothing to run at a drained queue, and it stays drained. -/
theorem step_of_drained (hq : (w.queues h).state w.waiting = .drained) :
    ∃ v, x.step h w = (.empty, v) ∧ (v.queues h).state v.waiting = .drained := by
  have hdrained := hq
  unfold Queue.state at hq
  split at hq
  · cases hq
  next hheld =>
    split at hq
    · cases hq
    next hrun =>
      simp only [Bool.or_eq_true, Bool.not_eq_true', not_or, Bool.not_eq_true,
        Bool.not_eq_false, List.isEmpty_iff] at hrun
      have hnone : (w.queues h).holder? w.waiting = none := by simpa using hheld
      have htake := Queue.takeNext_empty hrun.1 hnone hrun.2
      refine ⟨_, Executor.step_empty (takeNext_eq htake), ?_⟩
      rw [queues_setQueue, setQueue, ← hdrained]
      simp only [Queue.state, hnone]
      rfl

/-- At its turn a player leaves that the queue lets go, or it waits for its time. -/
theorem play_over (hp : w.Plays h t p) (hover : Over h p.leavesWhenDrained w) :
    (∃ v : World σ, World.play x w t p = v.depart t p) ∨
      ∃ due, World.play x w t p = w.rest t p (.delayed due) := by
  obtain rfl := hp.2
  simp only [World.play]
  cases hc : w.chance p with
  | leave => exact .inl ⟨w, rfl⟩
  | delay due => exact .inr ⟨due, rfl⟩
  | ask instant =>
    obtain ⟨hleaves, hdrained⟩ := hover.resolve_left (by simp [chance_ask hc])
    obtain ⟨v, hstep, -⟩ := step_of_drained (x := x) hdrained
    simp only [hstep, hleaves, if_true]
    exact .inl ⟨v, rfl⟩

/-- **A queue that lets players go still does so after a poll of one of them.** -/
theorem Over.poll {leaves : Bool} (hover : Over h leaves w) (hp : w.Plays h t p) :
    Over h leaves (w.poll x t) := by
  by_cases ha : p.rest = .awake
  · rw [poll_awake hp.1 ha]
    obtain rfl := hp.2
    simp only [play]
    cases hc : w.chance p with
    | leave | delay => exact hover
    | ask instant =>
      obtain ⟨hleaves, hdrained⟩ := hover.resolve_left (by simp [chance_ask hc])
      obtain ⟨v, hstep, hv⟩ := step_of_drained (x := x) hdrained
      simp only [hstep]
      split
      · exact .inr ⟨hleaves, hv⟩
      · exact .inr ⟨hleaves, hv⟩
  by_cases hg : p.rest = .gone
  · rw [poll_gone hp.1 hg]
    exact hover
  · obtain ⟨v, r, ⟨_, _, _, rfl⟩, -, hlooks⟩ := poll_looks (x := x) hp.1 ha hg
    rw [hlooks]
    exact hover

/-- A queue that was stopped stays so. -/
theorem Bustle.stopped (hw : Attended h w) (hb : Bustle x h w w')
    (hs : (w.queues h).stopped = true) : (w'.queues h).stopped = true := by
  cases hb with
  | join => rw [startPlayer, spawn_eq]; exact hs
  | poll hp hr =>
    have hover : Over h false w := .inl hs
    exact (hover.poll hp).resolve_right (by simp)
  | rouse hp hr _ hl => rw [(hw.rouse hp hr hl).queues]; exact hs
  | stir hstir => exact hstir.stopped hs

/-- The players that a queue lets go can be polled. -/
theorem Ebbs.poll {leaves : Bool} (hx : ∀ e v, v.timers ⊆ (x.dispatch e v).world.timers)
    (hover : Over h leaves w) (hp : w.Plays h t p) (hr : t ∈ w.ready) :
    Ebbs x h leaves w (w.poll x t) :=
  ⟨.poll hp hr, .poll hx hp.1 hr, fun _ => hover.poll hp⟩

theorem ebbs_turns {leaves : Bool} (hx : ∀ e v, v.timers ⊆ (x.dispatch e v).world.timers)
    (hover : Over h leaves w) (ts : List TaskId) (hturns : takesTurns x h ts w = true) :
    Relation.ReflTransGen (Ebbs x h leaves) w (ts.foldl (fun v t => v.poll x t) w) ∧
      Over h leaves (ts.foldl (fun v t => v.poll x t) w) :=
  takesTurns_keeps (P := fun v => Relation.ReflTransGen (Ebbs x h leaves) w v ∧ Over h leaves v)
    (fun _ _ _ hp hr hrun => ⟨hrun.1.tail (.poll hx hrun.2 hp hr), hrun.2.poll hp⟩) hturns
    ⟨.refl, hover⟩

/-- Time can pass at a queue that lets players go. -/
theorem Ebbs.strike {leaves : Bool} (hover : Over h leaves w) (time : Nat) :
    Ebbs x h leaves w (w.strike time) :=
  ⟨.stir (.strike w time), .strike w time, fun _ => by rw [strike_eq]; exact hover⟩

/-! ## Players that go on -/

/-- Whether a player of the queue in `h` goes on by itself: it waits for nothing, or for a time,
    and then it has a timer unless it is ready, or a ring of its queue woke it. -/
def GoesOn (h : Handle) (t : TaskId) (p : Player) (w : World σ) : Prop :=
  match p.rest with
  | .awake | .gone => True
  | .delayed due => t ∈ w.ready ∨ ⟨due, t⟩ ∈ w.timers
  | .holding _ | .idle => t ∈ (w.bell h).woken

/-- What others do keeps a player going. -/
theorem GoesOn.beside (hg : GoesOn h t p w) (hp : w.Plays h t p) (htimely : Timely h w w')
    (hready : t ∈ w.ready → t ∈ w'.ready)
    (hwoken : t ∈ (w.bell h).woken → t ∈ (w'.bell h).woken) : GoesOn h t p w' := by
  unfold GoesOn at hg ⊢
  cases hr : p.rest with
  | awake | gone => trivial
  | delayed due =>
    simp only [hr] at hg
    exact hg.elim (fun hr => .inl (hready hr)) (htimely t p due hp)
  | holding | idle =>
    simp only [hr] at hg
    exact hwoken hg

/-- A poll keeps a player going that the queue lets go. -/
theorem GoesOn.poll (hw : Attended h w) (hg : GoesOn h t p w) (hp : w.Plays h t p)
    (hr : t ∈ w.ready) (hover : Over h p.leavesWhenDrained w) :
    ∃ r, (w.poll x t).Plays h t { p with rest := r } ∧
      GoesOn h t { p with rest := r } (w.poll x t) := by
  by_cases ha : p.rest = .awake
  · rw [poll_awake hp.1 ha]
    obtain ⟨v, hplay⟩ | ⟨due, hplay⟩ := play_over (x := x) hp hover
    · rw [hplay]
      exact ⟨.gone, ⟨put_same .., hp.2⟩, trivial⟩
    · rw [hplay]
      exact ⟨.delayed due, ⟨put_same .., hp.2⟩, .inl hr⟩
  rcases poll_resting (x := x) hp.1 ha with htasks | ⟨v, hv⟩
  · -- The player rests on: it still has its timer, or the ring that woke it.
    have hplays : (w.poll x t).Plays h t p := ⟨by rw [htasks]; exact hp.1, hp.2⟩
    refine ⟨p.rest, hplays, ?_⟩
    have hwoken : p.AtRest → t ∈ (w.bell h).woken → t ∈ ((w.poll x t).bell h).woken := by
      intro hrest hm
      obtain ⟨p', hl⟩ := hw.look (x := x) hp hr hrest
      obtain rfl := Task.player.inj (hplays.1.symm.trans hl.found.plays.1)
      rw [((hl.rung (.inr hm)).resolve_left ha).2]
      exact hm
    unfold GoesOn at hg ⊢
    cases hrest : p.rest with
    | awake | gone => trivial
    | delayed due => exact poll_delayed hp.1 hr hplays.1 hrest
    | holding | idle =>
      simp only [hrest] at hg
      exact hwoken ⟨ha, by simp [hrest]⟩ hg
  · rw [hv]
    exact ⟨.awake, ⟨put_same .., hp.2⟩, trivial⟩

/-- **A player that goes on by itself goes on** while the queue lets it go. -/
theorem GoesOn.ebbs (hx : Tactful h x) (hw : Attended h w) (hg : GoesOn h t p w)
    (hp : w.Plays h t p) (hover : Over h p.leavesWhenDrained w)
    (he : Ebbs x h p.leavesWhenDrained w w') :
    ∃ r, w'.Plays h t { p with rest := r } ∧ GoesOn h t { p with rest := r } w' := by
  have hothers : ∀ {t'}, t ≠ t' → Beside h t' w w' →
      ∃ r, w'.Plays h t { p with rest := r } ∧ GoesOn h t { p with rest := r } w' :=
    fun ht hb => ⟨p.rest, (hb.players t ht p).2 hp,
      hg.beside hp he.timely (hb.roused t ht p hp).1 (hb.woken t ht)⟩
  have hne : t ≠ ⟨w.taskCount⟩ := hw.known.ne_new hp
  cases he.bustle with
  | join speed leaves =>
    refine ⟨p.rest, ⟨?_, hp.2⟩,
      hg.beside hp he.timely (fun hr => ready_subset_spawn w _ hr) fun hm => ?_⟩
    · rw [startPlayer, spawn_eq]
      exact (put_other _ _ hne).trans hp.1
    · rw [startPlayer, spawn_eq]
      exact hm
  | @poll t' p' hp' hr =>
    by_cases ht : t = t'
    · subst ht
      obtain rfl := Task.player.inj (hp.1.symm.trans hp'.1)
      exact hg.poll hw hp hr hover
    · exact hothers ht (hw.polled hx hp' hr).1
  | @rouse t' p' v hp' hr _ hl =>
    have hlooked := hw.rouse hp' hr hl
    by_cases ht : t = t'
    · subst ht
      obtain rfl := Task.player.inj (hp.1.symm.trans hp'.1)
      exact ⟨.awake, hlooked.found.plays, trivial⟩
    · exact hothers ht hlooked.beside
  | stir hs => exact hothers hne (hs.beside ⟨w.taskCount⟩)

/-- **A player leaves that goes on by itself** while the queue lets it go: when it is not ready
    and has no timer, it is gone. -/
theorem gone_of_goesOn {u : World σ} (hx : Tactful h x) (hw : Attended h w)
    (hp : w.Plays h t p) (hg : GoesOn h t p w) (hover : Over h p.leavesWhenDrained w)
    (hu : Relation.ReflTransGen (Ebbs x h p.leavesWhenDrained) w u) (hquiet : t ∉ u.ready)
    (htimers : ∀ due, ⟨due, t⟩ ∉ u.timers) : u.Plays h t { p with rest := .gone } := by
  have hend : Attended h u ∧ Over h p.leavesWhenDrained u ∧
      ∃ r, u.Plays h t { p with rest := r } ∧ GoesOn h t { p with rest := r } u := by
    clear hquiet htimers
    induction hu with
    | refl => exact ⟨hw, hover, p.rest, hp, hg⟩
    | @tail v v' _ hstep ih =>
      obtain ⟨hv, hoverv, r, hpv, hgv⟩ := ih
      have hnext := hgv.ebbs hx hv hpv hoverv hstep
      refine ⟨hv.bustle hx hstep.bustle, ?_, hnext⟩
      cases hs : (v.queues h).stopped with
      | true => exact .inl (hstep.bustle.stopped hv hs)
      | false => exact hstep.ending hs
  obtain ⟨hattended, -, r, hpu, hgu⟩ := hend
  have hawaits := (hattended.found t _ hpu).awaits
  cases r with
  | gone => exact hpu
  | awake =>
    -- A player that is awake does not listen, so it is ready.
    have hwaits := (hawaits nofun).resolve_left hquiet
    have hzero := hattended.unheard hpu rfl
    exact absurd hzero (Nat.ne_of_gt (Listeners.places_pos_of_waiting hwaits))
  | delayed due => exact absurd hgu (not_or.2 ⟨hquiet, htimers due⟩)
  | holding | idle =>
    -- Who was woken does not wait, so it is ready.
    have hwaits := (hawaits nofun).resolve_left hquiet
    exact absurd (.inr hgu) (hattended.tidy.not_rung hwaits)

end World

end Cuelist
