/-
  The end of a crowd.

  A stop rings once, so that it reaches one player at rest; the others that were at rest
  are not woken (`stop_leaves_one_behind`).  A crowd is `Closing` if its queue was stopped
  and at most one player is at rest, for whom a ring is there.  It keeps closing whatever
  happens, so that all players leave if at most one is at rest when the queue is stopped.
  `none_left_behind` is that, together with what holds of a queue that has drained as well:
  whoever needs no ring leaves.
-/
import Cuelist.Proofs.Player.Leaving

namespace Cuelist

open World

variable {σ : Type} {x : Executor σ} {h : Handle} {t : TaskId}

namespace World

section
variable {w w' : World σ} {p p' : Player}

/-! ## Closing -/

/-- Whether the queue in `h` was stopped and no player is at rest but `t`, for whom a ring
    is there. -/
structure Closing (h : Handle) (t : TaskId) (w : World σ) : Prop where
  stopped : (w.queues h).stopped = true
  resting : ∀ t' p, w.Plays h t' p → p.AtRest → t' = t ∧ (w.bell h).Rung t

theorem iterate_rung {l : Listeners} (n : Nat) (hr : l.Rung t) :
    (Listeners.struck^[n] l).Rung t := by
  induction n with
  | zero => exact hr
  | succ n ih => rw [Function.iterate_succ_apply']; exact ih.struck

theorem Closing.stir (hc : Closing h t w) (hs : Stir h w w') : Closing h t w' := by
  refine ⟨hs.stopped hc.stopped, fun t' p hp ha => ?_⟩
  obtain ⟨ht, hr⟩ := hc.resting t' p ((hs.players t' p).1 hp) ha
  obtain ⟨n, hbell, -⟩ := hs.rings
  exact ⟨ht, by rw [hbell]; exact iterate_rung n hr⟩

theorem Closing.join (hc : Closing h t w) (speed : Span) (leaves : Bool) :
    Closing h t (w.startPlayer h speed leaves) := by
  rw [startPlayer, spawn_eq]
  refine ⟨hc.stopped, fun t' p hp ha => ?_⟩
  by_cases hnew : t' = ⟨w.taskCount⟩
  · subst hnew
    obtain rfl := Task.player.inj ((put_same ..).symm.trans hp.1)
    exact absurd rfl ha.1
  · exact hc.resting t' p (by simpa only [Plays, setTask, put_other _ _ hnew] using hp) ha

/-- A turn after which the player is not at rest, or neither the player nor the bell of the
    queue changed. -/
theorem Closing.turn {t' : TaskId} (hc : Closing h t w) (hb : Beside h t' w w')
    (hqueues : w'.queues = w.queues) (hp : w.Plays h t' p) (hp' : w'.Plays h t' p')
    (hturn : ¬p'.AtRest ∧ (t' = t ∨ w'.bell h = w.bell h) ∨ p' = p ∧ w'.bell h = w.bell h) :
    Closing h t w' := by
  refine ⟨by rw [hqueues]; exact hc.stopped, fun t'' q hq ha => ?_⟩
  by_cases ht : t'' = t'
  · subst ht
    obtain rfl := Task.player.inj (hp'.1.symm.trans hq.1)
    rcases hturn with ⟨hnot, -⟩ | ⟨rfl, hbell⟩
    · exact absurd ha hnot
    · rw [hbell]; exact hc.resting t'' p' hp ha
  · obtain ⟨ht', hr⟩ := hc.resting t'' q ((hb.players t'' ht q).1 hq) ha
    have hbell : w'.bell h = w.bell h := by
      rcases hturn with ⟨-, heq | hbell⟩ | ⟨-, hbell⟩
      · exact absurd (ht'.trans heq.symm) ht
      · exact hbell
      · exact hbell
    exact ⟨ht', by rw [hbell]; exact hr⟩

/-- A look in a crowd that closes. -/
theorem Closing.looked {t' : TaskId} (hc : Closing h t w) (hp : w.Plays h t' p) (ha : p.AtRest)
    (hl : Looked h t' p p' w w') : Closing h t w' := by
  obtain ⟨rfl, hr⟩ := hc.resting t' p hp ha
  refine hc.turn hl.beside hl.queues hp hl.found.plays ?_
  exact (hl.rung hr).imp_left fun hawake => ⟨fun hrest => hrest.1 hawake, .inl rfl⟩

/-- **A crowd that closes keeps closing.** -/
theorem Closing.bustle (hw : Attended h w) (hc : Closing h t w) (hb : Bustle x h w w') :
    Closing h t w' := by
  cases hb with
  | join speed leaves => exact hc.join speed leaves
  | @poll t' p hp hr =>
    by_cases ha : p.rest = .awake
    · -- The queue was stopped: the player leaves.
      have hleave : w.chance p = .leave := by rw [chance, hp.2, if_pos hc.stopped]
      rw [poll_awake hp.1 ha, World.play, hleave]
      exact hc.turn (.depart w t' p) rfl hp (found_depart hp.2 (hw.unheard hp ha)).plays
        (.inl ⟨fun hrest => hrest.2 rfl, .inr rfl⟩)
    by_cases hg : p.rest = .gone
    · rw [poll_gone hp.1 hg]
      exact hc.turn (.sleep w t') rfl hp hp (.inr ⟨rfl, rfl⟩)
    · obtain ⟨p', hl⟩ := hw.look (x := x) hp hr ⟨ha, hg⟩
      exact hc.looked hp ⟨ha, hg⟩ hl
  | @rouse t' p v hp hr hheeds hl =>
    have hrest : p.AtRest := by
      constructor <;> intro hc' <;> simp [Player.Heeds, hc'] at hheeds
    exact hc.looked hp hrest (hw.rouse hp hr hl)
  | stir hs => exact hc.stir hs

/-- A stop rings for the player at rest, if there is but one. -/
theorem closing_stir (hw : Attended h w) (hone : ∀ t' p, w.Plays h t' p → p.AtRest → t' = t)
    (hs : Stir h w w') (hopen : (w.queues h).stopped = false)
    (hstop : (w'.queues h).stopped = true) : Closing h t w' := by
  refine ⟨hstop, fun t' p hp ha => ?_⟩
  have hp₀ := (hs.players t' p).1 hp
  obtain rfl := hone t' p hp₀ ha
  obtain ⟨n, hbell, hrings⟩ := hs.rings
  obtain ⟨n, rfl⟩ := Nat.exists_eq_add_of_lt (hrings hopen hstop)
  refine ⟨rfl, ?_⟩
  rw [hbell, Nat.zero_add, Function.iterate_succ_apply]
  refine iterate_rung n ?_
  -- Whoever waits at the bell is the player at rest.
  unfold Listeners.struck
  split
  next t₁ rest hwait =>
    have hm : t₁ ∈ (w.bell h).waiting := by rw [hwait]; exact List.mem_cons_self
    have hpos := Listeners.places_pos_of_waiting hm
    obtain ⟨q, hq⟩ := hw.listeners t₁ (Nat.ne_of_gt hpos)
    have hrest := (hw.found t₁ q hq).listens.resolve_left (Nat.ne_of_gt hpos)
    rw [hone t₁ q hq hrest]
    exact .inr (by simp)
  next => exact .inl rfl

/-- Only an entry that runs can stop the queue. -/
theorem stopped_step {v : World σ} {i : Handle} {tick : Tick} (hs : x.step i w = (tick, v)) :
    (∃ r, tick = .ran r) ∨ (v.queues i).stopped = (w.queues i).stopped := by
  have htake := Queue.takeNext_stopped w.waiting (w.queues i)
  rcases hn : (w.queues i).takeNext w.waiting with ⟨next, q⟩
  have hnext := takeNext_eq hn
  rw [hn] at htake
  cases next with
  | ready c =>
    rw [Executor.step_ready hnext] at hs
    exact .inl ⟨_, (Prod.mk.inj hs).1.symm⟩
  | awaiting | empty | busy =>
    simp only [Executor.step, hnext, Prod.mk.injEq] at hs
    obtain ⟨-, rfl⟩ := hs
    exact .inr (by rw [queues_setQueue]; exact htake)

/-- A turn in which the queue is stopped runs the entry that stops it, and ends awake. -/
theorem closing_play (hx : Tactful h x) (hw : Attended h w)
    (hone : ∀ t' p, w.Plays h t' p → p.AtRest → t' = t) {t' : TaskId} (hp : w.Plays h t' p)
    (ha : p.rest = .awake) (hopen : (w.queues h).stopped = false)
    (hstop : ((World.play x w t' p).queues h).stopped = true) :
    Closing h t (World.play x w t' p) := by
  simp only [World.play] at hstop ⊢
  cases hc : w.chance p with
  | leave | delay =>
    simp only [hc] at hstop
    exact absurd (hopen.symm.trans hstop) (by simp)
  | ask instant =>
    have hstir := Stir.step hx hw.known p.queue
    rcases hs : x.step p.queue w with ⟨tick, v⟩
    rw [hs] at hstir
    simp only [hc, hs] at hstop ⊢
    rcases stopped_step hs with ⟨r, rfl⟩ | hsame
    · have hclosing : Closing h t v := closing_stir hw hone hstir hopen hstop
      exact hclosing.turn (.setTask v t' _) rfl ((hstir.players t' p).2 hp)
        ⟨put_same .., hp.2⟩ (.inl ⟨fun hrest => hrest.1 ha, .inr rfl⟩)
    · have hv : (v.queues h).stopped = true := by
        cases tick with
        | ran | awaiting | busy => exact hstop
        | empty =>
          simp only at hstop
          split at hstop <;> exact hstop
      rw [hp.2, hopen, hv] at hsame
      cases hsame

/-- Whatever stops the queue rings for the player at rest, if there is but one. -/
theorem closing_bustle (hx : Tactful h x) (hw : Attended h w)
    (hone : ∀ t' p, w.Plays h t' p → p.AtRest → t' = t) (hb : Bustle x h w w')
    (hopen : (w.queues h).stopped = false) (hstop : (w'.queues h).stopped = true) :
    Closing h t w' := by
  have hsame : w'.queues ≠ w.queues := fun hc => by
    rw [hc, hopen] at hstop
    cases hstop
  cases hb with
  | join speed leaves => exact absurd (by rw [startPlayer, spawn_eq]; rfl) hsame
  | @poll t' p hp hr =>
    by_cases ha : p.rest = .awake
    · rw [poll_awake hp.1 ha] at hstop ⊢
      exact closing_play hx hw hone hp ha hopen hstop
    by_cases hg : p.rest = .gone
    · exact absurd (by rw [poll_gone hp.1 hg]) hsame
    · obtain ⟨p', hl⟩ := hw.look (x := x) hp hr ⟨ha, hg⟩
      exact absurd hl.queues hsame
  | rouse hp hr _ hl => exact absurd (hw.rouse hp hr hl).queues hsame
  | stir hs => exact closing_stir hw hone hs hopen hstop

/-- A stop that finds at most one player at rest leaves nobody behind. -/
theorem gone_of_one_at_rest {u : World σ} (hx : Tactful h x) (hw : Attended h w)
    (hone : ∀ t p t' p', w.Plays h t p → p.AtRest → w.Plays h t' p' → p'.AtRest → t = t')
    (hb : Bustle x h w w') (hopen : (w.queues h).stopped = false)
    (hstop : (w'.queues h).stopped = true) (hu : Relation.ReflTransGen (Bustle x h) w' u)
    (hquiet : ∀ t p, u.Plays h t p → t ∉ u.ready) (hp : u.Plays h t p) : p.rest = .gone := by
  obtain ⟨t₀, ht₀⟩ : ∃ t₀, ∀ t p, w.Plays h t p → p.AtRest → t = t₀ := by
    by_cases hrest : ∃ t p, w.Plays h t p ∧ p.AtRest
    · obtain ⟨t₀, p₀, hp₀, ha₀⟩ := hrest
      exact ⟨t₀, fun t p hp ha => hone t p t₀ p₀ hp ha hp₀ ha₀⟩
    · exact ⟨⟨0⟩, fun t p hp ha => absurd ⟨t, p, hp, ha⟩ hrest⟩
  have hend : Attended h u ∧ Closing h t₀ u := by
    clear hquiet hp
    induction hu with
    | refl => exact ⟨hw.bustle hx hb, closing_bustle hx hw ht₀ hb hopen hstop⟩
    | tail _ hstep ih => exact ⟨ih.1.bustle hx hstep, ih.2.bustle ih.1 hstep⟩
  obtain ⟨hattended, hclosing⟩ := hend
  by_contra hg
  -- The player waits for a ring of its queue, so it is at rest and a ring is there for it.
  obtain ⟨-, hlistens, hawaits⟩ := hattended.found t p hp
  have hwaits := (hawaits hg).resolve_left (hquiet t p hp)
  have hrest := hlistens.resolve_left (Nat.ne_of_gt (Listeners.places_pos_of_waiting hwaits))
  obtain ⟨rfl, hrung⟩ := hclosing.resting t p hp hrest
  exact hattended.tidy.not_rung hwaits hrung

/-- **Who is not left behind.**  Take a crowd.  If at most one player is at rest when something
    stops the queue, then whatever happens from then on, whenever no player of the queue is
    ready, all of them are gone.  And however many are at rest: a player that waits for nothing
    or only for its time, or that was woken by a ring of its queue, leaves a queue that was
    stopped, or one that has drained and stays so if the player is to leave then.  Whenever it
    is not ready and has no timer, it is gone. -/
theorem none_left_behind (hx : Tactful h x) (hc : Crowd x h w) :
    (∀ w' u : World σ,
      (∀ t p t' p', w.Plays h t p → p.AtRest → w.Plays h t' p' → p'.AtRest → t = t') →
      Bustle x h w w' → (w.queues h).stopped = false → (w'.queues h).stopped = true →
      Relation.ReflTransGen (Bustle x h) w' u → (∀ t p, u.Plays h t p → t ∉ u.ready) →
      ∀ t p, u.Plays h t p → p.rest = .gone) ∧
    ∀ (t : TaskId) (p : Player) (u : World σ), w.Plays h t p → GoesOn h t p w →
      Over h p.leavesWhenDrained w → Relation.ReflTransGen (Ebbs x h p.leavesWhenDrained) w u →
      t ∉ u.ready → (∀ due, ⟨due, t⟩ ∉ u.timers) → u.Plays h t { p with rest := .gone } := by
  have hw : Attended h w := crowd_attended hx hc
  exact ⟨fun w' u hone hb hopen hstop hu hquiet t p hp =>
      gone_of_one_at_rest hx hw hone hb hopen hstop hu hquiet hp,
    fun t p u hp hg hover hu hquiet htimers =>
      gone_of_goesOn hx hw hp hg hover hu hquiet htimers⟩

end

/-- Of two players one is asleep when the queue is stopped: both leave.  A player that ran the
    last entry of its queue sleeps until its time and leaves then. -/
theorem none_left_behind_of_two :
    let x : Executor Unit := ⟨Registry.empty.withBundled fun _ _ => none, Tag.keep, .plain, {}⟩
    let w := (World.start () {} true).setQueue ⟨0⟩ (Queue.make ⟨"main"⟩ 64)
    let v := (w.startPlayer ⟨0⟩ (Span.ofMillis 10) false).startPlayer ⟨0⟩ (Span.ofMillis 10) false
    let asleep := (v.poll x ⟨0⟩).poll x ⟨0⟩
    let u := ((((asleep.stop ⟨0⟩).2.poll x ⟨1⟩).poll x ⟨1⟩).poll x ⟨0⟩).poll x ⟨0⟩ |>.poll x ⟨0⟩
    let last := Entry.make ⟨0⟩ .normal "narrate" ["Hello"] none
    let full := w.setQueue ⟨0⟩ { Queue.make ⟨"main"⟩ 64 with pending := [last] }
    let two := (full.startPlayer ⟨0⟩ (Span.ofMillis 10) true).startPlayer ⟨0⟩ (Span.ofMillis 10) true
    let ran := two.poll x ⟨0⟩
    let pausing := (((ran.poll x ⟨0⟩).poll x ⟨0⟩).poll x ⟨0⟩).poll x ⟨0⟩
    let late := (((pausing.strike 10).poll x ⟨0⟩).poll x ⟨0⟩).poll x ⟨0⟩
    (∀ t p, u.Plays ⟨0⟩ t p → p.rest = .gone) ∧
      late.Plays ⟨0⟩ ⟨0⟩ ⟨⟨0⟩, Span.ofMillis 10, true, some 10, 1, .gone⟩ := by
  intro x w v asleep u last full two ran pausing late
  let starts : Player := ⟨⟨0⟩, Span.ofMillis 10, false, none, 0, .awake⟩
  have hx : Tactful ⟨0⟩ x := tactful_bundled _ _ _ _
  have hempty : Crowd x ⟨0⟩ w := .empty (fun _ _ hp => Task.noConfusion hp.1) fun _ => rfl
  have hv : Crowd x ⟨0⟩ v := (hempty.bustle (.join _ _)).bustle (.join _ _)
  refine ⟨?_, ?_⟩
  · have hasleep : Crowd x ⟨0⟩ asleep := by
      simpa only [List.foldl] using hv.turns [⟨0⟩, ⟨0⟩] (by decide +kernel)
    have hcount : asleep.taskCount = 2 := by decide +kernel
    have hsecond : asleep.tasks ⟨1⟩ = .player starts := by decide +kernel
    have hfirst : ∀ t p, asleep.Plays ⟨0⟩ t p → p.AtRest → t = ⟨0⟩ := by
      intro t p hp ha
      have hlt := (crowd_attended hx hasleep).known t p hp
      rw [hcount] at hlt
      have hne : t ≠ ⟨1⟩ := by
        rintro rfl
        obtain rfl := Task.player.inj (hsecond.symm.trans hp.1)
        exact ha.1 rfl
      obtain ⟨n⟩ := t
      simp only [ne_eq, TaskId.mk.injEq] at hne ⊢
      simp only at hlt
      omega
    let s₁ := (asleep.stop ⟨0⟩).2
    have hrun : Relation.ReflTransGen (Bustle x ⟨0⟩) s₁ u := by
      simpa only [List.foldl] using
        bustle_turns (w := s₁) [⟨1⟩, ⟨1⟩, ⟨0⟩, ⟨0⟩, ⟨0⟩] (by decide +kernel)
    have hstop : Bustle x ⟨0⟩ asleep s₁ := .stir (.stop _ _)
    have hopen : (asleep.queues ⟨0⟩).stopped = false := by decide +kernel
    have hstopped : (s₁.queues ⟨0⟩).stopped = true := by decide +kernel
    have hquiet : u.ready = [] := by decide +kernel
    exact (none_left_behind hx hasleep).1 s₁ u
      (fun t p t' p' hp ha hp' ha' => (hfirst t p hp ha).trans (hfirst t' p' hp' ha').symm)
      hstop hopen hstopped hrun (fun _ _ _ => by rw [hquiet]; exact List.not_mem_nil)
  · have htwo : Crowd x ⟨0⟩ two :=
      ((Crowd.empty (fun _ _ hp => Task.noConfusion hp.1) fun _ => rfl).bustle
        (.join _ _)).bustle (.join _ _)
    have hran : Crowd x ⟨0⟩ ran := by
      simpa only [List.foldl] using htwo.turns [⟨0⟩] (by decide +kernel)
    have hover : Over ⟨0⟩ true ran := .inr ⟨rfl, by decide +kernel⟩
    have htimers := timers_bundled (σ := Unit) (fun _ _ => none) Tag.keep .plain {}
    -- The ring at the end of the entry wakes the player once before its time.
    obtain ⟨hsleep, hover'⟩ := ebbs_turns htimers hover [⟨0⟩, ⟨0⟩, ⟨0⟩, ⟨0⟩] (by decide +kernel)
    simp only [List.foldl] at hsleep hover'
    have hstrike : Ebbs x ⟨0⟩ true pausing (pausing.strike 10) := .strike hover' 10
    obtain ⟨hwake, -⟩ := ebbs_turns htimers (hstrike.ending (by decide +kernel)) [⟨0⟩, ⟨0⟩, ⟨0⟩]
      (by decide +kernel)
    simp only [List.foldl] at hwake
    have hrun : Relation.ReflTransGen (Ebbs x ⟨0⟩ true) ran late := (hsleep.tail hstrike).trans hwake
    have hawake : ran.Plays ⟨0⟩ ⟨0⟩ ⟨⟨0⟩, Span.ofMillis 10, true, some 10, 1, .awake⟩ :=
      ⟨by decide +kernel, rfl⟩
    have hquiet : late.ready = [⟨1⟩] ∧ late.timers = [] := by decide +kernel
    exact (none_left_behind hx hran).2 ⟨0⟩ _ late hawake trivial hover hrun
      (by rw [hquiet.1]; decide) (fun _ => by rw [hquiet.2]; exact List.not_mem_nil)

/-- Two players wait for an empty queue when it is stopped: the ring wakes the one who
    came first, and the other one waits for good. -/
theorem stop_leaves_one_behind :
    let x : Executor Unit := ⟨.empty, Tag.keep, .plain, {}⟩
    let w := (World.start () {} true).setQueue ⟨0⟩ (Queue.make ⟨"main"⟩ 64)
    let v := (w.startPlayer ⟨0⟩ (Span.ofMillis 10) false).startPlayer ⟨0⟩ (Span.ofMillis 10) false
    let idle := (((v.poll x ⟨0⟩).poll x ⟨0⟩).poll x ⟨1⟩).poll x ⟨1⟩
    let u := (((idle.stop ⟨0⟩).2.poll x ⟨0⟩).poll x ⟨0⟩).poll x ⟨0⟩
    Crowd x ⟨0⟩ u ∧ u.ready = [] ∧ u.timers = [] ∧ (u.queues ⟨0⟩).stopped = true ∧
      ∃ p, u.Plays ⟨0⟩ ⟨1⟩ p ∧ p.rest = .idle := by
  intro x w v idle u
  let waits : Player := ⟨⟨0⟩, Span.ofMillis 10, false, none, 0, .idle⟩
  have hempty : Crowd x ⟨0⟩ w := .empty (fun _ _ hp => Task.noConfusion hp.1) fun _ => rfl
  have hv : Crowd x ⟨0⟩ v := (hempty.bustle (.join _ _)).bustle (.join _ _)
  have hidle : Crowd x ⟨0⟩ idle := by
    simpa only [List.foldl] using hv.turns [⟨0⟩, ⟨0⟩, ⟨1⟩, ⟨1⟩] (by decide +kernel)
  have hstopped : Crowd x ⟨0⟩ (idle.stop ⟨0⟩).2 := hidle.bustle (.stir (.stop _ _))
  have hu : Crowd x ⟨0⟩ u := by
    simpa only [List.foldl] using hstopped.turns [⟨0⟩, ⟨0⟩, ⟨0⟩] (by decide +kernel)
  have hend : u.ready = [] ∧ u.timers = [] ∧ (u.queues ⟨0⟩).stopped = true ∧
      u.tasks ⟨1⟩ = .player waits := by
    decide +kernel
  exact ⟨hu, hend.1, hend.2.1, hend.2.2.1, waits, ⟨hend.2.2.2, rfl⟩, rfl⟩

end World

end Cuelist
