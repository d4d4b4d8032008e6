/-
  The pace of a player.

  A `Stint` is one entry that a player ran: whether the entry was instant, and what the
  clock showed when the entry was handed out and when its run was over.  `World.Polled` says
  which stints a poll comes to: one if the poll is the step that runs what the queue hands
  out, and none if it does not depend on what entries do when they run.  Each poll comes to
  the one or the other (`World.poll_cases`), and not to both (`World.Polled.unique`).

  Around the polls of a player anything may happen that neither touches its task nor
  turns the clock back (`Passing`): entries are admitted and signalled, the queue is
  cleared, stopped and advanced by others, time passes.  The player may also wake up or
  fall asleep without a reason.  A `Career` is what comes of it, with the stints in order.

  `career_paced`: from the end of a normal stint to the next normal one at least the
  speed of the player passes.  The player asks for an entry early only if the first
  entry is instant or an entry holds the queue, and neither hands out a normal one
  (`World.due_of_ready`); the time that it remembers changes with a normal stint alone.
-/
import Cuelist.Desk.Crew
import Cuelist.Proofs.Player

namespace Cuelist

variable {σ : Type} {x : Executor σ} {t : TaskId}

/-! ## Around a player -/

/-- A change of the world that leaves a task alone and does not turn the clock back. -/
structure World.Passing (t : TaskId) (w w' : World σ) : Prop where
  task : w'.tasks t = w.tasks t
  known : w.taskCount ≤ w'.taskCount
  later : w.now ≤ w'.now

namespace World.Passing

variable {w w' w'' : World σ}

theorem refl (w : World σ) : Passing t w w := ⟨rfl, Nat.le_refl _, Nat.le_refl _⟩

theorem trans (hp : Passing t w w') (hp' : Passing t w' w'') : Passing t w w'' :=
  ⟨hp'.task.trans hp.task, Nat.le_trans hp.known hp'.known, Nat.le_trans hp.later hp'.later⟩

theorem observe (v : World σ) (e : Event) (hp : Passing t w v) : Passing t w (v.observe e) :=
  ⟨hp.task, hp.known, hp.later⟩

theorem tell (w : World σ) (r : Reporter) (n : Notice) : Passing t w (w.tell r n) :=
  tell_keeps observe (refl w) r n

theorem ring (w : World σ) (b : Bell) : Passing t w (w.ring b) := by
  rw [ring_eq]; exact ⟨rfl, Nat.le_refl _, Nat.le_refl _⟩

theorem setQueue (w : World σ) (h : Handle) (q : Queue) : Passing t w (w.setQueue h q) :=
  ⟨rfl, Nat.le_refl _, Nat.le_refl _⟩

theorem setWaiting (w : World σ) (id : EntryId) (waiting : Bool) :
    Passing t w (w.setWaiting id waiting) :=
  ⟨rfl, Nat.le_refl _, Nat.le_refl _⟩

theorem enqueue {h : Handle} {e : Entry} (he : w.enqueue h e = .ok w') : Passing t w w' := by
  rw [enqueue_eq he]; exact (setQueue w h _).trans (ring ..)

theorem clear (w : World σ) (h : Handle) : Passing t w (w.clear h).2 :=
  (setQueue w h _).trans (ring ..)

theorem stop (w : World σ) (h : Handle) : Passing t w (w.stop h).2 :=
  (setQueue w h _).trans (ring ..)

theorem markFinished (w : World σ) (id : EntryId) (finished : Bool) :
    Passing t w (w.markFinished id finished) := by
  cases finished with
  | true => exact (setWaiting w id false).trans (ring ..)
  | false => exact setWaiting w id true

theorem finish (w : World σ) (r : Reporter) (h : Handle) (c : Claim)
    (result : Except CommandError Unit) : Passing t w (w.finish r h c result).2 := by
  rw [finish_eq]; exact ⟨rfl, Nat.le_refl _, Nat.le_refl _⟩

theorem spawn (hk : t.number < w.taskCount) (task : Task) : Passing t w (w.spawn task) := by
  have hne : t ≠ ⟨w.taskCount⟩ := fun hc => by rw [hc] at hk; exact Nat.lt_irrefl _ hk
  rw [spawn_eq]
  exact ⟨put_other _ _ hne, Nat.le_succ _, Nat.le_refl _⟩

/-- Time passes. -/
theorem tick {time : Nat} (h : w.now ≤ time) : Passing t w { w with now := time } :=
  ⟨rfl, Nat.le_refl _, h⟩

/-- Others advance a queue, with an executor that passes. -/
theorem step (hx : ∀ e v, t.number < v.taskCount → Passing t v (x.dispatch e v).world)
    (w : World σ) (hk : t.number < w.taskCount) (h : Handle) : Passing t w (x.step h w).2 :=
  Executor.step_keeps (P := Passing t w) (setQueue w h _)
    (fun e v hv => hv.trans (hx e v (Nat.lt_of_lt_of_le hk hv.known)))
    fun _ _ _ hv => hv.trans (finish ..)

end World.Passing

/-- The bundled commands pass. -/
theorem World.passing_bundled (directory : Narrate.Directory) (resolver : Resolver)
    (reporter : Reporter) (scripts : Library) (e : Entry) (w : World σ)
    (hk : t.number < w.taskCount) :
    let x : Executor σ := ⟨Registry.empty.withBundled directory, resolver, reporter, scripts⟩
    Passing t w (x.dispatch e w).world := by
  intro x
  refine Executor.bundled_keeps (x := x) (P := Passing t w) (fun _ => Registry.mem_withBundled)
    Passing.observe (fun v id d hv => ?_) e (.refl w)
  unfold Wait.arm
  split
  · have hwait := hv.trans (.setWaiting _ id true)
    exact hwait.trans (.spawn (Nat.lt_of_lt_of_le hk hwait.known) _)
  · exact hv.trans (.markFinished _ id true)

/-! ## What a poll comes to -/

/-- One entry that a player ran. -/
structure Stint where
  instant : Bool
  /-- The time at which the entry was handed out. -/
  began : Nat
  /-- The time at which its run was over. -/
  ended : Nat
deriving Repr, DecidableEq

namespace World

/-- Whether a task is a player, but for its rest, and the clock shows a time. -/
def Shows (t : TaskId) (p : Player) (now : Nat) (w : World σ) : Prop :=
  w.now = now ∧ ∃ r, w.tasks t = .player { p with rest := r }

/-- A poll that runs nothing: it comes to the same whatever entries do when they run, no run
    is finished, no time passes, and the player changes its rest at most. -/
structure Idles (x : Executor σ) (w : World σ) (t : TaskId) (p : Player) : Prop where
  any : ∀ x', w.poll x' t = w.poll x t
  executed : ∀ h, ((w.poll x t).queues h).executed = (w.queues h).executed
  shows : Shows t p w.now (w.poll x t)

/-- The stints that a poll of a player comes to. -/
inductive Polled (x : Executor σ) (w : World σ) (t : TaskId) : List Stint → Prop
  | idle {p : Player} (task : w.tasks t = .player p) (idles : w.Idles x t p) : Polled x w t []
  /-- The queue hands out an entry, and the poll is the step that runs it. -/
  | run {p : Player} {c : Claim} {v u : World σ} {record : Record}
      (task : w.tasks t = .player p) (claimed : w.takeNext p.queue = (.ready c, v))
      (stepped : x.step p.queue w = (.ran record, u))
      (polled : w.poll x t = u.setTask t (.player (p.afterRun u.now c.entry.instant))) :
      Polled x w t [⟨c.entry.instant, w.now, u.now⟩]

variable {w w' : World σ} {p : Player} {ss ss' : List Stint}

/-- **What a poll comes to is told by the poll.** -/
theorem Polled.unique (h : w.Polled x t ss) (h' : w.Polled x t ss') : ss = ss' := by
  -- A player that ran an entry has played one more.
  have hplayed : ∀ {p p' : Player} {u : World σ} {instant : Bool}, w.tasks t = .player p →
      w.tasks t = .player p' → w.Idles x t p →
      w.poll x t ≠ u.setTask t (.player (p'.afterRun u.now instant)) := by
    intro p p' u instant ht ht' hidles hpoll
    obtain rfl := Task.player.inj (ht.symm.trans ht')
    obtain ⟨-, r, hr⟩ := hidles.shows
    have htask := (congrArg (World.tasks · t) hpoll).symm.trans hr
    have hplayed := congrArg Player.played (Task.player.inj ((put_same ..).symm.trans htask))
    simp [Player.afterRun] at hplayed
  cases h with
  | idle ht hidles =>
    cases h' with
    | idle => rfl
    | run ht' _ _ hpoll => exact (hplayed ht ht' hidles hpoll).elim
  | run ht hclaim hstep hpoll =>
    cases h' with
    | idle ht' hidles => exact (hplayed ht' ht hidles hpoll).elim
    | run ht' hclaim' hstep' =>
      obtain rfl := Task.player.inj (ht.symm.trans ht')
      obtain ⟨hc, rfl⟩ := Prod.mk.inj (hclaim.symm.trans hclaim')
      obtain ⟨-, rfl⟩ := Prod.mk.inj (hstep.symm.trans hstep')
      obtain rfl := Next.ready.inj hc
      rfl

theorem shows_rest (w : World σ) (p : Player) (r : Rest) : Shows t p w.now (w.rest t p r) :=
  ⟨rfl, r, put_same ..⟩

/-- A look of a player takes no time. -/
theorem Looks.shows (hl : Looks t p w w') : Shows t p w.now w' := by
  obtain ⟨v, r, ⟨_, _, _, rfl⟩, -, rfl⟩ := hl
  exact shows_rest _ p r

theorem Looks.queues (hl : Looks t p w w') : w'.queues = w.queues := by
  obtain ⟨v, r, ⟨_, _, _, rfl⟩, -, rfl⟩ := hl
  rfl

theorem now_finish (w : World σ) (r : Reporter) (h : Handle) (c : Claim)
    (result : Except CommandError Unit) : (w.finish r h c result).2.now = w.now := by
  rw [finish_eq]

/-- The clock at a run: no time passes but while the entry runs. -/
theorem now_of_ran {h : Handle} {c : Claim} {v u : World σ} {record : Record}
    (htake : w.takeNext h = (.ready c, v)) (hstep : x.step h w = (.ran record, u)) :
    v.now = w.now ∧ u.now = (x.dispatch c.entry v).world.now := by
  obtain ⟨-, rfl⟩ := Prod.mk.inj ((Executor.step_ready htake).symm.trans hstep)
  exact ⟨by rw [← (Prod.mk.inj htake).2]; rfl, now_finish ..⟩

/-- A take finishes no run. -/
theorem executed_takeNext (w : World σ) (h h' : Handle) :
    ((w.takeNext h).2.queues h').executed = (w.queues h').executed := by
  have hq : ∀ (waiting : EntryId → Bool) (q : Queue),
      (q.takeNext waiting).2.executed = q.executed := by
    intro waiting q
    unfold Queue.takeNext
    split
    · rfl
    · split
      · rfl
      · split <;> rfl
  by_cases hh : h' = h
  · subst hh
    exact (congrArg Queue.executed (queues_setQueue w h' _)).trans (hq ..)
  · exact congrArg Queue.executed (put_other _ _ hh)

/-- Nothing holds a queue that hands out an entry. -/
theorem holder_of_ready {waiting : EntryId → Bool} {q q' : Queue} {c : Claim}
    (hn : q.takeNext waiting = (.ready c, q')) : q.holder? waiting = none := by
  cases hh : q.holder? waiting with
  | none => rfl
  | some id =>
    cases hd : q.dispatching with
    | true => rw [Queue.takeNext_busy hd] at hn; cases hn
    | false => rw [Queue.takeNext_awaiting hd hh] at hn; cases hn

/-- A player that asks for an entry knows whether the first one is instant.  If it is
    not and no entry holds the queue, the time of the player has come. -/
theorem of_chance_ask {instant : Bool} (hc : w.chance p = .ask instant) :
    instant = (w.queues p.queue).nextIsInstant ∧
      (instant = false → w.holder? p.queue = none →
        ∀ due, p.nextNormal = some due → due ≤ w.now) := by
  simp only [chance] at hc
  split at hc
  · cases hc
  split at hc
  next hnext => exact ⟨(Chance.ask.inj hc).symm, fun _ _ due hd => by rw [hnext] at hd; cases hd⟩
  next due hnext =>
    split at hc
    next hor =>
      obtain rfl := Chance.ask.inj hc
      refine ⟨rfl, fun hi hh due' hd => ?_⟩
      obtain rfl := Option.some.inj (hnext.symm.trans hd)
      simpa [hi, hh] using hor
    next => cases hc

/-- **What a player is handed out at its turn is the first entry**, and that is a normal one
    only if the time of the player has come. -/
theorem due_of_ready {instant : Bool} {c : Claim} {v : World σ} (hask : w.chance p = .ask instant)
    (htake : w.takeNext p.queue = (.ready c, v)) :
    instant = c.entry.instant ∧
      (instant = false → ∀ due, p.nextNormal = some due → due ≤ w.now) := by
  rcases hn : (w.queues p.queue).takeNext w.waiting with ⟨next, q⟩
  obtain ⟨rfl, rfl⟩ := Prod.mk.inj ((World.takeNext_eq hn).symm.trans htake)
  obtain ⟨e, rest, hp, rfl, -⟩ := Queue.takeNext_eq_ready hn
  obtain ⟨rfl, hdue⟩ := of_chance_ask hask
  exact ⟨by simp [Queue.nextIsInstant, hp], fun hi => hdue hi (holder_of_ready hn)⟩

theorem idles_of_poll (w' : World σ) (hpoll : ∀ x' : Executor σ, w.poll x' t = w')
    (hexecuted : ∀ h, (w'.queues h).executed = (w.queues h).executed)
    (hshows : Shows t p w.now w') : w.Idles x t p where
  any x' := (hpoll x').trans (hpoll x).symm
  executed := by rwa [hpoll x]
  shows := by rwa [hpoll x]

/-- A player that is not awake runs nothing. -/
theorem idles_of_asleep (ht : w.tasks t = .player p) (ha : p.rest ≠ .awake) : w.Idles x t p := by
  refine idles_of_poll (w.poll x t) (fun x' => ?_) (fun h => ?_) ?_
  · simp only [World.poll, World.advance, ht, advancePlayer]
    cases hr : p.rest with
    | awake => exact absurd hr ha
    | delayed | holding | idle | gone => rfl
  · by_cases hg : p.rest = .gone
    · rw [poll_gone ht hg]
    · rw [(poll_looks ht ha hg).queues]
  · by_cases hg : p.rest = .gone
    · rw [poll_gone ht hg]
      exact ⟨rfl, p.rest, ht⟩
    · exact (poll_looks ht ha hg).shows

/-- A player that runs an entry at its turn counts it. -/
theorem poll_of_ran {instant : Bool} {u : World σ} {record : Record}
    (ht : w.tasks t = .player p) (ha : p.rest = .awake) (hask : w.chance p = .ask instant)
    (hstep : x.step p.queue w = (.ran record, u)) :
    w.poll x t = u.setTask t (.player (p.afterRun u.now instant)) := by
  rw [poll_awake ht ha]
  simp only [play, hask, hstep]

/-- **A poll runs nothing, or it runs the first entry of the queue**, at the time of the
    player if that is a normal one. -/
theorem poll_cases (x : Executor σ) (ht : w.tasks t = .player p) :
    w.Idles x t p ∨ ∃ c v record u, w.takeNext p.queue = (.ready c, v) ∧
      x.step p.queue w = (.ran record, u) ∧
        w.poll x t = u.setTask t (.player (p.afterRun u.now c.entry.instant)) ∧
          (c.entry.instant = false → ∀ due, p.nextNormal = some due → due ≤ w.now) := by
  by_cases ha : p.rest ≠ .awake
  · exact .inl (idles_of_asleep ht ha)
  have ha : p.rest = .awake := by simpa using ha
  cases hask : w.chance p with
  | leave =>
    exact .inl (idles_of_poll (w.depart t p)
      (fun x' => by simp only [poll_awake ht ha, play, hask]) (fun _ => rfl)
      (shows_rest w p .gone))
  | delay due =>
    exact .inl (idles_of_poll (w.rest t p (.delayed due))
      (fun x' => by simp only [poll_awake ht ha, play, hask]) (fun _ => rfl)
      (shows_rest w p (.delayed due)))
  | ask instant =>
    rcases hn : w.takeNext p.queue with ⟨next, v⟩
    have hexecuted : ∀ h, (v.queues h).executed = (w.queues h).executed := fun h => by
      rw [← executed_takeNext w p.queue h, hn]
    have hnow : v.now = w.now := by rw [← (Prod.mk.inj hn).2]; rfl
    have hplay : ∀ x' : Executor σ, w.poll x' t = play x' w t p := fun _ => poll_awake ht ha
    simp only [play, hask, Executor.step, hn] at hplay
    cases next with
    | ready c =>
      obtain ⟨rfl, hdue⟩ := due_of_ready hask hn
      have hstep := Executor.step_ready (x := x) hn
      exact .inr ⟨c, v, _, _, rfl, hstep, poll_of_ran ht ha hask hstep, hdue⟩
    | awaiting id =>
      exact .inl (idles_of_poll _ hplay hexecuted (hnow ▸ shows_rest v p (.holding id)))
    | busy => exact .inl (idles_of_poll _ hplay hexecuted (hnow ▸ shows_rest v p .idle))
    | empty =>
      refine .inl (idles_of_poll _ hplay ?_ ?_) <;> cases p.leavesWhenDrained
      · exact hexecuted
      · exact hexecuted
      · exact hnow ▸ shows_rest v p .idle
      · exact hnow ▸ shows_rest v p .gone

/-- A player that ran an entry at its turn was handed one out. -/
theorem polled_of_ran (p : Player) (record : Record) {s : Stint} (ht : w.tasks t = .player p)
    (ha : p.rest = .awake) (hask : w.chance p = .ask s.instant)
    (hran : (x.step p.queue w).1 = .ran record) (hbegan : s.began = w.now)
    (hended : s.ended = (x.step p.queue w).2.now) : w.Polled x t [s] := by
  obtain ⟨instant, began, ended⟩ := s
  subst hbegan hended
  rcases hn : w.takeNext p.queue with ⟨next, v⟩
  cases next with
  | ready c =>
    obtain ⟨rfl, -⟩ := due_of_ready hask hn
    have hstep : x.step p.queue w = (.ran record, (x.step p.queue w).2) := Prod.ext hran rfl
    exact .run ht hn hstep (poll_of_ran ht ha hask hstep)
  | awaiting | empty | busy =>
    simp only [Executor.step, hn, Next.idleTick] at hran
    cases hran

end World

/-! ## Careers -/

/-- Whether the entries that are run do not turn the clock back. -/
def Executor.Onward (x : Executor σ) : Prop :=
  ∀ e w, w.now ≤ (x.dispatch e w).world.now

/-- Whether the clock stands still while an entry runs. -/
def Executor.Prompt (x : Executor σ) : Prop :=
  ∀ e w, (x.dispatch e w).world.now = w.now

/-- The clock stands still while the bundled commands run. -/
theorem Executor.prompt_bundled (directory : Narrate.Directory) (resolver : Resolver)
    (reporter : Reporter) (scripts : Library) :
    let x : Executor σ := ⟨Registry.empty.withBundled directory, resolver, reporter, scripts⟩
    x.Prompt := by
  intro x e w
  refine Executor.bundled_keeps (x := x) (P := fun v => v.now = w.now)
    (fun _ => Registry.mem_withBundled) (fun _ _ hv => hv) (fun v id d hv => ?_) e rfl
  unfold Wait.arm
  split
  · rw [World.spawn_eq]; exact hv
  · rw [World.markFinished, if_pos rfl, World.ring_eq]; exact hv

theorem Executor.Prompt.onward (hx : x.Prompt) : x.Onward := fun e w => Nat.le_of_eq (hx e w).symm

/-- The worlds that are reached from the start of a player, with its stints so far. -/
inductive Career (x : Executor σ) (t : TaskId) (speed : Span) : World σ → List Stint → Prop
  | start {w : World σ} (h : Handle) (leaves : Bool) (new : t.number = w.taskCount) :
      Career x t speed (w.startPlayer h speed leaves) []
  | poll {w : World σ} {ss ss' : List Stint} (reached : Career x t speed w ss)
      (polled : w.Polled x t ss') : Career x t speed (w.poll x t) (ss ++ ss')
  /-- Others do something, or time passes. -/
  | meanwhile {w w' : World σ} {ss : List Stint} (reached : Career x t speed w ss)
      (passing : w.Passing t w') : Career x t speed w' ss
  /-- The player wakes up or falls asleep for no reason. -/
  | doze {w : World σ} {ss : List Stint} {p : Player} (r : Rest)
      (reached : Career x t speed w ss) (task : w.tasks t = .player p) (here : p.rest ≠ .gone) :
      Career x t speed (w.rest t p r) ss

/-- What holds of a player and its stints between its polls: the time after a normal one
    has come, or the player remembers it. -/
structure Paced (speed : Span) (p : Player) (now : Nat) (ss : List Stint) : Prop where
  pace : p.speed = speed
  played : p.played = ss.length
  past : ∀ s ∈ ss, s.began ≤ s.ended ∧ s.ended ≤ now
  due : ∀ s ∈ ss, s.instant = false →
    dueAfter s.ended speed ≤ now ∨ p.nextNormal = some (dueAfter s.ended speed)
  spaced : (ss.filter fun s => !s.instant).Pairwise fun a b => dueAfter a.ended speed ≤ b.began

section
variable {speed : Span} {p : Player} {now now' : Nat} {ss : List Stint} {s : Stint}
  {w : World σ} {ss' : List Stint}

theorem Paced.later (hp : Paced speed p now ss) (hn : now ≤ now') : Paced speed p now' ss where
  pace := hp.pace
  played := hp.played
  past s hs := ⟨(hp.past s hs).1, Nat.le_trans (hp.past s hs).2 hn⟩
  due s hs hi := (hp.due s hs hi).imp_left fun hd => Nat.le_trans hd hn
  spaced := hp.spaced

theorem Paced.rest (hp : Paced speed p now ss) (r : Rest) :
    Paced speed { p with rest := r } now ss :=
  ⟨hp.pace, hp.played, hp.past, hp.due, hp.spaced⟩

/-- **One more stint keeps the pace**, if a normal one begins when its time has come. -/
theorem Paced.stint (hp : Paced speed p now ss) (began : s.began = now) (ended : now ≤ s.ended)
    (hdue : s.instant = false → ∀ due, p.nextNormal = some due → due ≤ now) :
    Paced speed (p.afterRun s.ended s.instant) s.ended (ss ++ [s]) where
  pace := hp.pace
  played := by simp [Player.afterRun, hp.played]
  past a ha := by
    rcases List.mem_append.1 ha with ha | ha
    · exact ⟨(hp.past a ha).1, Nat.le_trans (hp.past a ha).2 ended⟩
    · obtain rfl := List.mem_singleton.1 ha
      exact ⟨began ▸ ended, Nat.le_refl _⟩
  due a ha hi := by
    rcases List.mem_append.1 ha with ha | ha
    · rcases hp.due a ha hi with hd | hd
      · exact .inl (Nat.le_trans hd ended)
      · cases hs : s.instant with
        | true => exact .inr (by simpa [Player.afterRun] using hd)
        | false => exact .inl (Nat.le_trans (hdue hs _ hd) ended)
    · obtain rfl := List.mem_singleton.1 ha
      exact .inr (by simp [Player.afterRun, hi, hp.pace])
  spaced := by
    rw [List.filter_append, List.pairwise_append]
    refine ⟨hp.spaced, ?_, fun a ha b hb => ?_⟩
    · exact (List.pairwise_singleton _ s).sublist List.filter_sublist
    · obtain ⟨ha, hi⟩ := List.mem_filter.1 ha
      obtain ⟨hb, hi'⟩ := List.mem_filter.1 hb
      obtain rfl := List.mem_singleton.1 hb
      rw [began]
      exact (hp.due a ha (by simpa using hi)).elim id fun hd => hdue (by simpa using hi') _ hd

theorem Paced.poll (hx : x.Onward) (ht : w.tasks t = .player p) (hp : Paced speed p w.now ss)
    (hpolled : w.Polled x t ss') : ∃ p', (w.poll x t).tasks t = .player p' ∧
      Paced speed p' (w.poll x t).now (ss ++ ss') := by
  obtain hidles | ⟨c, v, record, u, htake, hstep, hpoll, hdue⟩ := World.poll_cases x ht
  · obtain rfl := hpolled.unique (.idle ht hidles)
    obtain ⟨hnow, r, htask⟩ := hidles.shows
    rw [hnow, List.append_nil]
    exact ⟨_, htask, hp.rest r⟩
  · obtain rfl := hpolled.unique (.run ht htake hstep hpoll)
    obtain ⟨hv, hu⟩ := World.now_of_ran htake hstep
    rw [hpoll]
    refine ⟨_, put_same .., hp.stint (s := ⟨c.entry.instant, w.now, u.now⟩) rfl ?_ hdue⟩
    rw [hu, ← hv]
    exact hx c.entry v

theorem career_paced (hx : x.Onward) (hc : Career x t speed w ss) :
    ∃ p, w.tasks t = .player p ∧ Paced speed p w.now ss := by
  induction hc with
  | @start w h leaves new =>
    obtain ⟨n⟩ := t
    obtain rfl : n = w.taskCount := new
    refine ⟨⟨h, speed, leaves, none, 0, .awake⟩, ?_, rfl, rfl, nofun, nofun, .nil⟩
    rw [World.startPlayer, World.spawn_eq]
    exact put_same ..
  | poll _ polled ih =>
    obtain ⟨p, ht, hp⟩ := ih
    exact hp.poll hx ht polled
  | meanwhile _ passing ih =>
    obtain ⟨p, ht, hp⟩ := ih
    exact ⟨p, passing.task.trans ht, hp.later passing.later⟩
  | doze r _ task _ ih =>
    obtain ⟨p, ht, hp⟩ := ih
    obtain rfl := Task.player.inj (ht.symm.trans task)
    exact ⟨_, put_same .., hp.rest r⟩

/-- While the clock stands still during runs, stints take no time. -/
theorem career_prompt (hx : x.Prompt) (hc : Career x t speed w ss) :
    ∀ s ∈ ss, s.ended = s.began := by
  induction hc with
  | start => exact nofun
  | poll _ polled ih =>
    intro s hs
    rcases List.mem_append.1 hs with hs | hs
    · exact ih s hs
    cases polled with
    | idle => cases hs
    | run _ htake hstep =>
      obtain rfl := List.mem_singleton.1 hs
      obtain ⟨hv, hu⟩ := World.now_of_ran htake hstep
      rw [hu, hx, hv]
  | meanwhile _ _ ih => exact ih
  | doze _ _ _ _ ih => exact ih

/-- **Normal entries keep the pace of their player.**  In every career of a player,
    whatever others do in the meantime, two normal stints are at least the speed of the
    player apart, from the end of the one to the beginning of the other; if a clock
    cannot hold the end of that time, they are thirty years apart, if it can hold the
    end of these.  No stint ends before it begins, and if the clock stands still while
    entries run, each ends as it begins.  The stints are all that the player runs: it
    counts as many, and whenever it is polled, that comes to one more stint or to none. -/
theorem normal_stints_apart (hx : x.Onward) (hc : Career x t speed w ss) :
    ((ss.filter fun s => !s.instant).Pairwise fun a b =>
      (speed.endsInTime a.ended = true →
        a.ended * 1000000 + speed.nanos ≤ b.began * 1000000) ∧
      (speed.endsInTime a.ended = false → (Span.ofMillis farFuture).endsInTime a.ended = true →
        a.ended + farFuture ≤ b.began)) ∧
      (∀ s ∈ ss, s.began ≤ s.ended) ∧ (x.Prompt → ∀ s ∈ ss, s.ended = s.began) ∧
        ∃ p, w.tasks t = .player p ∧ p.played = ss.length ∧ ∃ ss', w.Polled x t ss' := by
  obtain ⟨p, ht, hp⟩ := career_paced hx hc
  have hpolled : ∃ ss', w.Polled x t ss' := by
    obtain hidles | ⟨c, v, record, u, htake, hstep, hpoll, -⟩ := World.poll_cases x ht
    · exact ⟨[], .idle ht hidles⟩
    · exact ⟨_, .run ht htake hstep hpoll⟩
  refine ⟨hp.spaced.imp fun {a b} hab => ⟨fun hends => ?_, fun hends hfar => ?_⟩,
    fun s hs => (hp.past s hs).1, fun hprompt => career_prompt hprompt hc,
    p, ht, hp.played, hpolled⟩
  · exact Nat.le_trans (dueAfter_of_endsInTime hends) (Nat.mul_le_mul_right _ hab)
  · rw [← dueAfter_of_farFuture hends hfar]
    exact hab

/-- A player runs an entry, an instant one that comes in while it waits, and at its time
    the next. -/
theorem normal_stints_apart_instant :
    let x : Executor Unit := ⟨Registry.empty.withBundled fun _ _ => none, Tag.keep, .plain, {}⟩
    let e (n : Nat) (timing : Timing) := Entry.make ⟨n⟩ timing "narrate" ["Hello"] none
    let q := { Queue.make ⟨"main"⟩ 0 with pending := [e 0 .normal, e 1 .normal] }
    let w := ((World.start () {} true).setQueue ⟨0⟩ q).startPlayer ⟨0⟩ (Span.ofMillis 5) true
    let v := { w.poll x ⟨0⟩ with now := 2 }
    let q' := { v.queues ⟨0⟩ with pending := [e 2 .instant, e 1 .normal] }
    let u := { (v.setQueue ⟨0⟩ q').poll x ⟨0⟩ with now := 5 }
    Career x ⟨0⟩ (Span.ofMillis 5) (u.poll x ⟨0⟩) [⟨false, 0, 0⟩, ⟨true, 2, 2⟩, ⟨false, 5, 5⟩] ∧
      0 * 1000000 + (Span.ofMillis 5).nanos ≤ 5 * 1000000 := by
  intro x e q w v q' u
  have hx : x.Prompt := Executor.prompt_bundled _ _ _ _
  have hfirst : w.Polled x ⟨0⟩ [⟨false, 0, 0⟩] :=
    World.polled_of_ran ⟨⟨0⟩, Span.ofMillis 5, true, none, 0, .awake⟩ ⟨⟨0⟩, "narrate", .completed⟩
      (by decide +kernel) rfl (by decide +kernel) (by decide +kernel) (by decide +kernel)
      (by decide +kernel)
  have hbetween : (v.setQueue ⟨0⟩ q').Polled x ⟨0⟩ [⟨true, 2, 2⟩] :=
    World.polled_of_ran ⟨⟨0⟩, Span.ofMillis 5, true, some 5, 1, .awake⟩
      ⟨⟨2⟩, "narrate", .completed⟩
      (by decide +kernel) rfl (by decide +kernel) (by decide +kernel) (by decide +kernel)
      (by decide +kernel)
  have hnext : u.Polled x ⟨0⟩ [⟨false, 5, 5⟩] :=
    World.polled_of_ran ⟨⟨0⟩, Span.ofMillis 5, true, some 5, 2, .awake⟩
      ⟨⟨1⟩, "narrate", .completed⟩
      (by decide +kernel) rfl (by decide +kernel) (by decide +kernel) (by decide +kernel)
      (by decide +kernel)
  have hw : Career x ⟨0⟩ (Span.ofMillis 5) (w.poll x ⟨0⟩) ([] ++ [⟨false, 0, 0⟩]) :=
    .poll (.start ⟨0⟩ true rfl) hfirst
  have hv : Career x ⟨0⟩ (Span.ofMillis 5) v _ :=
    .meanwhile hw (.tick (by decide +kernel))
  have hv' := Career.poll (.meanwhile hv (.setQueue v ⟨0⟩ q')) hbetween
  have hu : Career x ⟨0⟩ (Span.ofMillis 5) u _ :=
    .meanwhile hv' (.tick (by decide +kernel))
  have hc := hu.poll hnext
  refine ⟨hc, ?_⟩
  have hapart := (normal_stints_apart hx.onward hc).1
  exact ((List.pairwise_cons.1 hapart).1 ⟨false, 5, 5⟩ (by decide)).1 (by decide)

end

end Cuelist
