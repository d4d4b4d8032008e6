/-
  No ring is lost.

  `Tended` says where a player can be found: it is ready, or it sleeps at the bells
  that it heeds, alone at the bell of its queue.  `Sound` is what the player found
  when it went to sleep.  A driven world is `Steady` (`driven_steady`): what the
  player found is still so, or the bell of the queue rang since.

  `driven_asleep` draws the conclusion for a player that sleeps: no ring is there for
  it, so that there is nothing for it to do.  `Steady.waits` is the case of a player that
  is to leave when there is nothing left to run.
-/
import Cuelist.Proofs.Player.Discreet

namespace Cuelist

open World

variable {σ : Type} {x : Executor σ} {h : Handle} {t : TaskId}

/-! ## Where the player is -/

/-- What holds of a player, of its task and of the bells. -/
structure Tended (t : TaskId) (p : Player) (w : World σ) : Prop where
  task : w.tasks t = .player p
  known : t.number < w.taskCount
  sole : (w.bells (.queue p.queue)).Sole t
  once : ∀ b, (w.bells b).places t ≤ 1
  unheard : ∀ b, ¬p.Heeds b → (w.bells b).places t = 0
  roused : t ∈ w.ready ∨ p.Asleep w t

section
variable {p p' : Player} {w w' : World σ}

theorem Player.Asleep.ring (ha : p.Asleep w t) (b : Bell) :
    t ∈ (w.ring b).ready ∨ p.Asleep (w.ring b) t := by
  by_cases hr : t ∈ (w.ring b).ready
  · exact .inl hr
  · refine .inr ⟨ha.1, fun b' hb => ?_⟩
    exact (waiting_or_ready_ring w (ha.2 b' hb)).resolve_right hr

/-- A change of one bell keeps the player where it is, if the player stays alone
    there and is there only when it heeds the bell. -/
theorem Tended.atBell (ht : Tended t p w) {b : Bell} {l : Listeners}
    (hb : w'.bells = put w.bells b l) (hs : (w.bells b).Sole t → l.Sole t)
    (ho : l.places t ≤ 1) (hu : p.Heeds b ∨ l.places t = 0) (task : w'.tasks = w.tasks)
    (known : w'.taskCount = w.taskCount) (roused : t ∈ w'.ready ∨ p.Asleep w' t) :
    Tended t p w' where
  task := by rw [task, ht.task]
  known := by rw [known]; exact ht.known
  sole := by
    by_cases hq : .queue p.queue = b
    · rw [hb, hq, put_same]; exact hs (hq ▸ ht.sole)
    · rw [hb, put_other _ _ hq]; exact ht.sole
  once b' := by
    by_cases hq : b' = b
    · rw [hb, hq, put_same]; exact ho
    · rw [hb, put_other _ _ hq]; exact ht.once b'
  unheard b' hb' := by
    by_cases hq : b' = b
    · rw [hb, hq, put_same]; exact hu.resolve_left (hq ▸ hb')
    · rw [hb, put_other _ _ hq]; exact ht.unheard b' hb'
  roused := roused

theorem Tended.ring (ht : Tended t p w) (b : Bell) : Tended t p (w.ring b) := by
  have hplaces : (w.bells b).struck.places t = (w.bells b).places t := Listeners.places_struck
  refine ht.atBell (bells_ring w b) (fun hs => hs.struck) (hplaces ▸ ht.once b) ?_
    (tasks_ring w b) (taskCount_ring w b) ?_
  · rw [hplaces]
    exact (Classical.em (p.Heeds b)).imp_right (ht.unheard b)
  · rcases ht.roused with hr | ha
    · exact .inl (ready_subset_ring w b hr)
    · exact ha.ring b

theorem Tended.setQueue (ht : Tended t p w) (q : Queue) : Tended t p (w.setQueue h q) :=
  ⟨ht.task, ht.known, ht.sole, ht.once, ht.unheard, ht.roused⟩

theorem Tended.setWaiting (ht : Tended t p w) (id : EntryId) (waiting : Bool) :
    Tended t p (w.setWaiting id waiting) :=
  ⟨ht.task, ht.known, ht.sole, ht.once, ht.unheard, ht.roused⟩

theorem Tended.apart (ht : Tended t p w) (ha : Apart p.queue t w w') : Tended t p w' where
  task := by rw [ha.task, ht.task]
  known := Nat.lt_of_lt_of_le ht.known ha.known
  sole := by rw [ha.bell]; exact ht.sole
  once b := by
    by_cases hb : (w.bells b).places t = 0
    · rw [ha.unheard b hb]; exact Nat.zero_le 1
    · rw [ha.heard b (Nat.pos_of_ne_zero hb)]; exact ht.once b
  unheard b hb := ha.unheard b (ht.unheard b hb)
  roused := by
    rcases ht.roused with hr | hs
    · exact .inl (ha.ready hr)
    · refine .inr ⟨hs.1, fun b hb => ?_⟩
      rw [ha.heard b (Listeners.places_pos_of_waiting (hs.2 b hb))]
      exact hs.2 b hb

theorem Tended.markFinished (ht : Tended t p w) (id : EntryId) (finished : Bool) :
    Tended t p (w.markFinished id finished) := by
  cases finished with
  | true => exact (ht.setWaiting id false).ring _
  | false => exact ht.setWaiting id true

theorem Tended.nudge (ht : Tended t p w) (hn : Nudge p.queue t w w') : Tended t p w' := by
  cases hn with
  | enqueue e he => rw [enqueue_eq he]; exact (ht.setQueue _).ring _
  | clear hc => rw [hc]; exact (ht.setQueue _).ring _
  | stop hs => rw [hs]; exact (ht.setQueue _).ring _
  | signal id finished hm => rw [hm]; exact ht.markFinished id finished
  | apart ha => exact ht.apart ha

/-- A player that is awake listens to nothing and is ready. -/
theorem Tended.unheard_awake (ht : Tended t p w) (hp : p.rest = .awake) (b : Bell) :
    (w.bells b).places t = 0 :=
  ht.unheard b (by simp [Player.Heeds, hp])

theorem Tended.ready_awake (ht : Tended t p w) (hp : p.rest = .awake) : t ∈ w.ready :=
  ht.roused.resolve_right fun ha => ha.1 hp

/-- A player that is awake can become any player of its queue. -/
theorem Tended.setTask (ht : Tended t p w) (hp : p.rest = .awake) (hq : p'.queue = p.queue) :
    Tended t p' (w.setTask t (.player p')) where
  task := put_same ..
  known := ht.known
  sole := by rw [hq]; exact ht.sole
  once := ht.once
  unheard b _ := ht.unheard_awake hp b
  roused := .inl (ht.ready_awake hp)

end

/-! ## What the player found -/

/-- Whether a task that waits for the signal of an entry is the only one, and the
    signal was not given. -/
def World.Expects (w : World σ) (id : EntryId) (t : TaskId) : Prop :=
  t ∈ (w.bells (.entry id)).waiting → (w.bells (.entry id)).waiting = [t] ∧ w.waiting id = true

/-- What a player found when it went to rest. -/
def Player.Sound (p : Player) (w : World σ) (t : TaskId) : Prop :=
  let q := w.queues p.queue
  match p.rest with
  | .awake | .gone => True
  | .delayed _ => q.stopped = false ∧ q.nextIsInstant = false
  | .holding id => q.stopped = false ∧ (∃ e, q.inFlight = some e ∧ e.id = id) ∧ w.Expects id t
  | .idle => p.leavesWhenDrained = false ∧ q.stopped = false ∧ q.pending = [] ∧ q.inFlight = none

/-- What holds of a player between its polls: what it found is still so, or a ring
    of its queue is there. -/
structure Steady (t : TaskId) (p : Player) (w : World σ) : Prop extends Tended t p w where
  free : (w.queues p.queue).dispatching = false
  sound : (w.bells (.queue p.queue)).Rung t ∨ p.Sound w t

section
variable {p : Player} {w w' : World σ} {id : EntryId}

theorem World.Expects.markFinished (he : w.Expects id t) (id' : EntryId) (finished : Bool) :
    (w.markFinished id' finished).Expects id t := by
  intro hm
  rw [waiting_markFinished]
  cases finished with
  | true =>
    rw [bells_markFinished] at hm ⊢
    by_cases hid : id = id'
    · subst hid
      rw [put_same] at hm
      have hone := (he (Listeners.mem_of_mem_struck hm)).1
      simp [Listeners.struck, hone] at hm
    · have hbell : Bell.entry id ≠ .entry id' := fun hc => hid (Bell.entry.inj hc)
      rw [put_other _ _ hbell] at hm ⊢
      rw [put_other _ _ hid]
      exact he hm
  | false =>
    obtain ⟨hone, hw⟩ := he hm
    refine ⟨hone, ?_⟩
    by_cases hid : id = id'
    · subst hid; exact put_same ..
    · exact (put_other _ _ hid).trans hw

theorem World.Apart.expects (ha : Apart h t w w') {e : Entry}
    (hi : (w.queues h).inFlight = some e) (he : w.Expects e.id t) : w'.Expects e.id t := by
  intro hm
  have hpos : (w.bells (.entry e.id)).places t ≠ 0 := fun hz =>
    Nat.ne_of_gt (Listeners.places_pos_of_waiting hm) (ha.unheard _ hz)
  have hsame := ha.heard _ (Nat.pos_of_ne_zero hpos)
  rw [hsame] at hm ⊢
  rw [ha.signal e hi]
  exact he hm

/-- What the player found is still so while its queue is the same, if the same holds
    of the signal that it waits for. -/
theorem Player.Sound.congr (hs : p.Sound w t) (hq : w'.queues p.queue = w.queues p.queue)
    (he : ∀ e, (w.queues p.queue).inFlight = some e → w.Expects e.id t → w'.Expects e.id t) :
    p.Sound w' t := by
  unfold Player.Sound at hs ⊢
  rw [hq]
  cases hr : p.rest with
  | holding id =>
    rw [hr] at hs
    obtain ⟨hstop, ⟨e, hi, rfl⟩, hex⟩ := hs
    exact ⟨hstop, ⟨e, hi, rfl⟩, he e hi hex⟩
  | _ => rw [hr] at hs; exact hs

theorem Tended.rung_ring (ht : Tended t p w) :
    ((w.ring (.queue p.queue)).bells (.queue p.queue)).Rung t := by
  rw [bells_ring, put_same]
  exact ht.sole.rung_struck

/-- **A nudge leaves what the player found, or rings.** -/
theorem Steady.nudge (hs : Steady t p w) (hn : Nudge p.queue t w w') : Steady t p w' where
  toTended := hs.toTended.nudge hn
  free := by
    rcases hn.queue with ⟨pending, hq⟩ | hq | hq
    · rw [hq]; exact hs.free
    · rw [hq]; rfl
    · rw [hq]; rfl
  sound := by
    cases hn with
    | enqueue e he => rw [enqueue_eq he]; exact .inl (hs.toTended.setQueue _).rung_ring
    | clear hc => rw [hc]; exact .inl (hs.toTended.setQueue _).rung_ring
    | stop hc => rw [hc]; exact .inl (hs.toTended.setQueue _).rung_ring
    | signal id finished hm =>
      rw [hm, bells_queue_markFinished]
      refine hs.sound.imp_right fun hf => hf.congr (by rw [queues_markFinished]) fun e _ he => ?_
      exact he.markFinished id finished
    | apart ha =>
      rw [ha.bell]
      exact hs.sound.imp_right fun hf => hf.congr ha.queue fun e hi he => ha.expects hi he

end

/-! ## The player takes a turn -/

/-- Whether no entry is in flight, and any claim that counts is of generation `g`. -/
def Queue.Lent (g : Nat) (q : Queue) : Prop :=
  q.inFlight = none ∧ (q.dispatching = true → q.generation = g)

section
variable {p p' : Player} {w w' : World σ} {g : Nat}

theorem Queue.Lent.nudge (hl : (w.queues h).Lent g) (hn : Nudge h t w w') :
    (w'.queues h).Lent g := by
  rcases hn.queue with ⟨pending, hq⟩ | hq | hq
  · rw [hq]; exact hl
  · rw [hq]; exact ⟨rfl, nofun⟩
  · rw [hq]; exact ⟨rfl, nofun⟩

theorem Tended.nudges (ht : Tended t p w) (hl : (w.queues p.queue).Lent g)
    (hn : Nudges p.queue t w w') : Tended t p w' ∧ (w'.queues p.queue).Lent g := by
  induction hn with
  | refl => exact ⟨ht, hl⟩
  | tail _ hn ih => exact ⟨ih.1.nudge hn, ih.2.nudge hn⟩

/-- Nobody has a claim that counts after the claim came back. -/
theorem Queue.Lent.finish {waiting : EntryId → Bool} {q : Queue} {c : Claim}
    {result : Except CommandError Unit} (hl : q.Lent c.generation) :
    (q.finish waiting c result).2.dispatching = false := by
  by_cases hc : c.generation = q.generation
  · exact Queue.finish_dispatching hc
  · rw [Queue.finish_stale hc]
    exact Bool.eq_false_iff.2 fun hd => hc (hl.2 hd).symm

theorem Tended.tell (ht : Tended t p w) (r : Reporter) (n : Notice) : Tended t p (w.tell r n) := by
  rw [tell_eq]
  exact ⟨ht.task, ht.known, ht.sole, ht.once, ht.unheard, ht.roused⟩

theorem Tended.finish (ht : Tended t p w) (r : Reporter) (c : Claim)
    (result : Except CommandError Unit) : Tended t p (w.finish r h c result).2 := by
  have hq : Tended t p (if c.generation = (w.queues h).generation then
      (w.setQueue h ((w.queues h).finish w.waiting c result).2).ring (.queue h)
      else w.setQueue h ((w.queues h).finish w.waiting c result).2) := by
    split
    · exact (ht.setQueue _).ring _
    · exact ht.setQueue _
  cases result with
  | ok => exact hq
  | error err => exact hq.tell r _

/-- A player that is awake can go to rest with what it finds. -/
theorem Tended.rest (ht : Tended t p w) (hp : p.rest = .awake) {r : Rest}
    (free : (w.queues p.queue).dispatching = false)
    (found : Player.Sound { p with rest := r } w t) :
    Steady t { p with rest := r } (w.rest t p r) where
  toTended := ht.setTask hp rfl
  free := free
  sound := .inr found

theorem Tended.depart (ht : Tended t p w) (hp : p.rest = .awake)
    (free : (w.queues p.queue).dispatching = false) :
    Steady t { p with rest := .gone } (w.depart t p) := by
  have hs : Steady t { p with rest := .gone } (w.rest t p .gone) := ht.rest hp free trivial
  exact ⟨⟨hs.task, hs.known, hs.sole, hs.once, hs.unheard, hs.roused⟩, hs.free, hs.sound⟩

/-- An entry that runs for the player leaves the player where it is, and no claim
    out. -/
theorem Tended.run (ht : Tended t p w) (hp : p.rest = .awake) (hx : Discreet p.queue t x)
    {c : Claim} {q : Queue} (hn : w.takeNext p.queue = (.ready c, w.setQueue p.queue q))
    (hq : q.Lent c.generation) :
    ∃ record w', x.step p.queue w = (.ran record, w') ∧ Tended t p w' ∧
      (w'.queues p.queue).dispatching = false := by
  have hset : Tended t p (w.setQueue p.queue q) := ht.setQueue q
  have hlent : ((w.setQueue p.queue q).queues p.queue).Lent c.generation := by
    rw [queues_setQueue]; exact hq
  have hran := hx c.entry _ ⟨hlent.1, hset.known, hset.unheard_awake hp⟩
  obtain ⟨hreply, hback⟩ := hset.nudges hlent hran
  refine ⟨_, _, Executor.step_ready hn, hreply.finish _ _ _, ?_⟩
  rw [queues_finish]
  exact Queue.Lent.finish hback

/-- **A turn of the player leaves it steady.** -/
theorem Steady.play (hs : Steady t p w) (hx : Discreet p.queue t x) (hp : p.rest = .awake) :
    ∃ p', p'.queue = p.queue ∧ Steady t p' (World.play x w t p) := by
  have ht := hs.toTended
  unfold World.play
  split
  next hc => exact ⟨{ p with rest := .gone }, rfl, ht.depart hp hs.free⟩
  next due hc => exact ⟨{ p with rest := .delayed due }, rfl, ht.rest hp hs.free (chance_delay hc)⟩
  next instant hc =>
    cases hh : (w.queues p.queue).holder? w.waiting with
    | some id =>
      have hn := World.takeNext_eq (Queue.takeNext_awaiting hs.free hh)
      rw [setQueue_self] at hn
      rw [Executor.step_awaiting hn]
      obtain ⟨e, hi, hid, -⟩ := Queue.holder?_eq_some.1 hh
      have hno : t ∉ (w.bells (.entry id)).waiting :=
        (Listeners.places_eq_zero.1 (ht.unheard_awake hp _)).1
      refine ⟨{ p with rest := .holding id }, rfl, ht.rest hp hs.free ?_⟩
      exact ⟨chance_ask hc, ⟨e, hi, hid⟩, fun hm => (hno hm).elim⟩
    | none =>
      cases hl : (w.queues p.queue).pending with
      | nil =>
        have hn := World.takeNext_eq (Queue.takeNext_empty hs.free hh hl)
        let q := { w.queues p.queue with inFlight := none }
        have hstep : x.step p.queue w = (.empty, w.setQueue p.queue q) := Executor.step_empty hn
        have hq : (w.setQueue p.queue q).queues p.queue = q := queues_setQueue ..
        have hfree : ((w.setQueue p.queue q).queues p.queue).dispatching = false := by
          rw [hq]; exact hs.free
        rw [hstep]
        cases hlv : p.leavesWhenDrained with
        | true => exact ⟨{ p with rest := .gone }, rfl, (ht.setQueue q).depart hp hfree⟩
        | false =>
          refine ⟨{ p with rest := .idle }, rfl, (ht.setQueue q).rest hp hfree ?_⟩
          simp only [Player.Sound, hq]
          exact ⟨hlv, chance_ask hc, hl, rfl⟩
      | cons e rest =>
        have hn := World.takeNext_eq (Queue.takeNext_ready hs.free hh hl)
        obtain ⟨record, w', hstep, hran, hfree⟩ := ht.run hp hx hn ⟨rfl, fun _ => rfl⟩
        rw [hstep]
        refine ⟨p.afterRun w'.now instant, rfl, hran.setTask hp rfl, hfree, .inr ?_⟩
        simp [Player.Sound, Player.afterRun, hp]

end

/-! ## The player looks whether there is news -/

section
variable {p : Player} {w w' : World σ} {b : Bell}

theorem Tended.listen (ht : Tended t p w) (hr : t ∈ w.ready) (hb : p.Heeds b) {rung : Bool}
    (hl : w.listen b t = (rung, w')) : Tended t p w' :=
  ht.atBell (bells_listen hl) (fun hs => hs.look) (Listeners.places_look (ht.once b)) (.inl hb)
    (tasks_listen hl) (taskCount_listen hl) (.inl (by rw [ready_listen hl]; exact hr))

theorem Tended.places_leave (ht : Tended t p w) (b : Bell) :
    ((w.leave b t).bells b).places t = 0 := by
  rw [bells_leave, put_same]; exact Listeners.places_without (ht.once b)

theorem Tended.leave (ht : Tended t p w) (hr : t ∈ w.ready) (b : Bell) :
    Tended t p (w.leave b t) := by
  have hzero : ((w.bells b).without t).places t = 0 := Listeners.places_without (ht.once b)
  refine ht.atBell (bells_leave w b t) (fun hs => hs.without) ?_ (.inr hzero) ?_ ?_
    (.inl (ready_subset_leave w b t hr))
  · rw [hzero]; exact Nat.zero_le 1
  · rw [leave_eq]
  · rw [leave_eq]

/-- A player that left all its bells can be awake. -/
theorem Tended.wakeUp (ht : Tended t p w) (hr : t ∈ w.ready)
    (hfree : (w.queues p.queue).dispatching = false)
    (hz : ∀ b, p.Heeds b → (w.bells b).places t = 0) :
    Steady t { p with rest := .awake } (w.rest t p .awake) := by
  have hall : ∀ b, (w.bells b).places t = 0 := fun b =>
    (Classical.em (p.Heeds b)).elim (hz b) (ht.unheard b)
  exact ⟨⟨put_same .., ht.known, ht.sole, ht.once, fun b _ => hall b, .inl hr⟩, hfree, .inr trivial⟩

/-- A player sleeps when it waits at every bell that it heeds. -/
theorem Tended.sleep (ht : Tended t p w) (hp : p.rest ≠ .awake)
    (hfree : (w.queues p.queue).dispatching = false)
    (hw : ∀ b, p.Heeds b → t ∈ (w.bells b).waiting) (hs : p.Sound w t) :
    Steady t p { w with ready := w.ready.erase t } :=
  ⟨⟨ht.task, ht.known, ht.sole, ht.once, ht.unheard, .inr ⟨hp, hw⟩⟩, hfree, .inr hs⟩

theorem Tended.setTimers (ht : Tended t p w) (timers : List Timer) :
    Tended t p { w with timers } :=
  ⟨ht.task, ht.known, ht.sole, ht.once, ht.unheard, ht.roused⟩

theorem Steady.setTimers (hs : Steady t p w) (timers : List Timer) :
    Steady t p { w with timers } :=
  ⟨⟨hs.task, hs.known, hs.sole, hs.once, hs.unheard, hs.roused⟩, hs.free, hs.sound⟩

theorem Steady.arm (hs : Steady t p w) (due : Nat) : Steady t p (w.arm due t) := by
  rw [arm_eq]; exact hs.setTimers _

/-- A look that finds no ring of the queue finds things as they were. -/
theorem Steady.unchanged (hs : Steady t p w) (hl : w.listen (.queue p.queue) t = (false, w')) :
    p.Sound w' t := by
  have hfound : p.Sound w t := hs.sound.resolve_left fun hc => by
    have hrung := hs.sole.look_fst.2 hc
    rw [(of_listen hl).1] at hrung
    cases hrung
  refine hfound.congr (by rw [queues_listen hl]) fun e _ he => ?_
  unfold Expects
  rw [bells_listen_other hl (by simp), waiting_listen hl]
  exact he

/-- **A player that finds a ring of its queue wakes up**, whatever else it waits
    for. -/
theorem Steady.rouse (hs : Steady t p w) (hr : t ∈ w.ready) (hb : p.Heeds (.queue p.queue))
    (hl : w.listen (.queue p.queue) t = (true, w')) :
    Steady t { p with rest := .awake } (w'.rouse t p) := by
  have ht := hs.toTended.listen hr hb hl
  have hr' : t ∈ w'.ready := by rw [ready_listen hl]; exact hr
  have hfree : (w'.queues p.queue).dispatching = false := by rw [queues_listen hl]; exact hs.free
  have hz : (w'.bells (.queue p.queue)).places t = 0 := places_listen_true hl (hs.once _)
  unfold World.rouse
  cases hp : p.rest with
  | delayed due =>
    refine (ht.setTimers _).wakeUp hr' hfree fun b hh => ?_
    obtain rfl : b = .queue p.queue := by simpa [Player.Heeds, hp] using hh
    exact hz
  | holding id =>
    refine (ht.leave hr' _).wakeUp (ready_subset_leave _ _ _ hr') ?_ fun b hh => ?_
    · rw [queues_leave]; exact hfree
    · obtain rfl | rfl : b = .queue p.queue ∨ b = .entry id := by
        simpa [Player.Heeds, hp] using hh
      · rw [bells_leave_other _ _ (by simp)]; exact hz
      · exact ht.places_leave _
  | idle =>
    refine ht.wakeUp hr' hfree fun b hh => ?_
    obtain rfl : b = .queue p.queue := by simpa [Player.Heeds, hp] using hh
    exact hz
  | awake | gone => simp [Player.Heeds, hp] at hb

/-- A player that heeds its queue alone sleeps when it finds no ring. -/
theorem Steady.doze (hs : Steady t p w) (hr : t ∈ w.ready) (hp : p.rest ≠ .awake)
    (heeds : ∀ b, p.Heeds b ↔ b = .queue p.queue)
    (hl : w.listen (.queue p.queue) t = (false, w')) :
    Steady t p { w' with ready := w'.ready.erase t } := by
  have ht := hs.toTended.listen hr ((heeds _).2 rfl) hl
  have hfree : (w'.queues p.queue).dispatching = false := by rw [queues_listen hl]; exact hs.free
  refine ht.sleep hp hfree (fun b hb => ?_) (hs.unchanged hl)
  rw [(heeds b).1 hb]
  exact (waiting_listen_false hl).1

theorem Steady.watchQueue (hs : Steady t p w) (hr : t ∈ w.ready) (hp : p.rest = .idle) :
    ∃ p', p'.queue = p.queue ∧ Steady t p' (afterTurn t (w.watchQueue t p)) := by
  have heeds : ∀ b, p.Heeds b ↔ b = .queue p.queue := fun b => by simp [Player.Heeds, hp]
  rcases hl : w.listen (.queue p.queue) t with ⟨rung, w'⟩
  simp only [World.watchQueue, hl]
  cases rung with
  | true =>
    have hs' := hs.rouse hr ((heeds _).2 rfl) hl
    simp only [World.rouse, hp] at hs'
    exact ⟨{ p with rest := .awake }, rfl, hs'⟩
  | false => exact ⟨p, rfl, hs.doze hr (by simp [hp]) heeds hl⟩

theorem Steady.watchDelay (hs : Steady t p w) (hr : t ∈ w.ready) {due : Nat}
    (hp : p.rest = .delayed due) :
    ∃ p', p'.queue = p.queue ∧ Steady t p' (afterTurn t (w.watchDelay t p due)) := by
  have heeds : ∀ b, p.Heeds b ↔ b = .queue p.queue := fun b => by simp [Player.Heeds, hp]
  unfold World.watchDelay
  split
  · have ht : Tended t p (w.disarm t) := hs.toTended.setTimers _
    refine ⟨{ p with rest := .awake }, rfl,
      (ht.leave hr _).wakeUp (ready_subset_leave _ _ _ hr) ?_ fun b hb => ?_⟩
    · rw [queues_leave]; exact hs.free
    · rw [(heeds b).1 hb]; exact ht.places_leave _
  · have hs' := hs.arm due
    have hr' : t ∈ (w.arm due t).ready := by rw [arm_eq]; exact hr
    rcases hl : (w.arm due t).listen (.queue p.queue) t with ⟨rung, w'⟩
    cases rung with
    | true =>
      have hs' := hs'.rouse hr' ((heeds _).2 rfl) hl
      simp only [World.rouse, hp] at hs'
      exact ⟨{ p with rest := .awake }, rfl, hs'⟩
    | false => exact ⟨p, rfl, hs'.doze hr' (by simp [hp]) heeds hl⟩

/-- A player that looks for the signal of the entry in flight is the only one who
    does, and if it waits for the signal, the signal was not given. -/
theorem World.Expects.listen {e : Entry} (he : w.Expects e.id t)
    (ha : ∀ t' ∈ (w.bells (.entry e.id)).waiting, t' = t)
    (hw : w.listens (.entry e.id) t = true ∨ w.waiting e.id = true)
    (ho : (w.bells (.entry e.id)).places t ≤ 1) {rung : Bool}
    (hl : w.listen (.entry e.id) t = (rung, w')) : w'.Expects e.id t := by
  intro hm
  rw [waiting_listen hl]
  cases rung with
  | true =>
    have hpos := Listeners.places_pos_of_waiting hm
    rw [places_listen_true hl ho] at hpos
    exact absurd hpos (Nat.lt_irrefl 0)
  | false =>
    obtain ⟨-, hsame | ⟨hzero, hnew⟩⟩ := waiting_listen_false hl
    · rw [hsame] at hm ⊢
      exact he hm
    · have hnone : (w.bells (.entry e.id)).waiting = [] :=
        List.eq_nil_iff_forall_not_mem.2 fun t' ht' =>
          (Listeners.places_eq_zero.1 hzero).1 (ha t' ht' ▸ ht')
      rw [hnew, hnone]
      exact ⟨rfl, hw.resolve_left fun hc => listens_iff.1 hc hzero⟩

theorem Steady.listenEntry (hs : Steady t p w) (ha : Alone p.queue t w) (hr : t ∈ w.ready)
    {id : EntryId} (hp : p.rest = .holding id)
    (hw : w.listens (.entry id) t = true ∨ w.waiting id = true) {rung : Bool}
    (hl : w.listen (.entry id) t = (rung, w')) : Steady t p w' where
  toTended := hs.toTended.listen hr (by simp [Player.Heeds, hp]) hl
  free := by rw [queues_listen hl]; exact hs.free
  sound := by
    rw [bells_listen_other hl (by simp)]
    refine hs.sound.imp_right fun hf => ?_
    simp only [Player.Sound, hp, queues_listen hl] at hf ⊢
    obtain ⟨hstop, ⟨e, hi, rfl⟩, hex⟩ := hf
    exact ⟨hstop, ⟨e, hi, rfl⟩, hex.listen (ha e hi) hw (hs.once _) hl⟩

theorem Steady.watchEntry (hs : Steady t p w) (ha : Alone p.queue t w) (hr : t ∈ w.ready)
    {id : EntryId} (hp : p.rest = .holding id) :
    ∃ p', p'.queue = p.queue ∧ Steady t p' (afterTurn t (w.watchEntry t p id)) := by
  have heeds : ∀ b, p.Heeds b ↔ b = .queue p.queue ∨ b = .entry id := fun b => by
    simp [Player.Heeds, hp]
  unfold World.watchEntry
  split
  next hw =>
    -- The player looks at both bells, first for the signal and then for the queue.
    rcases hl : w.listen (.entry id) t with ⟨signalled, w₁⟩
    have hs₁ := hs.listenEntry ha hr hp (by simpa using hw) hl
    have hr₁ : t ∈ w₁.ready := by rw [ready_listen hl]; exact hr
    cases signalled with
    | true => exact ⟨p, rfl, hs₁⟩
    | false =>
      rcases hlq : w₁.listen (.queue p.queue) t with ⟨rung, w₂⟩
      have hb : p.Heeds (.queue p.queue) := (heeds _).2 (.inl rfl)
      simp only [hlq]
      cases rung with
      | true =>
        have hs₂ := hs₁.rouse hr₁ hb hlq
        simp only [World.rouse, hp] at hs₂
        exact ⟨{ p with rest := .awake }, rfl, hs₂⟩
      | false =>
        have ht₂ := hs₁.toTended.listen hr₁ hb hlq
        have hfree : (w₂.queues p.queue).dispatching = false := by
          rw [queues_listen hlq]; exact hs₁.free
        refine ⟨p, rfl, ht₂.sleep (by simp [hp]) hfree (fun b hb => ?_) (hs₁.unchanged hlq)⟩
        rcases (heeds b).1 hb with rfl | rfl
        · exact (waiting_listen_false hlq).1
        · rw [bells_listen_other hlq (by simp)]
          exact (waiting_listen_false hl).1
  next hw =>
    have hno : (w.bells (.entry id)).places t = 0 := by
      by_cases hz : (w.bells (.entry id)).places t = 0
      · exact hz
      · exact (hw (by simp [listens_iff.2 hz])).elim
    refine ⟨{ p with rest := .awake }, rfl,
      (hs.toTended.leave hr _).wakeUp (ready_subset_leave _ _ _ hr) ?_ fun b hb => ?_⟩
    · rw [queues_leave]; exact hs.free
    · rcases (heeds b).1 hb with rfl | rfl
      · exact hs.toTended.places_leave _
      · rw [bells_leave_other _ _ (by simp)]; exact hno

/-! ## Every driven world -/

/-- **A poll leaves the player steady.** -/
theorem Steady.poll (hs : Steady t p w) (hx : Discreet p.queue t x) (ha : Alone p.queue t w)
    (hr : t ∈ w.ready) : ∃ p', p'.queue = p.queue ∧ Steady t p' (w.poll x t) := by
  have hadv : World.advance x w t = World.advancePlayer x w t p := by
    simp only [World.advance, hs.task]
  rw [World.poll, hadv, World.advancePlayer]
  cases hp : p.rest with
  | awake => exact hs.play hx hp
  | delayed due => exact hs.watchDelay hr hp
  | holding id => exact hs.watchEntry ha hr hp
  | idle => exact hs.watchQueue hr hp
  | gone =>
    have hnone : ∀ b, ¬p.Heeds b := fun b => by simp [Player.Heeds, hp]
    exact ⟨p, rfl, hs.toTended.sleep (by simp [hp]) hs.free (fun b hb => (hnone b hb).elim)
      (by simp [Player.Sound, hp])⟩

end

theorem start_steady {w : World σ} (new : t.number = w.taskCount)
    (free : (w.queues h).dispatching = false) (quiet : (w.bells (.queue h)).Sole t)
    (unheard : ∀ b, (w.bells b).places t = 0) (speed : Span) (leaves : Bool) :
    Steady t ⟨h, speed, leaves, none, 0, .awake⟩ (w.startPlayer h speed leaves) := by
  obtain ⟨n⟩ := t
  obtain rfl : n = w.taskCount := new
  have hready := mem_ready_spawn w (.player ⟨h, speed, leaves, none, 0, .awake⟩)
  rw [startPlayer, spawn_eq]
  exact ⟨⟨put_same .., Nat.lt_succ_self _, quiet,
    fun b => Nat.le_trans (Nat.le_of_eq (unheard b)) (Nat.zero_le 1), fun b _ => unheard b,
    .inl hready⟩, free, .inr trivial⟩

theorem alone_startPlayer {w : World σ} (ha : Alone h t w) (speed : Span) (leaves : Bool) :
    Alone h t (w.startPlayer h speed leaves) := by
  rw [startPlayer, spawn_eq]
  exact ha

theorem driven_steady (hx : Discreet h t x) {w : World σ} (hd : Driven x h t w) :
    Alone h t w ∧ ∃ p : Player, p.queue = h ∧ Steady t p w := by
  induction hd with
  | start new free quiet unheard alone =>
    exact ⟨alone_startPlayer alone _ _, _, rfl, start_steady new free quiet unheard _ _⟩
  | poll reached ready alone ih =>
    obtain ⟨ha, p, rfl, hs⟩ := ih
    exact ⟨alone, hs.poll hx ha ready⟩
  | rouse reached task ready heeds rung alone ih =>
    obtain ⟨-, p, rfl, hs⟩ := ih
    obtain rfl := Task.player.inj (hs.task.symm.trans task)
    exact ⟨alone, { p with rest := .awake }, rfl, hs.rouse ready heeds rung⟩
  | nudge reached nudge alone ih =>
    obtain ⟨-, p, rfl, hs⟩ := ih
    exact ⟨alone, p, rfl, hs.nudge nudge⟩

/-- **No ring is lost.**  In every driven world the player is ready or asleep.  If it
    is asleep, then after a delay the queue is not stopped and its first entry is not
    instant; while it waits for a signal the queue is not stopped, the signal is that
    of the entry in flight and it was not given; while it waits for its queue alone,
    it is not to leave, the queue is not stopped and no entry is to run or in
    flight. -/
theorem driven_asleep (hx : Discreet h t x) {w : World σ} (hd : Driven x h t w) :
    ∃ p : Player, w.tasks t = .player p ∧ p.queue = h ∧ (t ∉ w.ready → p.Asleep w t) ∧
      (p.Asleep w t →
        let q := w.queues h
        (∀ due, p.rest = .delayed due → q.stopped = false ∧ q.nextIsInstant = false) ∧
          (∀ id, p.rest = .holding id → q.stopped = false ∧ w.waiting id = true ∧
            ∃ e, q.inFlight = some e ∧ e.id = id) ∧
          (p.rest = .idle → p.leavesWhenDrained = false ∧ q.stopped = false ∧
            q.pending = [] ∧ q.inFlight = none)) := by
  obtain ⟨-, p, rfl, hs⟩ := driven_steady hx hd
  refine ⟨p, hs.task, rfl, fun hr => hs.roused.resolve_left hr, fun ha => ?_⟩
  -- No ring is there at a bell at which the player waits.
  have hfound : p.Heeds (.queue p.queue) → p.Sound w t := fun hb =>
    hs.sound.resolve_left (hs.sole.not_rung (ha.2 _ hb))
  refine ⟨fun due hp => ?_, fun id hp => ?_, fun hp => ?_⟩
  · have hf := hfound (by simp [Player.Heeds, hp])
    simpa only [Player.Sound, hp] using hf
  · have hf := hfound (by simp [Player.Heeds, hp])
    simp only [Player.Sound, hp] at hf
    obtain ⟨hstop, hi, hex⟩ := hf
    exact ⟨hstop, (hex (ha.2 _ (by simp [Player.Heeds, hp]))).2, hi⟩
  · have hf := hfound (by simp [Player.Heeds, hp])
    simpa only [Player.Sound, hp] using hf

/-- A player that finds an entry in flight sleeps until the signal is given. -/
theorem driven_asleep_holding :
    let e := Entry.make ⟨0⟩ .waitFor "hold" [] none
    let q := { Queue.make ⟨"main"⟩ 0 with inFlight := some e }
    let w : World Unit := { (World.start () {} true).setQueue ⟨0⟩ q with waiting := fun _ => true }
    let x : Executor Unit := ⟨Registry.empty.withBundled fun _ _ => none, Tag.keep, .plain, {}⟩
    let v := ((w.startPlayer ⟨0⟩ (Span.ofMillis 5) true).poll x ⟨0⟩).poll x ⟨0⟩
    v.ready = [] ∧ (v.queues ⟨0⟩).stopped = false ∧ v.waiting ⟨0⟩ = true := by
  intro e q w x v
  have hstart : Driven x ⟨0⟩ ⟨0⟩ (w.startPlayer ⟨0⟩ (Span.ofMillis 5) true) :=
    .start rfl rfl (.away false) (fun _ => rfl) fun _ _ _ hm => absurd hm List.not_mem_nil
  have hd : Driven x ⟨0⟩ ⟨0⟩ v := by
    refine .poll (.poll hstart (by decide) fun _ _ _ hm => absurd hm List.not_mem_nil)
      (by decide) fun f hf t' hm => ?_
    obtain rfl := Option.some.inj hf
    exact List.mem_singleton.1 hm
  obtain ⟨p, hp, -, hasleep, hall⟩ := driven_asleep (discreet_bundled _ _ _ _) hd
  have hready : v.ready = [] := rfl
  obtain rfl := Task.player.inj hp
  have hfound := (hall (hasleep (by simp [hready]))).2.1 ⟨0⟩ rfl
  exact ⟨hready, hfound.1, hfound.2.1⟩

/-- **A player that is to leave goes on by itself, or an entry holds its queue**: when it
    sleeps it waits for a time, or for the signal that the entry waits for. -/
theorem Steady.waits {p : Player} {w : World σ} (hs : Steady t p w) (hquiet : t ∉ w.ready)
    (hleaves : p.leavesWhenDrained = true) :
    p.rest = .gone ∨ (∃ due, p.rest = .delayed due) ∨ ∃ id, w.holder? p.queue = some id := by
  have ha : p.Asleep w t := hs.roused.resolve_left hquiet
  have hfound : p.Heeds (.queue p.queue) → p.Sound w t := fun hb =>
    hs.sound.resolve_left (hs.sole.not_rung (ha.2 _ hb))
  cases hp : p.rest with
  | awake => exact absurd hp ha.1
  | gone => exact .inl rfl
  | delayed due => exact .inr (.inl ⟨due, rfl⟩)
  | idle =>
    have hf := hfound (by simp [Player.Heeds, hp])
    simp only [Player.Sound, hp, hleaves] at hf
    cases hf.1
  | holding id =>
    have hf := hfound (by simp [Player.Heeds, hp])
    simp only [Player.Sound, hp] at hf
    obtain ⟨-, ⟨e, hi, hid⟩, hex⟩ := hf
    have hwaits := (hex (ha.2 _ (by simp [Player.Heeds, hp]))).2
    exact .inr (.inr ⟨id, Queue.holder?_eq_some.2 ⟨e, hi, hid, hwaits⟩⟩)

end Cuelist
