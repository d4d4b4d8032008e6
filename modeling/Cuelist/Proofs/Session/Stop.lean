/-
  Queues that were stopped.

  A queue that was stopped is `Closed`: no entry is to run or in flight, and no claim
  that is out is current (`run_closed`).  A stop is the end of a queue: whatever its
  callers do from then on, with claims and signals from before, `Ended` goes on to hold.

  `run_stop` lists what they meet: nothing is handed out, nothing is admitted and there
  is nothing to drop.
-/
import Cuelist.Player
import Cuelist.Proofs.Session.Claims
import Cuelist.Proofs.Session.Order

namespace Cuelist.Session

variable {σ : Type} {h : Handle}

/-! ## Closed queues -/

/-- A queue that was stopped has no entries and no current claim. -/
structure Closed (q : Queue) : Prop where
  pending : q.pending = []
  inFlight : q.inFlight = none
  dispatching : q.dispatching = false

theorem Outcome.closed {s t : Session σ} {a : Act σ} (ho : Outcome h s t a) (hg : Guarded h s)
    (hs : (s.queue h).stopped = true → Closed (s.queue h)) (ht : (t.queue h).stopped = true) :
    Closed (t.queue h) := by
  cases ho with
  | same hq hc hl => rw [hq] at ht ⊢; exact hs ht
  | accept e hopen hq hc hl =>
    rw [hq] at ht
    simp [hopen] at ht
  | release hd hh hp hq hc hl =>
    rw [hq]
    exact ⟨hp, rfl, hd⟩
  | hand e rest hd hh hp hq hc hl =>
    rw [hq] at ht
    have hpending := (hs ht).pending
    simp [hp] at hpending
  | takeBack place c e result r hget hq hc hl =>
    rw [hq, Queue.finish_stopped] at ht
    obtain ⟨hpending, hflight, hd⟩ := hs ht
    -- A current claim cannot be out.
    have hstale : { c with entry := e }.generation ≠ (s.queue h).generation := fun hcur => by
      rw [hg.dispatching_of_current hget hcur] at hd; cases hd
    rw [hq, Queue.finish_stale hstale]
    exact ⟨hpending, hflight, hd⟩
  | clear hq hc hl | stop hq hc hl => rw [hq]; exact ⟨rfl, rfl, rfl⟩

theorem run_closed (h : Handle) (w : World σ) (id : QueueId) (limit : Nat)
    (acts : List (Act σ)) (hstop : (((start h w id limit).run h acts).queue h).stopped = true) :
    Closed (((start h w id limit).run h acts).queue h) := by
  have hboth := run_induction (h := h)
    (P := fun s => Guarded h s ∧ ((s.queue h).stopped = true → Closed (s.queue h)))
    (fun _ _ _ ho hs => ⟨ho.guarded hs.1, ho.closed hs.1 hs.2⟩)
    ⟨start_guarded h w id limit, fun _ => by
      constructor <;> simp [start, queue, Queue.make]⟩ acts
  exact hboth.2 hstop

/-! ## What a closed queue hands out -/

section
variable {w : World σ}

theorem Closed.holder? {q : Queue} (hq : Closed q) (waiting : EntryId → Bool) :
    q.holder? waiting = none := by
  simp [Queue.holder?, hq.inFlight]

theorem Closed.dropCount {q : Queue} (hq : Closed q) : q.dropCount = 0 := by
  simp [Queue.dropCount, hq.pending, hq.inFlight]

theorem Closed.state {q : Queue} (hq : Closed q) (waiting : EntryId → Bool)
    (hs : q.stopped = true) : q.state waiting = .drained := by
  simp [Queue.state, hq.holder?, hq.pending, hq.dispatching, hs]

theorem Closed.takeNext (hq : Closed (w.queues h)) : w.takeNext h = (.empty, w) := by
  have hsame : { w.queues h with inFlight := none } = w.queues h := by rw [← hq.inFlight]
  rw [World.takeNext_eq (Queue.takeNext_empty hq.dispatching (hq.holder? _) hq.pending), hsame,
    World.setQueue_self]

/-- Nothing comes of advancing a closed queue. -/
theorem Closed.step (hq : Closed (w.queues h)) (x : Executor σ) : x.step h w = (.empty, w) :=
  Executor.step_empty hq.takeNext

theorem Closed.runQueue (hq : Closed (w.queues h)) (x : Executor σ) (n : Nat) :
    x.runQueue h n w = ([], w) := by
  cases n with
  | zero => rfl
  | succ n => simp only [Executor.runQueue, hq.step]

theorem Closed.tick (hq : Closed (w.queues h)) (x : Executor σ) :
    x.tick h (w.queues h) w = (.empty, w.queues h, w) := by
  have hsame : { w.queues h with inFlight := none } = w.queues h := by rw [← hq.inFlight]
  have hn := Queue.takeNext_empty hq.dispatching (hq.holder? w.waiting) hq.pending
  rw [hsame] at hn
  simp only [Executor.tick, hn, Next.idleTick]

theorem Closed.runUntilBlocked (hq : Closed (w.queues h)) (x : Executor σ) :
    x.runUntilBlocked h (w.queues h) w = ([], w.queues h, w) := by
  simp only [Executor.runUntilBlocked, Executor.runHeld, hq.tick]

/-- A held queue that did not change, in a world that did not change, is as it was. -/
theorem holding_same {α : Type} {run : Queue → World σ → α × Queue × World σ} {a : α}
    (hr : run (w.queues h) w = (a, w.queues h, w)) : Executor.holding h w run = (a, w) := by
  simp only [Executor.holding, hr, World.setQueue_self]

end

/-! ## The end of a queue -/

/-- What an act leaves of a queue that has ended, and of what became of its entries. -/
structure Lasting (h : Handle) (s t : Session σ) : Prop where
  stopped : (t.queue h).stopped = true
  id : (t.queue h).id = (s.queue h).id
  admitted : t.admitted = s.admitted
  claimed : t.claimed = s.claimed

section
variable {s t u : Session σ}

/-- **After a stop nothing is admitted or handed out.** -/
theorem Outcome.lasting {a : Act σ} (ho : Outcome h s t a) (hclosed : Closed (s.queue h))
    (hstop : (s.queue h).stopped = true) : Lasting h s t := by
  -- A claim that comes back and a clearing add deeds of other kinds to the log.
  have hlog : ∀ d : Deed, d.admissions = [] → d.handedOut = [] → t.log = s.log ++ [d] →
      t.admitted = s.admitted ∧ t.claimed = s.claimed := fun d hnone hno hl => by
    rw [admitted_deed hl, claimed_deed hl, hnone, hno, List.append_nil, List.append_nil]
    exact ⟨rfl, rfl⟩
  cases ho with
  | same hq _ hl =>
    exact ⟨by rw [hq, hstop], by rw [hq], by simp only [Session.admitted, hl],
      by simp only [Session.claimed, hl]⟩
  | accept _ hopen => rw [hstop] at hopen; cases hopen
  | release _ _ _ hq _ hl =>
    exact ⟨by rw [hq]; exact hstop, by rw [hq], by simp only [Session.admitted, hl],
      by simp only [Session.claimed, hl]⟩
  | hand _ _ _ _ hp => rw [hclosed.pending] at hp; cases hp
  | takeBack _ _ _ _ _ _ hq _ hl =>
    obtain ⟨hadmitted, hclaimed⟩ := hlog _ rfl rfl hl
    exact ⟨by rw [hq, Queue.finish_stopped, hstop], by rw [hq, Queue.finish_id], hadmitted,
      hclaimed⟩
  | clear hq _ hl =>
    obtain ⟨hadmitted, hclaimed⟩ := hlog _ rfl rfl hl
    exact ⟨by rw [hq]; exact hstop, by rw [hq]; rfl, hadmitted, hclaimed⟩
  | stop hq _ hl =>
    obtain ⟨hadmitted, hclaimed⟩ := hlog _ rfl rfl hl
    exact ⟨by rw [hq]; rfl, by rw [hq]; rfl, hadmitted, hclaimed⟩

theorem Lasting.trans (hl : Lasting h s t) (hl' : Lasting h t u) : Lasting h s u where
  stopped := hl'.stopped
  id := hl'.id.trans hl.id
  admitted := hl'.admitted.trans hl.admitted
  claimed := hl'.claimed.trans hl.claimed

/-- What a stop itself does. -/
theorem lasting_stop (h : Handle) (s : Session σ) : Lasting h s (s.act h .stop) := by
  have hq : (s.act h .stop).queue h = (s.queue h).stop := by simp [act, queue, World.stop]
  have hl : (s.act h .stop).log = s.log ++ [.dropped (s.queue h).pending] := rfl
  refine ⟨by rw [hq]; rfl, by rw [hq]; rfl, ?_, ?_⟩
  · rw [admitted_deed hl]; exact List.append_nil _
  · rw [claimed_deed hl]; exact List.append_nil _

end

theorem run_id (h : Handle) (w : World σ) (id : QueueId) (limit : Nat) (acts : List (Act σ)) :
    (((start h w id limit).run h acts).queue h).id = id := by
  refine run_induction (P := fun s => (s.queue h).id = id) (fun s t a ho hs => ?_) ?_ acts
  · cases ho with
    | same hq => rw [hq, hs]
    | takeBack _ _ _ _ _ _ hq => rw [hq, Queue.finish_id, hs]
    | accept _ _ hq | release _ _ _ hq | hand _ _ _ _ _ hq | clear hq | stop hq =>
      rw [hq]; exact hs
  · simp [start, queue, Queue.make]

theorem run_lasting (h : Handle) (w : World σ) (id : QueueId) (limit : Nat)
    (before after : List (Act σ)) :
    let s := (start h w id limit).run h before
    let t := (s.act h .stop).run h after
    Lasting h s t ∧ Closed (t.queue h) := by
  intro s t
  have hclosed : ∀ acts, (((start h w id limit).run h acts).queue h).stopped = true →
      Closed (((start h w id limit).run h acts).queue h) := run_closed h w id limit
  have hstop := lasting_stop h s
  have hs : Guarded h (s.act h .stop) ∧ Closed ((s.act h .stop).queue h) := by
    have hrun : s.act h .stop = (start h w id limit).run h (before ++ [.stop]) := by
      rw [run_append]; rfl
    rw [hrun] at hstop ⊢
    exact ⟨run_guarded h w id limit _, hclosed _ hstop.stopped⟩
  have hall := run_induction (h := h)
    (P := fun t => Guarded h t ∧ Closed (t.queue h) ∧ Lasting h s t)
    (fun _ _ _ ho ht => ⟨ho.guarded ht.1,
      ho.closed ht.1 (fun _ => ht.2.1) (ho.lasting ht.2.1 ht.2.2.stopped).stopped,
      ht.2.2.trans (ho.lasting ht.2.1 ht.2.2.stopped)⟩)
    ⟨hs.1, hs.2, hstop⟩ after
  exact ⟨hall.2.2, hall.2.1⟩

/-- **A stop is for good.**  In every session with a new queue, whatever its callers do
    after a stop, with claims and signals from before it or not: the queue has no
    entries, none is in flight and none was admitted or handed out since, and the queue
    shows that it is drained.  A take finds it empty, entries are refused, and clearing
    and stopping it once more drops nothing.  Nobody who advances the queue runs an
    entry or changes anything, and a player of it leaves. -/
theorem run_stop (h : Handle) (w : World σ) (id : QueueId) (limit : Nat)
    (before after : List (Act σ)) :
    let s := (start h w id limit).run h before
    let t := (s.act h .stop).run h after
    let q := t.queue h
    (q.pending = [] ∧ q.inFlight = none ∧ q.state t.world.waiting = .drained) ∧
      (t.admitted = s.admitted ∧ t.claimed = s.claimed) ∧
      t.world.takeNext h = (.empty, t.world) ∧
      (∀ e es, t.world.enqueue h e = .error (.stopped id.text) ∧
        t.world.enqueueAll h (e :: es) = (.error (.stopped id.text), t.world)) ∧
      ((t.world.clear h).1 = 0 ∧ (t.world.stop h).1 = 0) ∧
      ∀ x : Executor σ, x.step h t.world = (.empty, t.world) ∧
        (∀ n, x.runQueue h n t.world = ([], t.world)) ∧
        Executor.holding h t.world (x.tick h) = (.empty, t.world) ∧
        Executor.holding h t.world (x.runUntilBlocked h) = ([], t.world) ∧
        ∀ p : Player, p.queue = h → t.world.chance p = .leave := by
  intro s t q
  obtain ⟨hlast, hclosed⟩ := run_lasting h w id limit before after
  have hstop : (t.world.queues h).stopped = true := hlast.stopped
  have hid : (t.world.queues h).id = id := hlast.id.trans (run_id h w id limit before)
  have hrefused : ∀ e, t.world.enqueue h e = .error (.stopped id.text) := fun e => by
    rw [World.enqueue_stopped e hstop, hid]
  refine ⟨⟨hclosed.pending, hclosed.inFlight, hclosed.state _ hlast.stopped⟩,
    ⟨hlast.admitted, hlast.claimed⟩, hclosed.takeNext, fun e es => ⟨hrefused e, ?_⟩,
    ⟨hclosed.dropCount, hclosed.dropCount⟩, fun x => ⟨hclosed.step x, hclosed.runQueue x,
      holding_same (hclosed.tick x), holding_same (hclosed.runUntilBlocked x), ?_⟩⟩
  · simp only [World.enqueueAll, hrefused]
  · rintro p rfl
    simp only [World.chance, hstop, if_true]

end Cuelist.Session
