/-
  A player that nobody disturbs.

  A `Course` is what the clock makes of a world by itself: tasks that are ready take
  their steps, and when none is ready the clock moves to the next timer.  It lists the
  records of the entries that players run on the way.  Letting time pass until nothing
  is left to do ends where the course ends (`Course.playOut`).

  A player is `Poised` if it is to take its turn and nothing else goes on.  Before it
  asks for an entry it may sleep until its time has come, which changes nothing but the
  clock (`Poised.asks`).  `Poised.performs` follows its whole course: it runs the
  entries that are run at once if the queue is advanced without a player.
-/
import Cuelist.Player
import Cuelist.Proofs.Executor
import Cuelist.Proofs.Player

namespace Cuelist

open World

variable {σ : Type} {x : Executor σ} {t : TaskId} {p : Player}

namespace World

/-! ## Courses -/

/-- The record of the entry that the next pulse runs, if it runs one. -/
def turn (x : Executor σ) (w : World σ) : List Record :=
  match w.ready with
  | [] => []
  | t :: _ =>
    match w.tasks t with
    | .player p =>
      match p.rest, w.chance p with
      | .awake, .ask _ => (x.step p.queue w).1.records
      | _, _ => []
    | _ => []

/-- What the clock makes of a world by itself, with the records of the entries that
    are run. -/
inductive Course (x : Executor σ) : World σ → List Record → World σ → Prop
  | here (w : World σ) : Course x w [] w
  | pulse {w u : World σ} {records : List Record} (busy : w.ready ≠ [])
      (rest : Course x (pulse x w) records u) : Course x w (w.turn x ++ records) u
  | strike {w u : World σ} {records : List Record} {due : Nat} (quiet : w.ready = [])
      (first : w.firstDue = some due) (rest : Course x (w.strike due) records u) :
      Course x w records u

theorem Course.trans {w v u : World σ} {records records' : List Record}
    (hc : Course x w records v) (hc' : Course x v records' u) :
    Course x w (records ++ records') u := by
  induction hc with
  | here => exact hc'
  | pulse busy _ ih => rw [List.append_assoc]; exact .pulse busy (ih hc')
  | strike quiet first _ ih => exact .strike quiet first (ih hc')

/-- A pulse that runs no entry. -/
theorem Course.silent {w u : World σ} {records : List Record} {t : TaskId} {others : List TaskId}
    (first : w.ready = t :: others) (silent : w.turn x = [])
    (rest : Course x (World.pulse x w) records u) : Course x w records u := by
  have hc := Course.pulse (by simp [first]) rest
  rwa [silent] at hc

/-! ### Playing out -/

theorem settle_quiet {w : World σ} (hw : w.ready = []) (n : Nat) : settle x n w = w := by
  cases n with
  | zero => rfl
  | succ n => simp [settle, hw]

theorem settle_busy {w : World σ} (hw : w.ready ≠ []) (n : Nat) :
    settle x (n + 1) w = settle x n (pulse x w) := by
  have hready : w.ready.isEmpty = false := by simpa using hw
  simp [settle, hready]

theorem playOut_congr {w v : World σ} {n : Nat} (hs : settle x n w = settle x n v) (timers : Nat) :
    playOut x n (timers + 1) w = playOut x n (timers + 1) v := by
  simp only [playOut, hs]

/-- **A course that ends is played out** with every sufficient limit. -/
theorem Course.playOut {w u : World σ} {records : List Record} (hc : Course x w records u)
    (quiet : u.ready = []) (hover : u.timers = []) :
    ∃ n, (∀ limit ≥ n, settle x limit w = settle x n w) ∧
      ∀ limit ≥ n, ∀ timers ≥ n, World.playOut x limit timers w = u := by
  induction hc with
  | here =>
    refine ⟨1, fun _ _ => ?_, fun limit _ timers ht => ?_⟩
    · rw [settle_quiet quiet, settle_quiet quiet]
    · obtain ⟨timers, rfl⟩ := Nat.exists_eq_add_of_le' ht
      simp only [World.playOut, settle_quiet quiet, firstDue, hover, List.map_nil, List.min?_nil]
  | @pulse w _ _ busy _ ih =>
    obtain ⟨n, hsettle, hplay⟩ := ih quiet hover
    have hall : ∀ limit ≥ n + 1, settle x limit w = settle x n (World.pulse x w) := by
      intro limit hlimit
      obtain ⟨limit, rfl⟩ := Nat.exists_eq_add_of_le' hlimit
      rw [← Nat.add_assoc, settle_busy busy]
      exact hsettle _ (by omega)
    refine ⟨n + 1, fun limit hlimit => ?_, fun limit hlimit timers ht => ?_⟩
    · rw [hall limit hlimit, hall _ (Nat.le_refl _)]
    · obtain ⟨timers, rfl⟩ := Nat.exists_eq_add_of_le' ht
      have hsame : settle x limit w = settle x limit (World.pulse x w) := by
        rw [hall limit hlimit, hsettle limit (by omega)]
      rw [← Nat.add_assoc, playOut_congr hsame,
        ← hplay limit (by omega) (timers + n + 1) (by omega)]
  | @strike w _ _ due hready first _ ih =>
    obtain ⟨n, -, hplay⟩ := ih quiet hover
    refine ⟨n + 1, fun _ _ => ?_, fun limit hlimit timers ht => ?_⟩
    · rw [settle_quiet hready, settle_quiet hready]
    obtain ⟨timers, rfl⟩ := Nat.exists_eq_add_of_le' ht
    rw [← Nat.add_assoc]
    simp only [World.playOut, settle_quiet hready, first]
    exact hplay limit (by omega) _ (by omega)

end World

/-! ## A player that is about to take its turn -/

/-- Whether a player is to take its turn while nothing else goes on. -/
structure Poised (t : TaskId) (p : Player) (w : World σ) : Prop where
  task : w.tasks t = .player p
  awake : p.rest = .awake
  ready : w.ready = [t]
  timers : w.timers = []
  hushed : w.Hushed

section
variable {w : World σ} {due : Nat}

theorem pulse_player (hr : w.ready = [t]) (ht : w.tasks t = .player p) :
    pulse x w = afterTurn t (advancePlayer x w t p) := by
  rw [pulse_eq_poll x hr]
  simp only [poll, advance, ht]

/-- Only a player that is awake runs entries. -/
theorem turn_resting (hr : w.ready = [t]) (ht : w.tasks t = .player p) (hp : p.rest ≠ .awake) :
    w.turn x = [] := by
  simp only [World.turn, hr, ht]
  split
  next hawake _ => exact absurd hawake hp
  next => rfl

theorem Poised.pulse_eq (hp : Poised t p w) : pulse x w = play x w t p := by
  rw [pulse_player hp.ready hp.task, advancePlayer, hp.awake, afterTurn]

theorem Poised.turn_ask (hp : Poised t p w) {instant : Bool} (hc : w.chance p = .ask instant) :
    w.turn x = (x.step p.queue w).1.records := by
  simp only [World.turn, hp.ready, hp.task, hp.awake, hc]

theorem Poised.turn_silent (hp : Poised t p w) (hc : ∀ instant, w.chance p ≠ .ask instant) :
    w.turn x = [] := by
  simp only [World.turn, hp.ready, hp.task, hp.awake]
  split
  next hask => exact absurd hask (hc _)
  next => rfl

/-- A player leaves only a queue that was stopped. -/
theorem chance_leave : w.chance p = .leave ↔ (w.queues p.queue).stopped = true := by
  simp only [chance]
  constructor
  · intro hc
    split at hc
    next hstop => exact hstop
    split at hc
    · cases hc
    split at hc <;> cases hc
  · intro hstop
    rw [if_pos hstop]

/-- A player waits for the time of its next normal entry. -/
theorem chance_delay_due (hc : w.chance p = .delay due) :
    p.nextNormal = some due ∧ w.now < due := by
  simp only [chance] at hc
  split at hc
  · cases hc
  split at hc
  · cases hc
  next hnext =>
    split at hc
    · cases hc
    next hnot =>
      obtain rfl := Chance.delay.inj hc
      simp only [Bool.or_eq_true, decide_eq_true_eq, not_or] at hnot
      exact ⟨hnext, Nat.lt_of_not_le hnot.1.1⟩

/-- A player asks when its time has come. -/
theorem chance_of_due (hopen : (w.queues p.queue).stopped = false)
    (hnext : p.nextNormal = some due) (hnow : due ≤ w.now) :
    w.chance p = .ask (w.queues p.queue).nextIsInstant := by
  simp [chance, hopen, hnext, hnow]

/-- Nobody listens if nobody did and the last one left. -/
theorem World.Hushed.put (hw : w.Hushed) (b : Bell) {l : Listeners} (hwait : l.waiting = [])
    (hwoken : l.woken = []) {v : World σ} (hb : v.bells = Cuelist.put w.bells b l) : v.Hushed := by
  intro b'
  rw [hb]
  by_cases hq : b' = b
  · rw [hq, put_same]; exact ⟨hwait, hwoken⟩
  · rw [put_other _ _ hq]; exact hw b'

/-- A player that is early goes to rest. -/
theorem Poised.rest (hp : Poised t p w) (hc : w.chance p = .delay due) {u : World σ}
    {records : List Record} (rest : Course x (w.rest t p (.delayed due)) records u) :
    Course x w records u := by
  refine .silent hp.ready (hp.turn_silent (by simp [hc])) ?_
  rw [hp.pulse_eq]
  simpa only [play, hc] using rest

/-- Without a kept ring the player sleeps until its time has come. -/
theorem Poised.doze (hp : Poised t p w) (hc : w.chance p = .delay due)
    (hk : (w.bells (.queue p.queue)).kept = false) :
    ∃ u, Course x w [] u ∧ Poised t p u ∧ w.Alike p.queue u ∧ u.now = due := by
  have hlate : ¬due ≤ w.now := Nat.not_le_of_lt (chance_delay_due hc).2
  obtain ⟨hwait, hwoken⟩ := hp.hushed (.queue p.queue)
  rcases hl : w.bells (.queue p.queue) with ⟨kept, waiting, woken⟩
  simp only [hl] at hk hwait hwoken
  subst hk hwait hwoken
  -- The player at rest, asleep with a timer, and woken by it.
  let w₁ := w.rest t p (.delayed due)
  let w₂ : World σ := { w₁ with
    bells := put w.bells (.queue p.queue) ⟨false, [t], []⟩, timers := [⟨due, t⟩], ready := [] }
  let w₃ : World σ := { w₂ with now := due, timers := [], ready := [t] }
  let u : World σ := { w₃ with
    bells := put w.bells (.queue p.queue) ⟨false, [], []⟩, tasks := put w.tasks t (.player p) }
  have hready₁ : w₁.ready = [t] := hp.ready
  have hready₃ : w₃.ready = [t] := rfl
  have htask₁ : w₁.tasks t = .player { p with rest := .delayed due } := put_same ..
  have htask₃ : w₃.tasks t = .player { p with rest := .delayed due } := put_same ..
  have hasleep : pulse x w₁ = w₂ := by
    rw [pulse_player hready₁ htask₁]
    simp [advancePlayer, watchDelay, w₁, w₂, World.rest, setTask, hlate, arm, hp.timers,
      World.listen, hl, afterTurn, hp.ready]
  have hfirst : w₂.firstDue = some due := rfl
  have hstruck : w₂.strike due = w₃ := by
    simp [strike, w₂, w₃, wake]
  have hawake : pulse x w₃ = u := by
    rw [pulse_player hready₃ htask₃]
    simp [advancePlayer, watchDelay, w₁, w₂, w₃, u, World.rest, setTask, disarm, leave, put_same,
      put_put, afterTurn, ← hp.awake]
  have hlast : Course x w₃ [] u := by
    refine .silent hready₃ (turn_resting hready₃ htask₃ (by simp)) ?_
    rw [hawake]
    exact .here u
  refine ⟨u, hp.rest hc ?_, ⟨put_same .., hp.awake, rfl, rfl, hp.hushed.put _ rfl rfl rfl⟩,
    ⟨fun b hb => put_other _ _ hb, rfl, rfl⟩, rfl⟩
  refine .silent hready₁ (turn_resting hready₁ htask₁ (by simp)) ?_
  rw [hasleep]
  exact .strike rfl hfirst (hstruck ▸ hlast)

/-- A kept ring lets the player look once more, with the same result. -/
theorem Poised.startle (hp : Poised t p w) (hc : w.chance p = .delay due)
    (hk : (w.bells (.queue p.queue)).kept = true) :
    ∃ v, Course x w [] v ∧ Poised t p v ∧ w.Alike p.queue v ∧ v.chance p = .delay due ∧
      (v.bells (.queue p.queue)).kept = false := by
  have hlate : ¬due ≤ w.now := Nat.not_le_of_lt (chance_delay_due hc).2
  obtain ⟨hwait, hwoken⟩ := hp.hushed (.queue p.queue)
  rcases hl : w.bells (.queue p.queue) with ⟨kept, waiting, woken⟩
  simp only [hl] at hk hwait hwoken
  subst hk hwait hwoken
  let w₁ := w.rest t p (.delayed due)
  let v : World σ := { w with
    bells := put w.bells (.queue p.queue) ⟨false, [], []⟩, tasks := put w.tasks t (.player p) }
  have hready : w₁.ready = [t] := hp.ready
  have htask : w₁.tasks t = .player { p with rest := .delayed due } := put_same ..
  have hrung : pulse x w₁ = v := by
    rw [pulse_player hready htask]
    simp [advancePlayer, watchDelay, w₁, v, World.rest, setTask, hlate, arm, disarm, hp.timers,
      World.listen, hl, afterTurn, put_put, ← hp.awake]
  refine ⟨v, hp.rest hc ?_,
    ⟨put_same .., hp.awake, hp.ready, hp.timers, hp.hushed.put _ rfl rfl rfl⟩,
    ⟨fun b hb => put_other _ _ hb, rfl, rfl⟩, hc, by simp [v, put_same]⟩
  refine .silent hready (turn_resting hready htask (by simp)) ?_
  rw [hrung]
  exact .here v

/-- **A player that waits for its time asks for an entry in the end**, and nothing but
    the clock changes until then. -/
theorem Poised.asks (hp : Poised t p w) (hopen : (w.queues p.queue).stopped = false) :
    ∃ u instant, Course x w [] u ∧ Poised t p u ∧ w.Alike p.queue u ∧
      u.chance p = .ask instant := by
  have hdoze : ∀ {v : World σ} {due : Nat}, Poised t p v → v.chance p = .delay due →
      (v.bells (.queue p.queue)).kept = false → ∃ u instant, Course x v [] u ∧ Poised t p u ∧
        v.Alike p.queue u ∧ u.chance p = .ask instant := by
    intro v due hv hc hk
    obtain ⟨u, hcourse, hu, hsame, hnow⟩ := hv.doze (x := x) hc hk
    have hopen' : (u.queues p.queue).stopped = false := by
      rw [hsame.queues]; exact (chance_delay hc).1
    have hask := chance_of_due hopen' (chance_delay_due hc).1 (Nat.le_of_eq hnow.symm)
    exact ⟨u, _, hcourse, hu, hsame, hask⟩
  cases hc : w.chance p with
  | leave => rw [chance_leave.1 hc] at hopen; cases hopen
  | ask instant => exact ⟨w, instant, .here w, hp, .refl _ _, hc⟩
  | delay due =>
    cases hk : (w.bells (.queue p.queue)).kept with
    | false => exact hdoze hp hc hk
    | true =>
      obtain ⟨v, hcourse, hv, hsame, hc', hk'⟩ := hp.startle (x := x) hc hk
      obtain ⟨u, instant, hrest, hu, hsame', hask⟩ := hdoze hv hc' hk'
      exact ⟨u, instant, hcourse.trans hrest, hu, hsame.trans hsame', hask⟩

/-! ## Turns -/

/-- A turn that runs an entry. -/
theorem Poised.runs (hp : Poised t p w) (hx : x.Timeless p.queue) {instant : Bool}
    (hask : w.chance p = .ask instant) {r : Record} {w' : World σ}
    (hs : x.step p.queue w = (.ran r, w')) :
    let p' := p.afterRun w'.now instant
    let v := w'.setTask t (.player p')
    w.turn x = [r] ∧ pulse x w = v ∧ Poised t p' v ∧ w'.Alike p.queue v := by
  intro p' v
  have hcalm := Calm.step hx hp.hushed
  rw [hs] at hcalm
  refine ⟨?_, ?_, ⟨put_same .., hp.awake, ?_, ?_, hcalm.hushed⟩, ⟨fun _ _ => rfl, rfl, rfl⟩⟩
  · rw [hp.turn_ask hask, hs]; rfl
  · rw [hp.pulse_eq]
    simp only [play, hask, hs, v, p']
  · exact hcalm.ready.trans hp.ready
  · exact hcalm.timers.trans hp.timers

/-- How a world is left by a player that ran `count` entries of the queue in `h`, which
    without the player would be `w`. -/
structure Parted (h : Handle) (t : TaskId) (count : Nat) (w u : World σ) : Prop where
  ready : u.ready = []
  timers : u.timers = []
  gone : ∃ p : Player, u.tasks t = .player p ∧ p.rest = .gone ∧ p.played = count
  /-- But for the player, the only difference is that the player was seen to leave. -/
  alike : (w.observe (.left (w.queues h).id.text count)).Alike h u

theorem Parted.of_alike {h : Handle} {count : Nat} {w v u : World σ} (hs : w.Alike h v)
    (hp : Parted h t count v u) : Parted h t count w u := by
  refine ⟨hp.ready, hp.timers, hp.gone, ?_⟩
  have hseen := hs.observe (.left (w.queues h).id.text count)
  rw [← congrFun hs.queues h] at hseen ⊢
  exact hseen.trans hp.alike

/-- A turn in which the player leaves. -/
theorem Poised.departs (hp : Poised t p w) {w' : World σ} (hcalm : w.Calm w')
    (hturn : w.turn x = []) (hplay : play x w t p = w'.depart t p) :
    ∃ u, Course x w [] u ∧ Parted p.queue t p.played w' u := by
  let v := w'.depart t p
  let u : World σ := { v with ready := [] }
  have hready : v.ready = [t] := hcalm.ready.trans hp.ready
  have htask : v.tasks t = .player { p with rest := .gone } := put_same ..
  have hgone : pulse x v = u := by
    rw [pulse_player hready htask]
    simp [advancePlayer, afterTurn, hready, u]
  refine ⟨u, .silent hp.ready hturn ?_, rfl, hcalm.timers.trans hp.timers, ⟨_, htask, rfl, rfl⟩,
    ⟨fun _ _ => rfl, rfl, rfl⟩⟩
  rw [hp.pulse_eq, hplay]
  refine .silent hready (turn_resting hready htask (by simp)) ?_
  rw [hgone]
  exact .here u

/-- **A player performs what the queue is run to without it**, if that drains the
    queue. -/
theorem Poised.performs {h : Handle} (ha : x.Aloof h) (hx : x.Timeless h) {n : Nat}
    {v : World σ} (hq : p.queue = h) (hs : w.Alike h v) (hp : Poised t p v)
    (hleaves : p.leavesWhenDrained = true) (hfree : (w.queues h).dispatching = false)
    (hopen : (w.queues h).stopped = false) (hn : (w.queues h).pending.length < n)
    (hdrained : ((x.runQueue h n w).2.queues h).state (x.runQueue h n w).2.waiting = .drained) :
    ∃ u, Course x v (x.runQueue h n w).1 u ∧
      Parted h t (p.played + (x.runQueue h n w).1.length) (x.runQueue h n w).2 u := by
  induction n generalizing p w v with
  | zero => exact absurd hn (Nat.not_lt_zero _)
  | succ n ih =>
    subst hq
    -- The player comes to ask for an entry, in a world that is still alike.
    obtain ⟨v₁, instant, hwait, hp₁, hsame, hask⟩ :=
      hp.asks (x := x) (by rw [hs.queues]; exact hopen)
    obtain ⟨htick, hstep⟩ := (hs.trans hsame).step hx
    rcases hv : x.step p.queue v₁ with ⟨tick, v'⟩
    rw [hv] at htick hstep
    rcases Executor.step_cases (x := x) hfree with ⟨r, w', hw⟩ | ⟨id, hh, hw⟩ | hw
    · simp only [hw] at htick hstep
      subst htick
      obtain ⟨hfree', hopen', hlen⟩ := Executor.step_ran ha hw
      obtain ⟨hturn, hpulse, hp', hsame'⟩ := hp₁.runs hx hask hv
      simp only [Executor.runQueue, hw] at hdrained ⊢
      obtain ⟨u, hcourse, hend⟩ := ih (p := p.afterRun v'.now instant) rfl
        (hstep.trans hsame') hp' hleaves hfree' (hopen'.trans hopen) (by omega)
        hdrained
      rw [← hpulse] at hcourse
      have hrun := Course.pulse (by simp [hp₁.ready]) hcourse
      rw [hturn] at hrun
      refine ⟨u, hwait.trans hrun, ?_⟩
      have hcount : (p.afterRun v'.now instant).played + (x.runQueue p.queue n w').1.length =
          p.played + (r :: (x.runQueue p.queue n w').1).length := by
        simp only [Player.afterRun, List.length_cons]; omega
      rwa [hcount] at hend
    · -- A queue that is held is not drained.
      simp only [Executor.runQueue, hw] at hdrained
      simp only [holder?] at hh
      simp [Queue.state, hh] at hdrained
    · simp only [hw] at htick hstep
      subst htick
      have hcalm := Calm.step hx hp₁.hushed
      simp only [hv] at hcalm
      obtain ⟨u, hcourse, hend⟩ := hp₁.departs hcalm (by rw [hp₁.turn_ask hask, hv]; rfl)
        (by simp only [play, hask, hv, hleaves, if_true])
      simp only [Executor.runQueue, hw]
      exact ⟨u, hwait.trans hcourse, hend.of_alike hstep⟩

end

end Cuelist
