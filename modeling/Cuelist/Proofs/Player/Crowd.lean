/-
  Many players at one queue.

  Any number of players can play a queue while others admit entries, clear and stop the
  queue and signal entries.  `Bustle x h` is one thing that happens there: a player joins
  or is polled, or there is a `Stir`.  `Crowd x h` are the worlds that are reached from
  one without players.

  A ring wakes one listener.  In a crowd every player is ready or waits for a ring of its
  queue, and it listens to it only at rest (`Attended`, `crowd_attended`).  A turn of one
  player leaves the others where they are (`Beside`).
-/
import Cuelist.Proofs.Player.Stir

namespace Cuelist

open World

variable {σ : Type} {x : Executor σ} {h : Handle} {t : TaskId}

/-- Whether a player waits for something. -/
def Player.AtRest (p : Player) : Prop := p.rest ≠ .awake ∧ p.rest ≠ .gone

namespace World

/-! ## Crowds -/

/-- One thing that happens around the queue in `h`. -/
inductive Bustle (x : Executor σ) (h : Handle) (w : World σ) : World σ → Prop
  | join (speed : Span) (leaves : Bool) : Bustle x h w (w.startPlayer h speed leaves)
  | poll {t : TaskId} {p : Player} (plays : w.Plays h t p) (ready : t ∈ w.ready) :
      Bustle x h w (w.poll x t)
  /-- The player looks for a ring of its queue before anything else, and finds
      one. -/
  | rouse {t : TaskId} {p : Player} {w' : World σ} (plays : w.Plays h t p) (ready : t ∈ w.ready)
      (heeds : p.Heeds (.queue h)) (rung : w.listen (.queue h) t = (true, w')) :
      Bustle x h w (w'.rouse t p)
  | stir {w' : World σ} (stir : Stir h w w') : Bustle x h w w'

/-- The worlds that are reached from one in which nobody plays the queue in `h`. -/
inductive Crowd (x : Executor σ) (h : Handle) : World σ → Prop
  | empty {w : World σ} (nobody : ∀ t p, ¬w.Plays h t p) (unheard : ∀ t, (w.bell h).places t = 0) :
      Crowd x h w
  | bustle {w w' : World σ} (reached : Crowd x h w) (bustle : Bustle x h w w') : Crowd x h w'

theorem Crowd.poll {w : World σ} (hc : Crowd x h w) {p : Player} (hp : w.Plays h t p)
    (hr : t ∈ w.ready) : Crowd x h (w.poll x t) :=
  hc.bustle (.poll hp hr)

/-! ## Players that are polled in turn -/

/-- Whether the players of the queue in `h` can be polled in this order. -/
def takesTurns (x : Executor σ) (h : Handle) : List TaskId → World σ → Bool
  | [], _ => true
  | t :: ts, w => (match w.tasks t with
    | .player p => p.queue == h && w.ready.contains t
    | _ => false) && takesTurns x h ts (w.poll x t)

/-- What a poll of a player keeps is kept while players are polled in turn. -/
theorem takesTurns_keeps {P : World σ → Prop}
    (hP : ∀ w t p, w.Plays h t p → t ∈ w.ready → P w → P (w.poll x t)) {ts : List TaskId}
    {w : World σ} (hturns : takesTurns x h ts w = true) (hw : P w) :
    P (ts.foldl (fun v t => v.poll x t) w) := by
  induction ts generalizing w with
  | nil => exact hw
  | cons t ts ih =>
    simp only [takesTurns, Bool.and_eq_true] at hturns
    obtain ⟨hturn, hrest⟩ := hturns
    split at hturn
    next p ht =>
      simp only [Bool.and_eq_true, beq_iff_eq, List.contains_eq_mem, decide_eq_true_eq] at hturn
      exact ih hrest (hP w t p ⟨ht, hturn.1⟩ hturn.2 hw)
    next => cases hturn

theorem Crowd.turns {w : World σ} (hc : Crowd x h w) (ts : List TaskId)
    (hturns : takesTurns x h ts w = true) : Crowd x h (ts.foldl (fun v t => v.poll x t) w) :=
  takesTurns_keeps (fun _ _ _ hp hr hc => hc.poll hp hr) hturns hc

/-- Polls of players in turn are among what happens around a queue. -/
theorem bustle_turns {w : World σ} (ts : List TaskId) (hturns : takesTurns x h ts w = true) :
    Relation.ReflTransGen (Bustle x h) w (ts.foldl (fun v t => v.poll x t) w) :=
  takesTurns_keeps (P := Relation.ReflTransGen (Bustle x h) w)
    (fun _ _ _ hp hr hrun => hrun.tail (.poll hp hr)) hturns .refl

/-! ## Where the players are -/

/-- Where a player of the queue in `h` is: it listens to the bell of the queue only at
    rest, and it is ready or waits there unless it is gone. -/
structure Found (h : Handle) (w : World σ) (t : TaskId) (p : Player) : Prop where
  plays : w.Plays h t p
  listens : (w.bell h).places t = 0 ∨ p.AtRest
  awaits : p.rest ≠ .gone → t ∈ w.ready ∨ t ∈ (w.bell h).waiting

/-- What holds of a crowd: all players are found, and nobody else listens to the bell of
    the queue. -/
structure Attended (h : Handle) (w : World σ) : Prop where
  known : Known h w
  tidy : (w.bell h).Tidy
  listeners : ∀ t, (w.bell h).places t ≠ 0 → ∃ p, w.Plays h t p
  found : ∀ t p, w.Plays h t p → Found h w t p

/-- What a turn of a task means to the other players of the queue in `h`. -/
structure Beside (h : Handle) (t : TaskId) (w w' : World σ) : Prop where
  players : ∀ t', t' ≠ t → ∀ p, w'.Plays h t' p ↔ w.Plays h t' p
  known : w.taskCount ≤ w'.taskCount
  tidy : (w.bell h).Tidy → (w'.bell h).Tidy
  places : ∀ t', t' ≠ t → (w'.bell h).places t' = (w.bell h).places t'
  woken : ∀ t', t' ≠ t → t' ∈ (w.bell h).woken → t' ∈ (w'.bell h).woken
  roused : ∀ t', t' ≠ t → ∀ p, w.Plays h t' p → (t' ∈ w.ready → t' ∈ w'.ready) ∧
    (t' ∈ (w.bell h).waiting → t' ∈ (w'.bell h).waiting ∨ t' ∈ w'.ready)

section
variable {w w' w'' : World σ} {p p' : Player}

theorem iterate_struck {l : Listeners} (n : Nat) :
    (l.Tidy → (Listeners.struck^[n] l).Tidy) ∧
      (∀ t, (Listeners.struck^[n] l).places t = l.places t) ∧
        ∀ t ∈ l.woken, t ∈ (Listeners.struck^[n] l).woken := by
  induction n with
  | zero => exact ⟨fun hl => hl, fun _ => rfl, fun _ ht => ht⟩
  | succ n ih =>
    rw [Function.iterate_succ_apply']
    exact ⟨fun hl => (ih.1 hl).struck, fun t => Listeners.places_struck.trans (ih.2.1 t),
      fun t ht => Listeners.woken_struck (ih.2.2 t ht)⟩

theorem Stir.beside (hs : Stir h w w') (t : TaskId) : Beside h t w w' := by
  obtain ⟨n, hbell, -⟩ := hs.rings
  obtain ⟨htidy, hplaces, hwoken⟩ := iterate_struck (l := w.bell h) n
  rw [← hbell] at htidy hplaces hwoken
  exact ⟨fun t' _ p => hs.players t' p, hs.known, htidy, fun t' _ => hplaces t',
    fun t' _ => hwoken t', fun t' _ p hp => hs.roused t' p hp⟩

namespace Beside

theorem trans (hb : Beside h t w w') (hb' : Beside h t w' w'') : Beside h t w w'' where
  players t' ht p := (hb'.players t' ht p).trans (hb.players t' ht p)
  known := Nat.le_trans hb.known hb'.known
  tidy hl := hb'.tidy (hb.tidy hl)
  places t' ht := (hb'.places t' ht).trans (hb.places t' ht)
  woken t' ht hw := hb'.woken t' ht (hb.woken t' ht hw)
  roused t' ht p hp := by
    obtain ⟨hready, hwait⟩ := hb.roused t' ht p hp
    obtain ⟨hready', hwait'⟩ := hb'.roused t' ht p ((hb.players t' ht p).2 hp)
    exact ⟨fun hr => hready' (hready hr),
      fun hw => (hwait hw).elim hwait' fun hr => .inr (hready' hr)⟩

/-- A change of the task, of its timers and of its place among the ready ones. -/
theorem own (tasks : ∀ t', t' ≠ t → w'.tasks t' = w.tasks t')
    (known : w'.taskCount = w.taskCount) (bells : w'.bells = w.bells)
    (ready : ∀ t', t' ≠ t → t' ∈ w.ready → t' ∈ w'.ready) : Beside h t w w' where
  players t' ht p := by simp only [Plays, tasks t' ht]
  known := Nat.le_of_eq known.symm
  tidy hl := by rw [bell, bells]; exact hl
  places t' _ := by simp only [bell, bells]
  woken t' _ hw := by rw [bell, bells]; exact hw
  roused t' ht p _ := ⟨ready t' ht, fun hw => .inl (by rw [bell, bells]; exact hw)⟩

theorem rest (w : World σ) (t : TaskId) (p : Player) (r : Rest) :
    Beside h t w (w.rest t p r) :=
  own (fun _ ht => put_other _ _ ht) rfl rfl fun _ _ hr => hr

theorem setTask (w : World σ) (t : TaskId) (task : Task) : Beside h t w (w.setTask t task) :=
  own (fun _ ht => put_other _ _ ht) rfl rfl fun _ _ hr => hr

theorem sleep (w : World σ) (t : TaskId) :
    Beside h t w { w with ready := w.ready.erase t } :=
  own (fun _ _ => rfl) rfl rfl fun _ ht hr => (List.mem_erase_of_ne ht).2 hr

theorem disarm (w : World σ) (t : TaskId) : Beside h t w (w.disarm t) :=
  own (fun _ _ => rfl) rfl rfl fun _ _ hr => hr

theorem arm (w : World σ) (due : Nat) (t : TaskId) : Beside h t w (w.arm due t) := by
  rw [arm_eq]
  exact own (fun _ _ => rfl) rfl rfl fun _ _ hr => hr

theorem depart (w : World σ) (t : TaskId) (p : Player) : Beside h t w (w.depart t p) :=
  own (fun _ ht => put_other _ _ ht) rfl rfl fun _ _ hr => hr

/-- A change of one bell. -/
theorem atBell {b : Bell} {l : Listeners} (bells : w'.bells = put w.bells b l)
    (tasks : w'.tasks = w.tasks) (known : w'.taskCount = w.taskCount) (ready : w.ready ⊆ w'.ready)
    (tidy : (w.bells b).Tidy → l.Tidy)
    (places : ∀ t', t' ≠ t → l.places t' = (w.bells b).places t')
    (woken : ∀ t', t' ≠ t → t' ∈ (w.bells b).woken → t' ∈ l.woken)
    (roused : ∀ t', t' ≠ t → t' ∈ (w.bells b).waiting → t' ∈ l.waiting ∨ t' ∈ w'.ready) :
    Beside h t w w' := by
  have hplayers : ∀ t', t' ≠ t → ∀ p, w'.Plays h t' p ↔ w.Plays h t' p :=
    fun t' _ p => by simp only [Plays, tasks]
  by_cases hb : .queue h = b
  · subst hb
    have hbell : w'.bell h = l := by rw [bell, bells, put_same]
    refine ⟨hplayers, Nat.le_of_eq known.symm, ?_, ?_, ?_,
      fun t' ht p _ => ⟨fun hr => ready hr, ?_⟩⟩
    · rw [hbell]; exact tidy
    · rw [hbell]; exact places
    · rw [hbell]; exact woken
    · rw [hbell]; exact roused t' ht
  · have hbell : w'.bell h = w.bell h := by rw [bell, bells, put_other _ _ hb]; rfl
    refine ⟨hplayers, Nat.le_of_eq known.symm, ?_, ?_, ?_,
      fun t' _ p _ => ⟨fun hr => ready hr, ?_⟩⟩
    · rw [hbell]; exact id
    · rw [hbell]; exact fun _ _ => rfl
    · rw [hbell]; exact fun _ _ hw => hw
    · rw [hbell]; exact .inl

theorem listen {b : Bell} {rung : Bool} (hl : w.listen b t = (rung, w')) : Beside h t w w' :=
  atBell (bells_listen hl) (tasks_listen hl) (taskCount_listen hl)
    (by rw [ready_listen hl]; exact List.Subset.refl _) (fun ht => ht.look t)
    (fun _ ht => Listeners.places_look_other ht) (fun _ ht => Listeners.woken_look_other ht)
    fun _ _ hw => .inl (Listeners.waiting_look hw)

theorem leave (w : World σ) (b : Bell) (t : TaskId) : Beside h t w (w.leave b t) := by
  refine atBell (bells_leave w b t) (by rw [leave_eq]) (by rw [leave_eq]) (ready_subset_leave w b t)
    (fun ht => ht.without t) (fun _ ht => Listeners.places_without_other ht)
    (fun _ ht => Listeners.woken_without_other ht) fun t' ht hw => ?_
  by_cases hm : t ∈ (w.bells b).woken
  · -- The ring is passed on to the next who waits.
    let v := { w with bells := put w.bells b { w.bells b with woken := (w.bells b).woken.erase t } }
    have hwaits : t' ∈ (v.bells b).waiting := by simpa only [v, put_same] using hw
    have hpassed := waiting_or_ready_ring v (b := b) hwaits
    rw [← leave_of_woken hm, bells_leave, put_same] at hpassed
    exact hpassed
  · rw [Listeners.without, if_neg hm]
    exact .inl ((List.mem_erase_of_ne ht).2 hw)

end Beside

/-- **A turn of a player keeps a crowd attended** if the player can be found after it. -/
theorem Attended.turn (hw : Attended h w) (hp : w.Plays h t p) (hb : Beside h t w w')
    (hf : Found h w' t p') : Attended h w' where
  known t' q hq := by
    refine Nat.lt_of_lt_of_le ?_ hb.known
    by_cases ht : t' = t
    · rw [ht]; exact hw.known t p hp
    · exact hw.known t' q ((hb.players t' ht q).1 hq)
  tidy := hb.tidy hw.tidy
  listeners t' hl := by
    by_cases ht : t' = t
    · subst ht; exact ⟨p', hf.plays⟩
    · rw [hb.places t' ht] at hl
      obtain ⟨q, hq⟩ := hw.listeners t' hl
      exact ⟨q, (hb.players t' ht q).2 hq⟩
  found t' q hq := by
    by_cases ht : t' = t
    · subst ht
      obtain rfl := Task.player.inj (hq.1.symm.trans hf.plays.1)
      exact hf
    · have hq₀ := (hb.players t' ht q).1 hq
      obtain ⟨-, hlistens, hawaits⟩ := hw.found t' q hq₀
      obtain ⟨hready, hwait⟩ := hb.roused t' ht q hq₀
      rw [← hb.places t' ht] at hlistens
      exact ⟨hq, hlistens, fun hg => (hawaits hg).elim (fun hr => .inl (hready hr)) fun hm =>
        (hwait hm).symm⟩

/-! ## Turns -/

theorem poll_plays (hp : w.Plays h t p) : w.poll x t = afterTurn t (advancePlayer x w t p) := by
  simp only [poll, advance, hp.1]

theorem found_rest (hq : p.queue = h) (hz : (w.bell h).places t = 0) (hr : t ∈ w.ready) (r : Rest) :
    Found h (w.rest t p r) t { p with rest := r } :=
  ⟨⟨put_same .., hq⟩, .inl hz, fun _ => .inl hr⟩

theorem found_depart (hq : p.queue = h) (hz : (w.bell h).places t = 0) :
    Found h (w.depart t p) t { p with rest := .gone } :=
  ⟨⟨put_same .., hq⟩, .inl hz, fun hg => absurd rfl hg⟩

/-- A player that is awake does not listen. -/
theorem Attended.unheard (hw : Attended h w) (hp : w.Plays h t p) (ha : p.rest = .awake) :
    (w.bell h).places t = 0 :=
  (hw.found t p hp).listens.resolve_right fun hrest => hrest.1 ha

theorem Attended.play (hx : Tactful h x) (hw : Attended h w) (hp : w.Plays h t p)
    (hr : t ∈ w.ready) (ha : p.rest = .awake) :
    Beside h t w (play x w t p) ∧ ∃ p', Found h (play x w t p) t p' := by
  have hz := hw.unheard hp ha
  simp only [World.play]
  cases w.chance p with
  | leave => exact ⟨.depart w t p, _, found_depart hp.2 hz⟩
  | delay due => exact ⟨.rest w t p _, _, found_rest hp.2 hz hr _⟩
  | ask instant =>
    have hstir := Stir.step hx hw.known p.queue
    rcases hs : x.step p.queue w with ⟨tick, v⟩
    rw [hs] at hstir
    have hb : Beside h t w v := hstir.beside t
    have hr' : t ∈ v.ready := (hstir.roused t p hp).1 hr
    have hz' : (v.bell h).places t = 0 := by
      obtain ⟨n, hbell, -⟩ := hstir.rings
      rw [hbell, (iterate_struck n).2.1, hz]
    cases tick with
    | ran r =>
      exact ⟨hb.trans (.setTask v t _), p.afterRun v.now instant, ⟨put_same .., hp.2⟩, .inl hz',
        fun _ => .inl hr'⟩
    | awaiting id => exact ⟨hb.trans (.rest v t p _), _, found_rest hp.2 hz' hr' _⟩
    | empty =>
      simp only
      split
      · exact ⟨hb.trans (.depart v t p), _, found_depart hp.2 hz'⟩
      · exact ⟨hb.trans (.rest v t p _), _, found_rest hp.2 hz' hr' _⟩
    | busy => exact ⟨hb.trans (.rest v t p _), _, found_rest hp.2 hz' hr' _⟩

/-- What comes of a look of a player at rest. -/
structure Looked (h : Handle) (t : TaskId) (p p' : Player) (w w' : World σ) : Prop where
  beside : Beside h t w w'
  found : Found h w' t p'
  queues : w'.queues = w.queues
  /-- A ring of its queue wakes the player, unless it finds a signal first. -/
  rung : (w.bell h).Rung t → p'.rest = .awake ∨ p' = p ∧ w'.bell h = w.bell h

/-- A look that wakes the player. -/
theorem looked_awake {v : World σ} (hq : p.queue = h) (hb : Beside h t w v)
    (hz : (v.bell h).places t = 0) (hr : t ∈ v.ready) (queues : v.queues = w.queues) :
    Looked h t p { p with rest := .awake } w (v.rest t p .awake) where
  beside := hb.trans (.rest v t p _)
  found := found_rest hq hz hr _
  queues := queues
  rung _ := .inl rfl

/-- A look for a ring that is not there. -/
theorem looked_asleep {v : World σ} (hw : Attended h w) (hp : w.Plays h t p) (ha : p.AtRest)
    (hb : Beside h t w v) (hbell : v.bell h = w.bell h) (hplays : v.Plays h t p)
    (queues : v.queues = w.queues) (hl : v.listen (.queue h) t = (false, w')) :
    Looked h t p p w { w' with ready := w'.ready.erase t } where
  beside := (hb.trans (.listen hl)).trans (.sleep w' t)
  found := by
    refine ⟨⟨?_, hp.2⟩, .inr ha, fun _ => .inr (waiting_listen_false hl).1⟩
    rw [← hplays.1]
    exact congrFun (tasks_listen hl) t
  queues := (queues_listen hl).trans queues
  rung hr := by
    have hlook := hw.tidy.look_fst hr
    rw [← hbell] at hlook
    have hnone := (of_listen hl).1.symm.trans hlook
    cases hnone

/-- A player at rest that leaves the bell of its queue wakes up. -/
theorem looked_leave (hw : Attended h w) (hp : w.Plays h t p) (hr : t ∈ w.ready) {v : World σ}
    (hb : Beside h t w v) (hbell : v.bell h = w.bell h) (ready : v.ready = w.ready)
    (queues : v.queues = w.queues) :
    Looked h t p { p with rest := .awake } w ((v.leave (.queue h) t).rest t p .awake) := by
  have honce : (v.bell h).places t ≤ 1 := by rw [hbell]; exact hw.tidy.once t
  refine looked_awake hp.2 (hb.trans (.leave v _ t)) ?_ ?_ ?_
  · rw [bell, bells_leave, put_same]
    exact Listeners.places_without honce
  · exact ready_subset_leave v _ t (by rw [ready]; exact hr)
  · rw [queues_leave, queues]

theorem Attended.watchDelay (hw : Attended h w) (hp : w.Plays h t p) (hr : t ∈ w.ready)
    (ha : p.AtRest) (due : Nat) :
    ∃ p', Looked h t p p' w (afterTurn t (w.watchDelay t p due)) := by
  obtain rfl := hp.2
  simp only [World.watchDelay]
  split
  · exact ⟨_, looked_leave hw hp hr (.disarm w t) rfl rfl rfl⟩
  · have harm : Beside p.queue t w (w.arm due t) := .arm w due t
    have hbell : (w.arm due t).bell p.queue = w.bell p.queue := by rw [arm_eq]; rfl
    have hplays : (w.arm due t).Plays p.queue t p := by rw [arm_eq]; exact hp
    have hqueues : (w.arm due t).queues = w.queues := by rw [arm_eq]
    rcases hl : (w.arm due t).listen (.queue p.queue) t with ⟨rung, v⟩
    cases rung with
    | true =>
      have honce : ((w.arm due t).bell p.queue).places t ≤ 1 := by rw [hbell]; exact hw.tidy.once t
      have hz : (v.bell p.queue).places t = 0 := places_listen_true hl honce
      have hready : t ∈ v.ready := by rw [ready_listen hl, arm_eq]; exact hr
      have hb := (harm.trans (.listen hl)).trans (.disarm v t)
      exact ⟨_, looked_awake rfl hb hz hready ((queues_listen hl).trans hqueues)⟩
    | false => exact ⟨p, looked_asleep hw hp ha harm hbell hplays hqueues hl⟩

theorem Attended.watchQueue (hw : Attended h w) (hp : w.Plays h t p) (hr : t ∈ w.ready)
    (ha : p.AtRest) : ∃ p', Looked h t p p' w (afterTurn t (w.watchQueue t p)) := by
  obtain rfl := hp.2
  simp only [World.watchQueue]
  rcases hl : w.listen (.queue p.queue) t with ⟨rung, v⟩
  cases rung with
  | true =>
    have hz : (v.bell p.queue).places t = 0 := places_listen_true hl (hw.tidy.once t)
    have hready : t ∈ v.ready := by rw [ready_listen hl]; exact hr
    exact ⟨_, looked_awake rfl (.listen hl) hz hready (queues_listen hl)⟩
  | false => exact ⟨p, looked_asleep hw hp ha ((Stir.refl w).beside t) rfl hp rfl hl⟩

theorem Attended.watchEntry (hw : Attended h w) (hp : w.Plays h t p) (hr : t ∈ w.ready)
    (ha : p.AtRest) (id : EntryId) :
    ∃ p', Looked h t p p' w (afterTurn t (w.watchEntry t p id)) := by
  obtain rfl := hp.2
  simp only [World.watchEntry]
  split
  · rcases hl : w.listen (.entry id) t with ⟨signalled, v⟩
    have hb : Beside p.queue t w v := .listen hl
    have hready : v.ready = w.ready := ready_listen hl
    have hqueues : v.queues = w.queues := queues_listen hl
    have hbell : v.bell p.queue = w.bell p.queue := bells_listen_other hl (by simp)
    have hplays : v.Plays p.queue t p := ⟨(congrFun (tasks_listen hl) t).trans hp.1, rfl⟩
    cases signalled with
    | true =>
      have hfound : Found p.queue v t p :=
        ⟨hplays, .inr ha, fun _ => .inl (by rw [hready]; exact hr)⟩
      exact ⟨p, hb, hfound, hqueues, fun _ => .inr ⟨rfl, hbell⟩⟩
    | false =>
      simp only
      rcases hl' : v.listen (.queue p.queue) t with ⟨rung, v'⟩
      cases rung with
      | true =>
        have honce : (v.bell p.queue).places t ≤ 1 := by rw [hbell]; exact hw.tidy.once t
        have hz : (v'.bell p.queue).places t = 0 := places_listen_true hl' honce
        have hz' : ((v'.leave (.entry id) t).bell p.queue).places t = 0 := by
          rw [bell, bells_leave_other v' t (by simp)]; exact hz
        have hready' : t ∈ (v'.leave (.entry id) t).ready :=
          ready_subset_leave _ _ t (by rw [ready_listen hl', hready]; exact hr)
        exact ⟨_, looked_awake rfl ((hb.trans (.listen hl')).trans (.leave v' (.entry id) t)) hz'
          hready' (by rw [queues_leave, queues_listen hl', hqueues])⟩
      | false => exact ⟨p, looked_asleep hw hp ha hb hbell hplays hqueues hl'⟩
  · exact ⟨_, looked_leave hw hp hr ((Stir.refl w).beside t) rfl rfl rfl⟩

/-- A player at rest that is polled looks for what it waits for. -/
theorem Attended.look (hw : Attended h w) (hp : w.Plays h t p) (hr : t ∈ w.ready)
    (ha : p.AtRest) : ∃ p', Looked h t p p' w (w.poll x t) := by
  rw [poll_plays hp, advancePlayer]
  cases hrest : p.rest with
  | awake => exact absurd hrest ha.1
  | delayed due => exact hw.watchDelay hp hr ha due
  | holding id => exact hw.watchEntry hp hr ha id
  | idle => exact hw.watchQueue hp hr ha
  | gone => exact absurd hrest ha.2

theorem Attended.found_gone (hw : Attended h w) (hp : w.Plays h t p) (hg : p.rest = .gone) :
    Found h { w with ready := w.ready.erase t } t p :=
  ⟨hp, (hw.found t p hp).listens, fun hne => absurd hg hne⟩

/-- A poll of a player leaves the others where they are, and the player can be found. -/
theorem Attended.polled (hx : Tactful h x) (hw : Attended h w) (hp : w.Plays h t p)
    (hr : t ∈ w.ready) : Beside h t w (w.poll x t) ∧ ∃ p', Found h (w.poll x t) t p' := by
  by_cases ha : p.rest = .awake
  · rw [poll_awake hp.1 ha]
    exact hw.play hx hp hr ha
  by_cases hg : p.rest = .gone
  · rw [poll_gone hp.1 hg]
    exact ⟨.sleep w t, p, hw.found_gone hp hg⟩
  · obtain ⟨p', hl⟩ := hw.look (x := x) hp hr ⟨ha, hg⟩
    exact ⟨hl.beside, p', hl.found⟩

/-- A player that found a ring of its queue is awake and listens no more. -/
theorem Attended.rouse (hw : Attended h w) (hp : w.Plays h t p) (hr : t ∈ w.ready)
    (hl : w.listen (.queue h) t = (true, w')) :
    Looked h t p { p with rest := .awake } w (w'.rouse t p) := by
  have hb : Beside h t w w' := .listen hl
  have hz : (w'.bell h).places t = 0 := places_listen_true hl (hw.tidy.once t)
  have hready : t ∈ w'.ready := by rw [ready_listen hl]; exact hr
  have hqueues : w'.queues = w.queues := queues_listen hl
  unfold World.rouse
  split
  next => exact looked_awake (v := w'.disarm t) hp.2 (hb.trans (.disarm w' t)) hz hready hqueues
  next id _ =>
    have hz' : ((w'.leave (.entry id) t).bell h).places t = 0 := by
      rw [bell, bells_leave_other w' t (by simp)]; exact hz
    exact looked_awake hp.2 (hb.trans (.leave w' _ t)) hz' (ready_subset_leave w' _ t hready)
      ((queues_leave ..).trans hqueues)
  next => exact looked_awake hp.2 hb hz hready hqueues

theorem Attended.join (hw : Attended h w) (speed : Span) (leaves : Bool) :
    Attended h (w.startPlayer h speed leaves) := by
  have hnew : ∀ t p, w.Plays h t p → t ≠ ⟨w.taskCount⟩ := fun _ _ hp => hw.known.ne_new hp
  have hfresh := mem_ready_spawn w (.player ⟨h, speed, leaves, none, 0, .awake⟩)
  have hready := ready_subset_spawn w (.player ⟨h, speed, leaves, none, 0, .awake⟩)
  rw [startPlayer]
  rw [spawn_eq] at hfresh hready ⊢
  refine ⟨fun t p hp => ?_, hw.tidy, fun t hl => ?_, fun t p hp => ?_⟩
  · by_cases ht : t = ⟨w.taskCount⟩
    · rw [ht]; exact Nat.lt_succ_self _
    · simp only [Plays, setTask, put_other _ _ ht] at hp
      exact Nat.lt_succ_of_lt (hw.known t p hp)
  · obtain ⟨p, hp⟩ := hw.listeners t hl
    refine ⟨p, ?_⟩
    simpa only [Plays, setTask, put_other _ _ (hnew t p hp)] using hp
  · by_cases ht : t = ⟨w.taskCount⟩
    · subst ht
      refine ⟨hp, .inl ?_, fun _ => .inl hfresh⟩
      by_contra hne
      obtain ⟨q, hq⟩ := hw.listeners _ hne
      exact hnew _ q hq rfl
    · have hp₀ : w.Plays h t p := by simpa only [Plays, setTask, put_other _ _ ht] using hp
      obtain ⟨-, hlistens, hawaits⟩ := hw.found t p hp₀
      exact ⟨hp, hlistens, fun hg => (hawaits hg).imp_left fun hr => hready hr⟩

theorem Attended.stir (hw : Attended h w) (hs : Stir h w w') : Attended h w' := by
  obtain ⟨n, hbell, -⟩ := hs.rings
  obtain ⟨htidy, hplaces, -⟩ := iterate_struck (l := w.bell h) n
  rw [← hbell] at htidy hplaces
  refine ⟨hw.known.stir hs, htidy hw.tidy, fun t hl => ?_, fun t p hp => ?_⟩
  · rw [hplaces] at hl
    obtain ⟨p, hp⟩ := hw.listeners t hl
    exact ⟨p, (hs.players t p).2 hp⟩
  · have hp₀ := (hs.players t p).1 hp
    obtain ⟨-, hlistens, hawaits⟩ := hw.found t p hp₀
    obtain ⟨hready, hwait⟩ := hs.roused t p hp₀
    rw [← hplaces] at hlistens
    exact ⟨hp, hlistens, fun hg => (hawaits hg).elim (fun hr => .inl (hready hr)) fun hm =>
      (hwait hm).symm⟩

/-- **What happens around a queue keeps its crowd attended.** -/
theorem Attended.bustle (hx : Tactful h x) (hw : Attended h w) (hb : Bustle x h w w') :
    Attended h w' := by
  cases hb with
  | join speed leaves => exact hw.join speed leaves
  | poll hp hr =>
    obtain ⟨hb, p', hf⟩ := hw.polled hx hp hr
    exact hw.turn hp hb hf
  | rouse hp hr _ hl =>
    have hlooked := hw.rouse hp hr hl
    exact hw.turn hp hlooked.beside hlooked.found
  | stir hs => exact hw.stir hs

theorem crowd_attended (hx : Tactful h x) (hc : Crowd x h w) : Attended h w := by
  induction hc with
  | @empty w nobody unheard =>
    have hwaiting : (w.bell h).waiting = [] := List.eq_nil_iff_forall_not_mem.2 fun t =>
      (Listeners.places_eq_zero.1 (unheard t)).1
    exact ⟨fun t p hp => absurd hp (nobody t p),
      ⟨fun _ => hwaiting, fun t => by rw [unheard t]; exact Nat.zero_le 1⟩,
      fun t hl => absurd (unheard t) hl, fun t p hp => absurd hp (nobody t p)⟩
  | bustle _ hb ih => exact ih.bustle hx hb

end

end World

end Cuelist
