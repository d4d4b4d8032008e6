/-
  Signals of entries that left their queue.

  An entry left its queue for good when it was handed out or dropped, no claim on it is
  out and it is not in flight.  It is then `Absent`, and stays so under every act that is
  `Unaware` of it: one that neither brings the entry back nor looks at its signal.

  * `SameBut.act`: in two sessions that differ at most in what the signal of an absent
    entry did, an unaware act shows the same and makes no other difference;
  * `run_late_signals`: the signals of an entry that left can be left out of every run
    of unaware acts.
-/
import Cuelist.Proofs.Session.Order
import Cuelist.Proofs.Signal

namespace Cuelist

variable {σ : Type}

/-! ## Acts that do not look at a signal -/

/-- Whether an act neither brings an entry to the queue that lacks it nor looks at its
    signal; it may give the signal. -/
def Act.Unaware (h : Handle) (id : EntryId) : Act σ → Prop
  | .enqueue e | .finish _ e _ _ => e.id ≠ id
  | .enqueueAll es => ∀ e ∈ es, e.id ≠ id
  | .tick x => x.Unaware h id
  | .elsewhere change =>
    ∀ w v, (w.queues h).Lacks id → w.SameBut id v → (change w).SameBut id (change v)
  | .takeNext | .clear | .stop | .signal _ _ => True

/-- Whether an act signals an entry. -/
def Act.signals (id : EntryId) : Act σ → Bool
  | .signal id' _ => id' = id
  | _ => false

/-- An unaware executor advances a held queue in the same way. -/
theorem World.SameBut.tick {id : EntryId} {w v : World σ} {h : Handle} {x : Executor σ}
    (hs : w.SameBut id v) (hlacks : (w.queues h).Lacks id) (hx : x.Unaware h id) :
    (Executor.holding h v (x.tick h)).1 = (Executor.holding h w (x.tick h)).1 ∧
      (Executor.holding h w (x.tick h)).2.SameBut id (Executor.holding h v (x.tick h)).2 := by
  have hq := congrFun hs.queues h
  have hnext := Queue.takeNext_congr fun e he => hs.waiting _ (hlacks.inFlight e he)
  have hpending := (w.queues h).pending_takeNext w.waiting
  simp only [Executor.holding, Executor.tick]
  rw [hq, hnext]
  rcases hn : (w.queues h).takeNext w.waiting with ⟨next, q⟩
  cases next with
  | ready c =>
    rw [hn] at hpending
    have hc : c.entry.id ≠ id := hlacks.pending _ (by rw [hpending]; exact List.mem_cons_self)
    obtain ⟨hreply, hentry⟩ := hx c.entry w v hc hlacks hs
    simp only
    rw [hreply.result, hreply.entry]
    obtain ⟨hrecord, hdone⟩ := (hreply.world.setQueue h q).finish x.reporter h
      (c := { c with entry := (x.dispatch c.entry w).entry }) hentry (x.dispatch c.entry w).result
    rw [hrecord, setQueue_self, setQueue_self]
    exact ⟨rfl, hdone⟩
  | awaiting | empty | busy => exact ⟨rfl, hs.setQueue h q⟩

namespace Session

variable {h : Handle} {id : EntryId}

/-! ## Entries that stay away -/

/-- Whether an entry is neither to run nor in flight nor claimed. -/
structure Absent (h : Handle) (id : EntryId) (s : Session σ) : Prop where
  lacks : (s.queue h).Lacks id
  claims : ∀ c ∈ s.claims, c.entry.id ≠ id

section
variable {s t : Session σ}

theorem mem_splice {e f : Entry} {pending : List Entry} (hf : f ∈ Queue.splice e pending) :
    f = e ∨ f ∈ pending := by
  unfold Queue.splice at hf
  split at hf
  · rcases List.mem_append.1 hf with hf | hf
    · exact .inr (List.takeWhile_subset _ hf)
    rcases List.mem_cons.1 hf with hf | hf
    · exact .inl hf
    · exact .inr (List.dropWhile_subset _ hf)
  · rcases List.mem_append.1 hf with hf | hf
    · exact .inr hf
    · exact .inl (List.mem_singleton.1 hf)

theorem Outcome.absent {a : Act σ} (ho : Outcome h s t a) (ha : a.Unaware h id)
    (hs : Absent h id s) : Absent h id t := by
  obtain ⟨⟨hpending, hflight⟩, hclaims⟩ := hs
  cases ho with
  | same hq hc hl =>
    rw [← hq] at hpending hflight
    rw [← hc] at hclaims
    exact ⟨⟨hpending, hflight⟩, hclaims⟩
  | accept e hopen hq hc hl =>
    rw [← hc] at hclaims
    refine ⟨⟨fun f hf => ?_, by rw [hq]; exact hflight⟩, hclaims⟩
    rw [hq] at hf
    rcases mem_splice hf with rfl | hf
    · exact ha
    · exact hpending f hf
  | release hd hh hp hq hc hl =>
    rw [← hc] at hclaims
    exact ⟨Queue.lacks_of_none (by rw [hq]; exact hpending) (by rw [hq]), hclaims⟩
  | hand e rest hd hh hp hq hc hl =>
    rw [hp] at hpending
    refine ⟨Queue.lacks_of_none (fun f hf => ?_) (by rw [hq]), fun c hm => ?_⟩
    · rw [hq] at hf
      exact hpending f (List.mem_cons_of_mem _ hf)
    · rw [hc] at hm
      rcases List.mem_append.1 hm with hm | hm
      · exact hclaims c hm
      · rw [List.mem_singleton.1 hm]; exact hpending e List.mem_cons_self
  | takeBack place c e result r hget hq hc hl =>
    refine ⟨⟨by rw [hq, Queue.finish_pending]; exact hpending, fun f hf => ?_⟩, fun c hm => ?_⟩
    · rw [hq] at hf
      rcases Queue.finish_inFlight hf with hf | ⟨-, -, rfl, -⟩
      · exact hflight f hf
      · exact ha
    · rw [hc] at hm
      exact hclaims c (List.mem_of_mem_eraseIdx hm)
  | clear hq hc hl | stop hq hc hl =>
    rw [← hc] at hclaims
    exact ⟨Queue.lacks_of_none (by simp [hq, Queue.stop, Queue.clear])
      (by simp [hq, Queue.stop, Queue.clear]), hclaims⟩

theorem along_unaware_parts {a : Act σ} (hs : Absent h id s) (ha : a.Unaware h id) :
    Along (fun _ a => a.Unaware h id) h s (s.parts h a) := by
  refine along_of_mem (fun b hb => ?_) s
  cases a with
  | enqueueAll es =>
    obtain ⟨e, he, rfl⟩ := List.mem_map.1 hb
    exact ha e he
  | tick x =>
    simp only [parts, List.mem_cons, List.mem_flatMap, List.not_mem_nil, or_false] at hb
    rcases hb with rfl | ⟨c, hc, rfl | rfl⟩
    · trivial
    · exact fun _ _ _ _ => .refl _ _
    · have hpending : (s.queue h).pending =
          (s.handed h).map Claim.entry ++ ((s.world.takeNext h).2.queues h).pending :=
        World.pending_takeNext rfl
      have hm : c.entry ∈ (s.queue h).pending := by
        rw [hpending]; exact List.mem_append_left _ (List.mem_map_of_mem hc)
      exact (ha c.entry s.world s.world (hs.lacks.pending _ hm) hs.lacks (.refl _ _)).2
  | enqueue | takeNext | finish | clear | stop | signal | elsewhere =>
    rw [List.mem_singleton.1 hb]; exact ha

/-- An entry that is absent stays so. -/
theorem Absent.run (hs : Absent h id s) {acts : List (Act σ)}
    (ha : ∀ a ∈ acts, a.Unaware h id) : Absent h id (s.run h acts) :=
  along_induction (fun _ _ hs ha => along_unaware_parts hs ha)
    (fun _ _ _ ho ha hs => ho.absent ha hs) hs (along_of_mem ha s)

end

/-- An entry that left the queue is absent once no claim on it is out and it is not in
    flight, if every entry was admitted once. -/
theorem Ordered.absent {s : Session σ} (hs : Ordered h s)
    (honce : (s.admitted.map Entry.id).Nodup) {e : Entry} (he : e ∈ s.departed)
    (hflight : ∀ f, (s.queue h).inFlight = some f → f.id ≠ e.id)
    (hclaims : ∀ c ∈ s.claims, c.entry.id ≠ e.id) : Absent h e.id s := by
  refine ⟨⟨fun f hf heq => ?_, hflight⟩, hclaims⟩
  have hnodup := (hs.perm.map Entry.id).nodup_iff.1 honce
  rw [List.map_append, List.nodup_append] at hnodup
  have hleft := (departed_perm s).subset he
  exact hnodup.2.2 _ (List.mem_map_of_mem hf) _ (List.mem_map_of_mem hleft) heq

/-! ## Sessions with and without the signals -/

/-- Whether two sessions differ at most in what the signal of an entry did. -/
structure SameBut (id : EntryId) (s t : Session σ) : Prop where
  world : s.world.SameBut id t.world
  claims : t.claims = s.claims
  log : t.log = s.log

section
variable {s t : Session σ}

theorem SameBut.queue (hs : SameBut id s t) : t.queue h = s.queue h :=
  congrFun hs.world.queues h

/-- **An unaware act does the same in both sessions**, and shows the same. -/
theorem SameBut.act (hs : SameBut id s t) (hlacks : (s.queue h).Lacks id) {a : Act σ}
    (ha : a.Unaware h id) (hsig : a.signals id = false) : SameBut id (s.act h a) (t.act h a) := by
  have hq := hs.queue (h := h)
  cases a with
  | enqueue e =>
    cases hst : (s.queue h).stopped with
    | true =>
      rw [act_enqueue_stopped e hst, act_enqueue_stopped e (hq ▸ hst)]
      exact hs
    | false =>
      simp only [Session.act, World.enqueue_open e hst, World.enqueue_open e (hq ▸ hst)]
      refine ⟨?_, hs.claims, by rw [hs.log, hq]⟩
      rw [hs.world.queues]
      exact hs.world.news h _
  | enqueueAll es =>
    simp only [Session.act, hs.claims, hs.log, hq]
    exact ⟨hs.world.enqueueAll h es, rfl, rfl⟩
  | takeNext =>
    obtain ⟨hnext, hw⟩ := hs.world.takeNext h hlacks
    simp only [Session.act, handed, hnext, hs.claims, hs.log]
    exact ⟨hw, rfl, rfl⟩
  | finish place e result r =>
    simp only [Session.act, hs.claims]
    cases s.claims[place]? with
    | none => exact hs
    | some c =>
      obtain ⟨hrecord, hw⟩ := hs.world.finish r h (c := { c with entry := e }) ha result
      simp only [hrecord, hs.log]
      exact ⟨hw, rfl, rfl⟩
  | tick x =>
    obtain ⟨hnext, -⟩ := hs.world.takeNext h hlacks
    obtain ⟨htick, hw⟩ := hs.world.tick hlacks ha
    simp only [Session.act, handed, hnext, htick, hs.claims, hs.log]
    exact ⟨hw, rfl, rfl⟩
  | clear | stop =>
    simp only [Session.act, World.clear, World.stop, hs.world.queues, hs.claims, hs.log, hq]
    exact ⟨hs.world.news h _, rfl, rfl⟩
  | signal id' finished =>
    have hne : id' ≠ id := by simpa [Act.signals] using hsig
    simp only [Session.act, hs.claims, hs.log]
    exact ⟨hs.world.markFinished hne finished, rfl, rfl⟩
  | elsewhere change =>
    have hchange := (ha _ _ hlacks hs.world).setQueue h (s.queue h)
    simp only [Session.act, hs.claims, hs.log, hq]
    exact ⟨hchange, rfl, rfl⟩

/-- The signals of an absent entry can be left out. -/
theorem SameBut.run (hs : SameBut id s t) (habsent : Absent h id s) {acts : List (Act σ)}
    (ha : ∀ a ∈ acts, a.Unaware h id) :
    SameBut id (s.run h (acts.filter fun a => !a.signals id)) (t.run h acts) := by
  induction acts generalizing s t with
  | nil => exact hs
  | cons a as ih =>
    have hrest : ∀ b ∈ as, b.Unaware h id := fun b hb => ha b (by simp [hb])
    rw [run_cons]
    cases hsig : a.signals id with
    | true =>
      -- The signal is given in one of the sessions only.
      rw [List.filter_cons_of_neg (by simp [hsig])]
      refine ih ?_ habsent hrest
      cases a with
      | signal id' finished =>
        obtain rfl : id' = id := by simpa [Act.signals] using hsig
        exact ⟨hs.world.trans (.signal _ finished _), hs.claims, hs.log⟩
      | _ => cases hsig
    | false =>
      rw [List.filter_cons_of_pos (by simp [hsig]), run_cons]
      have haware := ha a (by simp)
      have hnext : Absent h id (s.run h [a]) := habsent.run (by simpa using haware)
      exact ih (hs.act habsent.lacks haware hsig) hnext hrest

end

/-- **Late signals change nothing.**  In every session with a new queue that admits
    every entry once, take an entry that was handed out or dropped, on which no claim
    is out and which is not in flight.  Whatever happens from then on, short of
    bringing the entry back or looking at its signal, the signals of the entry can be
    left out: the queue, the claims, all that is remembered and recorded and the state
    of the queue are the same at the end, and so are what the next take hands out and
    what comes of advancing the queue. -/
theorem run_late_signals (h : Handle) (w : World σ) (id : QueueId) (limit : Nat)
    (acts : List (Act σ)) :
    let s := (start h w id limit).run h acts
    (s.admitted.map Entry.id).Nodup →
      ∀ e ∈ s.departed, (∀ f, (s.queue h).inFlight = some f → f.id ≠ e.id) →
        (∀ c ∈ s.claims, c.entry.id ≠ e.id) →
          ∀ more : List (Act σ), (∀ a ∈ more, a.Unaware h e.id) →
            let t := s.run h more
            let u := s.run h (more.filter fun a => !a.signals e.id)
            t.queue h = u.queue h ∧ t.claims = u.claims ∧ t.log = u.log ∧
              (t.queue h).state t.world.waiting = (u.queue h).state u.world.waiting ∧
              t.world.holder? h = u.world.holder? h ∧
              (t.world.takeNext h).1 = (u.world.takeNext h).1 ∧
              ∀ x : Executor σ, x.Unaware h e.id →
                (Executor.holding h t.world (x.tick h)).1 =
                  (Executor.holding h u.world (x.tick h)).1 := by
  intro s honce e he hflight hclaims more hmore t u
  have habsent : Absent h e.id s :=
    (run_ordered h w id limit acts).absent honce he hflight hclaims
  have hsame : SameBut e.id u t := SameBut.run ⟨.refl _ _, rfl, rfl⟩ habsent hmore
  have hu : Absent h e.id u := habsent.run fun a ha => hmore a (List.mem_filter.1 ha).1
  have hq : t.queue h = u.queue h := hsame.queue
  have hw : ∀ f, (u.queue h).inFlight = some f → t.world.waiting f.id = u.world.waiting f.id :=
    fun f hf => hsame.world.waiting _ (hu.lacks.inFlight f hf)
  refine ⟨hq, hsame.claims, hsame.log, ?_, ?_, (hsame.world.takeNext h hu.lacks).1,
    fun x hx => (hsame.world.tick hu.lacks hx).1⟩
  · rw [hq, Queue.state_congr hw]
  · rw [World.holder?, World.holder?, hsame.world.queues]
    exact Queue.holder?_congr hw

/-- An entry was claimed when its queue was cleared and came back late: its signals
    make no difference to the entries that are admitted after it. -/
theorem run_late_signals_cleared :
    let e := Entry.make ⟨0⟩ .waitFor "old" [] none
    let f := Entry.make ⟨1⟩ .normal "new" [] none
    let w := { World.start () {} false with waiting := fun _ => true }
    let s := (start ⟨0⟩ w ⟨"main"⟩ 0).run ⟨0⟩
      [.enqueue e, .takeNext, .clear, .finish 0 e (.ok ()) .plain]
    let t := s.run ⟨0⟩ [.signal ⟨0⟩ true, .enqueue f, .signal ⟨0⟩ false, .takeNext]
    let u := s.run ⟨0⟩ [.enqueue f, .takeNext]
    t.queue ⟨0⟩ = u.queue ⟨0⟩ ∧ t.claims = u.claims ∧ t.log = u.log := by
  intro e f w s t u
  have honce : (s.admitted.map Entry.id).Nodup := by decide
  have hleft : e.attach ⟨"main"⟩ ∈ s.departed := List.mem_cons_self
  have hflight : ∀ g, (s.queue ⟨0⟩).inFlight = some g → g.id ≠ e.id := by
    have hnone : (s.queue ⟨0⟩).inFlight = none := rfl
    simp [hnone]
  have hclaims : ∀ c ∈ s.claims, c.entry.id ≠ e.id := by
    have hnone : s.claims = [] := rfl
    simp [hnone]
  have hmore : ∀ a ∈ [Act.signal ⟨0⟩ true, .enqueue f, .signal ⟨0⟩ false, .takeNext],
      a.Unaware (σ := Unit) ⟨0⟩ e.id := by
    simp [Act.Unaware, e, f, Entry.make]
  obtain ⟨hqueue, hc, hlog, -⟩ := run_late_signals ⟨0⟩ w ⟨"main"⟩ 0
    [.enqueue e, .takeNext, .clear, .finish 0 e (.ok ()) .plain] honce _ hleft hflight hclaims _
    hmore
  exact ⟨hqueue, hc, hlog⟩

end Session

end Cuelist
