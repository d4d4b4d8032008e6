/-
  How many entries a clearing counts.

  A queue shows how many entries are to run and whether one holds it.  Clearing counts these, and
  an entry that lingers: it was signalled, so that the queue does not show it any more, but no
  take has let it go (`Queue.Lingers`).  Such an entry was run, and nothing is left to drop of it.

  * `Queue.dropCount_of_not_lingers`, `Queue.dropCount_of_lingers`: the count against what is
    shown.
  * `follow_drop_count`: in every session they agree unless an entry lingers; one that does has
    its record, and the next take lets it go.
  * `lingering_entry_counted`: a drained queue that counts one.
-/
import Cuelist.Proofs.Session.History

namespace Cuelist

/-! ## Queues -/

namespace Queue

/-- Whether an entry in flight was signalled and not let go. -/
def Lingers (waiting : EntryId → Bool) (q : Queue) (e : Entry) : Prop :=
  q.inFlight = some e ∧ waiting e.id = false

/-- How many entries the queue shows: those to run, and one that holds it. -/
def shown (waiting : EntryId → Bool) (q : Queue) : Nat :=
  q.length + if (q.holder? waiting).isSome then 1 else 0

section
variable {waiting : EntryId → Bool} {q : Queue} {e : Entry}

theorem Lingers.holder? (h : q.Lingers waiting e) : q.holder? waiting = none := by
  rw [holder?_eq_none]
  intro e' he'
  obtain rfl : e = e' := Option.some.inj (h.1.symm.trans he')
  exact h.2

theorem isSome_holder?_iff :
    (q.holder? waiting).isSome = true ↔ q.state waiting = .awaitingCompletion := by
  constructor
  · intro hh
    simp only [state, hh, if_true]
  · intro hs
    unfold state at hs
    split at hs
    next hh => exact hh
    split at hs
    · cases hs
    split at hs <;> cases hs

theorem shown_of_drained (h : q.state waiting = .drained) : q.shown waiting = 0 := by
  unfold state at h
  split at h
  · cases h
  next hh =>
    split at h
    · cases h
    next hrun =>
      have hp : q.pending = [] := by simp_all
      simp [shown, length, hp, hh]

/-- **A clearing counts what the queue shows**, if no entry lingers. -/
theorem dropCount_of_not_lingers (h : ∀ e, ¬q.Lingers waiting e) :
    q.dropCount = q.shown waiting := by
  have hsame : q.inFlight.isSome = (q.holder? waiting).isSome := by
    cases hi : q.inFlight with
    | none => simp [holder?, hi]
    | some e =>
      have hw : waiting e.id = true := by
        by_contra hw
        exact h e ⟨hi, Bool.eq_false_iff.2 hw⟩
      simp [holder?, hi, Option.filter, hw]
  rw [dropCount, shown, hsame, length]

/-- **An entry that lingers is counted besides.** -/
theorem dropCount_of_lingers (h : q.Lingers waiting e) : q.dropCount = q.shown waiting + 1 := by
  simp only [dropCount, shown, h.holder?, h.1, length, Option.isSome_none, Option.isSome_some,
    if_true, Bool.false_eq_true, if_false, Nat.add_zero]

/-- Whatever a take hands out, no entry lingers after it. -/
theorem not_lingers_takeNext (hfree : q.dispatching = true → q.inFlight = none) :
    ¬(q.takeNext waiting).2.Lingers waiting e := by
  rintro ⟨hi, hw⟩
  cases hd : q.dispatching with
  | true =>
    rw [takeNext_busy hd, hfree hd] at hi
    cases hi
  | false =>
    cases hh : q.holder? waiting with
    | some id =>
      obtain ⟨e', he', rfl, hw'⟩ := holder?_eq_some.1 hh
      rw [takeNext_awaiting hd hh, he'] at hi
      obtain rfl := Option.some.inj hi
      rw [hw] at hw'
      cases hw'
    | none =>
      unfold takeNext at hi
      rw [hd, hh] at hi
      cases hp : q.pending <;> rw [hp] at hi <;> cases hi

end

end Queue

namespace Session

variable {σ : Type} {h : Handle}

/-! ## Entries in flight -/

/-- What holds of an entry in flight: no claim of its generation is out, and it was run and asked
    its queue to wait. -/
structure Flown (h : Handle) (s : Session σ) : Prop where
  free : (s.queue h).dispatching = true → (s.queue h).inFlight = none
  ran : ∀ e, (s.queue h).inFlight = some e → ⟨e.id, e.command, .waiting⟩ ∈ s.records

section
variable {s t : Session σ}

/-- Nothing new is in flight. -/
theorem Flown.congr (hs : Flown h s) (hd : (t.queue h).dispatching = (s.queue h).dispatching)
    (hi : (t.queue h).inFlight = (s.queue h).inFlight) (hr : t.records = s.records) :
    Flown h t where
  free := by rw [hd, hi]; exact hs.free
  ran := by rw [hi, hr]; exact hs.ran

/-- Nothing is in flight. -/
theorem Flown.of_none (hi : (t.queue h).inFlight = none) : Flown h t where
  free _ := hi
  ran e he := by rw [hi] at he; cases he

/-- **What a claim puts in flight leaves its record.** -/
theorem Flown.takenBack (hs : Flown h s) {c : Claim} {result : Except CommandError Unit}
    (ht : TakenBack h s t c result) : Flown h t := by
  have hr : t.records = s.records ++ [((s.queue h).finish s.world.waiting c result).1] :=
    records_deed ht.log
  refine ⟨fun hd => ?_, fun e he => ?_⟩
  · rw [ht.queue] at hd ⊢
    by_cases hc : c.generation = (s.queue h).generation
    · rw [Queue.finish_dispatching hc] at hd
      cases hd
    · rw [Queue.finish_stale hc] at hd ⊢
      exact hs.free hd
  · rw [ht.queue] at he
    rw [hr]
    rcases Queue.finish_inFlight he with hold | ⟨hc, rfl, rfl, hw⟩
    · exact List.mem_append_left _ (hs.ran e hold)
    · refine List.mem_append_right _ ?_
      simp [Queue.finish, hc, Queue.statusOf, hw]

theorem Outcome.flown {a : Act σ} (ho : Outcome h s t a) (hs : Flown h s) : Flown h t := by
  cases ho with
  | same hq hc hl => exact hs.congr (by rw [hq]) (by rw [hq]) (by rw [records, hl]; rfl)
  | accept e hopen hq hc hl =>
    refine hs.congr (by rw [hq]) (by rw [hq]) ?_
    rw [records_deed hl]
    exact List.append_nil _
  | takeBack place c e result r hget hq hc hl => exact hs.takenBack ⟨hq, hl⟩
  | release _ _ _ hq | hand _ _ _ _ _ hq => exact .of_none (by rw [hq])
  | clear hq | stop hq => exact .of_none (by rw [hq]; rfl)

end

theorem follow_flown (h : Handle) (w : World σ) (id : QueueId) (limit : Nat)
    (moves : List (Move σ)) : Flown h ((start h w id limit).follow h moves) :=
  follow_induction (fun _ _ _ ho hs => ho.flown hs) (fun _ _ _ _ ht hs => hs.takenBack ht)
    (.of_none (by simp [start, queue, Queue.make])) moves

/-! ## The main result -/

/-- **What a clearing counts.**  In every session with a new queue, with claims out, signals at
    any time and claims of other queues: clearing and stopping count the same.  An entry holds the
    queue exactly if the state says so.  The count is what the queue shows, and so nothing if it
    is drained, unless an entry lingers.  An entry that lingers was run and asked the queue to
    wait; it is counted besides.  None lingers after a take. -/
theorem follow_drop_count (h : Handle) (w : World σ) (id : QueueId) (limit : Nat)
    (moves : List (Move σ)) :
    let s := (start h w id limit).follow h moves
    let q := s.queue h
    let waiting := s.world.waiting
    let shown := q.length + if (s.world.holder? h).isSome then 1 else 0
    (s.world.stop h).1 = (s.world.clear h).1 ∧
      ((s.world.holder? h).isSome ↔ q.state waiting = .awaitingCompletion) ∧
      ((∀ e, ¬q.Lingers waiting e) → (s.world.clear h).1 = shown ∧
        (q.state waiting = .drained → (s.world.clear h).1 = 0)) ∧
      (∀ e, q.Lingers waiting e → (s.world.clear h).1 = shown + 1 ∧
        ⟨e.id, e.command, .waiting⟩ ∈ s.records) ∧
      ∀ e, let t := s.act h .takeNext
        ¬(t.queue h).Lingers t.world.waiting e := by
  intro s q waiting shown
  have hs : Flown h s := follow_flown h w id limit moves
  have hshown : shown = q.shown waiting := rfl
  have hcount : (s.world.clear h).1 = q.dropCount := rfl
  refine ⟨rfl, Queue.isSome_holder?_iff, ?_, ?_, ?_⟩
  · intro hnone
    rw [hcount, hshown, Queue.dropCount_of_not_lingers hnone]
    exact ⟨rfl, Queue.shown_of_drained⟩
  · intro e he
    rw [hcount, hshown]
    exact ⟨Queue.dropCount_of_lingers he, hs.ran e he.1⟩
  · intro e t
    have hqueue : t.queue h = (q.takeNext waiting).2 := World.queues_setQueue ..
    have hwaiting : t.world.waiting = waiting := rfl
    rw [hqueue, hwaiting]
    exact Queue.not_lingers_takeNext hs.free

/-- One entry holds a queue and another one is to run; then the first one is signalled. -/
theorem follow_drop_count_signalled :
    let e := Entry.make ⟨0⟩ .waitFor "HOLD" [] none
    let f := Entry.make ⟨1⟩ .normal "NEXT" [] none
    let w := { World.start () {} false with waiting := fun _ => true }
    let before : List (Move Unit) := [.act (.enqueueAll [e, f]), .act .takeNext,
      .act (.finish 0 e (.ok ()) .plain)]
    let s := (start ⟨0⟩ w ⟨"MAIN"⟩ 0).follow ⟨0⟩ before
    let t := (start ⟨0⟩ w ⟨"MAIN"⟩ 0).follow ⟨0⟩ (before ++ [.act (.signal ⟨0⟩ true)])
    ((∀ e, ¬(s.queue ⟨0⟩).Lingers s.world.waiting e) ∧ (s.world.clear ⟨0⟩).1 = 2) ∧
      (t.queue ⟨0⟩).Lingers t.world.waiting e ∧ (t.world.clear ⟨0⟩).1 = 1 + 1 ∧
      ⟨⟨0⟩, "HOLD", .waiting⟩ ∈ t.records := by
  intro e f w before s t
  have hs : ∀ e, ¬(s.queue ⟨0⟩).Lingers s.world.waiting e := by
    rintro e' ⟨he', hw⟩
    have hwaits : ∀ id, s.world.waiting id = true := fun _ => rfl
    rw [hwaits] at hw
    cases hw
  have ht : (t.queue ⟨0⟩).Lingers t.world.waiting e := ⟨rfl, by decide⟩
  obtain ⟨-, -, hagrees, -⟩ := follow_drop_count ⟨0⟩ w ⟨"MAIN"⟩ 0 before
  obtain ⟨-, -, -, hbesides, -⟩ := follow_drop_count ⟨0⟩ w ⟨"MAIN"⟩ 0
    (before ++ [.act (.signal ⟨0⟩ true)])
  exact ⟨⟨hs, (hagrees hs).1⟩, ht, hbesides e ht⟩

/-- A queue is drained, and no entry is to run or holds it; but a clearing counts the entry that
    held it, and so does a stop. -/
theorem lingering_entry_counted :
    let e := Entry.make ⟨0⟩ .waitFor "HOLD" [] none
    let w := { World.start () {} false with waiting := fun _ => true }
    let s := (start ⟨0⟩ w ⟨"MAIN"⟩ 0).follow ⟨0⟩ [.act (.enqueue e), .act .takeNext,
      .act (.finish 0 e (.ok ()) .plain), .act (.signal ⟨0⟩ true)]
    (s.queue ⟨0⟩).state s.world.waiting = .drained ∧ (s.queue ⟨0⟩).length = 0 ∧
      s.world.holder? ⟨0⟩ = none ∧ (s.world.clear ⟨0⟩).1 = 1 ∧ (s.world.stop ⟨0⟩).1 = 1 := by
  decide

end Session

end Cuelist
