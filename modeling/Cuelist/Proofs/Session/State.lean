/-
  What the state of a queue says about the next take.

  A queue works out its state and what it hands out on different ways through the
  same fields.  `Foretells` lists which states go with which takes; `state_foretells`
  is the agreement for a queue on which no entry is in flight while a claim is out.

  A queue is idle until its first take or its first clearing.  Both are `opening`
  deeds of the log of a session, and the queue remembers whether there was one
  (`run_opened`).  `run_state` draws both together for every session.
-/
import Cuelist.Proofs.Session.Claims
import Cuelist.Proofs.Session.Order

namespace Cuelist

/-! ## States and takes -/

/-- Whether a take that follows a state is of the kind that the state announces. -/
def QueueState.Foretells : QueueState → Next → Prop
  | .awaitingCompletion, .awaiting _ => True
  | .running, .ready _ | .running, .busy => True
  | .idle, .empty | .drained, .empty => True
  | _, _ => False

theorem Queue.state_foretells {waiting : EntryId → Bool} {q : Queue}
    (free : q.dispatching = true → q.inFlight = none) :
    (q.state waiting).Foretells (q.takeNext waiting).1 := by
  cases hd : q.dispatching with
  | true =>
    have hh : q.holder? waiting = none := by simp [holder?, free hd]
    simp [state, hh, hd, takeNext_busy hd, QueueState.Foretells]
  | false =>
    cases hh : q.holder? waiting with
    | some id => simp [state, hh, takeNext_awaiting hd hh, QueueState.Foretells]
    | none =>
      cases hp : q.pending with
      | nil =>
        rw [takeNext_empty hd hh hp]
        simp only [state, hh, hd, hp]
        cases q.started <;> cases q.stopped <;> simp [QueueState.Foretells]
      | cons e rest => simp [state, hh, hd, hp, takeNext_ready hd hh hp, QueueState.Foretells]

section
variable {state : QueueState} {next : Next}

theorem QueueState.Foretells.awaiting_iff (h : state.Foretells next) :
    state = .awaitingCompletion ↔ ∃ id, next = .awaiting id := by
  cases state <;> cases next <;> simp [QueueState.Foretells] at h ⊢

theorem QueueState.Foretells.running_iff (h : state.Foretells next) :
    state = .running ↔ next = .busy ∨ ∃ c, next = .ready c := by
  cases state <;> cases next <;> simp [QueueState.Foretells] at h ⊢

theorem QueueState.Foretells.empty_iff (h : state.Foretells next) :
    state = .idle ∨ state = .drained ↔ next = .empty := by
  cases state <;> cases next <;> simp [QueueState.Foretells] at h ⊢

end

/-! ## The first take and the first clearing -/

/-- Whether a deed ends the time in which nothing happened to a queue but
    admissions. -/
def Deed.opening : Deed → Bool
  | .claimed _ | .dropped _ => true
  | .admitted _ | .finished _ => false

namespace Session

variable {σ : Type} {h : Handle}

/-- Whether the queue was ever cleared or stopped. -/
def Cleared (s : Session σ) : Prop := ∃ es, Deed.dropped es ∈ s.log

/-- What a queue remembers of the log. -/
structure Opened (h : Handle) (s : Session σ) : Prop where
  started : (s.queue h).started = s.log.any Deed.opening
  stopped : (s.queue h).stopped = true → (s.queue h).started = true
  dispatching : (s.queue h).dispatching = true → (s.queue h).started = true
  inFlight : (s.queue h).inFlight.isSome = true → (s.queue h).started = true

theorem start_opened (h : Handle) (w : World σ) (id : QueueId) (limit : Nat) :
    Opened h (start h w id limit) := by
  constructor <;> simp [start, queue, Queue.make]

section
variable {s t : Session σ}

/-- A queue that remembers an opening deed. -/
theorem Opened.of_started (hs : (t.queue h).started = true) (hl : t.log.any Deed.opening = true) :
    Opened h t where
  started := by rw [hs, hl]
  stopped _ := hs
  dispatching _ := hs
  inFlight _ := hs

theorem opening_append {d : Deed} (hl : t.log = s.log ++ [d]) :
    t.log.any Deed.opening = (s.log.any Deed.opening || d.opening) := by
  simp [hl]

/-- A queue that changes in nothing but its entries and its records, and puts none
    in flight. -/
theorem Opened.congr (hs : Opened h s) {pending : List Entry} {inFlight : Option Entry}
    {executed : Nat} {history : List Record}
    (hq : t.queue h = { s.queue h with pending, inFlight, executed, history })
    (hi : inFlight = (s.queue h).inFlight ∨ inFlight = none)
    (hl : t.log.any Deed.opening = s.log.any Deed.opening) : Opened h t where
  started := by rw [hq, hl]; exact hs.started
  stopped := by rw [hq]; exact hs.stopped
  dispatching := by rw [hq]; exact hs.dispatching
  inFlight := by
    rw [hq]
    rcases hi with rfl | rfl
    · exact hs.inFlight
    · simp

/-- A claim that comes back was handed out: if it is current, the queue is
    dispatching. -/
theorem Opened.takeBack (hs : Opened h s) (hg : Guarded h s) {place : Nat} {c : Claim} {e : Entry}
    {result : Except CommandError Unit} (hget : s.claims[place]? = some c)
    (hq : t.queue h = ((s.queue h).finish s.world.waiting { c with entry := e } result).2)
    (hl : t.log.any Deed.opening = s.log.any Deed.opening) : Opened h t := by
  by_cases hc : c.generation = (s.queue h).generation
  · have hst : (s.queue h).started = true := hs.dispatching (hg.dispatching_of_current hget hc)
    have hsame : (t.queue h).started = (s.queue h).started := by rw [hq, Queue.finish_started]
    refine .of_started (hsame.trans hst) ?_
    rw [hl, ← hs.started, hst]
  · rw [Queue.finish_stale (c := { c with entry := e }) hc] at hq
    exact hs.congr hq (.inl rfl) hl

theorem Outcome.opened {a : Act σ} (ho : Outcome h s t a) (hg : Guarded h s) (hs : Opened h s) :
    Opened h t := by
  cases ho with
  | same hq hc hl => exact hs.congr hq (.inl rfl) (by rw [hl])
  | accept e hopen hq hc hl =>
    exact hs.congr hq (.inl rfl) (by simp [opening_append hl, Deed.opening])
  | release hd hh hp hq hc hl => exact hs.congr hq (.inr rfl) (by rw [hl])
  | hand e rest hd hh hp hq hc hl =>
    exact .of_started (by rw [hq]) (by simp [opening_append hl, Deed.opening])
  | takeBack place c e result r hget hq hc hl =>
    exact hs.takeBack hg hget hq (by simp [opening_append hl, Deed.opening])
  | clear hq hc hl =>
    exact .of_started (by rw [hq]; rfl) (by simp [opening_append hl, Deed.opening])
  | stop hq hc hl =>
    exact .of_started (by rw [hq]; rfl) (by simp [opening_append hl, Deed.opening])

end

theorem run_opened (h : Handle) (w : World σ) (id : QueueId) (limit : Nat)
    (acts : List (Act σ)) : Opened h ((start h w id limit).run h acts) := by
  have hboth := run_induction (h := h) (P := fun s => Guarded h s ∧ Opened h s)
    (fun _ _ _ ho hs => ⟨ho.guarded hs.1, ho.opened hs.1 hs.2⟩)
    ⟨start_guarded h w id limit, start_opened h w id limit⟩ acts
  exact hboth.2

/-- No deed of the log is an opening one if nothing was claimed and the queue never
    cleared. -/
theorem opening_eq_false {s : Session σ} :
    s.log.any Deed.opening = false ↔ s.claimed = [] ∧ ¬s.Cleared := by
  simp only [List.any_eq_false, claimed, Cleared, List.flatMap_eq_nil_iff]
  constructor
  · intro hno
    constructor
    · intro d hd
      cases d with
      | claimed e => exact absurd rfl (hno _ hd)
      | _ => rfl
    · rintro ⟨es, hd⟩
      exact hno _ hd rfl
  · rintro ⟨hclaimed, hcleared⟩ d hd hopen
    cases d with
    | claimed e => cases hclaimed _ hd
    | dropped es => exact hcleared ⟨es, hd⟩
    | admitted | finished => cases hopen

/-- A queue is idle if nothing is to run and nothing happened to it but
    admissions. -/
theorem Opened.idle_iff {s : Session σ} (hs : Opened h s) :
    (s.queue h).state s.world.waiting = .idle ↔
      (s.queue h).pending = [] ∧ s.claimed = [] ∧ ¬s.Cleared := by
  rw [← opening_eq_false, ← hs.started]
  constructor
  · intro hidle
    simp only [Queue.state] at hidle
    split at hidle
    · cases hidle
    split at hidle
    · cases hidle
    split at hidle
    · cases hidle
    next hrun hbegan => simp_all
  · rintro ⟨hp, hst⟩
    have hstop : (s.queue h).stopped = false := Bool.eq_false_iff.2 fun hc => by
      rw [hs.stopped hc] at hst; cases hst
    have hd : (s.queue h).dispatching = false := Bool.eq_false_iff.2 fun hc => by
      rw [hs.dispatching hc] at hst; cases hst
    have hi : (s.queue h).inFlight = none := by
      cases hi : (s.queue h).inFlight with
      | none => rfl
      | some e => rw [hs.inFlight (by simp [hi])] at hst; cases hst
    simp [Queue.state, Queue.holder?, hp, hst, hstop, hd, hi]

/-- The log only grows. -/
theorem Outcome.log_prefix {s t : Session σ} {a : Act σ} (ho : Outcome h s t a) :
    s.log <+: t.log := by
  cases ho with
  | same _ _ hl | release _ _ _ _ _ hl => exact hl ▸ List.prefix_rfl
  | accept _ _ _ _ hl | hand _ _ _ _ _ _ _ hl | takeBack _ _ _ _ _ _ _ _ hl | clear _ _ hl
  | stop _ _ hl => exact hl ▸ List.prefix_append ..

theorem admitted_subset_run (s : Session σ) (acts : List (Act σ)) :
    s.admitted ⊆ (s.run h acts).admitted := by
  refine run_induction (h := h) (P := fun t => s.admitted ⊆ t.admitted) ?_
    (List.Subset.refl _) acts
  intro t u a ho hsub e he
  obtain ⟨new, hnew⟩ := ho.log_prefix
  rw [admitted, ← hnew, List.flatMap_append]
  exact List.mem_append_left _ (hsub he)

/-- **The state foretells the next take.**  In every session with a new queue the
    state is that of a waiting queue if the next take is told to wait for an entry,
    that of a running one if the take hands out an entry or finds a claim out, and
    one of the two others if the take finds nothing.  A queue is idle as long as
    nothing is to run, nothing was handed out and the queue was never cleared or
    stopped; so it is not idle any more, whatever happens, once an entry was
    admitted. -/
theorem run_state (h : Handle) (w : World σ) (id : QueueId) (limit : Nat)
    (acts : List (Act σ)) :
    let s := (start h w id limit).run h acts
    let state := (s.queue h).state s.world.waiting
    let next := (s.world.takeNext h).1
    (state = .awaitingCompletion ↔ ∃ id, next = .awaiting id) ∧
      (state = .running ↔ next = .busy ∨ ∃ c, next = .ready c) ∧
      (state = .idle ∨ state = .drained ↔ next = .empty) ∧
      (state = .idle ↔ (s.queue h).pending = [] ∧ s.claimed = [] ∧ ¬s.Cleared) ∧
      (s.admitted ≠ [] → ∀ more, let t := s.run h more
        (t.queue h).state t.world.waiting ≠ .idle) := by
  intro s state next
  have hg : Guarded h s := run_guarded h w id limit acts
  have hfits : state.Foretells next := Queue.state_foretells hg.free
  refine ⟨hfits.awaiting_iff, hfits.running_iff, hfits.empty_iff,
    (run_opened h w id limit acts).idle_iff, ?_⟩
  intro hadm more t hidle
  obtain ⟨e, he⟩ := List.exists_mem_of_ne_nil _ hadm
  have hrun : t = (start h w id limit).run h (acts ++ more) := (run_append ..).symm
  have hopened : Opened h t := hrun ▸ run_opened h w id limit _
  have hordered : Ordered h t := hrun ▸ run_ordered h w id limit _
  obtain ⟨hp, hclaimed, hcleared⟩ := hopened.idle_iff.1 hidle
  -- The entry would be to run, handed out or dropped.
  have hdropped : t.dropped = [] := by
    rw [dropped, List.flatMap_eq_nil_iff]
    intro d hd
    cases d with
    | dropped es => exact absurd ⟨es, hd⟩ hcleared
    | _ => rfl
  have hmem := hordered.perm.subset (admitted_subset_run s more he)
  simp [hp, hclaimed, hdropped] at hmem

/-- An entry was admitted, handed out and let go: the queue is drained, not idle. -/
theorem run_state_drained :
    let e := Entry.make ⟨0⟩ .waitFor "hold" [] none
    let w := { World.start () {} false with waiting := fun _ => true }
    let s := (start ⟨0⟩ w ⟨"main"⟩ 0).run ⟨0⟩ [.enqueue e]
    let t := s.run ⟨0⟩ [.takeNext, .finish 0 e (.ok ()) .plain, .signal ⟨0⟩ true]
    s.admitted ≠ [] ∧ (t.queue ⟨0⟩).state t.world.waiting ≠ .idle := by
  intro e w s t
  obtain ⟨-, -, -, -, hnever⟩ := run_state ⟨0⟩ w ⟨"main"⟩ 0 [.enqueue e]
  have hadm : s.admitted ≠ [] := List.cons_ne_nil _ _
  exact ⟨hadm, hnever hadm _⟩

end Session

end Cuelist
