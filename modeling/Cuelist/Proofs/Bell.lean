/-
  What rings and looks make of a bell.

  A ring and a look change one bell: `struck`, `look` and `without` say how, apart
  from the world.  A task has `places` at a bell, at most one of each kind, and a
  ring does not change how many.

  * `Sole t` are the bells at which only `t` listens: nobody waits, or `t` waits and
    no ring is kept, or `t` was woken;
  * `Rung t`: a ring is there for `t` when it looks.  On a bell with a sole listener
    a ring is always there after it was struck (`Sole.rung_struck`), and the listener
    does not wait while one is there (`Sole.not_rung`);
  * `Tidy` is a bell with any number of listeners: each has one place, and nobody waits
    while a ring is kept.
-/
import Cuelist.World

namespace Cuelist

namespace Listeners

/-! ## One bell -/

/-- A bell after a ring. -/
def struck (l : Listeners) : Listeners :=
  match l.waiting with
  | t :: rest => { l with waiting := rest, woken := l.woken ++ [t] }
  | [] => { l with kept := true }

/-- What a look of a task finds at a bell, and the bell after it. -/
def look (l : Listeners) (t : TaskId) : Bool × Listeners :=
  if t ∈ l.woken then (true, { l with woken := l.woken.erase t })
  else if t ∈ l.waiting then (false, l)
  else if l.kept then (true, { l with kept := false })
  else (false, { l with waiting := l.waiting ++ [t] })

/-- A bell after a task left it. -/
def without (l : Listeners) (t : TaskId) : Listeners :=
  if t ∈ l.woken then { l with woken := l.woken.erase t }.struck
  else { l with waiting := l.waiting.erase t }

/-- How many times a task is among the listeners of a bell. -/
def places (l : Listeners) (t : TaskId) : Nat := l.waiting.count t + l.woken.count t

variable {l : Listeners} {t : TaskId}

theorem places_eq_zero : l.places t = 0 ↔ t ∉ l.waiting ∧ t ∉ l.woken := by
  simp [places, List.count_eq_zero]

theorem places_pos_of_waiting (h : t ∈ l.waiting) : 0 < l.places t :=
  Nat.lt_add_right _ (List.count_pos_iff.2 h)

theorem places_struck : l.struck.places t = l.places t := by
  unfold struck
  split
  next t' rest h => simp only [places, h, List.count_append, List.count_cons, List.count_nil]; omega
  next h => rfl

theorem mem_of_mem_struck (h : t ∈ l.struck.waiting) : t ∈ l.waiting := by
  unfold struck at h
  split at h
  next hw => rw [hw]; exact List.mem_cons_of_mem _ h
  next => exact h

theorem waiting_struck (h : t ∈ l.waiting) (hn : t ∉ l.struck.waiting) :
    ∃ rest, l.waiting = t :: rest := by
  unfold struck at hn
  split at hn
  next t' rest hw =>
    rcases List.mem_cons.1 (hw ▸ h) with rfl | hm
    · exact ⟨rest, hw⟩
    · exact (hn hm).elim
  next hw => exact (hn h).elim

theorem places_look (h : l.places t ≤ 1) : (l.look t).2.places t ≤ 1 := by
  unfold look
  split
  next hm => simp only [places, List.count_erase_self] at h ⊢; omega
  split
  next => exact h
  split
  next => exact h
  next hk hw _ =>
    have hzero : l.places t = 0 := places_eq_zero.2 ⟨hw, hk⟩
    simp only [places, List.count_append, List.count_singleton_self] at hzero ⊢
    omega

/-- A look that finds a ring ends the listening. -/
theorem places_look_true (h : l.places t ≤ 1) (hl : (l.look t).1 = true) :
    (l.look t).2.places t = 0 := by
  unfold look at hl ⊢
  split
  next hm =>
    have hpos := List.count_pos_iff.2 hm
    simp only [places, List.count_erase_self] at h ⊢
    omega
  next hm =>
    rw [if_neg hm] at hl
    split
    next hw => rw [if_pos hw] at hl; cases hl
    next hw =>
      rw [if_neg hw] at hl
      split
      next => exact places_eq_zero.2 ⟨hw, hm⟩
      next hk => rw [if_neg hk] at hl; cases hl

/-- After a look that finds no ring the task waits, behind those who waited before if
    it did not. -/
theorem waiting_look_false (hl : (l.look t).1 = false) :
    t ∈ (l.look t).2.waiting ∧
      ((l.look t).2.waiting = l.waiting ∨
        l.places t = 0 ∧ (l.look t).2.waiting = l.waiting ++ [t]) := by
  unfold look at hl ⊢
  split
  next hm => rw [if_pos hm] at hl; cases hl
  next hm =>
    rw [if_neg hm] at hl
    split
    next hw => exact ⟨hw, .inl rfl⟩
    next hw =>
      rw [if_neg hw] at hl
      split
      next hk => rw [if_pos hk] at hl; cases hl
      next => exact ⟨by simp, .inr ⟨places_eq_zero.2 ⟨hw, hm⟩, rfl⟩⟩

theorem places_without (h : l.places t ≤ 1) : (l.without t).places t = 0 := by
  unfold without
  split
  next hm =>
    have hpos := List.count_pos_iff.2 hm
    rw [places_struck]
    simp only [places, List.count_erase_self] at h ⊢
    omega
  next hm =>
    have hzero := List.count_eq_zero.2 hm
    simp only [places, List.count_erase_self] at h ⊢
    omega

/-! ## Sole listeners -/

/-- Whether a look of a task finds a ring. -/
def Rung (l : Listeners) (t : TaskId) : Prop := l.kept = true ∨ t ∈ l.woken

/-- The bells at which only `t` listens. -/
inductive Sole (t : TaskId) : Listeners → Prop
  | away (kept : Bool) : Sole t ⟨kept, [], []⟩
  | waiting : Sole t ⟨false, [t], []⟩
  | woken (kept : Bool) : Sole t ⟨kept, [], [t]⟩

theorem Sole.struck (h : Sole t l) : Sole t l.struck := by
  cases h with
  | away => exact .away true
  | waiting => exact .woken false
  | woken => exact .woken true

theorem Sole.rung_struck (h : Sole t l) : l.struck.Rung t := by
  cases h with
  | away => exact .inl rfl
  | waiting => exact .inr (by simp [Listeners.struck])
  | woken => exact .inl rfl

theorem Sole.not_rung (h : Sole t l) (hw : t ∈ l.waiting) : ¬l.Rung t := by
  cases h with
  | away | woken => cases hw
  | waiting => simp [Rung]

theorem Sole.look (h : Sole t l) : Sole t (l.look t).2 := by
  cases h with
  | away kept => cases kept <;> simp [Listeners.look, Sole.away, Sole.waiting]
  | waiting => simp [Listeners.look, Sole.waiting]
  | woken kept => simp [Listeners.look, Sole.away]

theorem Sole.look_fst (h : Sole t l) : (l.look t).1 = true ↔ l.Rung t := by
  cases h with
  | away kept => cases kept <;> simp [Listeners.look, Rung]
  | waiting => simp [Listeners.look, Rung]
  | woken kept => simp [Listeners.look, Rung]

theorem Sole.without (h : Sole t l) : Sole t (l.without t) := by
  cases h with
  | away kept => simpa [Listeners.without] using Sole.away kept
  | waiting => simpa [Listeners.without] using Sole.away false
  | woken kept => simpa [Listeners.without, Listeners.struck] using Sole.away true

/-! ## Any number of listeners -/

/-- What holds of a bell with any number of listeners: a ring is kept only while nobody
    waits, and nobody listens twice. -/
structure Tidy (l : Listeners) : Prop where
  kept : l.kept = true → l.waiting = []
  once : ∀ t, l.places t ≤ 1

variable {t' : TaskId}

theorem places_look_other (ht : t' ≠ t) : (l.look t).2.places t' = l.places t' := by
  unfold look places
  split
  · simp only [List.count_erase_of_ne ht]
  split
  · rfl
  split
  · rfl
  · simp [List.count_append, ht.symm]

theorem places_without_other (ht : t' ≠ t) : (l.without t).places t' = l.places t' := by
  unfold without
  split
  · rw [places_struck, places, places, List.count_erase_of_ne ht]
  · rw [places, places, List.count_erase_of_ne ht]

/-- A look takes nobody away who waits. -/
theorem waiting_look (h : t' ∈ l.waiting) : t' ∈ (l.look t).2.waiting := by
  unfold look
  split
  · exact h
  split
  · exact h
  split
  · exact h
  · exact List.mem_append_left _ h

theorem waiting_struck_of_kept (h : l.kept = true → l.waiting = []) (hk : l.struck.kept = true) :
    l.struck.waiting = [] := by
  unfold struck at hk ⊢
  split
  next t rest hw =>
    rw [hw] at hk
    have hnone := h hk
    rw [hw] at hnone
    cases hnone
  next hw => exact hw

theorem Tidy.struck (h : Tidy l) : Tidy l.struck where
  kept := waiting_struck_of_kept h.kept
  once t := by rw [places_struck]; exact h.once t

theorem Tidy.look (h : Tidy l) (t : TaskId) : Tidy (l.look t).2 where
  kept hk := by
    unfold Listeners.look at hk ⊢
    split at hk
    next hm => rw [if_pos hm]; exact h.kept hk
    next hm =>
      rw [if_neg hm]
      split at hk
      next hw => rw [if_pos hw]; exact h.kept hk
      next hw =>
        split at hk
        next => cases hk
        next hkept => exact absurd hk hkept
  once t' := by
    by_cases ht : t' = t
    · subst ht; exact places_look (h.once t')
    · rw [places_look_other ht]; exact h.once t'

theorem Tidy.without (h : Tidy l) (t : TaskId) : Tidy (l.without t) where
  kept hk := by
    unfold Listeners.without at hk ⊢
    split at hk
    next hm =>
      rw [if_pos hm]
      exact waiting_struck_of_kept h.kept hk
    next hm =>
      rw [if_neg hm, h.kept hk, List.erase_nil]
  once t' := by
    by_cases ht : t' = t
    · subst ht; rw [places_without (h.once t')]; exact Nat.zero_le 1
    · rw [places_without_other ht]; exact h.once t'

/-! A ring that woke a task is its own. -/

theorem woken_struck (h : t ∈ l.woken) : t ∈ l.struck.woken := by
  unfold struck
  split
  · exact List.mem_append_left _ h
  · exact h

theorem woken_look_other (ht : t' ≠ t) (h : t' ∈ l.woken) : t' ∈ (l.look t).2.woken := by
  unfold look
  split
  · exact (List.mem_erase_of_ne ht).2 h
  split
  · exact h
  split
  · exact h
  · exact h

theorem woken_without_other (ht : t' ≠ t) (h : t' ∈ l.woken) : t' ∈ (l.without t).woken := by
  unfold without
  split
  · exact woken_struck ((List.mem_erase_of_ne ht).2 h)
  · exact h

/-- A ring is there for a task as long as it does not look. -/
theorem Rung.struck (h : l.Rung t) : l.struck.Rung t := by
  unfold Listeners.struck
  split
  · exact h.imp_right (List.mem_append_left _)
  · exact .inl rfl

theorem Tidy.look_fst (h : Tidy l) (hr : l.Rung t) : (l.look t).1 = true := by
  unfold Listeners.look
  split
  next => rfl
  next hm =>
    have hk : l.kept = true := hr.resolve_right hm
    simp [h.kept hk, hk]

/-- Who waits and has a ring does not exist at a tidy bell. -/
theorem Tidy.not_rung (h : Tidy l) (hw : t ∈ l.waiting) : ¬l.Rung t := by
  rintro (hk | hm)
  · rw [h.kept hk] at hw; cases hw
  · have honce := h.once t
    have hwait := List.count_pos_iff.2 hw
    have hwoken := List.count_pos_iff.2 hm
    simp only [places] at honce
    omega

end Listeners

/-! ## Bells of a world -/

namespace World

variable {σ : Type}

theorem listens_iff {w : World σ} {b : Bell} {t : TaskId} :
    w.listens b t = true ↔ (w.bells b).places t ≠ 0 := by
  rw [Ne, Listeners.places_eq_zero, Classical.not_and_iff_not_or_not, Classical.not_not,
    Classical.not_not]
  simp [listens]

theorem bells_ring (w : World σ) (b : Bell) :
    (w.ring b).bells = put w.bells b (w.bells b).struck := by
  cases h : (w.bells b).waiting with
  | nil => rw [ring_of_none h]; simp [Listeners.struck, h]
  | cons t rest => rw [ring_of_waiting h, wake_eq]; simp [Listeners.struck, h]

theorem places_ring (w : World σ) (b b' : Bell) (t : TaskId) :
    ((w.ring b).bells b').places t = (w.bells b').places t := by
  by_cases hb : b' = b
  · rw [bells_ring, hb, put_same, Listeners.places_struck]
  · rw [bells_ring, put_other _ _ hb]

/-- Who waits at a bell still waits after a ring, or is to be polled. -/
theorem waiting_or_ready_ring (w : World σ) {b b' : Bell} {t : TaskId}
    (h : t ∈ (w.bells b').waiting) :
    t ∈ ((w.ring b).bells b').waiting ∨ t ∈ (w.ring b).ready := by
  by_cases hb : b' = b
  · subst hb
    rw [bells_ring, put_same]
    by_cases hs : t ∈ (w.bells b').struck.waiting
    · exact .inl hs
    · obtain ⟨rest, hw⟩ := Listeners.waiting_struck h hs
      rw [ring_of_waiting hw]
      exact .inr (mem_ready_wake ..)
  · rw [bells_ring, put_other _ _ hb]
    exact .inl h

theorem listen_eq (w : World σ) (b : Bell) (t : TaskId) :
    w.listen b t = (((w.bells b).look t).1,
      { w with bells := put w.bells b ((w.bells b).look t).2 }) := by
  by_cases hm : t ∈ (w.bells b).woken
  · simp [listen, Listeners.look, hm]
  by_cases hw : t ∈ (w.bells b).waiting
  · simp [listen, Listeners.look, hm, hw, put_self]
  by_cases hk : (w.bells b).kept = true <;> simp [listen, Listeners.look, hm, hw, hk]

section
variable {w w' : World σ} {b : Bell} {t : TaskId} {rung : Bool}

theorem of_listen (hl : w.listen b t = (rung, w')) :
    ((w.bells b).look t).1 = rung ∧
      w' = { w with bells := put w.bells b ((w.bells b).look t).2 } := by
  rw [listen_eq] at hl
  exact ⟨congrArg Prod.fst hl, (congrArg Prod.snd hl).symm⟩

theorem bells_listen (hl : w.listen b t = (rung, w')) :
    w'.bells = put w.bells b ((w.bells b).look t).2 := by
  obtain ⟨-, rfl⟩ := of_listen hl
  rfl

theorem bells_listen_other (hl : w.listen b t = (rung, w')) {b' : Bell} (hb : b' ≠ b) :
    w'.bells b' = w.bells b' := by
  rw [bells_listen hl]; exact put_other _ _ hb

theorem tasks_listen (hl : w.listen b t = (rung, w')) : w'.tasks = w.tasks := by
  obtain ⟨-, rfl⟩ := of_listen hl
  rfl

theorem taskCount_listen (hl : w.listen b t = (rung, w')) : w'.taskCount = w.taskCount := by
  obtain ⟨-, rfl⟩ := of_listen hl
  rfl

theorem queues_listen (hl : w.listen b t = (rung, w')) : w'.queues = w.queues := by
  obtain ⟨-, rfl⟩ := of_listen hl
  rfl

theorem waiting_listen (hl : w.listen b t = (rung, w')) : w'.waiting = w.waiting := by
  obtain ⟨-, rfl⟩ := of_listen hl
  rfl

theorem ready_listen (hl : w.listen b t = (rung, w')) : w'.ready = w.ready := by
  obtain ⟨-, rfl⟩ := of_listen hl
  rfl

theorem places_listen_true (hl : w.listen b t = (true, w')) (ho : (w.bells b).places t ≤ 1) :
    (w'.bells b).places t = 0 := by
  rw [bells_listen hl, put_same]
  exact Listeners.places_look_true ho (of_listen hl).1

theorem waiting_listen_false (hl : w.listen b t = (false, w')) :
    t ∈ (w'.bells b).waiting ∧
      ((w'.bells b).waiting = (w.bells b).waiting ∨
        (w.bells b).places t = 0 ∧ (w'.bells b).waiting = (w.bells b).waiting ++ [t]) := by
  rw [bells_listen hl, put_same]
  exact Listeners.waiting_look_false (of_listen hl).1

end

theorem leave_of_woken {w : World σ} {b : Bell} {t : TaskId} (h : t ∈ (w.bells b).woken) :
    w.leave b t = ({ w with
      bells := put w.bells b { w.bells b with woken := (w.bells b).woken.erase t } }).ring b := by
  simp [leave, h]

theorem leave_eq (w : World σ) (b : Bell) (t : TaskId) :
    w.leave b t = { w with
      bells := put w.bells b ((w.bells b).without t), ready := (w.leave b t).ready } := by
  by_cases hm : t ∈ (w.bells b).woken
  · rw [leave_of_woken hm, ring_eq, bells_ring]
    simp [Listeners.without, hm, put_put, put_same]
  · simp [leave, Listeners.without, hm]

theorem bells_leave (w : World σ) (b : Bell) (t : TaskId) :
    (w.leave b t).bells = put w.bells b ((w.bells b).without t) := by
  rw [leave_eq]

theorem bells_leave_other (w : World σ) {b b' : Bell} (t : TaskId) (hb : b' ≠ b) :
    (w.leave b t).bells b' = w.bells b' := by
  rw [bells_leave]; exact put_other _ _ hb

@[simp] theorem queues_leave (w : World σ) (b : Bell) (t : TaskId) :
    (w.leave b t).queues = w.queues := by
  rw [leave_eq]

theorem ready_subset_leave (w : World σ) (b : Bell) (t : TaskId) :
    w.ready ⊆ (w.leave b t).ready := by
  by_cases hm : t ∈ (w.bells b).woken
  · rw [leave_of_woken hm]
    exact fun _ ht => ready_subset_ring _ b ht
  · simp [leave, hm]

/-! ## Signals -/

@[simp] theorem queues_markFinished (w : World σ) (id : EntryId) (finished : Bool) :
    (w.markFinished id finished).queues = w.queues := by
  cases finished <;> simp [markFinished, setWaiting]

theorem waiting_markFinished (w : World σ) (id : EntryId) (finished : Bool) :
    (w.markFinished id finished).waiting = put w.waiting id !finished := by
  cases finished <;> simp [markFinished, setWaiting]

theorem bells_markFinished (w : World σ) (id : EntryId) :
    (w.markFinished id true).bells =
      put w.bells (.entry id) (w.bells (.entry id)).struck :=
  bells_ring ..

/-- A signal rings no bell of a queue. -/
theorem bells_queue_markFinished (w : World σ) (id : EntryId) (finished : Bool) (h : Handle) :
    (w.markFinished id finished).bells (.queue h) = w.bells (.queue h) := by
  cases finished with
  | true => rw [bells_markFinished]; exact put_other _ _ (by simp)
  | false => rfl

end World

end Cuelist
