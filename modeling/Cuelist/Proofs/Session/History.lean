/-
  What a queue remembers of its runs.

  A queue counts the claims that it takes back, and remembers the last of their records, as many
  as its limit says.  It asks for nothing but a claim: one that it handed out before it was
  cleared counts like any other, and so does one that another queue handed out.

  * `Move` is an act of a session, or such a stray claim; `follow_induction` is the induction on
    runs of them.
  * `follow_history`: the count and the history of a queue are those of all the records that it
    gave, oldest first.
-/
import Cuelist.Proofs.Session
import Mathlib.Data.List.DropRight

namespace Cuelist

/-! ## The last records -/

/-- **A queue remembers the last of its runs.** -/
theorem Queue.remember_rtake (limit : Nat) (records : List Record) (r : Record) :
    remember limit (records.rtake limit) r = (records ++ [r]).rtake limit := by
  unfold remember
  cases limit with
  | zero => simp [List.rtake_zero]
  | succ limit =>
    have hlength : (records.rtake (limit + 1)).length = min (limit + 1) records.length := by
      rw [List.rtake, List.length_drop]; omega
    rw [if_neg (Nat.succ_ne_zero limit), List.rtake_concat_succ, hlength]
    by_cases hlong : limit + 1 ≤ records.length
    · rw [if_pos (Nat.min_eq_left hlong), List.rtake, List.rtake, List.tail_drop]
      congr 2
      omega
    · rw [if_neg (by omega), List.rtake, List.rtake, Nat.sub_eq_zero_of_le (by omega),
        Nat.sub_eq_zero_of_le (by omega)]

theorem Queue.finish_executed {waiting : EntryId → Bool} {q : Queue} {c : Claim}
    {result : Except CommandError Unit} :
    (q.finish waiting c result).2.executed = q.executed + 1 := by
  unfold finish; split <;> rfl

/-! ## Claims of other queues -/

/-- What a caller can do with a queue and any claims. -/
inductive Move (σ : Type) where
  | act (a : Act σ)
  /-- Gives the queue a claim that it did not hand out. -/
  | stray (c : Claim) (result : Except CommandError Unit) (r : Reporter)

/-- The record that a claim left. -/
def Deed.records : Deed → List Record
  | .finished r => [r]
  | .admitted _ | .claimed _ | .dropped _ => []

namespace Session

variable {σ : Type} {h : Handle}

/-- The records of the claims that the queue took back, oldest first. -/
def records (s : Session σ) : List Record := s.log.flatMap Deed.records

/-- A session after a move. -/
def move (h : Handle) (s : Session σ) : Move σ → Session σ
  | .act a => s.act h a
  | .stray c result r =>
    let done := s.world.finish r h c result
    ⟨done.2, s.claims, s.log ++ [.finished done.1]⟩

/-- A session after moves. -/
def follow (h : Handle) (s : Session σ) (moves : List (Move σ)) : Session σ :=
  moves.foldl (move h) s

/-- Whether the queue took back a claim. -/
structure TakenBack (h : Handle) (s t : Session σ) (c : Claim)
    (result : Except CommandError Unit) : Prop where
  queue : t.queue h = ((s.queue h).finish s.world.waiting c result).2
  log : t.log = s.log ++ [.finished ((s.queue h).finish s.world.waiting c result).1]

theorem stray_takenBack (s : Session σ) (c : Claim) (result : Except CommandError Unit)
    (r : Reporter) : TakenBack h s (s.move h (.stray c result r)) c result where
  queue := World.queues_finish ..
  log := by simp only [move, World.record_finish, queue]

/-- **What every outcome keeps, and every claim that is taken back, is kept by all moves.** -/
theorem follow_induction {P : Session σ → Prop} (hact : ∀ s t a, Outcome h s t a → P s → P t)
    (htaken : ∀ s t c result, TakenBack h s t c result → P s → P t) {s : Session σ} (hs : P s)
    (moves : List (Move σ)) : P (s.follow h moves) := by
  induction moves generalizing s with
  | nil => exact hs
  | cons m moves ih =>
    refine ih ?_
    cases m with
    | act a => exact run_induction hact hs [a]
    | stray c result r => exact htaken _ _ c result (stray_takenBack s c result r) hs

/-! ## The main result -/

/-- What a queue with a limit has of the records that it gave. -/
structure Remembers (limit : Nat) (h : Handle) (s : Session σ) : Prop where
  bound : (s.queue h).historyLimit = limit
  executed : (s.queue h).executed = s.records.length
  history : (s.queue h).history = s.records.rtake limit

section
variable {limit : Nat} {s t : Session σ}

theorem records_deed {d : Deed} (hl : t.log = s.log ++ [d]) :
    t.records = s.records ++ d.records := by
  simp [records, hl]

/-- Nothing is forgotten while no claim is taken back. -/
theorem Remembers.congr (hs : Remembers limit h s)
    (hbound : (t.queue h).historyLimit = (s.queue h).historyLimit)
    (hexecuted : (t.queue h).executed = (s.queue h).executed)
    (hhistory : (t.queue h).history = (s.queue h).history) (hrecords : t.records = s.records) :
    Remembers limit h t where
  bound := hbound.trans hs.bound
  executed := by rw [hexecuted, hs.executed, hrecords]
  history := by rw [hhistory, hs.history, hrecords]

/-- **A claim that is taken back leaves its record**, whichever claim it is. -/
theorem Remembers.takenBack (hs : Remembers limit h s) {c : Claim}
    {result : Except CommandError Unit} (ht : TakenBack h s t c result) :
    Remembers limit h t := by
  have hrecords : t.records = s.records ++ [((s.queue h).finish s.world.waiting c result).1] :=
    records_deed ht.log
  refine ⟨?_, ?_, ?_⟩
  · rw [ht.queue, Queue.finish_historyLimit, hs.bound]
  · rw [ht.queue, Queue.finish_executed, hs.executed, hrecords, List.length_append,
      List.length_singleton]
  · rw [ht.queue, Queue.finish_history, hs.bound, hs.history, Queue.remember_rtake, hrecords]

theorem Outcome.remembers {a : Act σ} (ho : Outcome h s t a) (hs : Remembers limit h s) :
    Remembers limit h t := by
  cases ho with
  | same hq hc hl => exact hs.congr (by rw [hq]) (by rw [hq]) (by rw [hq]) (by rw [records, hl]; rfl)
  | release hd hh hp hq hc hl =>
    exact hs.congr (by rw [hq]) (by rw [hq]) (by rw [hq]) (by rw [records, hl]; rfl)
  | takeBack place c e result r hget hq hc hl => exact hs.takenBack ⟨hq, hl⟩
  | accept _ _ hq hc hl | hand _ _ _ _ _ hq hc hl =>
    refine hs.congr (by rw [hq]) (by rw [hq]) (by rw [hq]) ?_
    rw [records_deed hl]
    exact List.append_nil _
  | clear hq hc hl | stop hq hc hl =>
    refine hs.congr (by rw [hq]; rfl) (by rw [hq]; rfl) (by rw [hq]; rfl) ?_
    rw [records_deed hl]
    exact List.append_nil _

end

/-- **The history is the end of all records.**  In every session with a new queue, whatever its
    limit, with claims of any generation and of other queues: the queue counted the claims that
    it took back, and its history are the last of the records that it gave for them, oldest
    first, as many as the limit lets it remember. -/
theorem follow_history (h : Handle) (w : World σ) (id : QueueId) (limit : Nat)
    (moves : List (Move σ)) :
    let s := (start h w id limit).follow h moves
    let q := s.queue h
    q.executed = s.records.length ∧ q.history = s.records.rtake (min limit q.executed) := by
  intro s q
  have hstart : Remembers limit h (start h w id limit) := by
    refine ⟨?_, ?_, ?_⟩ <;> simp [start, queue, Queue.make, records]
  have hs : Remembers limit h s :=
    follow_induction (fun _ _ _ ho hs => ho.remembers hs)
      (fun _ _ _ _ ht hs => hs.takenBack ht) hstart moves
  refine ⟨hs.executed, ?_⟩
  rw [hs.history, hs.executed]
  rcases Nat.le_total limit s.records.length with hle | hge
  · rw [Nat.min_eq_left hle]
  · -- A limit that was not reached yet lets the queue remember everything.
    rw [Nat.min_eq_right hge, List.rtake, List.rtake, Nat.sub_self, Nat.sub_eq_zero_of_le hge]

/-- Of a claim from before a clearing and one of another queue, the queue remembers the last. -/
example :
    let e := Entry.make ⟨0⟩ .normal "old" [] none
    let f := Entry.make ⟨1⟩ .normal "strange" [] none
    let s := (start ⟨0⟩ (World.start () {} false) ⟨"main"⟩ 1).follow ⟨0⟩
      [.act (.enqueue e), .act .takeNext, .act .clear, .act (.finish 0 e (.ok ()) .plain),
        .stray ⟨f, 7⟩ (.ok ()) .plain]
    (s.queue ⟨0⟩).executed = 2 ∧ (s.queue ⟨0⟩).history.map Record.entry = [⟨1⟩] := by
  decide

end Session

end Cuelist
