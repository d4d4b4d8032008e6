/-
  Tracked objects, handed on to other entries.

  Handing on goes through the tracked keys of the source, and puts each object that is there into
  the target, under the key as it is tracked.  The statements of the first section say what going
  through some of the keys makes of a target, by induction on these:

  * `Entry.get?_foldl_injectKey`: its objects, for whoever looks them up;
  * `Entry.tracked_foldl_injectKey`: its tracked keys;
  * `Entry.pairs_foldl_injectKey`: what is in its store, to the order.

  From these follow that handing on twice is handing on once (`Entry.injectInto_injectInto`) and
  that what is handed on can be handed on again (`Entry.handed_on_again`).
  `Family.inject_overlay` puts them together for all entries that a host can hold.
-/
import Cuelist.Proofs.Family

namespace Cuelist

variable {σ : Type}

namespace Entry

variable {s t : Entry} {key : String} {keys : List String}

/-! ## Keys, one after the other -/

/-- The object under a key is that under its canonical form. -/
theorem get?_normalize (e : Entry) (key : String) : e.get? (Key.normalize key) = e.get? key :=
  congrArg e.objects.values.get? (Key.normalize_normalize key)

theorem has_normalize (e : Entry) (key : String) : e.has (Key.normalize key) = e.has key := by
  rw [has_eq, has_eq, get?_normalize]

theorem injectKey_some {v : Value} (h : s.get? key = some v) :
    s.injectKey t key = (t.add key v).track key := by
  simp only [injectKey, h]

theorem injectKey_none (h : s.get? key = none) : s.injectKey t key = t := by
  simp only [injectKey, h]

/-- Handing on changes the objects and the tracked keys. -/
theorem injectInto_eq (s t : Entry) : s.injectInto t =
    { t with objects := (s.injectInto t).objects, tracked := (s.injectInto t).tracked } := by
  let Inside (e : Entry) : Prop := ∃ objects tracked, e = { t with objects, tracked }
  have hinside : Inside (s.injectInto t) := by
    refine List.foldlRecOn (motive := Inside) _ _ ⟨_, _, rfl⟩ ?_
    rintro e ⟨objects, tracked, rfl⟩ key -
    cases h : s.get? key with
    | none =>
      rw [injectKey_none h]
      exact ⟨_, _, rfl⟩
    | some v =>
      rw [injectKey_some h, track_eq]
      exact ⟨_, _, rfl⟩
  obtain ⟨objects, tracked, h⟩ := hinside
  rw [h]

/-- After one key was handed on, the object of the source is found there, under all spellings of
    the key. -/
theorem get?_injectKey (hkey : Key.Canonical key) (key' : String) :
    (s.injectKey t key).get? key' =
      if Key.normalize key' = key ∧ s.has key' then
        (s.get? key').map (Value.labelled (Key.normalize key'))
      else t.get? key' := by
  have hsame : Key.normalize key' = key → s.get? key = s.get? key' := by
    rintro rfl
    exact s.get?_normalize key'
  cases h : s.get? key with
  | none =>
    rw [injectKey_none h, if_neg]
    rintro ⟨hkey', hhas⟩
    rw [has_eq, ← hsame hkey', h] at hhas
    cases hhas
  | some v =>
    have hget : (s.injectKey t key).get? key' = (t.add key v).get? key' := by
      rw [injectKey_some h, track_eq]
      rfl
    rw [hget]
    refine (Store.get?_insert t.objects key key' v).trans ?_
    rw [hkey]
    by_cases hkey' : Key.normalize key' = key
    · have hfound : s.get? key' = some v := (hsame hkey').symm.trans h
      rw [if_pos hkey', if_pos ⟨hkey', by rw [has_eq, hfound]; rfl⟩, hfound, hkey']
      rfl
    · rw [if_neg hkey', if_neg fun h => hkey' h.1]
      rfl

theorem tracked_injectKey (hkey : Key.Canonical key) :
    (s.injectKey t key).tracked =
      if s.has key && !t.tracked.contains key then t.tracked ++ [key] else t.tracked := by
  cases h : s.get? key with
  | none =>
    rw [injectKey_none h, has_eq, h]
    rfl
  | some v =>
    rw [injectKey_some h, has_eq, h]
    by_cases hmem : key ∈ t.tracked
    · have hnorm : Key.normalize key ∈ (t.add key v).tracked := by rw [hkey]; exact hmem
      rw [track_of_mem hnorm, if_neg (by simp [hmem])]
      rfl
    · have hnorm : Key.normalize key ∉ (t.add key v).tracked := by rw [hkey]; exact hmem
      rw [track_of_not_mem hnorm, hkey, if_pos (by simp [hmem])]
      rfl

/-- **What is found after keys were handed on**: the object of the source, with the canonical key
    as its label, under a key that was handed on and has one; what was there, otherwise. -/
theorem get?_foldl_injectKey (hkeys : ∀ key ∈ keys, Key.Canonical key) (t : Entry)
    (key' : String) :
    (keys.foldl s.injectKey t).get? key' =
      if Key.normalize key' ∈ keys ∧ s.has key' then
        (s.get? key').map (Value.labelled (Key.normalize key'))
      else t.get? key' := by
  induction keys generalizing t with
  | nil => simp
  | cons key keys ih =>
    rw [List.foldl_cons, ih fun k hk => hkeys k (.tail _ hk), get?_injectKey (hkeys key (.head _))]
    by_cases hhas : s.has key'
    · by_cases hkey : Key.normalize key' = key <;> by_cases hrest : Key.normalize key' ∈ keys <;>
        simp [*]
    · simp [hhas]

/-- **Which keys are tracked after keys were handed on**: those that were, and then those that
    have an object and were not, in order. -/
theorem tracked_foldl_injectKey (hkeys : ∀ key ∈ keys, Key.Canonical key) (hnodup : keys.Nodup)
    (t : Entry) : (keys.foldl s.injectKey t).tracked =
      t.tracked ++ keys.filter fun key => s.has key && !t.tracked.contains key := by
  induction keys generalizing t with
  | nil => simp
  | cons key keys ih =>
    obtain ⟨hnew, hnodup⟩ := List.nodup_cons.1 hnodup
    rw [List.foldl_cons, ih (fun k hk => hkeys k (.tail _ hk)) hnodup,
      tracked_injectKey (hkeys key (.head _)), List.filter_cons]
    split
    next hadd =>
      -- The keys that are left are others than the one that is tracked now.
      have hsame : ∀ k ∈ keys, (s.has k && !(t.tracked ++ [key]).contains k) =
          (s.has k && !t.tracked.contains k) := by
        intro k hk
        have hne : k ≠ key := fun h => hnew (h ▸ hk)
        simp [hne]
      rw [List.filter_congr hsame, List.append_assoc]
      rfl
    next => rfl

/-- The objects that are handed on for some keys, with these keys as labels. -/
def handed (s : Entry) (keys : List String) : List (String × Value) :=
  keys.filterMap fun key => (s.get? key).map fun v => (key, v.labelled key)

theorem handed_subset (s : Entry) (keys : List String) : (s.handed keys).map Prod.fst ⊆ keys := by
  intro key hkey
  simp only [handed, List.mem_map, List.mem_filterMap, Option.map_eq_some_iff] at hkey
  obtain ⟨_, ⟨key', hkey', v, -, rfl⟩, rfl⟩ := hkey
  exact hkey'

/-- What is in the store after keys were handed on: the objects that were handed on, the last one
    first, and then what was there under other keys. -/
theorem pairs_foldl_injectKey (hkeys : ∀ key ∈ keys, Key.Canonical key) (hnodup : keys.Nodup)
    (t : Entry) : (keys.foldl s.injectKey t).objects.values.pairs =
      (s.handed keys).reverse ++ t.objects.values.pairs.filter fun p =>
        !((s.handed keys).map Prod.fst).contains p.1 := by
  induction keys generalizing t with
  | nil => simp [handed]
  | cons key keys ih =>
    obtain ⟨hnew, hnodup⟩ := List.nodup_cons.1 hnodup
    rw [List.foldl_cons, ih (fun k hk => hkeys k (.tail _ hk)) hnodup]
    cases h : s.get? key with
    | none =>
      have hhanded : s.handed (key :: keys) = s.handed keys := by simp [handed, h]
      rw [injectKey_none h, hhanded]
    | some v =>
      have hhanded : s.handed (key :: keys) = (key, v.labelled key) :: s.handed keys := by
        simp [handed, h]
      have hpairs : (s.injectKey t key).objects.values.pairs =
          (key, v.labelled key) :: t.objects.values.pairs.filter fun p => p.1 != key := by
        rw [injectKey_some h, track_eq]
        simp only [add, Store.insert, Index.insert, Index.erase]
        rw [hkeys key (.head _)]
      have hother : key ∉ (s.handed keys).map Prod.fst := fun h => hnew (s.handed_subset keys h)
      rw [hpairs, hhanded, List.filter_cons_of_pos (by simpa using hother), List.filter_filter,
        List.reverse_cons, List.append_assoc]
      congr 2
      refine List.filter_congr fun p _ => ?_
      rw [List.map_cons, List.contains_cons, Bool.not_or, Bool.and_comm]
      rfl

/-! ## All tracked keys -/

section
variable (hs : s.Tidy)
include hs

theorem get?_injectInto (t : Entry) (key : String) : (s.injectInto t).get? key =
    if Key.normalize key ∈ s.tracked ∧ s.has key then
      (s.get? key).map (Value.labelled (Key.normalize key))
    else t.get? key :=
  get?_foldl_injectKey hs.canonical t key

theorem tracked_injectInto (t : Entry) : (s.injectInto t).tracked =
    t.tracked ++ s.tracked.filter fun key => s.has key && !t.tracked.contains key :=
  tracked_foldl_injectKey hs.canonical hs.nodup t

/-- A tracked key of the source that has an object is tracked. -/
theorem mem_tracked_injectInto (hkey : key ∈ s.tracked) (hhas : s.has key = true) (t : Entry) :
    key ∈ (s.injectInto t).tracked := by
  rw [tracked_injectInto hs]
  by_cases hmem : key ∈ t.tracked
  · exact List.mem_append_left _ hmem
  · exact List.mem_append_right _ (List.mem_filter.2 ⟨hkey, by simp [hhas, hmem]⟩)

/-- What is in the store already is put where it was. -/
theorem pairs_injectInto_injectInto (t : Entry) :
    (s.injectInto (s.injectInto t)).objects.values.pairs =
      (s.injectInto t).objects.values.pairs := by
  have hpairs := pairs_foldl_injectKey (s := s) hs.canonical hs.nodup
  have hnone : (s.handed s.tracked).reverse.filter
      (fun p => !((s.handed s.tracked).map Prod.fst).contains p.1) = [] := by
    refine List.filter_eq_nil_iff.2 fun p hp => ?_
    have hmem : p.1 ∈ (s.handed s.tracked).map Prod.fst :=
      List.mem_map_of_mem (List.mem_reverse.1 hp)
    simp only [List.contains_eq_mem, hmem, decide_true, Bool.not_true, Bool.false_eq_true,
      not_false_eq_true]
  unfold injectInto
  rw [hpairs (s.tracked.foldl _ t), hpairs t, List.filter_append, hnone, List.nil_append,
    List.filter_filter]
  simp only [Bool.and_self]

/-- **Handing on twice is handing on once.** -/
theorem injectInto_injectInto (t : Entry) : s.injectInto (s.injectInto t) = s.injectInto t := by
  have htracked : (s.injectInto (s.injectInto t)).tracked = (s.injectInto t).tracked := by
    rw [tracked_injectInto hs (s.injectInto t), List.filter_eq_nil_iff.2, List.append_nil]
    intro key hkey hnew
    obtain ⟨hhas, hmem⟩ := Bool.and_eq_true_iff.1 hnew
    simp [mem_tracked_injectInto hs hkey hhas t] at hmem
  have hobjects : (s.injectInto (s.injectInto t)).objects = (s.injectInto t).objects :=
    congrArg (fun pairs => Store.mk ⟨pairs⟩) (pairs_injectInto_injectInto hs t)
  rw [injectInto_eq, htracked, hobjects]

/-- **What is handed on can be handed on again**: the object of the source comes to the last
    entry, where its key is tracked. -/
theorem handed_on_again (ht : t.Tidy) (u : Entry) (hkey : Key.normalize key ∈ s.tracked)
    (hhas : s.has key = true) :
    ((s.injectInto t).injectInto u).get? key =
        (s.get? key).map (Value.labelled (Key.normalize key)) ∧
      Key.normalize key ∈ ((s.injectInto t).injectInto u).tracked := by
  have hget : (s.injectInto t).get? key =
      (s.get? key).map (Value.labelled (Key.normalize key)) := by
    rw [get?_injectInto hs, if_pos ⟨hkey, hhas⟩]
  have hhas' : (s.injectInto t).has key = true := by
    rw [has_eq, hget, Option.isSome_map]
    exact hhas
  have hmem : Key.normalize key ∈ (s.injectInto t).tracked :=
    mem_tracked_injectInto hs hkey ((has_normalize s key).trans hhas) t
  have htidy : (s.injectInto t).Tidy := (Becomes.injectInto s t).tidy ht
  constructor
  · rw [get?_injectInto htidy, if_pos ⟨hmem, hhas'⟩, hget, Option.map_map]
    congr 1
    funext v
    exact Value.labelled_labelled ..
  · exact mem_tracked_injectInto htidy hmem ((has_normalize _ key).trans hhas') u

end

end Entry

/-! ## Entries of a host -/

namespace Family

theorem Sound.step_inject {f : Family σ} (hf : f.Sound) {i j : EntryId} {s t : Member}
    (hs : f.members i = some s) (ht : f.members j = some t) : f.step (.inject i j) =
      { f with
        members := put f.members j (some { t with entry := s.entry.injectInto t.entry }) } := by
  rw [step, withMember_some hs, withMember_some ht, replace, (hf ht).id]

/-- **Handing tracked objects on lays them over what is there, and nothing else.**  Let `s` and
    `t` be two entries that a host holds after whatever it did, and let `s` hand its tracked objects
    on to `t`:

    * whoever looks up a key in `t` finds the object of `s`, with the canonical key as its label, if
      the key is tracked in `s` and has an object there, and what was in `t` otherwise;
    * the tracked keys of `t` are those that it had, and then those that have an object in `s` and
      are new, in the order of `s`; they are canonical, each of them once;
    * nothing else of `t`, of any other entry or of the world changes;
    * to hand them on once more changes nothing;
    * if `t` hands on to a third entry then, every tracked object of `s` is there, and tracked. -/
theorem inject_overlay (w : World σ) (acts : List (Act σ)) {i j : EntryId} {s t : Member}
    (hne : i ≠ j) (hs : ((start w).run acts).members i = some s)
    (ht : ((start w).run acts).members j = some t) :
    let f := (start w).run acts
    let f' := f.step (.inject i j)
    (∃ e : Entry, f'.members j = some { t with entry := e } ∧
      (∀ key, e.get? key =
        if Key.normalize key ∈ s.entry.tracked ∧ s.entry.has key then
          (s.entry.get? key).map (Value.labelled (Key.normalize key))
        else t.entry.get? key) ∧
      (e.tracked = t.entry.tracked ++
        s.entry.tracked.filter fun key => s.entry.has key && !t.entry.tracked.contains key) ∧
      e.Tidy ∧ e = { t.entry with objects := e.objects, tracked := e.tracked }) ∧
    f'.members i = some s ∧
    f' = { f with members := put f.members j (f'.members j) } ∧
    f'.step (.inject i j) = f' ∧
    ∀ k u, k ≠ j → f.members k = some u →
      ∃ u', (f'.step (.inject j k)).members k = some u' ∧
        ∀ key, Key.normalize key ∈ s.entry.tracked → s.entry.has key = true →
          u'.entry.get? key = (s.entry.get? key).map (Value.labelled (Key.normalize key)) ∧
            Key.normalize key ∈ u'.entry.tracked := by
  intro f f'
  have hsound : f.Sound := sound_run w acts
  have hstidy := (hsound hs).tidy
  have httidy := (hsound ht).tidy
  let t' : Member := { t with entry := s.entry.injectInto t.entry }
  have hf' : f' = { f with members := put f.members j (some t') } := hsound.step_inject hs ht
  have ht' : f'.members j = some t' := by
    rw [hf']
    exact put_same ..
  have hs' : f'.members i = some s := by
    rw [hf']
    exact (put_other _ _ hne).trans hs
  have hsound' : f'.Sound := (hsound.outcome (.inject i j)).sound hsound
  refine ⟨⟨_, ht', ?_, ?_, ?_, ?_⟩, hs', ?_, ?_, ?_⟩
  · exact Entry.get?_injectInto hstidy t.entry
  · exact Entry.tracked_injectInto hstidy t.entry
  · exact (Entry.Becomes.injectInto s.entry t.entry).tidy httidy
  · exact Entry.injectInto_eq s.entry t.entry
  · rw [ht']
    exact hf'
  · rw [hsound'.step_inject hs' ht', hf']
    simp only [t', put_put, Entry.injectInto_injectInto hstidy]
  · intro k u hk hu
    have hu' : f'.members k = some u := by
      rw [hf']
      exact (put_other _ _ hk).trans hu
    rw [hsound'.step_inject ht' hu']
    refine ⟨_, put_same .., fun key hkey hhas => ?_⟩
    exact Entry.handed_on_again hstidy httidy u.entry hkey hhas

/-- A note takes the place of another one that is spelled in another case; a tracked key without
    an object is not handed on. -/
theorem inject_overlay_note :
    let acts : List (Act Unit) := [.make "narrate" [] none, .make "wait" [] none,
      .change ⟨0⟩ (.add "note" (.ofText "new")), .change ⟨0⟩ (.track "Note"),
      .change ⟨0⟩ (.track "gone"), .change ⟨1⟩ (.add "NOTE" (.ofText "old")),
      .change ⟨1⟩ (.track "other")]
    let f := (start (.start () {} true)).run acts
    let f' := f.step (.inject ⟨0⟩ ⟨1⟩)
    (∃ s t, f.members ⟨0⟩ = some s ∧ f.members ⟨1⟩ = some t ∧
      ∃ e, f'.members ⟨1⟩ = some { t with entry := e } ∧ e.tracked = ["OTHER", "NOTE"] ∧
        (e.get? "note").bind Value.text? = some ("new", some "NOTE")) ∧
      f'.step (.inject ⟨0⟩ ⟨1⟩) = f' := by
  intro acts f f'
  let s := (f.members ⟨0⟩).get (by decide +kernel)
  let t := (f.members ⟨1⟩).get (by decide +kernel)
  have hs : f.members ⟨0⟩ = some s := (Option.some_get _).symm
  have ht : f.members ⟨1⟩ = some t := (Option.some_get _).symm
  obtain ⟨⟨e, he, hget, htracked, -⟩, -, -, htwice, -⟩ :=
    inject_overlay (.start () {} true) acts (by decide) hs ht
  refine ⟨⟨s, t, hs, ht, e, he, ?_, ?_⟩, htwice⟩
  · rw [htracked]
    decide +kernel
  · rw [hget, if_pos (by decide +kernel)]
    decide +kernel

end Family

end Cuelist
