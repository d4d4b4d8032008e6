/-
  Upper case is final.

  A code point is `Upper` if no upper-case mapping applies to it.  The mappings lead to such
  code points only: for a run of mappings it is enough to compare the ends of its images with
  those of the other runs, and whether the two map every code point or every other one
  (`Shift.misses`).  Hence making a text upper case twice is making it so once
  (`upper_upper`).
-/
import Mathlib.Data.List.Chain
import Cuelist.Text.Case

namespace Cuelist.Text

/-! ## Runs of mappings -/

/-- Whether a run maps none of the code points from `lo` to `hi`; if `alternate`, only every
    other one of these counts, from `lo` on. -/
def Shift.misses (s : Shift) (lo hi : Nat) (alternate : Bool) : Bool :=
  Nat.blt hi s.first || Nat.blt s.last lo ||
    alternate && (s.step == 2 && (lo + s.first) % 2 == 1)

/-- Whether all runs of an ascending list do.  The runs beyond `hi` are not looked at. -/
def allMiss (lo hi : Nat) (alternate : Bool) : List Shift → Bool
  | [] => true
  | s :: ss => Nat.blt hi s.first || s.misses lo hi alternate && allMiss lo hi alternate ss

/-- Whether the images of a run are every other code point, or only one. -/
def Shift.alternates (s : Shift) : Bool :=
  s.step == 2 || s.first == s.last

/-- Runs in ascending order. -/
def Ascending (ss : List Shift) : Prop :=
  (ss.map (·.first)).IsChain (· < ·)

instance (ss : List Shift) : Decidable (Ascending ss) :=
  inferInstanceAs (Decidable (List.IsChain _ _))

section
variable {s : Shift} {ss : List Shift} {n lo hi : Nat} {alternate : Bool}

theorem Shift.covers_iff :
    s.covers n = true ↔ s.first ≤ n ∧ n ≤ s.last ∧ (n - s.first) % s.step = 0 := by
  simp [Shift.covers, and_assoc]

theorem Shift.covers_of_lt (h : n < s.first) : s.covers n = false := by
  rw [← Bool.not_eq_true, Shift.covers_iff]
  omega

theorem Shift.covers_of_misses (h : s.misses lo hi alternate = true)
    (hlo : lo ≤ n) (hhi : n ≤ hi) (hn : alternate = true → n % 2 = lo % 2) :
    s.covers n = false := by
  simp only [Shift.misses, Bool.or_eq_true, Bool.and_eq_true, beq_iff_eq, Nat.blt_eq] at h
  rw [← Bool.not_eq_true, Shift.covers_iff]
  rintro ⟨hfirst, hlast, hstep⟩
  rcases h with (hhi' | hlo') | ⟨halt, htwo, hodd⟩
  · omega
  · omega
  · have := hn halt
    rw [htwo] at hstep
    omega

theorem Ascending.first_le (h : Ascending (s :: ss)) {t : Shift} (ht : t ∈ s :: ss) :
    s.first ≤ t.first := by
  rcases List.mem_cons.1 ht with rfl | ht
  · exact Nat.le_refl _
  · have hlt := (List.pairwise_cons.1 (List.isChain_iff_pairwise.1 h)).1
    exact Nat.le_of_lt (hlt _ (List.mem_map_of_mem ht))

theorem covers_of_allMiss (hss : Ascending ss) (h : allMiss lo hi alternate ss = true)
    (hlo : lo ≤ n) (hhi : n ≤ hi) (hn : alternate = true → n % 2 = lo % 2) :
    ∀ t ∈ ss, t.covers n = false := by
  induction ss with
  | nil => simp
  | cons s ss ih =>
    simp only [allMiss, Bool.or_eq_true, Bool.and_eq_true, Nat.blt_eq] at h
    rcases h with hbeyond | ⟨hs, hrest⟩
    · exact fun t ht => Shift.covers_of_lt (by have := hss.first_le ht; omega)
    · rw [List.forall_mem_cons]
      exact ⟨Shift.covers_of_misses hs hlo hhi hn, ih (List.IsChain.tail hss) hrest⟩

/-- The image of a code point lies between those of the ends of its run. -/
theorem Shift.target_bounds (h : s.covers n = true) :
    s.target s.first ≤ s.target n ∧ s.target n ≤ s.target s.last := by
  obtain ⟨hfirst, hlast, -⟩ := Shift.covers_iff.1 h
  simp only [Shift.target]
  omega

theorem Shift.target_parity (h : s.covers n = true) (ha : s.alternates = true)
    (hpos : 0 ≤ s.first + s.offset) : s.target n % 2 = s.target s.first % 2 := by
  obtain ⟨hfirst, hlast, hstep⟩ := Shift.covers_iff.1 h
  simp only [Shift.alternates, Bool.or_eq_true, beq_iff_eq] at ha
  simp only [Shift.target]
  rcases ha with htwo | hone
  · rw [htwo] at hstep
    omega
  · have : n = s.first := by omega
    rw [this]

end

/-! ## Code points in upper case -/

/-- The mappings to one code point, the small letters first. -/
def upperRuns : List Shift :=
  ⟨97, 122, 1, -32⟩ :: upperShifts

/-- The code points that are mapped to several, each as a run. -/
def expandedRuns : List Shift :=
  upperExpansions.map fun p => ⟨p.1, p.1, 1, 0⟩

/-- Whether no upper-case mapping applies to a code point. -/
structure Upper (n : Nat) : Prop where
  unshifted : ∀ s ∈ upperRuns, s.covers n = false
  unexpanded : ∀ s ∈ expandedRuns, s.covers n = false

theorem ascending : Ascending upperRuns ∧ Ascending expandedRuns := by
  decide +kernel

/-- Only the small letters of ASCII have a mapping. -/
theorem upper_of_ascii {n : Nat} (hn : n < 128) (h : ¬(97 ≤ n ∧ n ≤ 122)) : Upper n := by
  have hbeyond : (∀ s ∈ upperShifts, 128 ≤ s.first) ∧ ∀ s ∈ expandedRuns, 128 ≤ s.first := by
    decide +kernel
  constructor
  · refine List.forall_mem_cons.2 ⟨?_, fun s hs => Shift.covers_of_lt ?_⟩
    · rw [← Bool.not_eq_true, Shift.covers_iff]
      exact fun hc => h ⟨hc.1, hc.2.1⟩
    · exact Nat.lt_of_lt_of_le hn (hbeyond.1 s hs)
  · exact fun s hs => Shift.covers_of_lt (Nat.lt_of_lt_of_le hn (hbeyond.2 s hs))

/-- The images of a run meet no run. -/
theorem runs_lead_out : ∀ s ∈ upperRuns, 0 ≤ s.first + s.offset ∧
    allMiss (s.target s.first) (s.target s.last) s.alternates upperRuns = true ∧
      allMiss (s.target s.first) (s.target s.last) s.alternates expandedRuns = true := by
  decide +kernel

/-- Nor do the expansions. -/
theorem expansions_lead_out : ∀ p ∈ upperExpansions, ∀ n ∈ p.2,
    allMiss n n true upperRuns = true ∧ allMiss n n true expandedRuns = true := by
  decide +kernel

theorem Shift.upper_target {s : Shift} (hs : s ∈ upperRuns) {n : Nat} (h : s.covers n = true) :
    Upper (s.target n) := by
  obtain ⟨hpos, hruns, hexpanded⟩ := runs_lead_out s hs
  obtain ⟨hlo, hhi⟩ := Shift.target_bounds h
  have hparity := fun ha => Shift.target_parity h ha hpos
  exact ⟨covers_of_allMiss ascending.1 hruns hlo hhi hparity,
    covers_of_allMiss ascending.2 hexpanded hlo hhi hparity⟩

theorem upper_of_expansion {n m : Nat} {ms : List Nat} (h : upperExpansions.lookup n = some ms)
    (hm : m ∈ ms) : Upper m := by
  obtain ⟨before, after, heq, -⟩ := List.lookup_eq_some_iff.1 h
  obtain ⟨hruns, hexpanded⟩ := expansions_lead_out (n, ms) (by simp [heq]) m hm
  have hm := Nat.le_refl m
  exact ⟨covers_of_allMiss ascending.1 hruns hm hm fun _ => rfl,
    covers_of_allMiss ascending.2 hexpanded hm hm fun _ => rfl⟩

theorem lookup_eq_none_iff {n : Nat} :
    upperExpansions.lookup n = none ↔ ∀ s ∈ expandedRuns, s.covers n = false := by
  rw [List.lookup_eq_none_iff, expandedRuns, List.forall_mem_map]
  refine forall₂_congr fun p _ => ?_
  rw [bne_iff_ne, ← Bool.not_eq_true, Shift.covers_iff, Nat.mod_one]
  dsimp only
  omega

/-! ## Characters in upper case -/

theorem upperChar_of_upper {c : Char} (h : Upper c.toNat) : upperChar c = [c] := by
  obtain ⟨hsmall, hrest⟩ := List.forall_mem_cons.1 h.unshifted
  unfold upperChar
  split
  · have : ¬('a' ≤ c ∧ c ≤ 'z') := fun hc => by
      have hcovers : Shift.covers ⟨97, 122, 1, -32⟩ c.toNat = true :=
        Shift.covers_iff.2 ⟨hc.1, hc.2, Nat.mod_one _⟩
      simp [hsmall] at hcovers
    simp [asciiUpperChar, this]
  · have hshift : shifted? upperShifts c.toNat = none := by
      simpa [shifted?, List.find?_eq_none] using hrest
    rw [lookup_eq_none_iff.2 h.unexpanded, hshift]

/-- The character with a valid number has this number. -/
theorem toNat_ofNat {n : Nat} (hn : n.isValidChar) : (Char.ofNat n).toNat = n := by
  rw [Char.ofNat, dif_pos hn]
  rfl

/-- A code point that is no character is read as the first character. -/
theorem toNat_ofNat_cases (n : Nat) : (Char.ofNat n).toNat = n ∨ (Char.ofNat n).toNat = 0 := by
  by_cases hn : n.isValidChar
  · exact .inl (toNat_ofNat hn)
  · exact .inr (by simp [Char.ofNat, hn])

theorem upper_ofNat {n : Nat} (h : Upper n) : Upper (Char.ofNat n).toNat := by
  rcases toNat_ofNat_cases n with hn | hn
  · rwa [hn]
  · rw [hn]
    exact upper_of_ascii (by decide) (by decide)

/-- **The upper-case form of a character is in upper case.** -/
theorem upper_of_mem_upperChar {c d : Char} (h : d ∈ upperChar c) : Upper d.toNat := by
  unfold upperChar at h
  split at h
  next hascii =>
    rw [List.mem_singleton.1 h, asciiUpperChar]
    split
    next hc =>
      have hlo : 97 ≤ c.toNat := hc.1
      have hhi : c.toNat ≤ 122 := hc.2
      exact upper_ofNat (upper_of_ascii (by omega) (by omega))
    next hc => exact upper_of_ascii hascii hc
  next hascii =>
    split at h
    next ms hexpand =>
      obtain ⟨m, hm, rfl⟩ := List.mem_map.1 h
      exact upper_ofNat (upper_of_expansion hexpand hm)
    next hexpand =>
      split at h
      next m hshift =>
        obtain ⟨s, hfind, rfl⟩ := Option.map_eq_some_iff.1 hshift
        have hcovers := List.find?_some hfind
        rw [List.mem_singleton.1 h]
        exact upper_ofNat (Shift.upper_target (.tail _ (List.mem_of_find?_eq_some hfind)) hcovers)
      next hshift =>
        rw [List.mem_singleton.1 h]
        refine ⟨List.forall_mem_cons.2 ⟨?_, ?_⟩, lookup_eq_none_iff.1 hexpand⟩
        · rw [← Bool.not_eq_true, Shift.covers_iff]
          exact fun hc => hascii (Nat.lt_of_le_of_lt hc.2.1 (by decide))
        · simpa [shifted?, List.find?_eq_none] using hshift

/-- **Upper case is final.** -/
theorem upper_upper (s : List Char) : upper (upper s) = upper s := by
  have hfixed : ∀ cs : List Char, (∀ c ∈ cs, Upper c.toNat) → upper cs = cs := by
    intro cs hcs
    induction cs with
    | nil => rfl
    | cons c cs ih =>
      rw [upper, List.flatMap_cons, upperChar_of_upper (hcs c (.head _)), ← upper,
        ih fun d hd => hcs d (.tail _ hd)]
      rfl
  refine hfixed _ fun d hd => ?_
  obtain ⟨c, -, hc⟩ := List.mem_flatMap.1 hd
  exact upper_of_mem_upperChar hc

end Cuelist.Text
