/-
  Settings are read back as they were saved.

  What is saved at a path is loaded from it again.  The written object may be edited in
  between (`Edited`): if some of its members are left out, the others reordered and
  others added, exactly the fields that were left out take their defaults
  (`load_edited`).
-/
import Cuelist.Settings.Saved
import Cuelist.Proofs.Files
import Cuelist.Proofs.Json.Reading

namespace Cuelist

/-! ## Scalars -/

theorem Decimal.readNat?_toDigits (n : Nat) : Decimal.readNat? (Nat.toDigits 10 n) = some n := by
  obtain ⟨hne, hdigits⟩ := Json.digits_toDigits n
  have hvalue : Decimal.value (Nat.toDigits 10 n) = n := by
    rw [Decimal.value, Decimal.valueFrom]
    exact Nat.ofDigitChars_eq_foldl.symm.trans Nat.ofDigitChars_ten_toDigits
  rw [Decimal.readNat?, if_neg (by simpa [hne] using hdigits), hvalue]

namespace Json

theorem uint64?_ofNat {n : Nat} (h : n < Nat.pow 2 64) : uint64? (.ofNat n) = some n := by
  rw [ofNat, uint64?, Decimal.readNat?_toDigits]
  exact Option.filter_some_pos (by simpa using h)

theorem mapM_eq_some {α β : Type} {f : α → Option β} {g : α → β} {l : List α}
    (h : ∀ a ∈ l, f a = some (g a)) : l.mapM f = some (l.map g) := by
  induction l with
  | nil => rfl
  | cons a l ih =>
    rw [List.mapM_cons, h a List.mem_cons_self, ih fun b hb => h b (List.mem_cons_of_mem a hb)]
    rfl

theorem mapM_eq_self {α : Type} {f : α → Option α} {l : List α} (h : ∀ a ∈ l, f a = some a) :
    l.mapM f = some l := by
  rw [mapM_eq_some (g := id) h, List.map_id]

theorem strings?_ofStrings (ss : List String) : strings? (.ofStrings ss) = some ss := by
  rw [ofStrings, strings?, List.mapM_map]
  exact mapM_eq_self fun _ _ => rfl

theorem proper_ofStrings (ss : List String) : (ofStrings ss).Proper := by
  rw [ofStrings, Proper]
  induction ss with
  | nil => exact trivial
  | cons s ss ih => exact ⟨rfl, ih⟩

/-! ## Records -/

theorem named?_ofMembers (ms : List (String × Json)) :
    named? (ms.map fun m => (some m.1, m.2)) = some ms := by
  rw [named?, List.mapM_map]
  exact mapM_eq_self fun _ _ => rfl

/-- A member whose name no other member has. -/
theorem filter_name {ms : List (String × Json)} (hn : (ms.map Prod.fst).Nodup)
    {m : String × Json} (hm : m ∈ ms) : (ms.filter fun m' => m'.1 == m.1) = [m] := by
  induction ms with
  | nil => cases hm
  | cons first ms ih =>
    obtain ⟨hnew, hn⟩ := List.nodup_cons.1 hn
    rcases List.mem_cons.1 hm with rfl | hm
    · have hnone : (ms.filter fun m' => m'.1 == m.1) = [] := by
        rw [List.filter_eq_nil_iff]
        intro m' hm' heq
        exact hnew (List.mem_map.2 ⟨m', hm', eq_of_beq heq⟩)
      rw [List.filter_cons_of_pos (by simp), hnone]
    · have hne : first.1 ≠ m.1 := fun heq => hnew (List.mem_map.2 ⟨m, hm, heq.symm⟩)
      rw [List.filter_cons_of_neg (by simpa using hne), ih hn hm]

/-- A field that may be left out, if it is there or not. -/
theorem optional?_ite {α : Type} {decode : Json → Option α} {v : Json} {x : α}
    (h : decode v = some x) (default : α) (b : Bool) :
    optional? decode default (if b then some v else none) = some (if b then x else default) := by
  cases b with
  | false => rfl
  | true => exact h

end Json

namespace Settings

/-! ## Edits -/

/-- Settings of which some fields are kept; the others take their defaults. -/
def keeping (s : Settings) (kept : String → Bool) : Settings :=
  let standard : Settings := {}
  { tickInterval := if kept "tick_interval_ms" then s.tickInterval else standard.tickInterval
    debug := if kept "debug" then s.debug else standard.debug
    filters := if kept "debug_filters" then s.filters else standard.filters
    historyLimit := if kept "history_limit" then s.historyLimit else standard.historyLimit
    stopWhenDrained :=
      if kept "stop_when_drained" then s.stopWhenDrained else standard.stopWhenDrained }

theorem keeping_all (s : Settings) : s.keeping (fun _ => true) = s := rfl

/-- Whether members are those of written settings after an edit: some are kept, with others
    that are named differently among them, in any order. -/
def Edited (s : Settings) (kept : String → Bool) (ms : List (String × Json)) : Prop :=
  ∃ others : List (String × Json), (∀ m ∈ others, m.1 ∉ fieldNames) ∧
    ms.Perm ((s.members.filter fun m => kept m.1) ++ others)

theorem edited_members (s : Settings) : s.Edited (fun _ => true) s.members :=
  ⟨[], nofun, by simp⟩

theorem members_names (s : Settings) : s.members.map Prod.fst = fieldNames := rfl

theorem field?_edited {s : Settings} {kept : String → Bool} {ms : List (String × Json)}
    (he : s.Edited kept ms) {m : String × Json} (hm : m ∈ s.members) :
    Json.field? ms m.1 = some (if kept m.1 then some m.2 else none) := by
  obtain ⟨others, hothers, hperm⟩ := he
  have hnames : (s.members.map Prod.fst).Nodup := by rw [members_names]; decide
  have hone := Json.filter_name hnames hm
  have hnone : (others.filter fun m' => m'.1 == m.1) = [] := by
    rw [List.filter_eq_nil_iff]
    intro m' hm' heq
    refine hothers m' hm' ?_
    rw [eq_of_beq heq, ← s.members_names]
    exact List.mem_map.2 ⟨m, hm, rfl⟩
  have hfilter := hperm.filter fun m' => m'.1 == m.1
  rw [List.filter_append, hnone, List.append_nil, List.filter_comm, hone] at hfilter
  cases hk : kept m.1 with
  | true =>
    rw [List.filter_cons_of_pos (by simpa using hk), List.filter_nil, List.perm_singleton]
      at hfilter
    simp [Json.field?, hfilter]
  | false =>
    rw [List.filter_cons_of_neg (by simpa using hk), List.filter_nil, List.perm_nil] at hfilter
    simp [Json.field?, hfilter]

/-- The fields that were left out are missing, the others are as they were written. -/
theorem fields?_edited {s : Settings} {kept : String → Bool} {ms : List (String × Json)}
    (he : s.Edited kept ms) : Json.fields? fieldNames (.ofMembers ms) =
      some (s.members.map fun m => if kept m.1 then some m.2 else none) := by
  rw [Json.ofMembers, Json.fields?, Json.named?_ofMembers, Option.bind_eq_bind, Option.bind_some,
    ← s.members_names, List.mapM_map]
  exact Json.mapM_eq_some fun m hm => field?_edited he hm

/-- **Edited settings are read** with the fields that were kept. -/
theorem ofJson?_edited {s : Settings} (hi : s.tickInterval < Nat.pow 2 64)
    (hl : s.historyLimit < Nat.pow 2 64) {kept : String → Bool} {ms : List (String × Json)}
    (he : s.Edited kept ms) : ofJson? (.ofMembers ms) = some (s.keeping kept) := by
  have hread : ∀ b, Json.bool? (.bool b) = some b := fun _ => rfl
  rw [ofJson?, fields?_edited he, Option.bind_eq_bind, Option.bind_some]
  simp only [members, fieldNames, List.zip_cons_cons, List.zip_nil_right, List.map_cons,
    List.map_nil, Option.bind_eq_bind, Option.bind_some,
    Json.optional?_ite (Json.uint64?_ofNat hi), Json.optional?_ite (hread s.debug),
    Json.optional?_ite (Json.strings?_ofStrings s.filters),
    Json.optional?_ite (Json.uint64?_ofNat hl), Json.optional?_ite (hread s.stopWhenDrained)]
  rfl

/-! ## Files -/

/-- Whether there is a file at a path that holds a value. -/
def Holds (t : FileTree) (path : String) (v : Json) : Prop :=
  ∃ content, t.find? (FilePath.ofText path) = some (.file content) ∧
    Json.readBytes? content = some v

theorem load_of_holds {t : FileTree} {path : String} {v : Json} {s : Settings}
    (ht : Holds t path v) (hv : ofJson? v = some s) : load path t = .ok s := by
  obtain ⟨content, hfind, hread⟩ := ht
  simp only [load, hfind, ofContent, hread, Option.bind_some, hv]

theorem proper_toJson (s : Settings) : s.toJson.Proper :=
  ⟨rfl, Json.number_ofNat _, rfl, trivial, rfl, Json.proper_ofStrings _, rfl, Json.number_ofNat _,
    rfl, trivial, trivial⟩

/-- What was saved holds the settings. -/
theorem holds_save {s : Settings} {path : String} {t : FileTree}
    (h : (s.save path t).1 = .ok ()) : Holds (s.save path t).2 path s.toJson := by
  have hall : t.performAll .sound (s.savePlan (FilePath.ofText path)) =
      (.ok (), (s.save path t).2) := by
    cases hp : t.performAll .sound (s.savePlan (FilePath.ofText path)) with
    | mk result t' =>
      simp only [save, saveOn, hp] at h ⊢
      cases result with
      | ok u => rfl
      | error e => cases h
  exact ⟨_, FileTree.find?_replace hall, Json.readBytes?_pretty s.proper_toJson⟩

/-- What was written at a path is held there. -/
theorem holds_write {t t' : FileTree} {path : String} {v : Json} {text : List Char}
    (hv : Json.Spelled (.value v) text)
    (h : t.write (FilePath.ofText path) (String.ofList text).toUTF8 = .ok t') :
    Holds t' path v := by
  refine ⟨_, FileTree.find?_write h, ?_⟩
  exact Json.readBytes?_spelled hv

/-- **Settings are loaded as they were saved**, and after an edit of what was saved with
    exactly the fields that were left out at their defaults.  Their numbers have to be of
    64 bits. -/
theorem load_edited (s : Settings) (hi : s.tickInterval < Nat.pow 2 64)
    (hl : s.historyLimit < Nat.pow 2 64) (path : String) :
    (∀ t, (s.save path t).1 = .ok () →
      Holds (s.save path t).2 path (.ofMembers s.members) ∧
        load path (s.save path t).2 = .ok s) ∧
    ∀ kept ms, s.Edited kept ms →
      (∀ t, Holds t path (.ofMembers ms) → load path t = .ok (s.keeping kept)) ∧
      ∀ text, Json.Spelled (.value (.ofMembers ms)) text →
        ∀ t t' : FileTree, t.write (FilePath.ofText path) (String.ofList text).toUTF8 = .ok t' →
          Holds t' path (.ofMembers ms) := by
  refine ⟨fun t h => ?_, fun kept ms he => ⟨fun t ht => ?_, fun text hv t t' h => ?_⟩⟩
  · have hread := ofJson?_edited hi hl s.edited_members
    rw [keeping_all] at hread
    exact ⟨holds_save h, load_of_holds (holds_save h) hread⟩
  · exact load_of_holds ht (ofJson?_edited hi hl he)
  · exact holds_write hv h

/-- Settings that differ from the standard ones in every field. -/
def unusual : Settings where
  tickInterval := 250
  debug := false
  filters := ["s@greeter"]
  historyLimit := 8
  stopWhenDrained := false

theorem load_edited_unusual :
    load "cadence.json" (unusual.save "cadence.json" {}).2 = .ok unusual ∧
      ∃ t, Holds t "cadence.json" (.ofMembers
          [("theme", .ofString "dark"), ("debug_filters", .ofStrings ["s@greeter"])]) ∧
        load "cadence.json" t = .ok { filters := ["s@greeter"] } := by
  have hpath : FilePath.ofText "cadence.json" = ⟨false, ["cadence.json"], false⟩ := by decide
  have hsave : (unusual.save "cadence.json" {}).1 = .ok () := by
    simp only [save, saveOn, hpath]
    rfl
  have hedited : unusual.Edited (· == "debug_filters")
      [("theme", .ofString "dark"), ("debug_filters", .ofStrings ["s@greeter"])] := by
    refine ⟨[("theme", .ofString "dark")], ?_, .swap _ _ _⟩
    intro m hm
    rw [List.mem_singleton.1 hm]
    decide
  have hproper : (Json.ofMembers
      [("theme", .ofString "dark"), ("debug_filters", .ofStrings ["s@greeter"])]).Proper :=
    ⟨rfl, rfl, rfl, Json.proper_ofStrings _, trivial⟩
  obtain ⟨hsaved, hedits⟩ := load_edited unusual (by decide) (by decide) "cadence.json"
  obtain ⟨hload, hwrite⟩ := hedits _ _ hedited
  have hholds := hwrite _ (Json.spelled_prettyChars 0 _ hproper) {} _ (by rw [hpath]; rfl)
  exact ⟨(hsaved {} hsave).2, _, hholds, hload _ hholds⟩

end Settings

end Cuelist
