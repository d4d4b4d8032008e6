/-
  What becomes of the arguments of an entry.

  Every argument is filled on its own from what the entry carries, and an entry whose call has no
  tags is passed over.

  * `resolve_of_unclosed`: an argument in which no tag is closed is filled by itself, and so is one
    that lacks a mark; hence it makes no difference that entries are passed over.
  * `resolveEntry_pointwise`: what every argument of an entry is left as, what is reported of those
    that fail, and that nothing else of the entry changes.
  * `fill_filled`: what filling a text has left of it is filled by itself, with the same tags left
    over, as long as no value opens a tag (`Scope.Tame`).
  * `resolveEntry_twice`: hence filling the arguments of an entry again changes nothing.
-/
import Cuelist.Proofs.Tag
import Mathlib.Data.List.Forall2

namespace Cuelist.Tag

variable {scope : Scope} {s before name after : List Char} {argument : String}

/-! ## Texts without a tag and texts with a first one -/

theorem unclosed_of_no_closing (h : '>' ∉ s) : Unclosed s := by
  rintro before after rfl
  simp only [List.mem_append, List.mem_cons, not_or] at h
  exact h.2.2

/-- A text in which no tag is closed is filled by itself. -/
theorem fill_of_unclosed (h : Unclosed s) : fill scope s = some (s, []) := by
  rw [fill]
  split
  · rfl
  next before rest hopen =>
    split
    · rfl
    next tag after hclose =>
      have hmem : '>' ∈ rest := by simp [Text.eq_of_cut hclose]
      exact absurd hmem (h before rest (Text.eq_of_cut hopen))

/-- A first tag is filled on its own. -/
theorem fill_tag (hb : '<' ∉ before) (hn : Bare name) (after : List Char) :
    fill scope (before ++ marked name ++ after) = (fill scope after).map fun filled =>
      (before ++ (Part.tag name).filled scope ++ filled.1,
        ((Part.tag name).unfilled? scope).toList ++ filled.2) := by
  have hopen : Text.cut '<' (before ++ marked name ++ after) =
      some (before, name ++ '>' :: after) := by
    have htext : before ++ marked name ++ after = before ++ '<' :: (name ++ '>' :: after) := by
      simp [marked]
    rw [htext, Text.cut_append hb]
  have hclose : Text.cut '>' (name ++ '>' :: after) = some (name, after) :=
    Text.cut_append hn.2 after
  rw [fill]
  split
  next hnone => rw [hopen] at hnone; cases hnone
  next before' rest hsome =>
    obtain ⟨rfl, rfl⟩ := Prod.mk.inj (Option.some.inj (hopen.symm.trans hsome))
    split
    next hnone => rw [hclose] at hnone; cases hnone
    next name' after' hsome' =>
      obtain ⟨rfl, rfl⟩ := Prod.mk.inj (Option.some.inj (hclose.symm.trans hsome'))
      rw [if_neg hn.1]
      congr 1
      ext1 filled
      cases hv : lookup scope name <;> simp [Part.filled, Part.unfilled?, hv]

/-- How a text begins: no tag is closed in it, or one is opened inside another one, or there is a
    first tag. -/
theorem first_cases (s : List Char) :
    Unclosed s ∨ Nested s ∨
      ∃ before name after, s = before ++ marked name ++ after ∧ '<' ∉ before ∧ Bare name := by
  cases hopen : Text.cut '<' s with
  | none => exact .inl (unclosed_of_notMem (Text.cut_eq_none.1 hopen))
  | some cut =>
    obtain ⟨before, rest⟩ := cut
    have hbefore := Text.notMem_of_cut hopen
    obtain rfl := Text.eq_of_cut hopen
    cases hclose : Text.cut '>' rest with
    | none => exact .inl (unclosed_append hbefore (Text.cut_eq_none.1 hclose))
    | some cut =>
      obtain ⟨name, after⟩ := cut
      have hname := Text.notMem_of_cut hclose
      obtain rfl := Text.eq_of_cut hclose
      by_cases hm : '<' ∈ name
      · obtain ⟨outer, inner, rfl⟩ := List.append_of_mem hm
        have houter : '>' ∉ outer := fun h => hname (List.mem_append_left _ h)
        exact .inr (.inl ⟨before, outer, inner, after, by simp, houter⟩)
      · exact .inr (.inr ⟨before, name, after, by simp [marked], hbefore, hm, hname⟩)

theorem Unclosed.append (hb : '<' ∉ before) (h : Unclosed s) : Unclosed (before ++ s) := by
  intro before' after' hs
  rcases List.append_eq_append_iff.1 hs with ⟨gap, -, hgap⟩ | ⟨gap, rfl, hgap⟩
  · exact h gap after' hgap
  · cases gap with
    | nil => exact h [] after' hgap.symm
    | cons c gap =>
      obtain ⟨rfl, -⟩ := List.cons.inj hgap
      simp at hb

theorem Nested.append (before : List Char) (h : Nested s) : Nested (before ++ s) := by
  obtain ⟨before', outer, inner, after, rfl, houter⟩ := h
  exact ⟨before ++ before', outer, inner, after, by simp, houter⟩

/-- What stands before the first mark that opens a tag is not looked at. -/
theorem fill_append (hb : '<' ∉ before) (s : List Char) :
    fill scope (before ++ s) = (fill scope s).map fun filled => (before ++ filled.1, filled.2) := by
  rcases first_cases s with hs | hs | ⟨first, name, after, rfl, hfirst, hname⟩
  · rw [fill_of_unclosed hs, fill_of_unclosed (hs.append hb)]
    rfl
  · rw [fill_eq_none.2 hs, fill_eq_none.2 (hs.append before)]
    rfl
  · have hboth : '<' ∉ before ++ first := by simp [hb, hfirst]
    have hs : before ++ (first ++ marked name ++ after) =
        before ++ first ++ marked name ++ after := by
      simp only [List.append_assoc]
    rw [hs, fill_tag hboth hname, fill_tag hfirst hname, Option.map_map]
    congr 1
    ext1 filled
    simp only [Function.comp, List.append_assoc]

/-! ## Single arguments -/

/-- What an argument is left as: with its tags filled as far as they have values, or as it is if
    it is malformed. -/
def left (scope : Scope) (argument : String) : String :=
  match resolve scope argument with
  | .ok text => text
  | .error (.unresolved text _) => text
  | .error (.malformed _) => argument

/-- Whether the tags of an argument cannot all be filled. -/
def fails (scope : Scope) (argument : String) : Bool :=
  !(resolve scope argument).isOk

/-- What is reported of an argument that fails. -/
inductive Complaint (scope : Scope) (argument : String) : String → Prop
  | unfilled {text names : String} {tags : List String}
      (outcome : resolve scope argument = .error (.unresolved text tags))
      (listed : names = Text.joinStrings ", " tags) :
      Complaint scope argument s!"Unable to fill tag(s) {names} in '{argument}'"
  | malformed (outcome : resolve scope argument = .error (.malformed argument)) :
      Complaint scope argument s!"Malformed tag expression: {argument} in '{argument}'"

/-- What filling an argument comes to is told by its text and the tags that are left over. -/
theorem resolve_of_fill {text : List Char} {tags : List (List Char)}
    (h : fill scope argument.toList = some (text, tags)) :
    resolve scope argument = if tags = [] then .ok (String.ofList text)
      else .error (.unresolved (String.ofList text) (tags.map String.ofList)) := by
  cases tags <;> simp [resolve, h]

theorem resolve_of_fill_none (h : fill scope argument.toList = none) :
    resolve scope argument = .error (.malformed argument) := by
  simp only [resolve, h]

/-- An argument in which no tag is closed is filled by itself. -/
theorem resolve_of_unclosed (h : Unclosed argument.toList) :
    resolve scope argument = .ok argument := by
  rw [resolve_of_fill (fill_of_unclosed h), if_pos rfl, String.ofList_toList]

/-- So is one that lacks a mark. -/
theorem resolve_of_not_hasMarks (h : Entry.hasMarks argument = false) :
    resolve scope argument = .ok argument := by
  apply resolve_of_unclosed
  rcases Bool.and_eq_false_iff.1 h with hopen | hclose
  · exact unclosed_of_notMem (by simpa using hopen)
  · exact unclosed_of_no_closing (by simpa using hclose)

theorem left_of_ok {text : String} (h : resolve scope argument = .ok text) :
    left scope argument = text := by
  simp only [left, h]

theorem left_of_unresolved {text : String} {tags : List String}
    (h : resolve scope argument = .error (.unresolved text tags)) :
    left scope argument = text := by
  simp only [left, h]

/-- The text of an argument after it was settled, and what is reported of it. -/
theorem settle_resolve (scope : Scope) (argument : String) :
    (settle resolve scope argument).1 = left scope argument ∧
      (settle resolve scope argument).2.isSome = fails scope argument ∧
      ∀ m, (settle resolve scope argument).2 = some m → Complaint scope argument m := by
  cases hfill : fill scope argument.toList with
  | none =>
    have hr := resolve_of_fill_none hfill
    simp only [settle, left, fails, hr, Option.some.injEq]
    refine ⟨trivial, rfl, ?_⟩
    rintro m rfl
    exact .malformed hr
  | some filled =>
    obtain ⟨text, tags⟩ := filled
    have hr := resolve_of_fill hfill
    split at hr
    · simp only [settle, left, fails, hr]
      exact ⟨trivial, rfl, nofun⟩
    · simp only [settle, left, fails, hr, Option.some.injEq]
      refine ⟨trivial, rfl, ?_⟩
      rintro m rfl
      exact .unfilled hr rfl

/-! ## The arguments of an entry -/

/-- What a partial function gives for the members of a list belongs to those for which it gives
    something, in their order. -/
theorem forall₂_filterMap {α β : Type} {R : α → β → Prop} {f : α → Option β} {p : α → Bool}
    (hp : ∀ a, (f a).isSome = p a) (hR : ∀ a b, f a = some b → R a b) (as : List α) :
    List.Forall₂ R (as.filter p) (as.filterMap f) := by
  induction as with
  | nil => exact .nil
  | cons a as ih =>
    have ha := hp a
    cases hf : f a with
    | none =>
      rw [hf] at ha
      rwa [List.filterMap_cons_none hf, List.filter_cons_of_neg (by simp [← ha])]
    | some b =>
      rw [hf] at ha
      rw [List.filterMap_cons_some hf, List.filter_cons_of_pos (by simp [← ha])]
      exact .cons (hR a b hf) ih

variable {e : Entry}

/-- What becomes of the arguments of an entry that is not passed over. -/
theorem resolveEntry_of_hasTags (h : e.hasTags = true) :
    (resolveEntry resolve e).1 = e.setArguments (e.arguments.map (left e.scope)) ∧
      List.Forall₂ (Complaint e.scope) (e.arguments.filter (fails e.scope))
        (resolveEntry resolve e).2 := by
  have hsettle := settle_resolve e.scope
  simp only [resolveEntry, h, if_true]
  constructor
  · rw [List.map_map]
    exact congrArg e.setArguments (List.map_congr_left fun a _ => (hsettle a).1)
  · rw [List.filterMap_map]
    exact forall₂_filterMap (fun a => (hsettle a).2.1) (fun a => (hsettle a).2.2) _

theorem resolveEntry_of_not_hasTags (h : e.hasTags = false) :
    resolveEntry resolve e = (e, []) := by
  simp [resolveEntry, h]

/-- **Every argument is filled on its own.**  Let an entry have the arguments of its call.  Each
    one is left as what it comes to with what the entry carried before, and nothing else of the
    entry changes.  There is a report for each argument that fails, in the order of the
    arguments.  An entry without tags is passed over; each of its arguments is filled by itself
    and does not fail. -/
theorem resolveEntry_pointwise (e : Entry) (h : e.arguments = e.given) :
    let done := resolveEntry resolve e
    let failed := e.arguments.filter (fails e.scope)
    done.1 = e.setArguments (e.arguments.map (left e.scope)) ∧
      done.2.length = failed.length ∧
      List.Forall₂ (Complaint e.scope) failed done.2 ∧
      (e.hasTags = false →
        done = (e, []) ∧ ∀ a ∈ e.arguments, resolve e.scope a = .ok a) := by
  intro done failed
  have hplain : e.hasTags = false → ∀ a ∈ e.arguments, resolve e.scope a = .ok a := by
    intro htags a ha
    have hmarks : Entry.hasMarks a = false := by
      rw [h] at ha
      simpa using List.any_eq_false.1 htags a ha
    exact resolve_of_not_hasMarks hmarks
  have hdone : done.1 = e.setArguments (e.arguments.map (left e.scope)) ∧
      List.Forall₂ (Complaint e.scope) failed done.2 := by
    cases htags : e.hasTags with
    | true => exact resolveEntry_of_hasTags htags
    | false =>
      have hsame : e.arguments.map (left e.scope) = e.arguments := by
        calc e.arguments.map (left e.scope) = e.arguments.map id :=
              List.map_congr_left fun a ha => left_of_ok (hplain htags a ha)
          _ = e.arguments := List.map_id _
      have hnone : failed = [] := by
        rw [List.filter_eq_nil_iff]
        intro a ha
        simp [fails, hplain htags a ha, Except.isOk, Except.toBool]
      have hpassed : done = (e, []) := resolveEntry_of_not_hasTags htags
      rw [hpassed, hsame, hnone]
      exact ⟨rfl, .nil⟩
  obtain ⟨hentry, hreports⟩ := hdone
  refine ⟨hentry, hreports.length_eq.symm, hreports, ?_⟩
  intro htags
  exact ⟨resolveEntry_of_not_hasTags htags, hplain htags⟩

/-- A call with a tag that has a value, one that has none, one inside another and none at all;
    and one that lacks the closing marks. -/
theorem resolveEntry_pointwise_mixed :
    let e := (Entry.make ⟨0⟩ .normal "SAY" ["<who>, <you>", "<a<b>>", "so"] none).add "who"
      (.ofText "<Alex>")
    let f := Entry.make ⟨1⟩ .normal "SAY" ["a < b", "<", "c >> d"] none
    (resolveEntry resolve e).1 = e.setArguments ["<Alex>, <you>", "<a<b>>", "so"] ∧
      (resolveEntry resolve e).2.length = 2 ∧
      resolveEntry resolve f = (f, []) ∧ resolve f.scope "a < b" = .ok "a < b" := by
  intro e f
  obtain ⟨hentry, hcount, -, -⟩ := resolveEntry_pointwise e rfl
  obtain ⟨-, -, -, hpassed⟩ := resolveEntry_pointwise f rfl
  have hleft : e.arguments.map (left e.scope) = ["<Alex>, <you>", "<a<b>>", "so"] := by
    decide +kernel
  have hfailed : (e.arguments.filter (fails e.scope)).length = 2 := by decide +kernel
  obtain ⟨hsame, hplain⟩ := hpassed rfl
  exact ⟨hleft ▸ hentry, hcount.trans hfailed, hsame, hplain "a < b" (.head _)⟩

/-! ## Filling again -/

/-- Whether no tag stands for a text with a mark that opens one. -/
def Tame (scope : Scope) : Prop :=
  ∀ name v, Bare name → lookup scope name = some v → '<' ∉ v.toList

/-- What can be carried: the texts of objects and the names of the subjects and of the script. -/
theorem tame_of_carried
    (objects : ∀ key v t, scope.objects.get? key = some v → v.asText = some t → '<' ∉ t.toList)
    (subject : ∀ a, scope.subject = some a → '<' ∉ a.name.toList)
    (secondary : ∀ a, scope.secondary = some a → '<' ∉ a.name.toList)
    (script : ∀ s, scope.script = some s → '<' ∉ s.name.toList) : Tame scope := by
  rintro name v - hv
  simp only [lookup] at hv
  split at hv
  · obtain ⟨a, ha, rfl⟩ := Option.map_eq_some_iff.1 hv
    exact subject a ha
  split at hv
  · obtain ⟨a, ha, rfl⟩ := Option.map_eq_some_iff.1 hv
    exact secondary a ha
  split at hv
  · obtain ⟨s, hs, rfl⟩ := Option.map_eq_some_iff.1 hv
    exact script s hs
  · obtain ⟨w, hw, ht⟩ := Option.bind_eq_some_iff.1 hv
    exact objects _ w v hw ht

/-- **What was filled is filled by itself.**  The text has no tags but those that were left over:
    a value opens none, and a mark that is never closed is still not. -/
theorem fill_filled {text : List Char} {tags : List (List Char)} (ht : Tame scope)
    (h : fill scope s = some (text, tags)) : fill scope text = some (text, tags) := by
  fun_induction fill scope s generalizing text tags with
  | case1 s hopen =>
    obtain ⟨rfl, rfl⟩ := Prod.mk.inj (Option.some.inj h)
    exact fill_of_unclosed (unclosed_of_notMem (Text.cut_eq_none.1 hopen))
  | case2 s before rest hopen hclose =>
    obtain ⟨rfl, rfl⟩ := Prod.mk.inj (Option.some.inj h)
    have hun := unclosed_append (Text.notMem_of_cut hopen) (Text.cut_eq_none.1 hclose)
    exact fill_of_unclosed (Text.eq_of_cut hopen ▸ hun)
  | case3 => cases h
  | case4 s before rest hopen tag after hclose hm ih =>
    obtain ⟨⟨filled, unfilled⟩, hfill, hput⟩ := Option.map_eq_some_iff.1 h
    have hagain := ih hfill
    have hbefore := Text.notMem_of_cut hopen
    have hbare : Bare tag := ⟨hm, Text.notMem_of_cut hclose⟩
    cases hv : lookup scope tag with
    | some v =>
      simp only [hv, Prod.mk.injEq] at hput
      obtain ⟨rfl, rfl⟩ := hput
      -- The value is one more piece of text before the next tag.
      have hvalue : '<' ∉ before ++ v.toList := by
        simpa [hbefore] using ht tag v hbare hv
      rw [fill_append hvalue, hagain]
      rfl
    | none =>
      simp only [hv, Prod.mk.injEq] at hput
      obtain ⟨rfl, rfl⟩ := hput
      rw [fill_tag hbefore hbare, hagain]
      simp [Part.filled, Part.unfilled?, hv]

/-- **What an argument is left as comes to the same as the argument.** -/
theorem resolve_left (ht : Tame scope) (argument : String) :
    resolve scope (left scope argument) = resolve scope argument := by
  cases hfill : fill scope argument.toList with
  | none =>
    have hleft : left scope argument = argument := by
      simp only [left, resolve_of_fill_none hfill]
    rw [hleft]
  | some filled =>
    obtain ⟨text, tags⟩ := filled
    have hr := resolve_of_fill hfill
    have hleft : left scope argument = String.ofList text := by
      split at hr <;> simp only [left, hr]
    have hagain : fill scope (left scope argument).toList = some (text, tags) := by
      rw [hleft, String.toList_ofList]
      exact fill_filled ht hfill
    rw [hr, resolve_of_fill hagain]

theorem left_left (ht : Tame scope) (argument : String) :
    left scope (left scope argument) = left scope argument := by
  have hagain := resolve_left ht argument
  cases hr : resolve scope argument with
  | ok text => rw [left_of_ok (hagain.trans hr), left_of_ok hr]
  | error err =>
    rw [hr] at hagain
    cases err with
    | unresolved text tags =>
      rw [left_of_unresolved hagain, left_of_unresolved hr]
    | malformed a =>
      have hleft : left scope argument = argument := by simp only [left, hr]
      rw [hleft, hleft]

/-- **Filling the arguments of an entry again changes nothing**, and fails for as many of them,
    if nothing that the entry carries opens a tag. -/
theorem resolveEntry_twice (ht : Tame e.scope) :
    let once := resolveEntry resolve e
    let twice := resolveEntry resolve once.1
    twice.1 = once.1 ∧ twice.2.length = once.2.length := by
  intro once twice
  cases htags : e.hasTags with
  | false =>
    have hpassed : once = (e, []) := resolveEntry_of_not_hasTags htags
    have hagain : twice = (e, []) := by
      show resolveEntry resolve once.1 = (e, [])
      rw [hpassed]
      exact resolveEntry_of_not_hasTags htags
    rw [hpassed, hagain]
    exact ⟨rfl, rfl⟩
  | true =>
    obtain ⟨hentry, hreports⟩ := resolveEntry_of_hasTags htags
    let f := e.setArguments (e.arguments.map (left e.scope))
    have hf : once.1 = f := hentry
    have htags' : f.hasTags = true := htags
    obtain ⟨hentry', hreports'⟩ := resolveEntry_of_hasTags htags'
    have hargs : f.arguments.map (left e.scope) = f.arguments := by
      show (e.arguments.map (left e.scope)).map (left e.scope) = e.arguments.map (left e.scope)
      rw [List.map_map]
      exact List.map_congr_left fun a _ => left_left ht a
    have hfails : (f.arguments.filter (fails e.scope)).length =
        (e.arguments.filter (fails e.scope)).length := by
      show ((e.arguments.map (left e.scope)).filter (fails e.scope)).length = _
      rw [List.filter_map, List.length_map]
      congr 2
      ext a
      simp only [Function.comp, fails, resolve_left ht]
    constructor
    · show (resolveEntry resolve once.1).1 = once.1
      rw [hf, hentry']
      exact congrArg e.setArguments hargs
    · show (resolveEntry resolve once.1).2.length = once.2.length
      rw [hf, ← hreports'.length_eq, ← hreports.length_eq]
      exact hfails

/-- A value with a mark that closes tags, beside tags that are left over and one that is never
    closed. -/
theorem resolveEntry_twice_mixed :
    let e := (Entry.make ⟨0⟩ .normal "SAY" ["<who>you> <you", "<you>", "<a<b>>"] none).add "who"
      (.ofText "a > b >")
    Tame e.scope ∧
      (resolveEntry resolve (resolveEntry resolve e).1).1.arguments =
        ["a > b >you> <you", "<you>", "<a<b>>"] ∧
      (resolveEntry resolve (resolveEntry resolve e).1).2.length = 2 := by
  intro e
  have ht : Tame e.scope := by
    refine tame_of_carried ?_ nofun nofun nofun
    intro key v t hv htext
    have hstore : v = (Value.ofText "a > b >").labelled "who" := by
      simp only [e, Entry.scope, Entry.add, Entry.make, Store.get?, Store.insert,
        Index.get?_insert] at hv
      split at hv
      · exact (Option.some.inj hv).symm
      · cases hv
    subst hstore
    obtain rfl : "a > b >" = t := Option.some.inj htext
    decide
  obtain ⟨hentry, hcount⟩ := resolveEntry_twice ht
  have honce : (resolveEntry resolve e).1.arguments =
      ["a > b >you> <you", "<you>", "<a<b>>"] := by decide +kernel
  have htwo : (resolveEntry resolve e).2.length = 2 := by decide +kernel
  exact ⟨ht, (congrArg Entry.arguments hentry).trans honce, hcount.trans htwo⟩

end Cuelist.Tag
