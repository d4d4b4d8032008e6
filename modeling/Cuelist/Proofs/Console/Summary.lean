/-
  What is printed at the end of a run.

  A run of a file of entries comes to rest within the steps that it is given.  It goes on for
  good exactly if an entry that waits for its signal holds the queue; else its last line is the
  summary (`run_summary`).  That counts all entries of the file, but of the failures only those
  that the queue remembers; `failures_forgotten` is a file with more.
-/
import Cuelist.Proofs.Console.Ending

namespace Cuelist.CommandLine

/-- An answer without an error is that of a run. -/
theorem of_runAnswer {t : FileTree} {config entries queue : String}
    (hok : (runAnswer t config entries queue).error = none) :
    ∃ settings lines w, runSettings (Settings.load config t) = .ok settings ∧
      readEntries entries t = .ok lines ∧
      Console.play settings (QueueId.ofName queue) lines = .ok w ∧
      runAnswer t config entries queue =
        performanceAnswer ⟨w.log.reverse.filterMap Console.said?, Console.ending? w⟩ := by
  unfold runAnswer at hok ⊢
  cases hload : runSettings (Settings.load config t) with
  | error e => simp [hload, Answer.failed] at hok
  | ok settings =>
    cases hread : readEntries entries t with
    | error message => simp [hload, hread, Answer.failed] at hok
    | ok lines =>
      cases hplay : Console.play settings (QueueId.ofName queue) lines with
      | error message =>
        simp [hload, hread, Console.perform, hplay, Except.map, Answer.failed] at hok
      | ok w =>
        refine ⟨settings, lines, w, rfl, rfl, hplay, ?_⟩
        simp only [Console.perform, hplay, Except.map]

/-- **What is printed at the end of a run.**  A run of a file of entries comes to rest, with no
    task ready and no timer left.  It goes on for good exactly if an entry that waits for its
    signal holds the queue then.  Otherwise the last line tells how many entries the file has,
    and how many of those that were run last failed, as many as the settings let a queue
    remember.  These are all that failed if the settings let it remember that many entries. -/
theorem run_summary {t : FileTree} {config entries queue : String}
    (hok : (runAnswer t config entries queue).error = none) :
    ∃ settings lines w,
      runSettings (Settings.load config t) = .ok settings ∧
      readEntries entries t = .ok lines ∧
      Console.play settings (QueueId.ofName queue) lines = .ok w ∧
      (w.ready = [] ∧ w.timers = []) ∧
      ((runAnswer t config entries queue).endless = true ↔
        ∃ id, w.holder? Console.handle = some id) ∧
      ((runAnswer t config entries queue).endless = false → ∃ said time failed,
        runAnswer t config entries queue = ⟨0, said ++ [(time,
          s!"Queue {(QueueId.ofName queue).text} dispatched {lines.length} entries ({failed} failed)")],
          none, false⟩ ∧
        failed = ((ConsoleLine.inRunOrder lines).rtake settings.historyLimit).countP
          (ConsoleLine.fails settings (QueueId.ofName queue)) ∧
        (lines.length ≤ settings.historyLimit →
          failed = lines.countP (ConsoleLine.fails settings (QueueId.ofName queue)))) := by
  obtain ⟨settings, lines, w, hload, hread, hplay, hanswer⟩ := of_runAnswer hok
  rw [hanswer]
  refine ⟨settings, lines, w, hload, hread, hplay, Console.play_rests hplay, ?_, fun hends => ?_⟩
  · rw [← Console.endless_iff_held hplay]
    exact Option.isNone_iff_eq_none
  obtain ⟨e, he⟩ : ∃ e, Console.ending? w = some e := by
    rw [← Option.isSome_iff_exists]
    simpa [performanceAnswer] using hends
  obtain ⟨hqueue, hplayed, hfailed⟩ := Console.ending_counts hplay he
  refine ⟨w.log.reverse.filterMap Console.said?, e.time, e.failed, ?_, hfailed, fun hshort => ?_⟩
  · simp only [performanceAnswer, he, Option.toList, List.map, Option.isNone_some,
      Console.Ending.summary, hqueue, hplayed]
  · have hperm := ConsoleLine.inRunOrder_perm lines
    rw [hfailed, List.rtake, hperm.length_eq, Nat.sub_eq_zero_of_le hshort, List.drop_zero,
      hperm.countP_eq]

/-- A file tree with settings and a list of entries. -/
def stocked (settings entries : String) : FileTree :=
  (({} : FileTree).plant (FilePath.ofText "cadence.json") settings.toUTF8).plant
    (FilePath.ofText "list.json") entries.toUTF8

/-- Of three entries two fail, and the queue remembers two. -/
theorem run_summary_of_three :
    let t := stocked "[0, true, [], 2]" "[[\"fly\"], [\"narrate\", [\"Hello\"]], [\"^swim\"]]"
    ∃ said time, runAnswer t "cadence.json" "list.json" "main" =
      ⟨0, said ++ [(time, "Queue MAIN dispatched 3 entries (1 failed)")], none, false⟩ := by
  intro t
  have hok : (runAnswer t "cadence.json" "list.json" "main").error = none := by decide +kernel
  have hends : (runAnswer t "cadence.json" "list.json" "main").endless = false := by
    decide +kernel
  obtain ⟨settings, lines, w, hload, hread, -, -, -, hsummary⟩ := run_summary hok
  obtain ⟨said, time, failed, hanswer, hfailed, -⟩ := hsummary hends
  have hsettings : runSettings (Settings.load "cadence.json" t) =
      .ok { tickInterval := 0, historyLimit := 2 } := by
    decide +kernel
  have hlines : readEntries "list.json" t =
      .ok [⟨"fly", [], true⟩, ⟨"narrate", ["Hello"], true⟩, ⟨"^swim", [], true⟩] := by
    decide +kernel
  obtain rfl := Except.ok.inj (hsettings.symm.trans hload)
  obtain rfl := Except.ok.inj (hlines.symm.trans hread)
  have hone : failed = 1 := by rw [hfailed]; decide +kernel
  rw [hone] at hanswer
  refine ⟨said, time, hanswer.trans ?_⟩
  exact congrArg (fun line => Answer.mk 0 (said ++ [(time, line)]) none false) (by decide +kernel)

/-- Of two entries both fail, but the queue remembers one. -/
theorem failures_forgotten :
    let t := stocked "\x7b\"tick_interval_ms\": 0, \"history_limit\": 1\x7d"
      "[\x7b\"command\": \"fly\"\x7d, \x7b\"command\": \"swim\"\x7d]"
    let settings : Settings := { tickInterval := 0, historyLimit := 1 }
    let lines : List ConsoleLine := [⟨"fly", [], true⟩, ⟨"swim", [], true⟩]
    runSettings (Settings.load "cadence.json" t) = .ok settings ∧
      readEntries "list.json" t = .ok lines ∧
      lines.countP (ConsoleLine.fails settings (QueueId.ofName "main")) = 2 ∧
      runAnswer t "cadence.json" "list.json" "main" =
        ⟨0, [(0, "Queue MAIN dispatched 2 entries (1 failed)")], none, false⟩ := by
  decide +kernel

end Cuelist.CommandLine
