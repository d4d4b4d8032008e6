/-
  The command that sends a line of text to actors.

    narrate <text> (targets:<name>|...) (format:<script>)

  An argument without one of the two labels is text; the first one counts, with
  anything before a colon in it.  Without targets the line goes to the acting
  subject.  `read` and `work` are the two phases without the world: what they do
  is listed as effects.
-/
import Cuelist.Argument
import Cuelist.Command

namespace Cuelist.Narrate

/-- The labels of the format. -/
def formatLabels : String := "format, f"

/-- The labels of the targets. -/
def targetLabels : String := "target, targets, t"

/-- The most arguments that make sense. -/
def maxArguments : Nat := 4

/-- How a host finds actors by name. -/
abbrev Directory := Cast → String → Option ActorRef

/-! ## Parsing -/

/-- An entry whose arguments are being read, and the errors that were found. -/
structure Reading where
  entry : Entry
  errors : List String

/-- Takes the format that an argument names. -/
def Reading.takeFormat (r : Reading) (scripts : Library) (name : String) : Reading :=
  match scripts.format? name with
  | some s => { r with entry := r.entry.add "format" (.script s) }
  | none =>
    { r with errors := r.errors ++ [s!"Could not find format script matching '{name}'"] }

/-- Takes the targets that an argument names; unknown names are left out. -/
def Reading.takeTargets (r : Reading) (find : String → Option ActorRef) (names : List String) :
    Reading where
  entry := r.entry.add "targets" (.actors (names.filterMap find))
  errors := r.errors ++
    (names.filter fun n => (find n).isNone).map fun n => s!"Unknown narrate target '{n}'"

/-- Reads one argument. -/
def Reading.takeArgument (find : String → Option ActorRef) (scripts : Library) (r : Reading)
    (a : Argument) : Reading :=
  if !r.entry.has "format" && a.labelIn formatLabels then r.takeFormat scripts a.value
  else if a.labelIn targetLabels then r.takeTargets find a.list
  else if !r.entry.has "text" then { r with entry := r.entry.add "text" (.ofText a.raw) }
  else r

/-- The entry with its acting subject as target, if it has no targets. -/
def aimAtSubject (e : Entry) : Entry :=
  if e.has "targets" then e else e.set "targets" (e.subject.map fun a => .actors [a])

/-- Reads the arguments of an entry. -/
def read (find : String → Option ActorRef) (scripts : Library) (e : Entry) :
    Except CommandError Unit × Reading :=
  if e.arguments.length > maxArguments then
    (.error (.invalidArguments "Too many arguments! Did you forget a 'quote'?"), ⟨e, []⟩)
  else
    let arguments := e.arguments.map Argument.parse
    let r := arguments.foldl (Reading.takeArgument find scripts) ⟨e, []⟩
    let r := { r with entry := aimAtSubject r.entry }
    if r.entry.has "text" then (.ok (), r)
    else (.error (.invalidArguments "Missing any text!"), r)

/-! ## Execution -/

/-- What the command does. -/
inductive Effect where
  | report (summary : String)
  | send (actor message : String)
  | fail (message : String)
deriving Repr, DecidableEq

/-- The summary of a line with its targets and format. -/
def summary (text : String) (targets : Option (List ActorRef)) (format : Option Script) : String :=
  reportPart "Narrating" text ++
    reportPart "Targets" ((targets.map ActorRef.displayList).getD "none") ++
    ((format.map fun s => reportPart "Format" s.name).getD "")

/-- Sends a message to an actor who can be reached. -/
def deliver (cast : Cast) (message : String) (a : ActorRef) : Effect :=
  match cast.actor? a with
  | some actor =>
    if actor.online.getD true then .send actor.name message
    else .fail "Narrated to non-existent or offline actor!"
  | none => .fail "Narrated to non-existent or offline actor!"

/-- What is done for an entry whose arguments were read. -/
def work (cast : Cast) (e : Entry) : Except CommandError (List Effect) :=
  match (e.get? "text").bind Value.text? with
  | none => .error (.execution "NARRATE has no text")
  | some (text, _) =>
    let targets := (e.get? "targets").bind Value.actors?
    let format := (e.get? "format").bind Value.script?
    let message := (format.map fun s => s.render text).getD text
    .ok (.report (summary text targets format) :: (targets.getD []).map (deliver cast message))

/-! ## The command -/

/-- Does one thing. -/
def Effect.apply {σ : Type} (c : Call) (e : Entry) (w : World σ) : Effect → World σ
  | report text => w.summarize c e text
  | send actor message => w.observe (.sent actor message)
  | fail message => w.tell c.reporter (.error message)

/-- The command, for a host that finds actors by name. -/
def command {σ : Type} (directory : Directory) : Command σ where
  parse c e w :=
    let (result, r) := read (directory w.cast) c.scripts e
    ⟨result, r.entry, r.errors.foldl (fun w m => w.tell c.reporter (.error m)) w⟩
  execute c e w :=
    match work w.cast e with
    | .error err => ⟨.error err, e, w⟩
    | .ok effects => ⟨.ok (), e, effects.foldl (Effect.apply c e) w⟩

/-- **All that the command does can be seen**: what every event keeps, its phases keep. -/
theorem command_keeps {σ : Type} {P : World σ → Prop} (ho : ∀ w e, P w → P (w.observe e))
    (directory : Directory) (c : Call) (e : Entry) {w : World σ} (hw : P w) :
    P ((command directory).parse c e w).world ∧ P ((command directory).execute c e w).world := by
  constructor
  · exact List.foldlRecOn _ _ hw fun w hw m _ => World.tell_keeps ho hw c.reporter (.error m)
  · simp only [command]
    split
    next => exact hw
    next effects _ =>
      refine List.foldlRecOn effects _ hw fun w hw effect _ => ?_
      cases effect with
      | report | fail => exact World.tell_keeps ho hw ..
      | send => exact ho w _ hw

end Cuelist.Narrate
