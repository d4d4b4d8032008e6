/-
  The command that holds its queue for a length of time.

    wait (duration:)<duration>

  While the clock runs the entry waits for a signal that an alarm gives later;
  without a clock it is finished at once.
-/
import Cuelist.Argument
import Cuelist.Command

namespace Cuelist.Wait

/-- The labels of the duration. -/
def durationLabels : String := "duration, d"

/-- The duration if none is given. -/
def standardDuration : Span := Span.ofMillis 3000

/-! ## Parsing -/

/-- Reads one argument. -/
def takeArgument (e : Entry) (a : Argument) : Except CommandError Entry :=
  if e.has "duration" || a.hasLabel && !a.labelIn durationLabels then
    .error (.invalidArguments s!"Unknown argument '{a.raw}'")
  else match a.duration with
    | some d => .ok (e.add "duration" (.duration d))
    | none => .error (.invalidArguments s!"Invalid duration '{a.value}'")

/-- Reads arguments in order, up to the first that makes no sense. -/
def takeArguments (e : Entry) : List Argument → Except CommandError Unit × Entry
  | [] => (.ok (), e)
  | a :: as =>
    match takeArgument e a with
    | .ok e => takeArguments e as
    | .error err => (.error err, e)

/-- Reads the arguments of an entry. -/
def read (e : Entry) : Except CommandError Unit × Entry :=
  match takeArguments e (e.arguments.map Argument.parse) with
  | (.ok (), e) =>
    match e.ensure "duration" [some (.duration standardDuration)] with
    | .ok (_, e) => (.ok (), e)
    | .error err => (.error err, e)
  | failed => failed

/-! ## Execution -/

/-- The duration of an entry whose arguments were read. -/
def length (e : Entry) : Except CommandError Span :=
  match (e.get? "duration").bind Value.duration? with
  | some d => .ok d
  | none => .error (.missingArgument "duration")

/-- Lets an entry wait for an alarm, or signals it at once if there is no
    clock. -/
def arm {σ : Type} (w : World σ) (id : EntryId) (d : Span) : World σ :=
  if w.live then (w.setWaiting id true).spawn (.alarm id d) else w.markFinished id true

/-- The command. -/
def command {σ : Type} : Command σ where
  parse _ e w :=
    let (result, e) := read e
    ⟨result, e, w⟩
  execute c e w :=
    match length e with
    | .error err => ⟨.error err, e, w⟩
    | .ok d => ⟨.ok (), e, arm (w.summarize c e (reportPart "Duration" d.render)) e.id d⟩

end Cuelist.Wait
