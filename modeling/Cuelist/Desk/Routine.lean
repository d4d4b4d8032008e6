/-
  Routines: commands that are written down as lists of actions.

  A routine has a list of actions for each phase.  The actions of a phase are
  done in order, up to the first that fails.  An action can work on the entry,
  report, and operate the queues of the desk; it can also advance a queue, for
  which it is given the way to do so.
-/
import Cuelist.Command
import Cuelist.Cue
import Cuelist.Desk
import Cuelist.Executor.Forms
import Cuelist.Json.Writer

namespace Cuelist.Desk

/-- A change of the entry. -/
inductive Edit where
  | fail (e : CommandError)
  | add (key : String) (v : Value)
  /-- Puts an argument under a key. -/
  | addArgument (key : String) (index : Nat)
  | ensure (key : String) (candidates : List (Option Value))
  | remove (key : String)
  | track (key : String)
  | instant
  | rename (name : String)
  | setArguments (arguments : List String)
  | resetArguments

/-- Something to report. -/
inductive Telling where
  | text (text : String)
  /-- An object as reports show it. -/
  | object (key : String)
  /-- An object as a text. -/
  | objectText (key : String)
  | arguments
  /-- A text put into a format. -/
  | formatted (name text : String)

/-- Something that is done to a queue. -/
inductive Operation where
  /-- Admits a copy of the entry while the queue has run fewer entries than
      `below`. -/
  | requeue (below : Nat)
  | clear
  | stop
  | state
  | step
  /-- Signals the entry that holds the queue. -/
  | complete

/-- One thing that a routine does. -/
inductive Action where
  | edit (a : Edit)
  | report (t : Telling)
  | error (text : String)
  | wait
  | finish
  /-- Admits the entry of a cue to a queue, with the tracked objects if `inject`
      is set. -/
  | enqueue (queue : String) (cue : Cue) (inject : Bool)
  | operate (queue : String) (o : Operation)

/-- A way to advance a queue. -/
abbrev Stepper := Handle → World Desk → Tick × World Desk

/-- The error of an action that something else made impossible. -/
def impossible (reason : String) : CommandError :=
  .execution reason

/-! ## Entries -/

/-- The entry after a change. -/
def Edit.apply (e : Entry) : Edit → Except CommandError Entry
  | .fail err => .error err
  | .add key v => .ok (e.add key v)
  | .addArgument key index =>
    match e.arguments[index]? with
    | some argument => .ok (e.add key (.ofText argument))
    | none => .error (.invalidArguments s!"Missing argument {index}")
  | .ensure key candidates => (e.ensure key candidates).map Prod.snd
  | .remove key => .ok (e.remove key)
  | .track key => .ok (e.track key)
  | .instant => .ok (e.setInstant true)
  | .rename name => .ok (e.setCommand name)
  | .setArguments arguments => .ok (e.setArguments arguments)
  | .resetArguments => .ok e.resetArguments

/-- The text that is reported of an entry. -/
def Telling.render (scripts : Library) (e : Entry) : Telling → Except CommandError String
  | .text t => .ok t
  | .object key => .ok (e.reportObject key)
  | .objectText key =>
    match e.text? key with
    | some t => .ok t
    | none => .error (.missingArgument key)
  | .arguments => .ok (Text.joinStrings "|" e.arguments)
  | .formatted name t =>
    match scripts.format? name with
    | some s => .ok (s.render t)
    | none => .ok "no format"

/-! ## Queues -/

/-- What a queue shows of itself, in one line. -/
def stateLine (w : World Desk) (h : Handle) : String :=
  let q := w.queues h
  s!"{(q.state w.waiting).name} len={q.length} executed={q.executed}"

/-- The world with the entry of a cue admitted to a queue. -/
def admitCue (e : Entry) (w : World Desk) (name : String) (c : Cue) (inject : Bool) :
    Except CommandError (World Desk) :=
  match w.call c with
  | .error err => .error (impossible err.message)
  | .ok (target, w) =>
    let target := if inject then e.injectInto target else target
    match w.host.handle? name with
    | none => .error (impossible "queue")
    | some h => (w.enqueue h target).mapError fun err => impossible err.message

/-- The world with a copy of the entry admitted to a queue, while the queue has run
    fewer than `below` entries. -/
def admitCopy (e : Entry) (w : World Desk) (h : Handle) (below : Nat) :
    Except CommandError (World Desk) :=
  if (w.queues h).executed < below then
    let (copy, w) := w.duplicate e
    (w.enqueue h copy).mapError fun err => impossible err.message
  else .ok w

/-- What is done to a queue, and what is reported of it. -/
def Operation.apply (advance : Stepper) (e : Entry) (w : World Desk) (h : Handle) :
    Operation → Except CommandError (Option String × World Desk)
  | .requeue below => (admitCopy e w h below).map fun w => (none, w)
  | .clear =>
    let (n, w) := w.clear h
    .ok (some s!"cleared {n}", w)
  | .stop =>
    let (n, w) := w.stop h
    .ok (some s!"stopped {n}", w)
  | .state => .ok (some (stateLine w h), w)
  | .step =>
    let (tick, w) := advance h w
    .ok (some (tick.toJson w.waiting).compact, w)
  | .complete =>
    match w.holder? h with
    | some id => .ok (none, w.markFinished id true)
    | none => .ok (none, w)

/-! ## Routines -/

/-- Does one action. -/
def Action.apply (advance : Stepper) (c : Call) (e : Entry) (w : World Desk) : Action → Reply Desk
  | .edit a =>
    match a.apply e with
    | .ok e => ⟨.ok (), e, w⟩
    | .error err => ⟨.error err, e, w⟩
  | .report t =>
    match t.render c.scripts e with
    | .ok text => ⟨.ok (), e, w.summarize c e text⟩
    | .error err => ⟨.error err, e, w⟩
  | .error text => ⟨.ok (), e, w.tell c.reporter (.error text)⟩
  | .wait => ⟨.ok (), e, w.setWaiting e.id true⟩
  | .finish => ⟨.ok (), e, w.markFinished e.id true⟩
  | .enqueue queue cue inject =>
    match admitCue e w queue cue inject with
    | .ok w => ⟨.ok (), e, w⟩
    | .error err => ⟨.error err, e, w⟩
  | .operate queue o =>
    match w.host.handle? queue with
    | none => ⟨.error (impossible "queue"), e, w⟩
    | some h =>
      match o.apply advance e w h with
      | .ok (some text, w) => ⟨.ok (), e, w.summarize c e text⟩
      | .ok (none, w) => ⟨.ok (), e, w⟩
      | .error err => ⟨.error err, e, w⟩

/-- Does actions in order, up to the first that fails. -/
def actAll (advance : Stepper) (c : Call) (e : Entry) (w : World Desk) : List Action → Reply Desk
  | [] => ⟨.ok (), e, w⟩
  | a :: as =>
    let reply := a.apply advance c e w
    match reply.result with
    | .ok () => actAll advance c reply.entry reply.world as
    | .error _ => reply

/-- A command that is written down. -/
structure Routine where
  name : String
  parse : List Action
  execute : List Action

/-- The command of a routine. -/
def Routine.command (advance : Stepper) (r : Routine) : Command Desk where
  parse c e w := actAll advance c e w r.parse
  execute c e w := actAll advance c e w r.execute

end Cuelist.Desk
