/-
  Values that entries carry.

  Texts and lists of texts remember the key they were last stored under, their
  label, and show it; the other values do not.  `asText` is what a tag puts in
  place of itself, for the values that have one text; `debug` is what reports
  show.
-/
import Cuelist.Actor
import Cuelist.Decimal.Float
import Cuelist.Script
import Cuelist.Span

namespace Cuelist

/-- A value of a host's own that the library carries without looking at it. -/
inductive Foreign where
  | text (content : String)
  | integer (n : Int)
deriving Repr, DecidableEq

/-- A value under a key of an entry. -/
inductive Value where
  | text (content : String) (label : Option String)
  | list (items : List String) (label : Option String)
  | actor (a : ActorRef)
  | actors (as : List ActorRef)
  | script (s : Script)
  | integer (n : Int)
  | number (x : Float)
  | boolean (b : Bool)
  | duration (d : Span)
  /-- A constant that is known by its name. -/
  | symbol (name : String)
  | foreign (content : Foreign)
deriving Repr

namespace Value

/-- A text that was not stored yet. -/
def ofText (content : String) : Value := .text content none

/-- A list of texts that was not stored yet. -/
def ofList (items : List String) : Value := .list items none

/-- Whether the value shows a label. -/
def hasLabel : Value → Bool
  | text _ _ | list _ _ => true
  | _ => false

/-- The value with a key as its label, if it shows one. -/
def labelled (key : String) : Value → Value
  | text content _ => text content (some key)
  | list items _ => list items (some key)
  | v => v

/-! ## Views -/

/-- The content and label of a text. -/
def text? : Value → Option (String × Option String)
  | text content label => some (content, label)
  | _ => none

/-- The items and label of a list of texts. -/
def list? : Value → Option (List String × Option String)
  | list items label => some (items, label)
  | _ => none

/-- A single actor. -/
def actor? : Value → Option ActorRef
  | actor a => some a
  | _ => none

/-- A list of actors. -/
def actors? : Value → Option (List ActorRef)
  | actors as => some as
  | _ => none

/-- A script. -/
def script? : Value → Option Script
  | script s => some s
  | _ => none

/-- A whole number. -/
def integer? : Value → Option Int
  | integer n => some n
  | _ => none

/-- A length of time. -/
def duration? : Value → Option Span
  | duration d => some d
  | _ => none

/-- A value of a host's own. -/
def foreign? : Value → Option Foreign
  | foreign content => some content
  | _ => none

/-! ## Text forms -/

/-- A truth value as text. -/
def renderBool (b : Bool) : String :=
  if b then "true" else "false"

/-- A text behind its label. -/
def behindLabel (label : Option String) (content : String) : String :=
  match label with
  | some key => s!"{key}='{content}'"
  | none => content

/-- The one text that stands for the value, if there is one. -/
def asText : Value → Option String
  | text content _ => some content
  | integer n => some (toString n)
  | number x => some (Decimal.render x)
  | boolean b => some (renderBool b)
  | symbol name => some name
  | actor a => some a.name
  | script s => some s.name
  | list _ _ | actors _ | duration _ | foreign _ => none

/-- The label is no part of the text. -/
theorem asText_labelled (key : String) (v : Value) : (v.labelled key).asText = v.asText := by
  cases v <;> rfl

theorem labelled_labelled (key key' : String) (v : Value) :
    (v.labelled key).labelled key' = v.labelled key' := by
  cases v <;> rfl

/-- The value as reports show it. -/
def debug : Value → String
  | text content label => behindLabel label content
  | list items label => behindLabel label (Text.joinStrings "|" items)
  | actor a => a.display
  | actors as => ActorRef.displayList as
  | script s => s.display
  | integer n => toString n
  | number x => Decimal.render x
  | boolean b => renderBool b
  | duration d => d.render
  | symbol name => name
  | foreign _ => "<opaque>"

/-- The value inside a larger dump. -/
def dump : Value → Text.Dump
  | foreign _ => .leaf "Opaque(..)"
  | v => .leaf v.debug

end Value

/-! ## Stores -/

/-- Values under keys whose case does not count. -/
structure Store where
  values : Index Value := {}
deriving Repr

namespace Store

/-- The value under a key. -/
def get? (s : Store) (key : String) : Option Value :=
  s.values.get? (Key.normalize key)

/-- Whether a key has a value. -/
def contains (s : Store) (key : String) : Bool :=
  (s.get? key).isSome

/-- The store with a value under a key; the label of the value is the key as it
    is spelled. -/
def insert (s : Store) (key : String) (v : Value) : Store where
  values := s.values.insert (Key.normalize key) (v.labelled key)

theorem get?_insert (s : Store) (key key' : String) (v : Value) :
    (s.insert key v).get? key' =
      if Key.normalize key' = Key.normalize key then some (v.labelled key) else s.get? key' :=
  Index.get?_insert ..

/-- The store without a key. -/
def erase (s : Store) (key : String) : Store where
  values := s.values.erase (Key.normalize key)

/-- The keys in canonical form, in ascending order. -/
def keys (s : Store) : List String := s.values.names

/-- How many keys have a value. -/
def size (s : Store) : Nat := s.values.size

/-- Whether no key has a value. -/
def isEmpty (s : Store) : Bool := s.values.isEmpty

end Store

end Cuelist
