/-
  Lengths of time.

  A `Span` counts nanoseconds.  `millis` is its whole milliseconds; `ceilMillis`
  rounds up, which is what a clock that ticks in milliseconds waits for.
-/
namespace Cuelist

/-- A length of time, in nanoseconds. -/
structure Span where
  nanos : Nat
deriving Repr, DecidableEq

namespace Span

/-- A length of whole milliseconds. -/
def ofMillis (n : Nat) : Span := ⟨n * 1000000⟩

/-- A length of seconds and further nanoseconds. -/
def ofSeconds (secs : Nat) (nanos : Nat) : Span := ⟨secs * 1000000000 + nanos⟩

/-- The whole milliseconds of a length. -/
def millis (s : Span) : Nat := s.nanos / 1000000

/-- The least number of milliseconds that covers a length. -/
def ceilMillis (s : Span) : Nat := (s.nanos + 999999) / 1000000

/-- The longest length there is: 2⁶⁴ - 1 seconds and one nanosecond less than
    another. -/
def longest : Span := ofSeconds (Nat.pow 2 64 - 1) 999999999

/-- A length as it is written in reports. -/
def render (s : Span) : String := toString s.millis ++ "ms"

end Span

/-! ## Points in time -/

/-- What a clock waits for in place of a point in time that it cannot hold:
    thirty years, in milliseconds. -/
def farFuture : Nat := 86400 * 365 * 30 * 1000

/-- Whether a clock can hold the end of a length of time that starts at the
    millisecond `now`.  Points in time lie below 2⁶³ seconds. -/
def Span.endsInTime (s : Span) (now : Nat) : Bool :=
  now * 1000000 + s.nanos < Nat.pow 2 63 * 1000000000

/-- The millisecond at which a length of time that starts at `now` is over.  In
    place of an end that a clock cannot hold stands the far future, and `now`
    itself if it cannot hold that. -/
def dueAfter (now : Nat) (s : Span) : Nat :=
  if s.endsInTime now then now + s.ceilMillis
  else if (Span.ofMillis farFuture).endsInTime now then now + farFuture
  else now

theorem dueAfter_of_endsInTime {now : Nat} {s : Span} (h : s.endsInTime now = true) :
    now * 1000000 + s.nanos ≤ dueAfter now s * 1000000 := by
  rw [dueAfter, if_pos h, Span.ceilMillis]
  omega

theorem dueAfter_of_farFuture {now : Nat} {s : Span} (h : s.endsInTime now = false)
    (hf : (Span.ofMillis farFuture).endsInTime now = true) :
    dueAfter now s = now + farFuture := by
  simp [dueAfter, h, hf]

/-- The millisecond at which an alarm that is set at `now` goes off: after its
    length of time, but not later than in the far future. -/
def alarmDue (now : Nat) (s : Span) : Nat :=
  now + min s.ceilMillis farFuture

end Cuelist
