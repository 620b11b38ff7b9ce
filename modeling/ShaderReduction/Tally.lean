/-
This file counts what happens in a session and puts the counts into words.

The counts are integers, as a report can be made of counts from anywhere. A duration is given in
microseconds and reported in seconds with one place, rounded from the floating-point number nearest
to it. It must not lead out of the calendar, which has the years from 1 to 9999 and begins a
duration in the year 2000.
-/

import ShaderReduction.Fault

namespace ShaderReduction

/-- The counts of a session. -/
structure Tally where
  attempts : Int
  successes : Int
  failures : Int
  cacheHits : Int
  judgeCalls : Int
  stoppedEarly : Bool
deriving DecidableEq, Repr, Inhabited

namespace Tally

/-- The counts of a session that has done nothing. -/
def empty : Tally := ⟨0, 0, 0, 0, 0, false⟩

/-- A duration in seconds with one place. -/
def durationText (microseconds : Int) : Text :=
  (Double.ofFraction microseconds 1000000).fixed 1

/-- The counts and a duration in one line. -/
def summary (tally : Tally) (microseconds : Int) : Text :=
  ("Attempts: " : Text) ++ Text.ofInt tally.attempts ++
    (" | Successful: " : Text) ++ Text.ofInt tally.successes ++
    (" | Failed: " : Text) ++ Text.ofInt tally.failures ++
    (" | Cache hits: " : Text) ++ Text.ofInt tally.cacheHits ++
    (" | Judge calls: " : Text) ++ Text.ofInt tally.judgeCalls ++
    (" | Duration: " : Text) ++ durationText microseconds ++ ("s" : Text)

/-- How many microseconds of the calendar lie before the year 2000. -/
def longestBack : Int := 63082281600000000

/-- How many microseconds of the calendar lie after the beginning of the year 2000. -/
def longestAhead : Int := 252455616000000000

/-- The counts and a duration in one line, if the calendar holds the duration. -/
def summaryOf (tally : Tally) (microseconds : Int) : Except Fault Text :=
  if microseconds < -longestBack ∨ longestAhead ≤ microseconds then .error .durationTooLong
  else .ok (tally.summary microseconds)

end Tally

end ShaderReduction
