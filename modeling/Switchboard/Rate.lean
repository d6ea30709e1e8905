/-!
# Rates of events

A window runs from one sample of an event count to the next. If it lasted longer than a least
time, its rate is the number of events per second, cut off toward zero. Times are nanoseconds.
-/

namespace Switchboard

/-- The start of an observation window: the count and the time of the last sample. -/
structure RateWindow where
  count : Int := 0
  openedAt : Int := 0
  deriving DecidableEq, Inhabited

namespace RateWindow

/-- The bounds of a signed 64-bit word. -/
def clampWord (i : Int) : Int := max (-0x8000000000000000) (min 0x7FFFFFFFFFFFFFFF i)

/-- The length of the window that a sample at `now` closes, 0 if time went back. -/
def elapsed (w : RateWindow) (now : Int) : Int := max 0 (now - w.openedAt)

/-- The rate of the window that a sample closes, if it lasted longer than `least`. Less than a
millisecond counts as one. -/
def rate? (w : RateWindow) (count now least : Int) : Option Int :=
  let elapsed := w.elapsed now
  if elapsed ≤ least then none
  else some ((clampWord ((count - w.count) * 1000)).tdiv (max 1 (elapsed / 1000000)))

/-- Closes the window with a sample and opens the next one. A window that was too short is
closed as well. -/
def observe (w : RateWindow) (count now least : Int) : RateWindow × Option Int :=
  (⟨count, now⟩, w.rate? count now least)

end RateWindow

end Switchboard
