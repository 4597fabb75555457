import WorldTriggers.Time.Basic

namespace WorldTriggers

abbrev Moment := Int

abbrev Lapse := Nat

namespace Lapse

def span? (n : Lapse) : Option Span := if (n : Int) ≤ Span.longest then some n else none

def ofSpan? (d : Span) : Option Lapse := if 0 ≤ d then some d.toNat else none

def year : Lapse := 31536000000000000

end Lapse

namespace Moment

def last : Moment := Width.count 63 * Span.second - 1

def after? (m : Moment) (n : Lapse) : Option Moment := if m + n ≤ last then some (m + n) else none

def since (m start : Moment) : Lapse := (m - start).toNat

def farFuture (m : Moment) : Moment := (m.after? Lapse.year).getD m

def wake (m : Moment) : Moment := -(-m / 1000000) * 1000000

theorem le_wake (m : Int) : m ≤ wake m := by
  show m ≤ -(-m / 1000000) * 1000000
  omega

theorem wake_lt (m : Int) : wake m < m + 1000000 := by
  show -(-m / 1000000) * 1000000 < m + 1000000
  omega

end Moment

structure Clock where
  anchor : Moment
  instant : Instant

namespace Clock

/-- The instant at a moment. Time stands still before the anchor and at the end of all instants; what is
too long for a span counts as the longest one. -/
def now (c : Clock) (m : Moment) : Instant :=
  let elapsed := (m.since c.anchor).span?.getD Span.longest
  (c.instant.after? elapsed).getD Instant.last

def lapseTo (c : Clock) (deadline : Instant) : Lapse :=
  (Lapse.ofSpan? (deadline - c.instant)).getD 0

/-- The moment at which a deadline is reached: the anchor if it has passed by then, and a moment in
the far future of `m` if it cannot be told. -/
def momentOf (c : Clock) (m : Moment) (deadline : Instant) : Moment :=
  (c.anchor.after? (c.lapseTo deadline)).getD m.farFuture

end Clock

end WorldTriggers
