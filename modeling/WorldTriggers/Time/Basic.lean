import WorldTriggers.Decimal.Binary
import WorldTriggers.Width

namespace WorldTriggers

abbrev Instant := Int

abbrev Span := Int

namespace Span

def second : Span := 1000000000

def longest : Span := Width.maxInt 64 * 1000000

def roundSeconds (b : Decimal.Binary) : Nat :=
  Decimal.roundDiv (b.ratio.1 * 1000000000) b.ratio.2

/-- A number of seconds as a span. Negative and infinite numbers, NaN and numbers beyond the longest
span have none; a negative zero is zero. -/
def ofSeconds? (x : Float) : Option Span :=
  match Decimal.Binary.ofFloat? x with
  | none => none
  | some b =>
    if b.negative && b.significand ≠ 0 then none
    else
      let n : Int := roundSeconds b
      if n ≤ longest then some n else none

def ofPositiveSeconds? (x : Float) : Option Span := if 0 < x then ofSeconds? x else none

def toSeconds (d : Span) : Float :=
  Float.ofInt (d / second) + Float.ofInt (d % second) / 1000000000

end Span

namespace Instant

def last : Instant := 8210266876799999999999

def first : Instant := -8334601228800000000000

def after? (t : Instant) (d : Span) : Option Instant :=
  if first ≤ t + d ∧ t + d ≤ last then some (t + d) else none

theorem after?_eq_some_iff {t u : Instant} {d : Span} :
    t.after? d = some u ↔ u = t + d ∧ first ≤ u ∧ u ≤ last := by
  unfold after?
  split
  · rename_i h
    constructor
    · intro he
      obtain rfl := Option.some.inj he
      exact ⟨rfl, h⟩
    · rintro ⟨rfl, -, -⟩
      rfl
  · rename_i h
    constructor
    · simp
    · rintro ⟨rfl, hf, hl⟩
      exact absurd ⟨hf, hl⟩ h

end Instant

end WorldTriggers
