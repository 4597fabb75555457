import WorldTriggers.Decimal.Binary

/-!
The shortest decimal that reads back as a given floating point number, and of the shortest ones the
nearest. For 1, 2, ..., 17 digits the two neighbours of the number on that decimal grid are tested in
exact arithmetic; the first grid with a neighbour inside the rounding interval wins. Two neighbours can
be equally near, as `0.2` and `0.3` are to a quarter; which one is taken is up to the form of the text.
-/

namespace WorldTriggers.Decimal

inductive Tie where
  | awayFromZero
  | toEven
  deriving DecidableEq, Repr

structure Digits where
  digits : Nat
  exponent : Int
  deriving DecidableEq, Repr

structure Interval where
  low : Nat
  value : Nat
  high : Nat
  den : Nat
  closed : Bool

def Interval.ofBinary (b : Binary) : Interval :=
  let narrow := b.significand = 1 <<< 52 && b.exponent ≠ -1074
  let (scale, den) :=
    match b.exponent - 2 with
    | .ofNat e => (1 <<< e, 1)
    | .negSucc e => (1, 1 <<< (e + 1))
  { low := (4 * b.significand - (if narrow then 1 else 2)) * scale
    value := 4 * b.significand * scale
    high := (4 * b.significand + 2) * scale
    den := den
    closed := b.significand % 2 = 0 }

/-- Whether `n / 10 ^ k` of the interval's unit lies inside, for `unit = (num, den)` the grid step. -/
def Interval.holds (i : Interval) (stepNum stepDen n : Nat) : Bool :=
  let x := n * stepNum * i.den
  let low := i.low * stepDen
  let high := i.high * stepDen
  if i.closed then low ≤ x && x ≤ high else low < x && x < high

def tenPower (e : Int) : Nat × Nat :=
  match e with
  | .ofNat e => (Nat.pow 10 e, 1)
  | .negSucc e => (1, Nat.pow 10 (e + 1))

def Interval.onGrid? (i : Interval) (tie : Tie) (e : Int) : Option Nat :=
  let (stepNum, stepDen) := tenPower e
  let below := i.value * stepDen / (i.den * stepNum)
  let above := below + 1
  match i.holds stepNum stepDen below && below ≠ 0, i.holds stepNum stepDen above with
  | true, true =>
    let twice := 2 * i.value * stepDen
    let middle := (below + above) * stepNum * i.den
    if twice < middle || (twice = middle && tie = .toEven && below % 2 = 0) then some below
    else some above
  | true, false => some below
  | false, true => some above
  | false, false => none

def Interval.magnitude (i : Interval) : Int :=
  let guess : Int := ((Nat.toDigits 10 i.value).length : Int) - (Nat.toDigits 10 i.den).length
  let fits (e : Int) : Bool := let (num, den) := tenPower e; i.value * den < num * i.den
  if fits (guess - 1) then guess - 1 else if fits guess then guess else guess + 1

def Interval.search (i : Interval) (tie : Tie) (top : Int) : List Nat → Digits
  | [] => ⟨0, 0⟩
  | n :: rest =>
    match i.onGrid? tie (top - n) with
    | some d => ⟨d, top - n⟩
    | none => i.search tie top rest

def stripZeros : Nat → Digits → Digits
  | 0, d => d
  | fuel + 1, d =>
    if d.digits ≠ 0 && d.digits % 10 = 0 then stripZeros fuel ⟨d.digits / 10, d.exponent + 1⟩ else d

def Digits.ofBinary (tie : Tie) (b : Binary) : Digits :=
  if b.significand = 0 then ⟨0, 0⟩
  else
    let i := Interval.ofBinary b
    stripZeros 20 (i.search tie i.magnitude ((List.range 17).map (· + 1)))

def Digits.positional (d : Digits) : String :=
  let text := Nat.toDigits 10 d.digits
  match d.exponent with
  | .ofNat e => String.ofList (if d.digits = 0 then text else text ++ List.replicate e '0')
  | .negSucc e =>
    let places := e + 1
    if text.length ≤ places then
      String.ofList (['0', '.'] ++ List.replicate (places - text.length) '0' ++ text)
    else
      String.ofList
        (text.take (text.length - places) ++ ['.'] ++ text.drop (text.length - places))

def plain (x : Float) : String :=
  match Binary.ofFloat? x with
  | some b => (if b.negative then "-" else "") ++ (Digits.ofBinary .awayFromZero b).positional
  | none => if x.isNaN then "NaN" else if x < 0 then "-inf" else "inf"

/-- The text of a finite float in a data document: positional from `1e-5` up to `1e16`, with a point
in any case, and in scientific form outside, where the exponent carries its sign. Of two equally near
decimals the even one is taken. -/
def scientific (x : Float) : String :=
  match Binary.ofFloat? x with
  | none => "null"
  | some b =>
    let d := Digits.ofBinary .toEven b
    let text := Nat.toDigits 10 d.digits
    let point : Int := text.length + d.exponent
    let sign := if b.negative then "-" else ""
    if d.digits = 0 || (-5 < point && point ≤ 16) then
      let body := d.positional
      sign ++ (if body.contains '.' then body else body ++ ".0")
    else
      let fraction := match text.drop 1 with
        | [] => []
        | rest => '.' :: rest
      sign ++ String.ofList (text.take 1 ++ fraction ++ ['e']) ++
        (if 0 < point then "+" else "") ++ toString (point - 1)

end WorldTriggers.Decimal
