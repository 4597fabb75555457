namespace WorldTriggers.Decimal

structure Numeral where
  negative : Bool
  digits : Nat
  exponent : Int
  whole : Bool
  deriving DecidableEq, Repr

def digitValue (c : Char) : Nat := c.toNat - '0'.toNat

def natOfDigits (cs : List Char) : Nat := cs.foldl (fun n c => 10 * n + digitValue c) 0

def splitDigits (cs : List Char) : List Char × List Char :=
  (cs.takeWhile Char.isDigit, cs.dropWhile Char.isDigit)

def readExponent? : List Char → Option (Int × Bool × List Char)
  | c :: rest =>
    if c = 'e' || c = 'E' then
      let (negative, rest) :=
        match rest with
        | '-' :: r => (true, r)
        | '+' :: r => (false, r)
        | r => (false, r)
      let (digits, rest) := splitDigits rest
      if digits.isEmpty then none
      else
        let n : Int := natOfDigits digits
        some (if negative then -n else n, true, rest)
    else some (0, false, c :: rest)
  | [] => some (0, false, [])

def Numeral.read? (cs : List Char) : Option (Numeral × List Char) := do
  let (negative, cs) :=
    match cs with
    | '-' :: r => (true, r)
    | r => (false, r)
  let (before, rest) := splitDigits cs
  let (fraction, pointed, rest) :=
    match rest with
    | '.' :: r => let (f, r) := splitDigits r; (f, true, r)
    | r => ([], false, r)
  if before.isEmpty && fraction.isEmpty then none
  else
    let (exponent, scaled, rest) ← readExponent? rest
    some (⟨negative, natOfDigits (before ++ fraction), exponent - fraction.length,
      !pointed && !scaled⟩, rest)

def Numeral.toFloat (n : Numeral) : Float :=
  let size := ((Nat.toDigits 10 n.digits).length : Int) + n.exponent
  let magnitude : Float :=
    if n.digits = 0 || size < -400 then 0
    else if 400 < size then Float.ofScientific 1 false 400
    else
      match n.exponent with
      | .ofNat e => Float.ofScientific n.digits false e
      | .negSucc e => Float.ofScientific n.digits true (e + 1)
  if n.negative then -magnitude else magnitude

end WorldTriggers.Decimal
