import WorldTriggers.Text.Blank
import WorldTriggers.Text.CaseTable

namespace WorldTriggers.Text

def LowercaseRun.covers (r : LowercaseRun) (n : Nat) : Bool :=
  r.first ≤ n && n ≤ r.last && (n - r.first) % r.stride == 0

def lowerChar (c : Char) : Char :=
  match lowercaseRuns.find? (·.covers c.toNat) with
  | some r => Char.ofNat (c.toNat + r.shift).toNat
  | none => c

def seesCased (cs : List Char) : Bool :=
  match cs.dropWhile (inRanges caseIgnorableRanges) with
  | [] => false
  | c :: _ => inRanges casedRanges c

/-- Lowers `cs`, where `before` holds the characters in front of it, the nearest first. -/
def lowercaseFrom (before : List Char) : List Char → List Char
  | [] => []
  | c :: rest =>
    let low :=
      if c.toNat = 0x3A3 then
        if seesCased before && !seesCased rest then ['\u03c2'] else ['\u03c3']
      else if c.toNat = 0x130 then ['i', '\u0307']
      else [lowerChar c]
    low ++ lowercaseFrom (c :: before) rest

def lowercaseOf (cs : List Char) : List Char := lowercaseFrom [] cs

def lowercase (s : String) : String := String.ofList (lowercaseOf s.toList)

end WorldTriggers.Text
