namespace WorldTriggers.Text

def blankRanges : List (Nat × Nat) := [
  (0x9, 0xD), (0x20, 0x20), (0x85, 0x85), (0xA0, 0xA0), (0x1680, 0x1680), (0x2000, 0x200A),
  (0x2028, 0x2029), (0x202F, 0x202F), (0x205F, 0x205F), (0x3000, 0x3000)]

def inRanges (ranges : List (Nat × Nat)) (c : Char) : Bool :=
  ranges.any fun r => r.1 ≤ c.toNat && c.toNat ≤ r.2

def isBlank (c : Char) : Bool := inRanges blankRanges c

def wordsOf : List Char → List (List Char)
  | [] => []
  | c :: rest =>
    if isBlank c then wordsOf rest
    else
      match rest with
      | [] => [[c]]
      | d :: _ =>
        if isBlank d then [c] :: wordsOf rest
        else
          match wordsOf rest with
          | [] => [[c]]
          | w :: ws => (c :: w) :: ws

def trimStartOf (cs : List Char) : List Char := cs.dropWhile isBlank

def trimEndOf (cs : List Char) : List Char := (cs.reverse.dropWhile isBlank).reverse

def trimOf (cs : List Char) : List Char := trimEndOf (trimStartOf cs)

def words (s : String) : List String := (wordsOf s.toList).map String.ofList

def trim (s : String) : String := String.ofList (trimOf s.toList)

def isBlankText (s : String) : Bool := s.toList.all isBlank

end WorldTriggers.Text
