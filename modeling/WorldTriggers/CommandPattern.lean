import WorldTriggers.Text.Lowercase
import WorldTriggers.Text.Parts

/-!
Patterns of commands. Both the pattern and the typed text are brought into a normal form, lowercase
words with one space between them; a star in a pattern stands for any run of characters.
-/

namespace WorldTriggers

namespace Text

def normalizeOf (cs : List Char) : List Char := joinWith [' '] ((wordsOf cs).map lowercaseOf)

def normalize (s : String) : String := String.ofList (normalizeOf s.toList)

end Text

inductive CommandPattern where
  | exact (literal : List Char)
  | leading (literal : List Char)
  | glob (segments : List (List Char))
  deriving DecidableEq, Repr

namespace CommandPattern

def ofNormal (cs : List Char) : CommandPattern :=
  match Text.splitAll '*' cs with
  | [literal] => exact literal
  | [literal, []] => leading literal
  | segments => glob segments

def ofText (s : String) : CommandPattern := ofNormal (Text.normalizeOf s.toList)

def afterFirst? (literal : List Char) : List Char → Option (List Char)
  | [] => if literal.isEmpty then some [] else none
  | c :: rest =>
    if literal.isPrefixOf (c :: rest) then some ((c :: rest).drop literal.length)
    else afterFirst? literal rest

/-- Whether the text is made of the segments in order with anything between them, the last one at the
end. Taking the earliest place for each segment loses no match. -/
def matchSegments : List (List Char) → List Char → Bool
  | [], cs => cs.isEmpty
  | [last], cs => last.isSuffixOf cs
  | s :: rest, cs =>
    match afterFirst? s cs with
    | some cs => matchSegments rest cs
    | none => false

def matchesNormal (p : CommandPattern) (cs : List Char) : Bool :=
  match p with
  | exact literal => cs == literal
  | leading literal => literal.isPrefixOf cs
  | glob [] => false
  | glob (first :: rest) => first.isPrefixOf cs && matchSegments rest (cs.drop first.length)

def isMatch (p : CommandPattern) (s : String) : Bool := p.matchesNormal (Text.normalizeOf s.toList)

def display : CommandPattern → List Char
  | exact literal => literal
  | leading literal => literal ++ ['*']
  | glob segments => Text.joinWith ['*'] segments

def text (p : CommandPattern) : String := String.ofList p.display

end CommandPattern

end WorldTriggers
