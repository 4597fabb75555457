namespace WorldTriggers.Yaml

def isBlank (c : Char) : Bool := c = ' ' || c = '\t'

def isBreak (c : Char) : Bool := c = '\n' || c = '\u2028' || c = '\u2029'

def endsWord : List Char → Bool
  | [] => true
  | c :: _ => isBlank c || isBreak c

def isFlowMark (c : Char) : Bool :=
  c = ',' || c = '[' || c = ']' || c = '\x7b' || c = '\x7d'

def isAllowed (c : Char) : Bool :=
  c = '\t' || c = '\n' || c = '\r' || (' ' ≤ c && c ≤ '~') || c = '\u0085' ||
    ('\u00a0' ≤ c && c ≠ '\ufffe' && c ≠ '\uffff')

def joinBreaks : List Char → List Char
  | [] => []
  | '\r' :: '\n' :: rest => '\n' :: joinBreaks rest
  | c :: rest => (if c = '\r' || c = '\u0085' then '\n' else c) :: joinBreaks rest

structure Cursor where
  rest : List Char
  line : Nat := 0
  column : Nat := 0
  deriving DecidableEq, Repr

namespace Cursor

def ofText (s : String) : Cursor := { rest := joinBreaks s.toList }

def skip (c : Cursor) (n : Nat) : Cursor := { c with rest := c.rest.drop n, column := c.column + n }

def atMarker (c : Cursor) (mark : Char) : Bool :=
  c.column = 0 && [mark, mark, mark].isPrefixOf c.rest && endsWord (c.rest.drop 3)

def atDocumentMarker (c : Cursor) : Bool := c.atMarker '-' || c.atMarker '.'

def toToken (flow keys comment : Bool) (line column : Nat) : List Char → Bool × Cursor
  | [] => (keys, ⟨[], line, column⟩)
  | c :: rest =>
    if isBreak c then toToken flow (keys || !flow) false (line + 1) 0 rest
    else if comment || c = ' ' || (c = '\t' && (flow || !keys)) || (c = '\ufeff' && column = 0) then
      toToken flow keys comment line (column + 1) rest
    else if c = '#' then toToken flow keys true line (column + 1) rest
    else (keys, ⟨c :: rest, line, column⟩)

end Cursor

inductive Gap where
  | blanks (cs : List Char)
  | breaks (cs : List Char)
  | escaped (cs : List Char)
  deriving DecidableEq, Repr

namespace Gap

def none : Gap := blanks []

def isBroken : Gap → Bool
  | blanks _ => false
  | breaks _ => true
  | escaped _ => true

def push (c : Char) : Gap → Gap
  | blanks cs => if isBreak c then breaks [c] else blanks (c :: cs)
  | breaks cs => if isBreak c then breaks (c :: cs) else breaks cs
  | escaped cs => if isBreak c then escaped (c :: cs) else escaped cs

def text : Gap → List Char
  | blanks cs => cs
  | breaks cs =>
    if cs = ['\n'] then [' '] else if cs.getLast? = some '\n' then cs.dropLast else cs
  | escaped cs => cs

end Gap

end WorldTriggers.Yaml
