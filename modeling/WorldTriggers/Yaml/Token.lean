import WorldTriggers.Yaml.Written

/-!
Documents as tokens: scalars, the marks of flow collections, and for block collections what their
columns say about where they start and end. A colon behind a scalar or a flow collection makes a key
of it, so the place where a key may start is kept until the next token that rules it out. A key stands
on one line and has no more than 1024 characters. Anchors, tags, block scalars and directives are not
understood.
-/

namespace WorldTriggers.Yaml

inductive Token where
  | scalar (text : String) (plain : Bool)
  | documentStart
  | documentEnd
  | startSequence
  | startMapping
  | endBlock
  | openSequence
  | closeSequence
  | openMapping
  | closeMapping
  | comma
  | dash
  | key
  | value
  deriving DecidableEq, Repr

structure KeyStart where
  position : Nat
  line : Nat
  column : Nat
  required : Bool

def KeyStart.isPast (k : KeyStart) (c : Cursor) : Bool :=
  k.line < c.line || k.column + 1024 < c.column

structure Scan where
  cursor : Cursor
  tokens : Array Token := #[]
  columns : List Nat := []
  keyStart : Option KeyStart := none
  outer : List (Option KeyStart) := []
  keyAllowed : Bool := true

namespace Scan

def inFlow (s : Scan) : Bool := !s.outer.isEmpty

def floor (s : Scan) : Nat :=
  match s.columns with
  | [] => 0
  | column :: _ => column + 1

def push (s : Scan) (t : Token) (n : Nat) : Scan :=
  { s with tokens := s.tokens.push t, cursor := s.cursor.skip n }

def insert (s : Scan) (position : Nat) (t : Token) : Scan :=
  { s with tokens := s.tokens.insertIdxIfInBounds position t }

def startBlock (s : Scan) (column position : Nat) (t : Token) : Scan :=
  if s.inFlow || column < s.floor then s
  else { s.insert position t with columns := column :: s.columns }

def endBlocks (s : Scan) (column : Int) : Scan :=
  if s.inFlow then s
  else
    let ended := s.columns.takeWhile fun (c : Nat) => column < c
    { s with
      columns := s.columns.drop ended.length
      tokens := s.tokens ++ Array.replicate ended.length .endBlock }

def dropKey (s : Scan) : Option Scan :=
  match s.keyStart with
  | some k => if k.required then none else some { s with keyStart := none }
  | none => some s

def keepKey (s : Scan) : Option Scan :=
  if !s.keyAllowed then some s
  else
    s.dropKey.map fun s =>
      let required := !s.inFlow && s.columns.head? = some s.cursor.column
      { s with keyStart := some ⟨s.tokens.size, s.cursor.line, s.cursor.column, required⟩ }

def dropPastKeys (s : Scan) : Option Scan :=
  let isPast := fun k => KeyStart.isPast k s.cursor
  if (s.keyStart :: s.outer).any fun k => k.any fun k => isPast k && k.required then none
  else
    let keep := fun k => Option.filter (fun k => !isPast k) k
    some { s with keyStart := keep s.keyStart, outer := s.outer.map keep }

def toToken (s : Scan) : Scan :=
  let (keyAllowed, cursor) :=
    s.cursor.rest |> Cursor.toToken s.inFlow s.keyAllowed false s.cursor.line s.cursor.column
  { s with keyAllowed, cursor }

def marker (s : Scan) (t : Token) : Option Scan :=
  (s.endBlocks (-1)).dropKey.map fun s => { s.push t 3 with keyAllowed := false }

def openFlow (s : Scan) (t : Token) : Option Scan :=
  s.keepKey.map fun s =>
    { s.push t 1 with outer := s.keyStart :: s.outer, keyStart := none, keyAllowed := true }

def closeFlow (s : Scan) (t : Token) : Option Scan :=
  s.dropKey.map fun s =>
    let s := { s.push t 1 with keyAllowed := false }
    match s.outer with
    | [] => s
    | k :: outer => { s with keyStart := k, outer }

def comma (s : Scan) : Option Scan :=
  s.dropKey.map fun s => { s.push .comma 1 with keyAllowed := true }

def blockMark (s : Scan) (collection : Token) : Option Scan :=
  if s.inFlow then some s
  else if !s.keyAllowed then none
  else some (s.startBlock s.cursor.column s.tokens.size collection)

def dash (s : Scan) : Option Scan :=
  ((s.blockMark .startSequence).bind dropKey).map fun s =>
    { s.push .dash 1 with keyAllowed := true }

def questionMark (s : Scan) : Option Scan :=
  ((s.blockMark .startMapping).bind dropKey).map fun s =>
    { s.push .key 1 with keyAllowed := !s.inFlow }

def colon (s : Scan) : Option Scan :=
  match s.keyStart with
  | some k =>
    let s := (s.insert k.position .key).startBlock k.column k.position .startMapping
    some { s.push .value 1 with keyStart := none, keyAllowed := false }
  | none => (s.blockMark .startMapping).map fun s => { s.push .value 1 with keyAllowed := !s.inFlow }

def addScalar (s : Scan) (text : List Char) (plain : Bool) (cursor : Cursor) (keyAllowed : Bool) :
    Scan :=
  { s with tokens := s.tokens.push (.scalar (String.ofList text.reverse) plain), cursor, keyAllowed }

def quoted (s : Scan)
    (read : List Char → Gap → Nat → Nat → List Char → Option (List Char × Cursor)) : Option Scan :=
  s.keepKey.bind fun s =>
    let c := s.cursor.skip 1
    (read [] .none c.line c.column c.rest).map fun (text, c) => s.addScalar text false c false

def plain (s : Scan) : Option Scan :=
  s.keepKey.bind fun s =>
    let c := s.cursor
    (plainText s.inFlow s.floor [] .none c.line c.column c.rest).map fun (text, broken, c) =>
      s.addScalar text true c broken

def token (s : Scan) : Option Scan :=
  match s.cursor.rest with
  | [] => none
  | c :: rest =>
    if s.cursor.atMarker '-' then s.marker .documentStart
    else if s.cursor.atMarker '.' then s.marker .documentEnd
    else if c = '[' then s.openFlow .openSequence
    else if c = '\x7b' then s.openFlow .openMapping
    else if c = ']' then s.closeFlow .closeSequence
    else if c = '\x7d' then s.closeFlow .closeMapping
    else if c = ',' then s.comma
    else if c = '-' && endsWord rest then s.dash
    else if c = '?' && (s.inFlow || endsWord rest) then s.questionMark
    else if c = ':' && (s.inFlow || endsWord rest) then s.colon
    else if c = '\'' then s.quoted singleQuoted
    else if c = '"' then s.quoted doubleQuoted
    else if isBlank c || ['#', '&', '*', '!', '|', '>', '%', '@', '\x60'].contains c then none
    else s.plain

def run : Nat → Scan → Option (Array Token)
  | 0, _ => none
  | rounds + 1, s =>
    match s.toToken.dropPastKeys with
    | none => none
    | some s =>
      if s.cursor.rest.isEmpty then (s.endBlocks (-1)).dropKey.map (·.tokens)
      else
        match (s.endBlocks s.cursor.column).token with
        | none => none
        | some s => run rounds s

end Scan

def Token.scan? (s : String) : Option (List Token) :=
  if s.toList.all isAllowed then
    let c := Cursor.ofText s
    (Scan.run (c.rest.length + 1) { cursor := c }).map Array.toList
  else none

end WorldTriggers.Yaml
