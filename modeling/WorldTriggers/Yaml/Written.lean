import WorldTriggers.Json.Reader
import WorldTriggers.Yaml.Cursor

namespace WorldTriggers.Yaml

def plainText (flow : Bool) (floor : Nat) (seen : List Char) (gap : Gap) (line column : Nat) :
    List Char → Option (List Char × Bool × Cursor)
  | [] => some (seen, gap.isBroken, ⟨[], line, column⟩)
  | c :: rest =>
    let stop := some (seen, gap.isBroken, ⟨c :: rest, line, column⟩)
    if isBreak c then plainText flow floor seen (gap.push c) (line + 1) 0 rest
    else if isBlank c then
      if c = '\t' && gap.isBroken && column < floor then none
      else plainText flow floor seen (gap.push c) line (column + 1) rest
    else if gap.isBroken &&
        ((!flow && column < floor) || Cursor.atDocumentMarker ⟨c :: rest, line, column⟩) then stop
    else if c = '#' && gap != .none then stop
    else if flow && c = ':' && rest.head?.any (fun d => isFlowMark d || d = '?') then none
    else if (c = ':' && endsWord rest) || (flow && isFlowMark c) then stop
    else plainText flow floor (c :: (gap.text ++ seen)) .none line (column + 1) rest

def singleQuoted (seen : List Char) (gap : Gap) (line column : Nat) :
    List Char → Option (List Char × Cursor)
  | [] => none
  | c :: rest =>
    if isBreak c then singleQuoted seen (gap.push c) (line + 1) 0 rest
    else if isBlank c then singleQuoted seen (gap.push c) line (column + 1) rest
    else if Cursor.atDocumentMarker ⟨c :: rest, line, column⟩ then none
    else if c = '\'' then
      match rest with
      | '\'' :: rest => singleQuoted ('\'' :: (gap.text ++ seen)) .none line (column + 2) rest
      | rest => some (gap.text ++ seen, ⟨rest, line, column + 1⟩)
    else singleQuoted (c :: (gap.text ++ seen)) .none line (column + 1) rest

def escape? (c : Char) : Option Char :=
  [('0', '\x00'), ('a', '\x07'), ('b', '\x08'), ('t', '\t'), ('\t', '\t'), ('n', '\n'),
    ('v', '\x0b'), ('f', '\x0c'), ('r', '\r'), ('e', '\x1b'), (' ', ' '), ('"', '"'), ('/', '/'),
    ('\\', '\\'), ('N', '\u0085'), ('_', '\u00a0'), ('L', '\u2028'), ('P', '\u2029')].lookup c

def escapeWidth? (c : Char) : Option Nat := [('x', 2), ('u', 4), ('U', 8)].lookup c

def escaped? (c : Char) (rest : List Char) : Option (Char × Nat) :=
  match escape? c with
  | some d => some (d, 1)
  | none =>
    match escapeWidth? c with
    | none => none
    | some width =>
      match Json.hexNumber? (rest.take width) with
      | none => none
      | some n =>
        if width ≤ rest.length && n.isValidChar then some (Char.ofNat n, width + 1) else none

def doubleQuoted (seen : List Char) (gap : Gap) (line column : Nat) :
    List Char → Option (List Char × Cursor)
  | [] => none
  | c :: rest =>
    if isBreak c then doubleQuoted seen (gap.push c) (line + 1) 0 rest
    else if isBlank c then doubleQuoted seen (gap.push c) line (column + 1) rest
    else if Cursor.atDocumentMarker ⟨c :: rest, line, column⟩ then none
    else if c = '"' then some (gap.text ++ seen, ⟨rest, line, column + 1⟩)
    else if c = '\\' then
      match rest with
      | [] => none
      | d :: rest =>
        if isBreak d then doubleQuoted (gap.text ++ seen) (.escaped []) (line + 1) 0 rest
        else
          match escaped? d rest with
          | none => none
          | some (e, width) =>
            doubleQuoted (e :: (gap.text ++ seen)) .none line (column + 1 + width)
              (rest.drop (width - 1))
    else doubleQuoted (c :: (gap.text ++ seen)) .none line (column + 1) rest
termination_by cs => cs.length

end WorldTriggers.Yaml
