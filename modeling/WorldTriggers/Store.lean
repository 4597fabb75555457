import WorldTriggers.Record

namespace WorldTriggers

structure RowKey where
  scope : String
  rule : RuleId
  deriving DecidableEq, Repr

namespace RowKey

instance : Ord RowKey := ⟨compareLex (compareOn scope) (compareOn rule)⟩

instance : Std.TransOrd RowKey :=
  inferInstanceAs (Std.TransCmp (compareLex (compareOn scope) (compareOn rule)))

instance : Std.LawfulEqOrd RowKey where
  compare_self := compareLex_eq_eq.mpr ⟨Std.ReflOrd.compare_self, Std.ReflOrd.compare_self⟩
  eq_of_compare {a b} h := by
    obtain ⟨hs, hr⟩ := compareLex_eq_eq.mp h
    have hs := Std.LawfulEqCmp.eq_of_compare (show compare a.scope b.scope = .eq from hs)
    have hr := Std.LawfulEqCmp.eq_of_compare (show compare a.rule b.rule = .eq from hr)
    cases a
    cases b
    simp_all

end RowKey

structure Row where
  fireCount : Int
  lastFired : Option Timestamp
  deriving DecidableEq, Repr

inductive RowFault where
  | badScope
  | countTooLarge (count : Int)
  | countTooSmall (count : Int)
  deriving DecidableEq, Repr

structure CorruptRow where
  key : RowKey
  fault : RowFault
  deriving DecidableEq, Repr

def RowFault.message (key : RowKey) : RowFault → String
  | badScope => Scope.unknownText key.scope
  | countTooLarge n =>
    "fire_count " ++ toString n ++ ": number too large to fit in target type"
  | countTooSmall n =>
    "fire_count " ++ toString n ++ ": number too small to fit in target type"

def CorruptRow.message (c : CorruptRow) : String :=
  "Corrupt rule state for " ++ c.key.scope ++ "/" ++ c.key.rule ++ ": " ++ c.fault.message c.key

namespace Row

def ofRecord (r : Record) : RowKey × Row := (⟨r.scope.text, r.rule⟩, ⟨r.fireCount, r.lastFired⟩)

def toRecord (key : RowKey) (row : Row) : Except CorruptRow Record :=
  match Scope.ofText? key.scope with
  | none => .error ⟨key, .badScope⟩
  | some scope =>
    if row.fireCount < 0 then .error ⟨key, .countTooSmall row.fireCount⟩
    else if Record.maxCount < row.fireCount then .error ⟨key, .countTooLarge row.fireCount⟩
    else .ok ⟨key.rule, scope, row.fireCount.toNat, row.lastFired⟩

end Row

structure Store where
  rows : SortedMap RowKey Row := .empty

namespace Store

def put (s : Store) (r : Record) : Store :=
  let (key, row) := Row.ofRecord r
  ⟨s.rows.insert key row⟩

def save (s : Store) (records : List Record) : Store := records.foldl put s

def insertRow? (s : Store) (key : RowKey) (row : Row) : Option Store :=
  if s.rows.contains key then none else some ⟨s.rows.insert key row⟩

def decodeRows (rows : List (RowKey × Row)) : Except CorruptRow (List Record) :=
  rows.mapM fun (key, row) => row.toRecord key

def isOf (scope : Scope) (key : RowKey) : Bool := key.scope == scope.text

def loadAll (s : Store) : Except CorruptRow (List Record) := decodeRows s.rows.entries

def loadScope (s : Store) (scope : Scope) : Except CorruptRow (List Record) :=
  decodeRows (s.rows.entries.filter fun e => isOf scope e.1)

def deleteScope (s : Store) (scope : Scope) : Nat × Store :=
  ((s.rows.entries.filter fun e => isOf scope e.1).length,
    ⟨s.rows.filter fun key _ => !isOf scope key⟩)

def toJson (s : Store) : Except CorruptRow Json :=
  s.loadAll.map fun records => .array (records.map Record.toJson)

def ofJson (v : Json) : Decoded Store := (v.asList Record.decode).map (save {})

end Store

end WorldTriggers
