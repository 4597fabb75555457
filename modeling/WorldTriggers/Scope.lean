import WorldTriggers.Identifier
import WorldTriggers.Json.Decode

namespace WorldTriggers

inductive Scope where
  | room (id : RoomId)
  | area (id : AreaId)
  deriving DecidableEq, Repr

namespace Scope

def rank : Scope → Nat
  | room _ => 0
  | area _ => 1

def id : Scope → String
  | room i => i
  | area i => i

instance : Ord Scope := ⟨compareLex (compareOn rank) (compareOn id)⟩

instance : Std.TransOrd Scope :=
  inferInstanceAs (Std.TransCmp (compareLex (compareOn rank) (compareOn id)))

instance : Std.LawfulEqOrd Scope where
  compare_self := compareLex_eq_eq.mpr ⟨Std.ReflOrd.compare_self, Std.ReflOrd.compare_self⟩
  eq_of_compare {a b} h := by
    obtain ⟨hr, hi⟩ := compareLex_eq_eq.mp h
    have hr := Std.LawfulEqCmp.eq_of_compare (show compare a.rank b.rank = .eq from hr)
    have hi := Std.LawfulEqCmp.eq_of_compare (show compare a.id b.id = .eq from hi)
    cases a <;> cases b <;> simp_all [rank, id]

def text : Scope → String
  | room i => "room:" ++ i
  | area i => "area:" ++ i

def splitColon : List Char → Option (List Char × List Char)
  | [] => none
  | c :: rest =>
    if c = ':' then some ([], rest)
    else (splitColon rest).map fun (before, after) => (c :: before, after)

def ofChars? (cs : List Char) : Option Scope :=
  match splitColon cs with
  | none => none
  | some (kind, i) =>
    if i.isEmpty then none
    else if kind = ['r', 'o', 'o', 'm'] then some (room (String.ofList i))
    else if kind = ['a', 'r', 'e', 'a'] then some (area (String.ofList i))
    else none

def ofText? (s : String) : Option Scope := ofChars? s.toList

def unknownText (s : String) : String :=
  "invalid scope key `" ++ s ++ "` (expected room:<id> or area:<id>)"

def ofOwners? : Option RoomId → Option AreaId → Option Scope
  | some r, none => some (room r)
  | none, some a => some (area a)
  | _, _ => none

def decode (v : Json) : Decoded Scope := do
  let f ← Fields.of "a scope" ["room", "area"] v
  f.entries.forM fun (k, v) =>
    if k = "room" || k = "area" then discard (Json.asOption Json.asString v)
    else throw (.unknownField k)
  let r ← f.defaulted "room" (Json.asOption Json.asString) none
  let a ← f.defaulted "area" (Json.asOption Json.asString) none
  f.finish
  match ofOwners? r a with
  | some s => pure s
  | none => throw .notOneOwner

def toJson : Scope → Json
  | room i => .object [("room", .string i)]
  | area i => .object [("area", .string i)]

end Scope

structure RuleRef where
  scope : Scope
  rule : RuleId
  deriving DecidableEq, Repr

namespace RuleRef

instance : Ord RuleRef := ⟨compareLex (compareOn scope) (compareOn rule)⟩

instance : Std.TransOrd RuleRef :=
  inferInstanceAs (Std.TransCmp (compareLex (compareOn scope) (compareOn rule)))

instance : Std.LawfulEqOrd RuleRef where
  compare_self := compareLex_eq_eq.mpr ⟨Std.ReflOrd.compare_self, Std.ReflOrd.compare_self⟩
  eq_of_compare {a b} h := by
    obtain ⟨hs, hr⟩ := compareLex_eq_eq.mp h
    have hs := Std.LawfulEqCmp.eq_of_compare (show compare a.scope b.scope = .eq from hs)
    have hr := Std.LawfulEqCmp.eq_of_compare (show compare a.rule b.rule = .eq from hr)
    cases a
    cases b
    simp_all

end RuleRef

end WorldTriggers
