import WorldTriggers.Decimal.Shortest
import WorldTriggers.Json.Basic
import WorldTriggers.Text.Quoted

/-!
Reading typed values from JSON. A record is written as an object or as the list of its fields in
declared order. The fields of an object are read in key order and the first bad one is reported;
missing fields are reported only when every present one was good.
-/

namespace WorldTriggers

inductive DecodeError where
  | wrongType (found : Json) (wanted : String)
  | tooLarge (n : Int) (wanted : String)
  | missingField (field : String)
  | unknownField (field : String)
  | unknownVariant (variant : String) (variants : List String)
  | notSingleKey
  | tooShort (length : Nat) (wanted : String)
  | tooLong (length : Nat)
  | notOneOwner
  | badTimestamp (text : String)
  deriving Repr

namespace DecodeError

def found : Json → String
  | .null => "null"
  | .bool true => "boolean `true`"
  | .bool false => "boolean `false`"
  | .int n => "integer `" ++ toString n ++ "`"
  | .float x => "floating point `" ++ Decimal.scientific x ++ "`"
  | .string s => "string " ++ Text.quoted s
  | .array _ => "sequence"
  | .object _ => "map"

def variantList (vs : List String) : String :=
  match vs with
  | [] => "there are no variants"
  | [v] => "expected `" ++ v ++ "`"
  | [v, w] => "expected `" ++ v ++ "` or `" ++ w ++ "`"
  | vs => "expected one of " ++ ", ".intercalate (vs.map fun v => "`" ++ v ++ "`")

def message : DecodeError → String
  | .wrongType v wanted => "invalid type: " ++ found v ++ ", expected " ++ wanted
  | .tooLarge n wanted => "invalid value: integer `" ++ toString n ++ "`, expected " ++ wanted
  | .missingField f => "missing field `" ++ f ++ "`"
  | .unknownField f => "unknown field `" ++ f ++ "`"
  | .unknownVariant v vs => "unknown variant `" ++ v ++ "`, " ++ variantList vs
  | .notSingleKey => "invalid value: map, expected map with a single key"
  | .tooShort n wanted => "invalid length " ++ toString n ++ ", expected " ++ wanted
  | .tooLong n => "invalid length " ++ toString n ++ ", expected fewer elements in array"
  | .notOneOwner => "scope must name exactly one of `room` or `area`"
  | .badTimestamp t => "not a timestamp: " ++ t

end DecodeError

abbrev Decoded (α : Type) := Except DecodeError α

theorem bind_eq_ok {x : Except ε α} {f : α → Except ε β} {b : β} :
    (x >>= f) = .ok b ↔ ∃ a, x = .ok a ∧ f a = .ok b := by
  cases x <;> simp [bind, Except.bind]

theorem map_eq_ok {x : Except ε α} {f : α → β} {b : β} :
    x.map f = .ok b ↔ ∃ a, x = .ok a ∧ f a = b := by
  cases x <;> simp [Except.map]

theorem mem_of_mapM_ok {f : α → Except ε β} {as : List α} {bs : List β}
    (h : as.mapM f = .ok bs) {b : β} (hb : b ∈ bs) : ∃ a ∈ as, f a = .ok b := by
  induction as generalizing bs with
  | nil =>
    simp only [List.mapM_nil] at h
    cases h
    simp at hb
  | cons a as ih =>
    rw [List.mapM_cons, bind_eq_ok] at h
    obtain ⟨c, hc, h⟩ := h
    rw [bind_eq_ok] at h
    obtain ⟨cs, hcs, h⟩ := h
    cases h
    rcases List.mem_cons.mp hb with rfl | hb
    · exact ⟨a, by simp, hc⟩
    · obtain ⟨d, hd, hf⟩ := ih hcs hb
      exact ⟨d, List.mem_cons_of_mem _ hd, hf⟩

theorem mem_of_lookup_eq_some [BEq κ] [LawfulBEq κ] {k : κ} {a : α} {es : List (κ × α)}
    (h : es.lookup k = some a) : (k, a) ∈ es := by
  induction es with
  | nil => simp at h
  | cons e rest ih =>
    obtain ⟨l, b⟩ := e
    rw [List.lookup_cons] at h
    split at h
    · simp_all
    · exact List.mem_cons_of_mem _ (ih h)

namespace Json

def asString : Json → Decoded String
  | .string s => .ok s
  | v => .error (.wrongType v "a string")

def asBool : Json → Decoded Bool
  | .bool b => .ok b
  | v => .error (.wrongType v "a boolean")

def asFloat (v : Json) : Decoded Float :=
  match v.number? with
  | some x => .ok x
  | none => .error (.wrongType v "f64")

def asIntIn (low high : Int) (wanted : String) : Json → Decoded Int
  | .int n => if low ≤ n ∧ n ≤ high then .ok n else .error (.tooLarge n wanted)
  | v => .error (.wrongType v wanted)

def asInt64 : Json → Decoded Int := asIntIn (Width.minInt 64) (Width.maxInt 64) "i64"

def asNat32 (v : Json) : Decoded Nat := (asIntIn 0 (Width.maxNat 32) "u32" v).map Int.toNat

def asList (element : Json → Decoded α) : Json → Decoded (List α)
  | .array items => items.mapM element
  | v => .error (.wrongType v "a sequence")

def asMap : Json → Decoded (SortedMap String Json)
  | .object fields => .ok (SortedMap.ofList fields)
  | v => .error (.wrongType v "a map")

def asOption (value : Json → Decoded α) : Json → Decoded (Option α)
  | .null => .ok none
  | v => (value v).map some

def isUnit (loose : Bool) : Json → Bool
  | .null => true
  | .object [] => loose
  | _ => false

/-- One of a list of names, given as a text or as the only key of an object. With `loose` the key's
value may also be an empty object. -/
def asVariant (loose : Bool) (variants : List (String × α)) (v : Json) : Decoded α :=
  match v with
  | .string s => named s
  | .object [(k, w)] => do
    let a ← named k
    if isUnit loose w then pure a else throw (.wrongType w "unit")
  | .object _ => .error .notSingleKey
  | v => .error (.wrongType v "string or map")
where
  named (s : String) : Decoded α :=
    match variants.lookup s with
    | some a => .ok a
    | none => .error (.unknownVariant s (variants.map (·.1)))

end Json

structure Fields where
  entries : List (String × Json)
  listed : Option Nat
  typeName : String
  arity : Nat

namespace Fields

def of (typeName : String) (names : List String) : Json → Decoded Fields
  | .object fields => .ok ⟨fields, none, typeName, names.length⟩
  | .array items => .ok ⟨names.zip items, some items.length, typeName, names.length⟩
  | v => .error (.wrongType v typeName)

def check (f : Fields) (reader : String → Option (Json → Decoded Unit)) : Decoded Unit :=
  f.entries.forM fun (k, v) =>
    match reader k with
    | some read => read v
    | none => .ok ()

def absent (f : Fields) (name : String) : DecodeError :=
  match f.listed with
  | none => .missingField name
  | some n => .tooShort n (f.typeName ++ " with " ++ toString f.arity ++ " elements")

def required (f : Fields) (name : String) (read : Json → Decoded α) : Decoded α :=
  match f.entries.lookup name with
  | some v => read v
  | none => .error (f.absent name)

def optional (f : Fields) (name : String) (read : Json → Decoded α) : Decoded (Option α) :=
  match f.entries.lookup name with
  | some v => Json.asOption read v
  | none => if f.listed.isSome then .error (f.absent name) else .ok none

def defaulted (f : Fields) (name : String) (read : Json → Decoded α) (a : α) : Decoded α :=
  match f.entries.lookup name with
  | some v => read v
  | none => .ok a

def finish (f : Fields) : Decoded Unit :=
  match f.listed with
  | some n => if f.arity < n then .error (.tooLong n) else .ok ()
  | none => .ok ()

end Fields

namespace Json

def untag (tag typeName : String) : Json → Decoded (Json × Json)
  | .object fields =>
    match fields.lookup tag with
    | some v => .ok (v, .object (fields.filter fun e => e.1 != tag))
    | none => .error (.missingField tag)
  | .array (v :: rest) => .ok (v, .array rest)
  | .array [] => .error (.missingField tag)
  | v => .error (.wrongType v typeName)

end Json

end WorldTriggers
