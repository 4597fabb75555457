import WorldTriggers.SortedMap
import WorldTriggers.Width

namespace WorldTriggers

inductive Json where
  | null
  | bool (b : Bool)
  | int (n : Int)
  | float (x : Float)
  | string (s : String)
  | array (items : List Json)
  | object (fields : List (String × Json))
  deriving Inhabited, Repr

namespace Json

def minInt : Int := Width.minInt 64

def maxInt : Int := Width.maxNat 64

mutual

/-- Structural equality. Floating point numbers compare as numbers, so both zeros are the same. -/
def same : Json → Json → Bool
  | .null, .null => true
  | .bool a, .bool b => a == b
  | .int a, .int b => a == b
  | .float a, .float b => a == b
  | .string a, .string b => a == b
  | .array as, .array bs => sameItems as bs
  | .object as, .object bs => sameFields as bs
  | _, _ => false

def sameItems : List Json → List Json → Bool
  | [], [] => true
  | a :: as, b :: bs => same a b && sameItems as bs
  | _, _ => false

def sameFields : List (String × Json) → List (String × Json) → Bool
  | [], [] => true
  | (k, a) :: as, (l, b) :: bs => k == l && same a b && sameFields as bs
  | _, _ => false

end

mutual

def height : Json → Nat
  | .array items => itemsHeight items + 1
  | .object fields => fieldsHeight fields + 1
  | _ => 0

def itemsHeight : List Json → Nat
  | [] => 0
  | v :: rest => max (height v) (itemsHeight rest)

def fieldsHeight : List (String × Json) → Nat
  | [] => 0
  | (_, v) :: rest => max (height v) (fieldsHeight rest)

end

theorem height_le_itemsHeight {v : Json} {items : List Json} (h : v ∈ items) :
    v.height ≤ itemsHeight items := by
  induction items with
  | nil => simp at h
  | cons w rest ih =>
    rcases List.mem_cons.mp h with rfl | h
    · exact Nat.le_max_left _ _
    · exact Nat.le_trans (ih h) (Nat.le_max_right _ _)

theorem height_le_fieldsHeight {k : String} {v : Json} {fields : List (String × Json)}
    (h : (k, v) ∈ fields) : v.height ≤ fieldsHeight fields := by
  induction fields with
  | nil => simp at h
  | cons w rest ih =>
    obtain ⟨l, w⟩ := w
    rcases List.mem_cons.mp h with heq | h
    · obtain ⟨rfl, rfl⟩ := Prod.mk.inj heq
      exact Nat.le_max_left _ _
    · exact Nat.le_trans (ih h) (Nat.le_max_right _ _)

theorem fieldsHeight_le {fields others : List (String × Json)} (h : ∀ e ∈ fields, e ∈ others) :
    fieldsHeight fields ≤ fieldsHeight others := by
  induction fields with
  | nil => exact Nat.zero_le _
  | cons e rest ih =>
    obtain ⟨k, v⟩ := e
    exact Nat.max_le.mpr ⟨height_le_fieldsHeight (h (k, v) (by simp)),
      ih fun e he => h e (List.mem_cons_of_mem _ he)⟩

/-- An object with its fields brought into order; of two fields with one key the last one counts. -/
def ofFields (fields : List (String × Json)) : Json :=
  .object (SortedMap.ofList fields).entries

def ofMap (m : SortedMap String Json) : Json := .object m.entries

def ofNat (n : Nat) : Json := .int n

def ofFloat (x : Float) : Json := if x.isFinite then .float x else .null

def ofOption (f : α → Json) : Option α → Json
  | some a => f a
  | none => .null

def field? (key : String) : Json → Option Json
  | .object fields => SortedMap.lookup key fields
  | _ => none

def number? : Json → Option Float
  | .int n => some (Float.ofInt n)
  | .float x => some x
  | _ => none

end Json

end WorldTriggers
