import Mathlib.Tactic
import WorldTriggers.Json.Decode

/-!
Edits of documents that make no difference to their readers. A document may have its fields in any order
and records may have more fields than are known. The shape of a document (`Shape`) says which of its
objects are records and which fields are known there; anywhere else an object is data, of which every
field counts.
-/

namespace WorldTriggers

namespace Json

mutual

/-- A value as it is read when it is written like this: with the fields of every object in order. -/
def inOrder : Json → Json
  | .array items => .array (itemsInOrder items)
  | .object fields => ofFields (fieldsInOrder fields)
  | v => v

def itemsInOrder : List Json → List Json
  | [] => []
  | v :: rest => inOrder v :: itemsInOrder rest

def fieldsInOrder : List (String × Json) → List (String × Json)
  | [] => []
  | (k, v) :: rest => (k, inOrder v) :: fieldsInOrder rest

end

theorem inOrder_array (items : List Json) : (array items).inOrder = .array (items.map inOrder) := by
  suffices itemsInOrder items = items.map inOrder by rw [inOrder, this]
  induction items with
  | nil => rfl
  | cons v rest ih => rw [itemsInOrder, ih, List.map_cons]

theorem fieldsInOrder_eq_map (fields : List (String × Json)) :
    fieldsInOrder fields = fields.map fun e => (e.1, e.2.inOrder) := by
  induction fields with
  | nil => rfl
  | cons e rest ih => rw [fieldsInOrder, ih, List.map_cons]

def fieldMap (fields : List (String × Json)) : SortedMap String Json :=
  .ofList (fields.map fun e => (e.1, e.2.inOrder))

theorem inOrder_object (fields : List (String × Json)) :
    (object fields).inOrder = .object (fieldMap fields).entries := by
  rw [inOrder, fieldsInOrder_eq_map, ofFields, fieldMap]

theorem inOrder_ofMap (m : SortedMap String Json) : (ofMap m).inOrder = ofMap (m.map inOrder) := by
  rw [ofMap, inOrder_object, fieldMap, ← SortedMap.map_ofList, SortedMap.ofList_entries, ofMap]

theorem inOrder_ofFields (fields : List (String × Json)) :
    (ofFields fields).inOrder = ofFields (fields.map fun e => (e.1, e.2.inOrder)) := by
  rw [ofFields, ← ofMap, inOrder_ofMap, SortedMap.map_ofList, ofMap, ofFields]

section Fields

variable {fields others before after : List (String × Json)} {key : String} {v w : Json}

theorem map_fst_inOrder (fields : List (String × Json)) :
    (fields.map fun e => (e.1, e.2.inOrder)).map Prod.fst = fields.map Prod.fst := by
  rw [List.map_map]
  rfl

theorem fieldMap_perm (h : (fields.map Prod.fst).Nodup) (hperm : fields.Perm others) :
    fieldMap fields = fieldMap others :=
  SortedMap.ofList_perm (by rwa [map_fst_inOrder]) (hperm.map _)

theorem fieldMap_cons (h : (((key, v) :: fields).map Prod.fst).Nodup) :
    fieldMap ((key, v) :: fields) = (fieldMap fields).insert key v.inOrder :=
  SortedMap.ofList_cons (by rwa [← List.map_cons (f := fun e : String × Json => (e.1, e.2.inOrder)),
    map_fst_inOrder])

theorem get?_fieldMap (h : (fields.map Prod.fst).Nodup) (key : String) :
    (fieldMap fields).get? key = (fields.lookup key).map inOrder := by
  rw [fieldMap, SortedMap.get?_ofList (by rwa [map_fst_inOrder])]
  clear h
  induction fields with
  | nil => rfl
  | cons e rest ih =>
    rw [List.map_cons, List.lookup_cons, List.lookup_cons, ih]
    cases key == e.1 <;> rfl

theorem get?_fieldMap_of_not_mem (h : key ∉ fields.map Prod.fst) :
    (fieldMap fields).get? key = none :=
  SortedMap.get?_ofList_eq_none (by rwa [map_fst_inOrder])

end Fields

end Json

/-- What a reader looks for in a document: nothing in particular, or records of known fields. -/
inductive Shape where
  | data
  | list (item : Shape)
  | record (fields : List (String × Shape))
  | tagged (tag : String) (variants : List (String × List (String × Shape)))

namespace Shape

def known? (fields : List (String × Json)) : Shape → Option (List (String × Shape))
  | record known => some known
  | tagged tag variants =>
    match fields.lookup tag with
    | some (.string variant) => (variants.lookup variant).map ((tag, data) :: ·)
    | _ => none
  | _ => none

def field (fields : List (String × Json)) (key : String) (s : Shape) : Shape :=
  ((s.known? fields).bind (·.lookup key)).getD data

def item : Shape → Shape
  | list s => s
  | _ => data

def plain (names : List String) : List (String × Shape) := names.map fun name => (name, data)

theorem lookup_plain {names : List String} {name : String} (h : name ∈ names) :
    (plain names).lookup name = some data := by
  induction names with
  | nil => cases h
  | cons n rest ih =>
    rw [plain, List.map_cons, List.lookup_cons]
    cases hn : name == n with
    | true => rfl
    | false => exact ih ((List.mem_cons.mp h).resolve_left fun he => by simp [he] at hn)

end Shape

/-- One edit of a document: an object has its fields in another order, or a record has one more field,
of a name that is not known there. -/
inductive Edit : Shape → Json → Json → Prop
  | reorder {s fields others} : (fields.map Prod.fst).Nodup → fields.Perm others →
      Edit s (.object fields) (.object others)
  | add {s fields known key v} : s.known? fields = some known → key ∉ known.map Prod.fst →
      (((key, v) :: fields).map Prod.fst).Nodup →
      Edit s (.object fields) (.object ((key, v) :: fields))
  | field {s before key v w after} : ((before ++ (key, v) :: after).map Prod.fst).Nodup →
      Edit (s.field (before ++ (key, v) :: after) key) v w →
      Edit s (.object (before ++ (key, v) :: after)) (.object (before ++ (key, w) :: after))
  | item {s before v w after} : Edit s.item v w →
      Edit s (.array (before ++ v :: after)) (.array (before ++ w :: after))

section Reading

variable {s : Shape} {fields : List (String × Json)} {known : List (String × Shape)} {v w : Json}

theorem Edit.inOrder_eq (h : Edit .data v w) : w.inOrder = v.inOrder := by
  generalize hs : Shape.data = s at h
  induction h with
  | reorder hkeys hperm => rw [Json.inOrder_object, Json.inOrder_object, Json.fieldMap_perm hkeys hperm]
  | add hknown =>
    subst hs
    cases hknown
  | field hkeys _ ih =>
    subst hs
    rw [Json.inOrder_object, Json.inOrder_object, Json.fieldMap, Json.fieldMap, List.map_append,
      List.map_append, List.map_cons, List.map_cons, ih rfl]
  | item _ ih =>
    subst hs
    rw [Json.inOrder_array, Json.inOrder_array, List.map_append, List.map_append, List.map_cons,
      List.map_cons, ih rfl]

theorem Edit.nodup (h : Edit s (.object fields) w) : (fields.map Prod.fst).Nodup := by
  cases h with
  | reorder hkeys => exact hkeys
  | add _ _ hkeys => exact (List.nodup_cons.mp hkeys).2
  | field hkeys => exact hkeys

inductive FieldsEdit (known : List (String × Shape)) :
    List (String × Json) → List (String × Json) → Prop
  | same {fs} : FieldsEdit known fs fs
  | add {before key v after} : key ∉ known.map Prod.fst →
      FieldsEdit known (before ++ after) (before ++ (key, v) :: after)
  | field {before key v w after s} : known.lookup key = some s → Edit s v w →
      FieldsEdit known (before ++ (key, v.inOrder) :: after) (before ++ (key, w.inOrder) :: after)

theorem Edit.fieldsEdit (h : Edit s (.object fields) w) (hknown : s.known? fields = some known) :
    ∃ others, w.inOrder = .object others ∧ FieldsEdit known (Json.fieldMap fields).entries others := by
  cases h with
  | reorder hkeys hperm =>
    refine ⟨_, Json.inOrder_object _, ?_⟩
    rw [← Json.fieldMap_perm hkeys hperm]
    exact .same
  | @add _ _ known' key v hknown' hunknown hkeys =>
    obtain rfl := Option.some.inj (hknown.symm.trans hknown')
    refine ⟨_, Json.inOrder_object _, ?_⟩
    have hnone := Json.get?_fieldMap_of_not_mem (List.nodup_cons.mp hkeys).1
    obtain ⟨before, after, heq, hins⟩ := SortedMap.exists_entries_insert hnone
    rw [Json.fieldMap_cons hkeys, heq, hins]
    exact .add hunknown
  | @field _ before key v w after hkeys hedit =>
    refine ⟨_, Json.inOrder_object _, ?_⟩
    have hperm (v : Json) : (before ++ (key, v) :: after).Perm ((key, v) :: (before ++ after)) :=
      List.perm_middle
    have hkeys' : ((before ++ (key, w) :: after).map Prod.fst).Nodup := by simpa using hkeys
    have hcons := ((hperm v).map Prod.fst).nodup_iff.mp hkeys
    have hcons' := ((hperm w).map Prod.fst).nodup_iff.mp hkeys'
    -- The place of a field among the others does not depend on what stands in it.
    have hnone := Json.get?_fieldMap_of_not_mem (List.nodup_cons.mp hcons).1
    obtain ⟨left, right, -, hins⟩ := SortedMap.exists_entries_insert hnone
    rw [Json.fieldMap_perm hkeys (hperm v), Json.fieldMap_perm hkeys' (hperm w),
      Json.fieldMap_cons hcons, Json.fieldMap_cons hcons', hins, hins]
    cases hlookup : known.lookup key with
    | none =>
      have hdata : s.field (before ++ (key, v) :: after) key = .data := by
        simp [Shape.field, hknown, hlookup]
      rw [hdata] at hedit
      rw [hedit.inOrder_eq]
      exact .same
    | some t =>
      have hfield : s.field (before ++ (key, v) :: after) key = t := by
        simp [Shape.field, hknown, hlookup]
      rw [hfield] at hedit
      exact .field hlookup hedit

end Reading

end WorldTriggers
