import WorldTriggers.Event
import WorldTriggers.Proofs.Json.Edits

namespace WorldTriggers

open Relation

/-- What is read from a document of this shape is not changed by an edit, be it a value or an error. -/
def Indifferent (s : Shape) (read : Json → Decoded α) : Prop :=
  ∀ v w, Edit s v w → read w.inOrder = read v.inOrder

theorem forM_eq_ok_iff {f : α → Except ε Unit} {as : List α} :
    as.forM f = .ok () ↔ ∀ a ∈ as, f a = .ok () := by
  rw [List.forM_eq_forM]
  induction as with
  | nil => simp [pure, Except.pure]
  | cons a rest ih =>
    rw [List.forM_cons, bind_eq_ok, List.forall_mem_cons, ← ih]
    simp [Unique.exists_iff]

section Readers

variable {s : Shape} {known : List (String × Shape)} {read : Json → Decoded α} {v w : Json}

theorem Indifferent.edits (h : Indifferent s read) (hedits : ReflTransGen (Edit s) v w) :
    read w.inOrder = read v.inOrder := by
  induction hedits with
  | refl => rfl
  | tail _ hedit ih => exact (h _ _ hedit).trans ih

theorem Indifferent.data (read : Json → Decoded α) : Indifferent .data read :=
  fun _ _ hedit => congrArg read hedit.inOrder_eq

theorem Indifferent.of_mem_plain {names : List String} {e : String × Shape} (h : e ∈ Shape.plain names)
    (read : Json → Decoded α) : Indifferent e.2 read := by
  obtain ⟨_, -, rfl⟩ := List.mem_map.mp h
  exact .data read

theorem Indifferent.discard (h : Indifferent s read) :
    Indifferent s fun v => Functor.discard (read v) :=
  fun v w hedit => congrArg Functor.discard (h v w hedit)

theorem Edit.inOrder_ne_null (h : Edit s v w) : v.inOrder ≠ .null ∧ w.inOrder ≠ .null := by
  cases h <;> simp [Json.inOrder, Json.ofFields]

theorem Json.asOption_of_ne_null (hv : v ≠ .null) : Json.asOption read v = (read v).map some := by
  cases v <;> first | rfl | exact absurd rfl hv

theorem Indifferent.option (h : Indifferent s read) : Indifferent s (Json.asOption read) := by
  intro v w hedit
  obtain ⟨hv, hw⟩ := hedit.inOrder_ne_null
  rw [Json.asOption_of_ne_null hv, Json.asOption_of_ne_null hw, h v w hedit]

theorem Indifferent.list (h : Indifferent s read) : Indifferent (.list s) (Json.asList read) := by
  intro v w hedit
  cases hedit with
  | reorder hkeys hperm =>
    rw [Json.inOrder_object, Json.inOrder_object, Json.fieldMap_perm hkeys hperm]
  | add hknown => cases hknown
  | field hkeys hedit => rw [(Edit.field (s := .data) hkeys hedit).inOrder_eq]
  | item hedit =>
    rw [Json.inOrder_array, Json.inOrder_array, Json.asList, Json.asList]
    simp only [List.map_append, List.map_cons, List.mapM_append, List.mapM_cons, h _ _ hedit]

end Readers

section Records

variable {known : List (String × Shape)} {fields others : List (String × Json)} {name : String}
  {s : Shape} {read : Json → Decoded α}

def ReadAlike (known : List (String × Shape)) (fields others : List (String × Json)) : Prop :=
  ∀ ⦃α : Type⦄ ⦃name s⦄ ⦃read : Json → Decoded α⦄, known.lookup name = some s →
    Indifferent s read → (others.lookup name).map read = (fields.lookup name).map read

theorem FieldsEdit.readAlike (h : FieldsEdit known fields others) : ReadAlike known fields others := by
  intro α name s read hs hread
  have hname : name ∈ known.map Prod.fst := List.mem_map_of_mem (mem_of_lookup_eq_some hs)
  cases h with
  | same => rfl
  | @add _ key _ _ hunknown =>
    have hne : (name == key) = false := beq_false_of_ne fun he => hunknown (he ▸ hname)
    rw [List.lookup_append, List.lookup_append, List.lookup_cons, hne]
  | @field _ key v w _ t hlookup hedit =>
    rw [List.lookup_append, List.lookup_append, List.lookup_cons, List.lookup_cons]
    cases hkey : name == key with
    | false => rfl
    | true =>
      obtain rfl := beq_iff_eq.mp hkey
      obtain rfl := Option.some.inj (hs.symm.trans hlookup)
      rw [Option.map_or, Option.map_or, Option.map_some, Option.map_some, hread v w hedit]

theorem lookup_ofList (h : (fields.map Prod.fst).Nodup) (name : String) :
    (SortedMap.ofList fields).entries.lookup name = fields.lookup name := by
  rw [SortedMap.lookup_entries, SortedMap.get?_ofList h]

theorem readAlike_ofList (h : (fields.map Prod.fst).Nodup) :
    ReadAlike known fields (SortedMap.ofList fields).entries :=
  fun _ name _ read _ _ => congrArg (Option.map read) (lookup_ofList h name)

namespace ReadAlike

variable {typeName : String} {arity : Nat}

theorem required (h : ReadAlike known fields others) (name : String) (hs : known.lookup name = some s)
    (hread : Indifferent s read) :
    Fields.required ⟨others, none, typeName, arity⟩ name read =
      Fields.required ⟨fields, none, typeName, arity⟩ name read := by
  have hlookup := h hs hread
  unfold Fields.required
  dsimp only
  cases hf : fields.lookup name <;> cases ho : others.lookup name <;> simp_all [Fields.absent]

theorem defaulted (h : ReadAlike known fields others) (name : String)
    (hs : known.lookup name = some s) (hread : Indifferent s read) (a : α) :
    Fields.defaulted ⟨others, none, typeName, arity⟩ name read a =
      Fields.defaulted ⟨fields, none, typeName, arity⟩ name read a := by
  have hlookup := h hs hread
  unfold Fields.defaulted
  dsimp only
  cases hf : fields.lookup name <;> cases ho : others.lookup name <;> simp_all

theorem optional (h : ReadAlike known fields others) (name : String)
    (hs : known.lookup name = some s) (hread : Indifferent s read) :
    Fields.optional ⟨others, none, typeName, arity⟩ name read =
      Fields.optional ⟨fields, none, typeName, arity⟩ name read :=
  h.defaulted name hs hread.option none

theorem lookup_eq {names : List String} (h : ReadAlike (Shape.plain names) fields others)
    (hname : name ∈ names) : others.lookup name = fields.lookup name :=
  Option.map_injective (fun _ _ he => Except.ok.inj he)
    (h (Shape.lookup_plain hname) (.data (.ok : Json → Decoded Json)))

end ReadAlike

section Checks

variable {reader : String → Option (Json → Decoded Unit)} {typeName : String} {arity : Nat}

theorem FieldsEdit.check (h : FieldsEdit known fields others)
    (hunknown : ∀ key, key ∉ known.map Prod.fst → reader key = none)
    (hknown : ∀ e ∈ known, ∀ read, reader e.1 = some read → Indifferent e.2 read) :
    Fields.check ⟨others, none, typeName, arity⟩ reader =
      Fields.check ⟨fields, none, typeName, arity⟩ reader := by
  unfold Fields.check
  dsimp only
  rw [List.forM_eq_forM]
  cases h with
  | same => rfl
  | add hnew =>
    rw [List.forM_append, List.forM_append, List.forM_cons, hunknown _ hnew]
    rfl
  | @field before key v w after t hlookup hedit =>
    have hread (read) (hreader : reader key = some read) : read w.inOrder = read v.inOrder :=
      hknown _ (mem_of_lookup_eq_some hlookup) read hreader v w hedit
    rw [List.forM_append, List.forM_append, List.forM_cons, List.forM_cons]
    cases hreader : reader key with
    | none => rfl
    | some read =>
      dsimp only
      rw [hread read hreader]

theorem check_eq_ok_iff : Fields.check ⟨fields, none, typeName, arity⟩ reader = .ok () ↔
    ∀ e ∈ fields, ∀ read, reader e.1 = some read → read e.2 = .ok () := by
  refine forM_eq_ok_iff.trans (forall₂_congr fun e _ => ?_)
  cases hreader : reader e.1 <;> simp [hreader]

theorem check_ofList (h : Fields.check ⟨fields, none, typeName, arity⟩ reader = .ok ()) :
    Fields.check ⟨(SortedMap.ofList fields).entries, none, typeName, arity⟩ reader = .ok () :=
  check_eq_ok_iff.mpr fun e he => check_eq_ok_iff.mp h e (SortedMap.mem_ofList he)

end Checks

structure RecordReader (known : List (String × Shape)) (read : Json → Decoded α) : Prop where
  edits : ∀ {fields others}, FieldsEdit known fields others →
    read (.object others) = read (.object fields)
  sorts : ∀ {fields a}, (fields.map Prod.fst).Nodup → read (.object fields) = .ok a →
    read (.ofFields fields) = .ok a

namespace RecordReader

variable {typeName : String} {names : List String}
  {reader : String → Option (Json → Decoded Unit)} {rest : Fields → Decoded α}

theorem of_fields (hunknown : ∀ key, key ∉ known.map Prod.fst → reader key = none)
    (hknown : ∀ e ∈ known, ∀ read, reader e.1 = some read → Indifferent e.2 read)
    (hrest : ∀ fields others, ReadAlike known fields others →
      rest ⟨others, none, typeName, names.length⟩ = rest ⟨fields, none, typeName, names.length⟩) :
    RecordReader known fun v => Fields.of typeName names v >>= fun f =>
      f.check reader >>= fun _ => rest f where
  edits {fields others} h := by
    change (Fields.check _ reader >>= fun _ => rest _) = (Fields.check _ reader >>= fun _ => rest _)
    rw [h.check hunknown hknown, hrest _ _ h.readAlike]
  sorts {fields a} hkeys h := by
    -- The order decides which of several errors is found, so only a passed check stays the same.
    obtain ⟨f, hf, h⟩ := bind_eq_ok.mp h
    cases hf
    obtain ⟨⟨⟩, hcheck, hread⟩ := bind_eq_ok.mp h
    refine bind_eq_ok.mpr ⟨_, rfl, bind_eq_ok.mpr ⟨(), check_ofList hcheck, ?_⟩⟩
    rw [hrest _ _ (readAlike_ofList hkeys), hread]

theorem of_variant (hunknown : ∀ key, key ∉ known.map Prod.fst → reader key = none)
    (hknown : ∀ e ∈ known, ∀ read, reader e.1 = some read → Indifferent e.2 read)
    (hrest : ∀ fields others, ReadAlike known fields others →
      rest ⟨others, none, typeName, names.length⟩ = rest ⟨fields, none, typeName, names.length⟩) :
    RecordReader known fun v => Fields.ofVariant typeName names v reader >>= rest := by
  simpa only [Fields.ofVariant, bind_assoc, pure_bind] using of_fields hunknown hknown hrest

theorem of_plain {known : List String} (hunknown : ∀ key, key ∉ known → reader key = none)
    (hrest : ∀ fields others, (∀ name ∈ known, others.lookup name = fields.lookup name) →
      rest ⟨others, none, typeName, names.length⟩ = rest ⟨fields, none, typeName, names.length⟩) :
    RecordReader (Shape.plain known) fun v => Fields.of typeName names v >>= fun f =>
      f.check reader >>= fun _ => rest f :=
  of_fields (fun key hkey => hunknown key (by simpa [Shape.plain] using hkey))
    (fun _ he _ _ => .of_mem_plain he _)
    fun fields others h => hrest fields others fun _ hname => h.lookup_eq hname

theorem of_plain_variant {known : List String} (hunknown : ∀ key, key ∉ known → reader key = none)
    (hrest : ∀ fields others, (∀ name ∈ known, others.lookup name = fields.lookup name) →
      rest ⟨others, none, typeName, names.length⟩ = rest ⟨fields, none, typeName, names.length⟩) :
    RecordReader (Shape.plain known) fun v => Fields.ofVariant typeName names v reader >>= rest := by
  simpa only [Fields.ofVariant, bind_assoc, pure_bind] using of_plain hunknown hrest

theorem bind (h : RecordReader known read) (k : α → Decoded β) :
    RecordReader known fun v => read v >>= k where
  edits hedit := congrArg (· >>= k) (h.edits hedit)
  sorts hkeys hok := by
    obtain ⟨a, hread, hk⟩ := bind_eq_ok.mp hok
    exact bind_eq_ok.mpr ⟨a, h.sorts hkeys hread, hk⟩

theorem indifferent (h : RecordReader known read) : Indifferent (.record known) read := by
  intro v w hedit
  cases v with
  | object fields =>
    obtain ⟨others, hw, hfields⟩ := hedit.fieldsEdit rfl
    rw [hw, Json.inOrder_object, h.edits hfields]
  | array items =>
    cases hedit with
    | item hedit => rw [(Edit.item (s := .data) hedit).inOrder_eq]
  | _ => cases hedit

end RecordReader

end Records

section Tags

variable {known : List (String × Shape)} {fields others : List (String × Json)} {s : Shape}
  {tag : String} {variants : List (String × List (String × Shape))}

theorem FieldsEdit.untagged (h : FieldsEdit ((tag, .data) :: known) fields others) :
    others.lookup tag = fields.lookup tag ∧
      FieldsEdit known (fields.filter (·.1 != tag)) (others.filter (·.1 != tag)) := by
  constructor
  · have hlookup := h.readAlike (List.lookup_cons_self) (.data (.ok : Json → Decoded Json))
    exact Option.map_injective (fun _ _ he => Except.ok.inj he) hlookup
  · cases h with
    | same => exact .same
    | @add _ key _ _ hunknown =>
      obtain ⟨hne, hunknown⟩ : key ≠ tag ∧ key ∉ known.map Prod.fst := by simpa using hunknown
      rw [List.filter_append, List.filter_append, List.filter_cons_of_pos (by simpa using hne)]
      exact .add hunknown
    | @field _ key v w _ s hlookup hedit =>
      by_cases hkey : key = tag
      · -- The tag itself is data, and no edit of data is seen.
        subst hkey
        obtain rfl : Shape.data = s := by simpa using hlookup
        rw [hedit.inOrder_eq]
        exact .same
      · have hknown : known.lookup key = some s := by
          rwa [List.lookup_cons, beq_false_of_ne hkey] at hlookup
        rw [List.filter_append, List.filter_append, List.filter_cons_of_pos (by simpa using hkey),
          List.filter_cons_of_pos (by simpa using hkey)]
        exact .field hknown hedit

theorem lookup_filter_ne {key : String} (h : key ≠ tag) :
    (fields.filter (·.1 != tag)).lookup key = fields.lookup key := by
  induction fields with
  | nil => rfl
  | cons e rest ih =>
    rw [List.lookup_cons]
    by_cases he : e.1 = tag
    · rw [List.filter_cons_of_neg (by simpa using he), ih, beq_false_of_ne (he ▸ h)]
    · rw [List.filter_cons_of_pos (by simpa using he), List.lookup_cons, ih]

theorem untag_ofFields {v : Json} (h : (((tag, v) :: fields).map Prod.fst).Nodup) (typeName : String) :
    Json.untag tag typeName (.ofFields ((tag, v) :: fields)) = .ok (v, .ofFields fields) := by
  have hnone := SortedMap.get?_ofList_eq_none (List.nodup_cons.mp h).1
  obtain ⟨before, after, heq, hins⟩ := SortedMap.exists_entries_insert hnone
  have hkeep : ∀ e ∈ before ++ after, (e.1 != tag) = true := by
    intro e he
    rw [← heq] at he
    have hne : e.1 ≠ tag := fun htag =>
      (List.nodup_cons.mp h).1 (List.mem_map.mpr ⟨e, SortedMap.mem_ofList he, htag⟩)
    simpa using hne
  have hlookup : (SortedMap.ofList ((tag, v) :: fields)).entries.lookup tag = some v := by
    rw [lookup_ofList h, List.lookup_cons_self]
  simp only [Json.untag, Json.ofFields, hlookup]
  rw [SortedMap.ofList_cons h, hins, heq, List.filter_append, List.filter_cons_of_neg (by simp),
    ← List.filter_append, List.filter_eq_self.mpr hkeep]

theorem Edit.inOrder_eq_of_unknown {w : Json} (h : Edit s (.object fields) w)
    (hunknown : s.known? fields = none) : w.inOrder = (Json.object fields).inOrder := by
  cases h with
  | reorder hkeys hperm => exact (Edit.reorder (s := .data) hkeys hperm).inOrder_eq
  | add hknown => cases hunknown.symm.trans hknown
  | @field _ before key v w after hkeys hedit =>
    have hdata : s.field (before ++ (key, v) :: after) key = .data := by
      rw [Shape.field, hunknown, Option.bind_none, Option.getD_none]
    rw [hdata] at hedit
    exact (Edit.field (s := .data) hkeys hedit).inOrder_eq

theorem untag_object {v : Json} (h : (((tag, v) :: fields).map Prod.fst).Nodup) (typeName : String) :
    Json.untag tag typeName (.object ((tag, v) :: fields)) = .ok (v, .object fields) := by
  have hkeep : ∀ e ∈ fields, (e.1 != tag) = true := fun e he => bne_iff_ne.mpr fun htag =>
    (List.nodup_cons.mp h).1 (List.mem_map.mpr ⟨e, he, htag⟩)
  simp only [Json.untag, List.lookup_cons_self]
  rw [List.filter_cons_of_neg (by simp), List.filter_eq_self.mpr hkeep]

structure TaggedReader (tag : String) (variants : List (String × List (String × Shape)))
    (read : Json → Decoded α) : Prop where
  indifferent : Indifferent (.tagged tag variants) read
  sorts : ∀ {variant fields a}, variant ∈ variants.map Prod.fst →
    (((tag, .string variant) :: fields).map Prod.fst).Nodup →
    read (.object ((tag, .string variant) :: fields)) = .ok a →
    read (.ofFields ((tag, .string variant) :: fields)) = .ok a

theorem TaggedReader.of_untag {typeName : String} {read : Json → Decoded α}
    {body : Json × Json → Decoded α} (hread : ∀ v, read v = Json.untag tag typeName v >>= body)
    (h : ∀ e ∈ variants, RecordReader e.2 fun rest => body (.string e.1, rest)) :
    TaggedReader tag variants read where
  indifferent v w hedit := by
    cases v with
    | object fields =>
      cases hknown : (Shape.tagged tag variants).known? fields with
      | none => rw [hedit.inOrder_eq_of_unknown hknown]
      | some known =>
        obtain ⟨others, hw, hfields⟩ := hedit.fieldsEdit hknown
        simp only [Shape.known?] at hknown
        split at hknown
        · rename_i variant hvariant
          obtain ⟨rest, hrest, rfl⟩ := Option.map_eq_some_iff.mp hknown
          have htag : (Json.fieldMap fields).entries.lookup tag = some (.string variant) := by
            rw [SortedMap.lookup_entries, Json.get?_fieldMap hedit.nodup, hvariant]
            rfl
          obtain ⟨hlookup, huntagged⟩ := hfields.untagged
          rw [hw, Json.inOrder_object, hread, hread]
          simp only [Json.untag, hlookup, htag]
          exact (h _ (mem_of_lookup_eq_some hrest)).edits huntagged
        · cases hknown
    | array items =>
      cases hedit with
      | item hedit => rw [(Edit.item (s := .data) hedit).inOrder_eq]
    | _ => cases hedit
  sorts {variant fields a} hmem hkeys hok := by
    obtain ⟨e, he, rfl⟩ := List.mem_map.mp hmem
    rw [hread, untag_object hkeys] at hok
    rw [hread, untag_ofFields hkeys]
    exact (h e he).sorts (List.nodup_cons.mp hkeys).2 hok

end Tags

end WorldTriggers
