import WorldTriggers.Condition.Error
import WorldTriggers.Rule

namespace WorldTriggers

def compositeKinds : List String := ["all", "any", "not"]

inductive Guard where
  | group (condition : Condition) (members : List Guard)
  | single (condition : Condition) (why : ConditionError)

def Condition.height (c : Condition) : Nat := Json.fieldsHeight c.params.entries

def Condition.members (c : Condition) : Except ConditionError (List Condition) :=
  match c.params.get? "conditions" with
  | none => .error (.param (.missing "conditions"))
  | some v => (Json.asList Condition.decode v).mapError ConditionError.nested

theorem Condition.height_lt_of_decode {v : Json} {c : Condition} (h : decode v = .ok c) :
    c.height < v.height := by
  unfold decode at h
  simp only [bind_eq_ok] at h
  obtain ⟨f, hf, -, -, kind, -, params, hp, negate, -, -, -, hc⟩ := h
  cases hc
  have hentries : ∀ e ∈ f.entries, e.2.height < v.height := by
    intro e he
    unfold Fields.of at hf
    split at hf <;> cases hf
    · exact Nat.lt_succ_of_le (Json.height_le_fieldsHeight (k := e.1) he)
    · exact Nat.lt_succ_of_le (Json.height_le_itemsHeight (List.of_mem_zip he).2)
  have hpos : 0 < v.height := by
    unfold Fields.of at hf
    split at hf
    · exact Nat.succ_pos _
    · exact Nat.succ_pos _
    · cases hf
  unfold Fields.defaulted at hp
  split at hp
  · rename_i w hw
    have hlt := hentries _ (mem_of_lookup_eq_some hw)
    unfold Json.asMap at hp
    split at hp <;> cases hp
    rename_i fields
    have : Json.fieldsHeight (SortedMap.ofList fields).entries ≤ Json.fieldsHeight fields :=
      Json.fieldsHeight_le fun e he => SortedMap.mem_ofList he
    exact Nat.lt_trans (Nat.lt_succ_of_le this) hlt
  · cases hp
    exact hpos

theorem Condition.height_lt_of_members {c d : Condition} {ds : List Condition}
    (h : c.members = .ok ds) (hd : d ∈ ds) : d.height < c.height := by
  unfold members at h
  split at h
  · cases h
  · rename_i v hv
    cases hl : Json.asList decode v with
    | error e =>
      rw [hl] at h
      exact nomatch (show Except.error (ConditionError.nested e) = Except.ok ds from h)
    | ok es =>
      rw [hl] at h
      obtain rfl := Except.ok.inj (show Except.ok es = Except.ok ds from h)
      have hv := Json.height_le_fieldsHeight (SortedMap.get?_eq_some_iff.mp hv)
      unfold Json.asList at hl
      split at hl
      · rename_i items
        obtain ⟨w, hw, hdec⟩ := mem_of_mapM_ok hl hd
        have h1 := height_lt_of_decode hdec
        have h2 := Json.height_le_itemsHeight hw
        simp only [Json.height] at hv
        unfold Condition.height at h1 ⊢
        omega
      · cases hl

namespace Guard

def ofCondition (c : Condition) : Guard :=
  match _h : c.members with
  | .ok ds => .group c (ds.attach.map fun d => ofCondition d.1)
  | .error e => .single c e
termination_by c.height
decreasing_by exact Condition.height_lt_of_members _h d.2

def condition : Guard → Condition
  | group c _ => c
  | single c _ => c

theorem ofCondition_eq (c : Condition) :
    ofCondition c =
      match c.members with
      | .ok ds => .group c (ds.map ofCondition)
      | .error e => .single c e := by
  rw [ofCondition]
  split <;> simp_all

mutual

def validate : Guard → Except ConditionError Unit
  | group c members => if compositeKinds.contains c.kind then validateAll members else .ok ()
  | single c why => if compositeKinds.contains c.kind then .error why else .ok ()

def validateAll : List Guard → Except ConditionError Unit
  | [] => .ok ()
  | g :: rest => do
    validate g
    validateAll rest

end

end Guard

def Condition.validate (cs : List Condition) : Except ConditionError Unit :=
  Guard.validateAll (cs.map Guard.ofCondition)

end WorldTriggers
