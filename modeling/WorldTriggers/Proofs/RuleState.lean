import Mathlib.Tactic
import WorldTriggers.Rule
import WorldTriggers.RuleState

namespace WorldTriggers

namespace RuleState

theorem isExhausted_eq_true_iff {s : RuleState} {limit : Option Nat} :
    s.isExhausted limit = true ↔ ∃ n, limit = some n ∧ n ≤ s.fireCount := by
  cases limit <;> simp [isExhausted]

theorem isExhausted_recordFiring {s : RuleState} {key : CooldownKey} {now : Instant} {r : Rule}
    (h : s.isExhausted r.fireLimit? = true) :
    (s.recordFiring key now).isExhausted r.fireLimit? = true := by
  obtain ⟨n, hn, hle⟩ := isExhausted_eq_true_iff.mp h
  refine isExhausted_eq_true_iff.mpr ⟨n, hn, ?_⟩
  have hmax : n ≤ Record.maxCount := by
    unfold Rule.fireLimit? at hn
    split at hn
    · cases hn
    · cases hn
      exact Nat.min_le_right _ _
  simp only [recordFiring]
  omega

end RuleState

namespace RuleStates

variable (s : RuleStates) (ref : RuleRef)

theorem get?_update (f : RuleState → RuleState) (k : RuleRef) :
    (s.update ref f).get? k = if k = ref then some (f (s.stateOf ref)) else s.get? k :=
  SortedMap.get?_insert s ref k _

theorem stateOf_insert (v : RuleState) (k : RuleRef) :
    RuleStates.stateOf (s.insert ref v) k = if k = ref then v else s.stateOf k := by
  unfold stateOf
  rw [SortedMap.get?_insert]
  split <;> rfl

theorem stateOf_update (f : RuleState → RuleState) (k : RuleRef) :
    (s.update ref f).stateOf k = if k = ref then f (s.stateOf ref) else s.stateOf k :=
  stateOf_insert s ref _ k

@[simp] theorem stateOf_update_self (f : RuleState → RuleState) :
    (s.update ref f).stateOf ref = f (s.stateOf ref) := by
  simp [stateOf_update]

theorem stateOf_update_of_ne {ref k : RuleRef} (f : RuleState → RuleState) (h : k ≠ ref) :
    (s.update ref f).stateOf k = s.stateOf k := by
  simp [stateOf_update, h]

variable {s ref}

theorem stateOf_of_get? {v : RuleState} (h : s.get? ref = some v) : s.stateOf ref = v := by
  simp [stateOf, h]

theorem stateOf_of_get?_none (h : s.get? ref = none) : s.stateOf ref = {} := by
  simp [stateOf, h]

theorem get?_of_timer {h : Handle} (ht : (s.stateOf ref).timer = some h) :
    s.get? ref = some (s.stateOf ref) := by
  cases hs : s.get? ref with
  | none => simp [stateOf_of_get?_none hs] at ht
  | some v => rw [stateOf_of_get? hs]

theorem get?_withoutScope (s : RuleStates) (scope : Scope) (ref : RuleRef) :
    (s.withoutScope scope).get? ref = if ref.scope = scope then none else s.get? ref := by
  rw [withoutScope, SortedMap.get?_filter]
  by_cases h : ref.scope = scope <;> cases s.get? ref <;> simp [h]

theorem stateOf_withoutScope (s : RuleStates) (scope : Scope) (ref : RuleRef) :
    RuleStates.stateOf (s.withoutScope scope) ref =
      if ref.scope = scope then {} else s.stateOf ref := by
  unfold stateOf
  rw [get?_withoutScope]
  split <;> rfl

theorem get?_ofScope (s : RuleStates) (scope : Scope) (ref : RuleRef) :
    (s.ofScope scope).get? ref = if ref.scope = scope then s.get? ref else none := by
  rw [ofScope, SortedMap.get?_filter]
  by_cases h : ref.scope = scope <;> cases s.get? ref <;> simp [h]

theorem mem_timers_iff {scope : Scope} {h : Handle} :
    h ∈ (s.ofScope scope).values.filterMap (·.timer) ↔
      ∃ ref, ref.scope = scope ∧ (s.stateOf ref).timer = some h := by
  simp only [List.mem_filterMap, SortedMap.mem_values, get?_ofScope]
  constructor
  · rintro ⟨v, ⟨ref, hv⟩, ht⟩
    split at hv
    · exact ⟨ref, ‹_›, by rw [stateOf_of_get? hv, ht]⟩
    · cases hv
  · rintro ⟨ref, hs, ht⟩
    exact ⟨_, ⟨ref, by rw [if_pos hs]; exact get?_of_timer ht⟩, ht⟩

end RuleStates

end WorldTriggers
