import Mathlib.Tactic
import WorldTriggers.Catalog
import WorldTriggers.Content.Basic

namespace WorldTriggers

namespace Content

inductive Authored : Content → Prop where
  | ofRules (scope : Scope) (rules : List Rule) : Authored (ofRules scope rules)
  | ofRecords (scope : Scope) (records : List Json) (source : Option String) :
      Authored (ofRecords scope records source)

structure Sound (rules : List Rule) : Prop where
  valid : ∀ r ∈ rules, r.validate = .ok ()
  distinct : (rules.map (·.id)).Nodup

theorem sound_nil : Sound [] := ⟨by simp, .nil⟩

theorem sound_accept {c : Content} (h : Sound c.rules) (r : Rule) : Sound (c.accept r).rules := by
  unfold accept
  split
  · exact h
  · rename_i hv
    split
    · exact h
    · rename_i hd
      refine ⟨?_, ?_⟩
      · intro q hq
        rcases List.mem_append.mp hq with hq | hq
        · exact h.valid q hq
        · rw [List.mem_singleton.mp hq]
          exact hv
      · have hfresh : r.id ∉ c.rules.map (·.id) := by simpa using hd
        rw [List.map_append, List.nodup_append]
        refine ⟨h.distinct, by simp, fun a ha b hb => ?_⟩
        rw [List.map_singleton, List.mem_singleton] at hb
        rintro rfl
        exact hfresh (hb ▸ ha)

theorem sound_acceptRecord {c : Content} (h : Sound c.rules) (v : Json) :
    Sound (c.acceptRecord v).rules := by
  unfold acceptRecord
  split
  · exact sound_accept h _
  · exact h

theorem Authored.sound {c : Content} (h : c.Authored) : Sound c.rules := by
  have fold {α : Type} (f : Content → α → Content)
      (hf : ∀ c a, Sound c.rules → Sound (f c a).rules) :
      ∀ (as : List α) (c : Content), Sound c.rules → Sound (as.foldl f c).rules := by
    intro as
    induction as with
    | nil => exact fun _ h => h
    | cons a as ih => exact fun c h => ih _ (hf c a h)
  cases h with
  | ofRules scope rules => exact fold _ (fun _ r h => sound_accept h r) _ _ sound_nil
  | ofRecords scope records source =>
    exact fold _ (fun _ v h => sound_acceptRecord h v) _ _ sound_nil

end Content

@[simp] theorem LoadedRule.rule_ofRule (r : Rule) : (ofRule r).rule = r := rfl

namespace Catalog

variable {c : Catalog} {ref : RuleRef} {scope : Scope} {rule : Rule}

theorem contains_eq (c : Catalog) (scope : Scope) : c.contains scope = (c.get? scope).isSome := rfl

theorem epoch?_isSome (c : Catalog) (scope : Scope) :
    (c.epoch? scope).isSome = c.contains scope := by
  simp [epoch?, contains_eq]

theorem rule?_eq_some_iff :
    c.rule? ref = some rule ↔
      ∃ i l, c.get? ref.scope = some i ∧ i.find? ref.rule = some l ∧ l.rule = rule := by
  simp [rule?, find?, Option.bind_eq_some_iff]

theorem exists_mem_of_rule? (h : c.rule? ref = some rule) :
    ∃ i l, (ref.scope, i) ∈ c.scopes.entries ∧ l ∈ i.rules ∧ l.rule = rule ∧
      rule.id = ref.rule := by
  obtain ⟨i, l, hi, hl, rfl⟩ := rule?_eq_some_iff.mp h
  exact ⟨i, l, SortedMap.get?_eq_some_iff.mp hi, List.mem_of_find?_eq_some hl, rfl,
    by simpa using List.find?_some hl⟩

def refs (c : Catalog) : List RuleRef :=
  c.scopes.entries.flatMap fun p => p.2.rules.map fun l => ⟨p.1, l.rule.id⟩

theorem mem_refs_of_rule? (h : c.rule? ref = some rule) : ref ∈ c.refs := by
  obtain ⟨i, l, hi, hl, rfl, hid⟩ := exists_mem_of_rule? h
  refine List.mem_flatMap.mpr ⟨_, hi, List.mem_map.mpr ⟨l, hl, ?_⟩⟩
  rw [hid]

theorem length_refs (c : Catalog) : c.refs.length = c.size := by
  have hfold (is : List Installation) (n : Nat) :
      is.foldl (fun n i => n + i.rules.length) n = n + (is.map (·.rules.length)).sum := by
    induction is generalizing n with
    | nil => rfl
    | cons i is ih => rw [List.foldl_cons, ih, List.map_cons, List.sum_cons, Nat.add_assoc]
  simp [refs, size, SortedMap.values, hfold, Function.comp_def]

theorem finite_rules (c : Catalog) : {ref | ∃ rule, c.rule? ref = some rule}.Finite :=
  (List.finite_toSet c.refs).subset fun _ ⟨_, h⟩ => mem_refs_of_rule? h

theorem id_of_rule? (h : c.rule? ref = some rule) : rule.id = ref.rule := by
  obtain ⟨i, l, -, hl, rfl⟩ := rule?_eq_some_iff.mp h
  simpa using List.find?_some hl

theorem contains_of_rule? (h : c.rule? ref = some rule) : c.contains ref.scope := by
  obtain ⟨i, -, hi, -⟩ := rule?_eq_some_iff.mp h
  simp [contains_eq, hi]

theorem rule?_eq_none_of_not_contains (h : c.contains ref.scope = false) : c.rule? ref = none := by
  cases hr : c.rule? ref with
  | none => rfl
  | some rule => simp [contains_of_rule? hr] at h

theorem get?_insert (c : Catalog) (scope : Scope) (rules : List Rule) (s : Scope) :
    (c.insert scope rules).2.2.get? s =
      if s = scope then some ⟨c.lastEpoch + 1, rules.map LoadedRule.ofRule⟩ else c.get? s := by
  simp [insert, get?, SortedMap.get?_insert]

theorem get?_remove (c : Catalog) (scope s : Scope) :
    (c.remove scope).get? s = if s = scope then none else c.get? s := by
  simp [remove, get?, SortedMap.get?_erase]

theorem contains_insert (c : Catalog) (scope : Scope) (rules : List Rule) (s : Scope) :
    (c.insert scope rules).2.2.contains s = (decide (s = scope) || c.contains s) := by
  rw [contains_eq, get?_insert]
  by_cases h : s = scope <;> simp [h, contains_eq]

theorem contains_remove (c : Catalog) (scope s : Scope) :
    (c.remove scope).contains s = (!decide (s = scope) && c.contains s) := by
  rw [contains_eq, get?_remove]
  by_cases h : s = scope <;> simp [h, contains_eq]

theorem rule?_congr {d : Catalog} (h : c.get? ref.scope = d.get? ref.scope) :
    c.rule? ref = d.rule? ref := by
  simp [rule?, find?, h]

theorem rule?_insert_self (c : Catalog) (scope : Scope) (rules : List Rule) (id : RuleId) :
    (c.insert scope rules).2.2.rule? ⟨scope, id⟩ = rules.find? (·.id == id) := by
  simp [rule?, find?, get?_insert, Installation.find?, List.find?_map, Function.comp_def]

theorem rule?_insert_of_ne (c : Catalog) {scope : Scope} (rules : List Rule)
    (h : ref.scope ≠ scope) : (c.insert scope rules).2.2.rule? ref = c.rule? ref :=
  rule?_congr (by rw [get?_insert, if_neg h])

theorem rule?_remove (c : Catalog) (scope : Scope) (ref : RuleRef) :
    (c.remove scope).rule? ref = if ref.scope = scope then none else c.rule? ref := by
  by_cases h : ref.scope = scope
  · rw [if_pos h]
    exact rule?_eq_none_of_not_contains (by simp [contains_remove, h])
  · rw [if_neg h]
    exact rule?_congr (by rw [get?_remove, if_neg h])

def Sound (c : Catalog) : Prop :=
  ∀ scope i, c.get? scope = some i → Content.Sound (i.rules.map (·.rule))

theorem sound_empty : Sound {} := by
  intro scope i h
  cases h

theorem Sound.insert (h : c.Sound) {rules : List Rule} (hr : Content.Sound rules) (scope : Scope) :
    (c.insert scope rules).2.2.Sound := by
  intro s i hi
  rw [get?_insert] at hi
  split at hi
  · cases hi
    simpa [Function.comp_def, LoadedRule.ofRule] using hr
  · exact h s i hi

theorem Sound.remove (h : c.Sound) (scope : Scope) : (c.remove scope).Sound := by
  intro s i hi
  rw [get?_remove] at hi
  split at hi
  · cases hi
  · exact h s i hi

theorem Sound.rule?_of_mem (h : c.Sound) {i : Installation} (hi : c.get? scope = some i)
    {l : LoadedRule} (hl : l ∈ i.rules) : c.rule? ⟨scope, l.rule.id⟩ = some l.rule := by
  have hd := (h scope i hi).distinct
  rw [List.map_map] at hd
  obtain ⟨k, hk⟩ : ∃ k, i.find? l.rule.id = some k := by
    rw [← Option.isSome_iff_exists, Installation.find?, List.find?_isSome]
    exact ⟨l, hl, by simp⟩
  have hid : k.rule.id = l.rule.id := by simpa using List.find?_some hk
  have hkl : k = l :=
    List.inj_on_of_nodup_map hd (List.mem_of_find?_eq_some hk) hl hid
  exact rule?_eq_some_iff.mpr ⟨i, k, hi, hk, by rw [hkl]⟩

theorem Sound.valid (h : c.Sound) (hr : c.rule? ref = some rule) : rule.validate = .ok () := by
  obtain ⟨i, l, hi, hl, rfl⟩ := rule?_eq_some_iff.mp hr
  exact (h _ i hi).valid _ (List.mem_map_of_mem (List.mem_of_find?_eq_some hl))

end Catalog

theorem Rule.checks_of_validate {r : Rule} (h : r.validate = .ok ()) :
    checkSeconds "cooldown" r.cooldown = .ok () ∧ checkDelays 0 r.actions = .ok () ∧
      r.checkEvent = .ok () := by
  have throw_bind (f : RuleFault) (k : Unit → Except RuleFault Unit) :
      (throw f >>= k) = .error f := rfl
  unfold validate at h
  by_cases hid : Text.isBlankText r.id
  · simp [hid, throw_bind] at h
  by_cases hlimit : r.maxFires < -1
  · simp [hid, hlimit, throw_bind, bind_eq_ok] at h
  simp only [hid, hlimit, if_false, bind_eq_ok, Bool.false_eq_true] at h
  obtain ⟨_, hcooldown, -, -, _, hdelays, _, hevent, -⟩ := h
  exact ⟨hcooldown, hdelays, hevent⟩

theorem Rule.timerPlan?_isSome_of_validate {r : Rule} (h : r.validate = .ok ())
    (ht : r.event = .timer) : r.timerPlan?.isSome := by
  have he := (checks_of_validate h).2.2
  unfold checkEvent at he
  rw [ht] at he
  dsimp only at he
  split at he
  · cases he
  · rename_i hn
    simpa [← Option.isSome_iff_ne_none] using hn

end WorldTriggers
