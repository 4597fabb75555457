import Mathlib.Tactic
import WorldTriggers.Content.Document
import WorldTriggers.Proofs.Catalog

namespace WorldTriggers.Content

open Yaml Node

abbrev Verdict := Except (Option String × Rejection) Rule

def usableId? (v : Json) : Option RuleId :=
  match Rule.decode v with
  | .error _ => none
  | .ok r =>
    match r.validate with
    | .error _ => none
    | .ok () => some r.id

def verdict (earlier : List Json) (v : Json) : Verdict :=
  match Rule.decode v with
  | .error e => .error (recordId? v, .undecodable e)
  | .ok r =>
    match r.validate with
    | .error f => .error (some r.id, .invalid f)
    | .ok () =>
      if r.id ∈ earlier.filterMap usableId? then .error (some r.id, .duplicate) else .ok r

def verdicts (records : List Json) : List Verdict :=
  records.mapIdx fun i v => verdict (records.take i) v

def Verdict.rule? : Verdict → Option Rule
  | .ok r => some r
  | .error _ => none

def Verdict.diagnostic? (scope : Scope) (source : Option String) : Verdict → Option Diagnostic
  | .ok _ => none
  | .error (rule, reason) => some ⟨source, scope, rule, reason⟩

def ofVerdicts (scope : Scope) (source : Option String) (vs : List Verdict) : Content :=
  ⟨scope, vs.filterMap Verdict.rule?, vs.filterMap (Verdict.diagnostic? scope source), source⟩

def header? (n : Node) : Option (Scope × List Json) := do
  let f ← record? ["scope", "triggers"] n
  let scope ← required? f "scope" Scope.ofNode?
  let records ← defaulted? f "triggers" (list? (toJson? (maxDepth - 2))) []
  pure (scope, records)

theorem ofNode?_eq (n : Node) (source : Option String) :
    ofNode? n source = (header? n).map fun h => ofRecords h.1 h.2 source := by
  simp only [ofNode?, header?, Option.map_eq_bind, Option.bind_eq_bind, Option.bind_assoc]
  rfl

section Verdicts

variable {earlier earlier' before after records : List Json} {v : Json} {r : Rule} {id : RuleId}

theorem usableId?_eq_some_iff : usableId? v = some id ↔
    ∃ r, Rule.decode v = .ok r ∧ r.validate = .ok () ∧ r.id = id := by
  cases hd : Rule.decode v with
  | error e => simp [usableId?, hd]
  | ok r => cases hv : r.validate <;> simp [usableId?, hd, hv]

theorem verdict_eq_ok_iff : verdict earlier v = .ok r ↔
    Rule.decode v = .ok r ∧ r.validate = .ok () ∧ r.id ∉ earlier.filterMap usableId? := by
  cases hd : Rule.decode v with
  | error e => simp [verdict, hd]
  | ok q =>
    cases hv : q.validate with
    | error f =>
      simp only [verdict, hd, hv, reduceCtorEq, Except.ok.injEq, false_iff]
      rintro ⟨rfl, h, -⟩
      rw [hv] at h
      cases h
    | ok u =>
      by_cases ht : q.id ∈ earlier.filterMap usableId?
      · simp only [verdict, hd, hv, if_pos ht, reduceCtorEq, Except.ok.injEq, false_iff]
        rintro ⟨rfl, -, h⟩
        exact h ht
      · simp only [verdict, hd, hv, if_neg ht, Except.ok.injEq]
        constructor
        · rintro rfl
          exact ⟨rfl, hv, ht⟩
        · exact fun h => h.1

theorem verdict_congr (h : ∀ id, id ∈ earlier.filterMap usableId? ↔ id ∈ earlier'.filterMap usableId?) :
    verdict earlier v = verdict earlier' v := by
  simp only [verdict, h]

theorem verdicts_append (xs ys : List Json) :
    verdicts (xs ++ ys) = verdicts xs ++ ys.mapIdx fun i v => verdict (xs ++ ys.take i) v := by
  unfold verdicts
  rw [List.mapIdx_append]
  congr 1
  · apply List.ext_getElem?
    intro i
    simp only [List.getElem?_mapIdx]
    cases hx : xs[i]? with
    | none => rfl
    | some v =>
      obtain ⟨hi, -⟩ := List.getElem?_eq_some_iff.mp hx
      rw [List.take_append_of_le_length hi.le]
  · simp [List.take_append, List.take_of_length_le]

theorem verdicts_concat (xs : List Json) (v : Json) :
    verdicts (xs ++ [v]) = verdicts xs ++ [verdict xs v] := by
  simp [verdicts_append]

theorem length_verdicts (records : List Json) : (verdicts records).length = records.length :=
  List.length_mapIdx

theorem mem_filterMap_usableId? :
    id ∈ records.filterMap usableId? ↔ ∃ r, .ok r ∈ verdicts records ∧ r.id = id := by
  induction records using List.reverseRecOn with
  | nil => simp [verdicts]
  | append_singleton records v ih =>
    rw [verdicts_concat, List.filterMap_append, List.mem_append, ih]
    constructor
    · rintro (⟨r, hr, hid⟩ | h)
      · exact ⟨r, List.mem_append_left _ hr, hid⟩
      · obtain ⟨w, hw, hid⟩ := List.mem_filterMap.mp h
        rw [List.mem_singleton.mp hw] at hid
        obtain ⟨r, hd, hv, hr⟩ := usableId?_eq_some_iff.mp hid
        by_cases ht : r.id ∈ records.filterMap usableId?
        · obtain ⟨q, hq, hqid⟩ := ih.mp (hr ▸ ht)
          exact ⟨q, List.mem_append_left _ hq, hqid⟩
        · have hok : verdict records v = .ok r := verdict_eq_ok_iff.mpr ⟨hd, hv, ht⟩
          exact ⟨r, by simp [hok], hr⟩
    · rintro ⟨r, hr, rfl⟩
      rcases List.mem_append.mp hr with hr | hr
      · exact .inl ⟨r, hr, rfl⟩
      · obtain ⟨hd, hv, -⟩ := verdict_eq_ok_iff.mp (List.mem_singleton.mp hr).symm
        have hid := usableId?_eq_some_iff.mpr ⟨r, hd, hv, rfl⟩
        exact .inr (List.mem_filterMap.mpr ⟨v, List.mem_singleton_self v, hid⟩)

theorem take_verdicts (records : List Json) (i : Nat) :
    (verdicts records).take i = verdicts (records.take i) := by
  by_cases hi : i ≤ records.length
  · have h := verdicts_append (records.take i) (records.drop i)
    rw [List.take_append_drop] at h
    rw [h, List.take_left']
    simp [length_verdicts, hi]
  · rw [List.take_of_length_le (by rw [length_verdicts]; omega), List.take_of_length_le (by omega)]

theorem getElem?_verdicts (records : List Json) (i : Nat) :
    (verdicts records)[i]? = records[i]?.map (verdict (records.take i)) :=
  List.getElem?_mapIdx

theorem getElem?_verdicts_eq_ok_iff {i : Nat} : (verdicts records)[i]? = some (.ok r) ↔
    ∃ v, records[i]? = some v ∧ Rule.decode v = .ok r ∧ r.validate = .ok () ∧
      ∀ j < i, ∀ q, (verdicts records)[j]? = some (.ok q) → q.id ≠ r.id := by
  have htaken : r.id ∈ (records.take i).filterMap usableId? ↔
      ∃ j < i, ∃ q, (verdicts records)[j]? = some (.ok q) ∧ q.id = r.id := by
    rw [mem_filterMap_usableId?, ← take_verdicts]
    constructor
    · rintro ⟨q, hq, hid⟩
      obtain ⟨j, hj⟩ := List.mem_iff_getElem?.mp hq
      rw [List.getElem?_take] at hj
      split at hj
      · exact ⟨j, ‹j < i›, q, hj, hid⟩
      · cases hj
    · rintro ⟨j, hj, q, hq, hid⟩
      refine ⟨q, List.mem_iff_getElem?.mpr ⟨j, ?_⟩, hid⟩
      rw [List.getElem?_take, if_pos hj, hq]
  simp only [getElem?_verdicts, Option.map_eq_some_iff, verdict_eq_ok_iff, htaken]
  simp only [not_exists, not_and, ne_eq]

theorem verdicts_of_rejected {d : Option String × Rejection} (h : verdict before v = .error d) :
    ∃ vs ws, verdicts (before ++ v :: after) = vs ++ .error d :: ws ∧
      verdicts (before ++ after) = vs ++ ws ∧ vs.length = before.length := by
  refine ⟨_, _, ?_, verdicts_append before after, length_verdicts before⟩
  rw [verdicts_append, List.mapIdx_cons, List.take_zero, List.append_nil, h]
  congr 2
  apply List.ext_getElem?
  intro i
  simp only [List.getElem?_mapIdx, List.take_succ_cons]
  cases after[i]? with
  | none => rfl
  | some w =>
    refine congrArg some (verdict_congr fun id => ?_)
    simp only [List.filterMap_append, List.filterMap_cons, List.mem_append]
    cases hid : usableId? v with
    | none => rfl
    | some id' =>
      obtain ⟨r, hd, hv, rfl⟩ := usableId?_eq_some_iff.mp hid
      have ht : r.id ∈ before.filterMap usableId? := by
        by_contra ht
        rw [verdict_eq_ok_iff.mpr ⟨hd, hv, ht⟩] at h
        cases h
      simp only [List.mem_cons]
      constructor
      · rintro (h | rfl | h)
        · exact .inl h
        · exact .inl ht
        · exact .inr h
      · exact fun h => h.imp_right .inr

end Verdicts

section Fold

variable {scope : Scope} {source : Option String}

theorem length_rules_add_length_rejected (vs : List Verdict) :
    (ofVerdicts scope source vs).rules.length + (ofVerdicts scope source vs).rejected.length =
      vs.length := by
  induction vs with
  | nil => rfl
  | cons a vs ih =>
    simp only [ofVerdicts] at ih
    cases a <;>
      simp only [ofVerdicts, List.filterMap_cons, Verdict.rule?, Verdict.diagnostic?, List.length_cons] <;>
      omega

theorem acceptRecord_ofVerdicts (records : List Json) (v : Json) :
    (ofVerdicts scope source (verdicts records)).acceptRecord v =
      ofVerdicts scope source (verdicts (records ++ [v])) := by
  have htaken (id : RuleId) :
      (ofVerdicts scope source (verdicts records)).rules.any (·.id == id) = true ↔
        id ∈ records.filterMap usableId? := by
    rw [mem_filterMap_usableId?, List.any_eq_true]
    constructor
    · rintro ⟨r, hr, hid⟩
      obtain ⟨a, ha, hr⟩ := List.mem_filterMap.mp hr
      cases a with
      | error d => cases hr
      | ok q => exact ⟨q, ha, by cases hr; exact eq_of_beq hid⟩
    · rintro ⟨r, hr, rfl⟩
      exact ⟨r, List.mem_filterMap.mpr ⟨_, hr, rfl⟩, beq_self_eq_true _⟩
  rw [verdicts_concat]
  cases hd : Rule.decode v with
  | error e => simp [acceptRecord, hd, verdict, ofVerdicts, reject, Verdict.rule?, Verdict.diagnostic?]
  | ok r =>
    cases hv : r.validate with
    | error f =>
      simp [acceptRecord, accept, hd, hv, verdict, ofVerdicts, reject, Verdict.rule?,
        Verdict.diagnostic?]
    | ok u =>
      by_cases ht : r.id ∈ records.filterMap usableId?
      · have hany := (htaken r.id).mpr ht
        simp only [acceptRecord, accept, hd, hv, if_pos hany, verdict, if_pos ht]
        simp [ofVerdicts, reject, Verdict.rule?, Verdict.diagnostic?]
      · have hany := (htaken r.id).not.mpr ht
        simp only [acceptRecord, accept, hd, hv, if_neg hany, verdict, if_neg ht]
        simp [ofVerdicts, Verdict.rule?, Verdict.diagnostic?]

theorem ofRecords_eq (records : List Json) :
    ofRecords scope records source = ofVerdicts scope source (verdicts records) := by
  induction records using List.reverseRecOn with
  | nil => rfl
  | append_singleton records v ih =>
    rw [← acceptRecord_ofVerdicts, ← ih]
    exact List.foldl_concat ..

theorem ofRules_of_sound {rules : List Rule} (h : Sound rules) :
    ofRules scope rules = ⟨scope, rules, [], none⟩ := by
  induction rules using List.reverseRecOn with
  | nil => rfl
  | append_singleton rules r ih =>
    have hv := h.valid r (List.mem_append_right _ (List.mem_singleton_self r))
    have hd := h.distinct
    rw [List.map_append, List.nodup_append] at hd
    have hfresh : rules.any (·.id == r.id) = false := by
      rw [List.any_eq_false]
      intro q hq hid
      exact hd.2.2 q.id (List.mem_map_of_mem hq) r.id (by simp) (eq_of_beq hid)
    have hrules := ih ⟨fun q hq => h.valid q (List.mem_append_left _ hq), hd.1⟩
    unfold ofRules at hrules ⊢
    rw [List.foldl_concat, hrules]
    simp [accept, hv, hfresh]

end Fold

/-- The rules of a document are its usable records, less those whose identifier is taken by a rule in
front; the others have one diagnostic each. A rejected record may be left out or put in anywhere without
a change for the rest, and the accepted rules stand on their own. -/
theorem judged_ofRecords (scope : Scope) (records : List Json) (source : Option String) :
    (∀ s n, Node.ofText? s = some n → header? n = some (scope, records) →
        ofText? s source = some (ofRecords scope records source)) ∧
      ofRecords scope records source = ofVerdicts scope source (verdicts records) ∧
      (verdicts records).length = records.length ∧
      (∀ (i : Nat) (r : Rule), (verdicts records)[i]? = some (Except.ok r) ↔
        ∃ v, records[i]? = some v ∧ Rule.decode v = .ok r ∧ r.validate = .ok () ∧
          ∀ j < i, ∀ q : Rule, (verdicts records)[j]? = some (Except.ok q) → q.id ≠ r.id) ∧
      (ofRecords scope records source).rules.length +
        (ofRecords scope records source).rejected.length = records.length ∧
      ((ofRecords scope records source).rules.map (·.id)).Nodup ∧
      (∀ before v after d, records = before ++ v :: after → verdict before v = .error d →
        ∃ vs ws, verdicts records = vs ++ .error d :: ws ∧ verdicts (before ++ after) = vs ++ ws ∧
          vs.length = before.length) ∧
      ofRules scope (ofRecords scope records source).rules =
        ⟨scope, (ofRecords scope records source).rules, [], none⟩ := by
  have hsound : Sound (ofRecords scope records source).rules := (Authored.ofRecords ..).sound
  refine ⟨?_, ofRecords_eq records, length_verdicts records, fun i r => getElem?_verdicts_eq_ok_iff,
    ?_, hsound.distinct, ?_, ofRules_of_sound hsound⟩
  · intro s n hn hh
    rw [ofText?, hn, Option.bind_some, ofNode?_eq, hh, Option.map_some]
  · rw [ofRecords_eq, length_rules_add_length_rejected, length_verdicts]
  · rintro before v after d rfl h
    exact verdicts_of_rejected h

def cellarText : String := "scope: {room: cellar}
triggers:
  - {id: gate, event: on_enter}
  - {id: gate, event: on_exit}
  - {id: warp, event: on_teleport}
  - {id: lever, event: on_command, command_pattern: pull *}
"

theorem judged_ofRecords_cellar :
    ∃ gate double rest c d vs ws, ofText? cellarText none = some c ∧
      c = ofRecords (.room "cellar") (gate :: double :: rest) none ∧
      c.rules.map (·.id) = ["gate", "lever"] ∧ c.rejected.map (·.rule) = [some "gate", some "warp"] ∧
      verdicts (gate :: double :: rest) = vs ++ .error d :: ws ∧ verdicts (gate :: rest) = vs ++ ws ∧
      ofRules (.room "cellar") c.rules = ⟨.room "cellar", c.rules, [], none⟩ := by
  have hread : ((Node.ofText? cellarText).bind header?).any (fun h =>
      let c := ofRecords (.room "cellar") h.2 none
      decide (h.1 = .room "cellar" ∧ 2 ≤ h.2.length ∧
        (verdict (h.2.take 1) (h.2.getD 1 .null)).rule? = none ∧
        c.rules.map (·.id) = ["gate", "lever"] ∧
        c.rejected.map (·.rule) = [some "gate", some "warp"])) = true := by decide +kernel
  obtain ⟨⟨scope, records⟩, hnode, hp⟩ := (Option.any_eq_true _ _).mp hread
  obtain ⟨n, hn, hh⟩ := Option.bind_eq_some_iff.mp hnode
  obtain ⟨rfl, hlen, hdouble, hrules, hrejected⟩ := of_decide_eq_true hp
  dsimp only at hlen
  obtain ⟨gate, records, rfl⟩ := List.exists_cons_of_length_pos (by omega : 0 < records.length)
  rw [List.length_cons] at hlen
  obtain ⟨double, rest, rfl⟩ := List.exists_cons_of_length_pos (by omega : 0 < records.length)
  obtain ⟨d, hd⟩ : ∃ d, verdict [gate] double = .error d := by
    cases h : verdict [gate] double with
    | ok r =>
      have hnone : (verdict [gate] double).rule? = none := hdouble
      rw [h] at hnone
      cases hnone
    | error d => exact ⟨d, rfl⟩
  obtain ⟨htext, -, -, -, -, -, hrest, hagain⟩ :=
    judged_ofRecords (.room "cellar") (gate :: double :: rest) none
  obtain ⟨vs, ws, hvs, hws, -⟩ := hrest [gate] double rest d rfl hd
  exact ⟨gate, double, rest, _, d, vs, ws, htext _ n hn hh, rfl, hrules, hrejected, hvs, hws, hagain⟩

end WorldTriggers.Content
