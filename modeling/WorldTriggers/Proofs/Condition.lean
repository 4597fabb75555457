import Mathlib.Tactic
import WorldTriggers.Condition.Builtin

namespace WorldTriggers

namespace Guard

theorem induct {P : Guard → Prop} (group : ∀ c members, (∀ g ∈ members, P g) → P (group c members))
    (single : ∀ c why, P (single c why)) (g : Guard) : P g := by
  match g with
  | .group c members => exact group c members fun g _ => induct group single g
  | .single c why => exact single c why

mutual

/-- Whether a kind without a handler stands only below an even number of negations; `flipped` says
whether there is an odd number above. Its own negation is not among them. What a handler makes of members
that it has evaluated is not known, so they count as if below both. -/
def upright (reg : ConditionRegistry) (kind : String) (flipped : Bool) : Guard → Bool
  | group c members =>
    if c.kind = kind then !flipped
    else
      match reg.handlers.get? c.kind with
      | some (.combine how) => uprightAll reg kind ((flipped != c.negate) != decide (how = .not)) members
      | some (.inquire _) => uprightAll reg kind true members && uprightAll reg kind false members
      | _ => true
  | single c _ => c.kind ≠ kind || !flipped

def uprightAll (reg : ConditionRegistry) (kind : String) (flipped : Bool) : List Guard → Bool
  | [] => true
  | g :: rest => upright reg kind flipped g && uprightAll reg kind flipped rest

end

theorem uprightAll_iff {reg : ConditionRegistry} {kind : String} {flipped : Bool}
    {members : List Guard} :
    uprightAll reg kind flipped members ↔ ∀ g ∈ members, upright reg kind flipped g := by
  induction members with
  | nil => simp [uprightAll]
  | cons g rest ih => simp [uprightAll, ih]

end Guard

def Implies (flipped a b : Bool) : Prop := if flipped then b ≤ a else a ≤ b

namespace Implies

variable {flipped a b : Bool}

theorem refl (flipped a : Bool) : Implies flipped a a := by
  cases flipped <;> exact le_rfl

theorem eq_of_both (h : Implies true a b) (h' : Implies false a b) : a = b := le_antisymm h' h

theorem of_false (h : flipped = false) (b : Bool) : Implies flipped false b := by
  subst h
  exact Bool.false_le b

theorem bne {negate : Bool} (h : Implies (flipped != negate) a b) :
    Implies flipped (a != negate) (b != negate) := by
  revert h
  cases flipped <;> cases negate <;> cases a <;> cases b <;> simp [Implies]

theorem all_le {f f' : Guard → Bool} {members : List Guard} (h : ∀ g ∈ members, f g ≤ f' g) :
    members.all f ≤ members.all f' := by
  simp only [Bool.le_iff_imp, List.all_eq_true] at h ⊢
  exact fun hall g hg => h g hg (hall g hg)

theorem any_le {f f' : Guard → Bool} {members : List Guard} (h : ∀ g ∈ members, f g ≤ f' g) :
    members.any f ≤ members.any f' := by
  simp only [Bool.le_iff_imp, List.any_eq_true] at h ⊢
  rintro ⟨g, hg, hf⟩
  exact ⟨g, hg, h g hg hf⟩

theorem all {f f' : Guard → Bool} {members : List Guard}
    (h : ∀ g ∈ members, Implies flipped (f g) (f' g)) :
    Implies flipped (members.all f) (members.all f') := by
  cases flipped <;> exact all_le h

theorem any {f f' : Guard → Bool} {members : List Guard}
    (h : ∀ g ∈ members, Implies flipped (f g) (f' g)) :
    Implies flipped (members.any f) (members.any f') := by
  cases flipped <;> exact any_le h

end Implies

def Combination.value (how : Combination) (members : List Guard) (f : Guard → Bool) : Bool :=
  match how with
  | all => members.all f
  | any => members.any f
  | not => !members.all f

theorem Implies.value {flipped : Bool} {how : Combination} {members : List Guard}
    {f f' : Guard → Bool}
    (h : ∀ g ∈ members, Implies (flipped != decide (how = .not)) (f g) (f' g)) :
    Implies flipped (how.value members f) (how.value members f') := by
  cases how with
  | all => exact all (by simpa using h)
  | any => exact any (by simpa using h)
  | not =>
    have hall : Implies (flipped != true) (members.all f) (members.all f') := all h
    simpa [Combination.value] using hall.bne

theorem Inquiry.answer_fst_congr {n : Nat} {f f' : Fin n → ConditionEnv → Verdict}
    (h : ∀ i env, (f i env).1 = (f' i env).1) (q : Inquiry n) : (q.answer f).1 = (q.answer f').1 := by
  induction q with
  | decided result => rfl
  | ask member env next ih =>
    simp only [answer, h member env]
    exact ih _

namespace ConditionRegistry

variable {reg : ConditionRegistry} {env : ConditionEnv}

theorem evaluateMember_eq (members : List Guard) (i : Fin members.length) (env : ConditionEnv) :
    evaluateMember reg members i env = evaluate reg env members[i] := by
  induction members with
  | nil => exact i.elim0
  | cons g rest ih =>
    obtain ⟨i, hi⟩ := i
    cases i with
    | zero => rfl
    | succ i => exact ih ⟨i, Nat.lt_of_succ_lt_succ hi⟩

theorem evaluateAll_fst (members : List Guard) :
    (evaluateAll reg env members).1 = members.all fun g => (evaluate reg env g).1 := by
  induction members with
  | nil => rfl
  | cons g rest ih =>
    rw [evaluateAll, List.all_cons, ← ih]
    split <;> simp_all

theorem evaluateAny_fst (members : List Guard) :
    (evaluateAny reg env members).1 = members.any fun g => (evaluate reg env g).1 := by
  induction members with
  | nil => rfl
  | cons g rest ih =>
    rw [evaluateAny, List.any_cons, ← ih]
    split <;> simp_all

theorem exists_mem_of_evaluateAll {members : List Guard} {x : Complaint}
    (h : x ∈ (evaluateAll reg env members).2) : ∃ g ∈ members, x ∈ (evaluate reg env g).2 := by
  induction members with
  | nil => cases h
  | cons g rest ih =>
    rw [evaluateAll] at h
    split at h
    · rename_i log hg
      rcases List.mem_append.mp h with h | h
      · exact ⟨g, List.mem_cons_self, by rwa [hg]⟩
      · obtain ⟨g', hg', hx⟩ := ih h
        exact ⟨g', List.mem_cons_of_mem _ hg', hx⟩
    · rename_i log hg
      exact ⟨g, List.mem_cons_self, by rwa [hg]⟩

theorem exists_mem_of_evaluateAny {members : List Guard} {x : Complaint}
    (h : x ∈ (evaluateAny reg env members).2) : ∃ g ∈ members, x ∈ (evaluate reg env g).2 := by
  induction members with
  | nil => cases h
  | cons g rest ih =>
    rw [evaluateAny] at h
    split at h
    · rename_i log hg
      exact ⟨g, List.mem_cons_self, by rwa [hg]⟩
    · rename_i log hg
      rcases List.mem_append.mp h with h | h
      · exact ⟨g, List.mem_cons_self, by rwa [hg]⟩
      · obtain ⟨g', hg', hx⟩ := ih h
        exact ⟨g', List.mem_cons_of_mem _ hg', hx⟩

theorem evaluate_missing {g : Guard} (h : reg.handlers.get? g.condition.kind = none) :
    (evaluate reg env g).1 = false := by
  cases g with
  | group c members =>
    rw [Guard.condition] at h
    simp [evaluate, h]
  | single c why =>
    rw [Guard.condition] at h
    simp [evaluate, h]

theorem evaluate_combine {c : Condition} {members : List Guard} {how : Combination}
    (h : reg.handlers.get? c.kind = some (.combine how)) :
    (evaluate reg env (.group c members)).1 =
      (how.value members (fun g => (evaluate reg env g).1) != c.negate) := by
  cases how with
  | all => simp [evaluate, h, Combination.value, evaluateAll_fst]
  | any => simp [evaluate, h, Combination.value, evaluateAny_fst]
  | not => simp [evaluate, h, Combination.value, evaluateAll_fst]

theorem exists_mem_of_evaluate_combine {c : Condition} {members : List Guard} {how : Combination}
    (h : reg.handlers.get? c.kind = some (.combine how)) {x : Complaint}
    (hx : x ∈ (evaluate reg env (.group c members)).2) :
    ∃ g ∈ members, x ∈ (evaluate reg env g).2 := by
  cases how with
  | all | not => exact exists_mem_of_evaluateAll (by simpa only [evaluate, h] using hx)
  | any => exact exists_mem_of_evaluateAny (by simpa only [evaluate, h] using hx)

theorem evaluate_inquire {reg' : ConditionRegistry} {c : Condition} {members : List Guard}
    {start : Params → ConditionEnv → (members : Nat) → Inquiry members}
    (h : reg.handlers.get? c.kind = some (.inquire start))
    (h' : reg'.handlers.get? c.kind = some (.inquire start))
    (hmembers : ∀ g ∈ members, ∀ env, (evaluate reg env g).1 = (evaluate reg' env g).1) :
    (evaluate reg env (.group c members)).1 = (evaluate reg' env (.group c members)).1 := by
  have hmember (i : Fin members.length) (env : ConditionEnv) :
      (evaluateMember reg members i env).1 = (evaluateMember reg' members i env).1 := by
    rw [evaluateMember_eq, evaluateMember_eq]
    exact hmembers _ (List.getElem_mem i.isLt) env
  simp only [evaluate, h, h', Inquiry.answer_fst_congr hmember]

theorem get?_register (reg : ConditionRegistry) (kind k : String) (handler : ConditionHandler) :
    (reg.register kind handler).handlers.get? k =
      if k = kind then some handler else reg.handlers.get? k :=
  SortedMap.get?_insert _ _ _ _

theorem evaluate_register {kind : String} (hmissing : reg.contains kind = false)
    (handler : ConditionHandler) (env : ConditionEnv) (g : Guard) (flipped : Bool)
    (hup : g.upright reg kind flipped) :
    Implies flipped (evaluate reg env g).1 (evaluate (reg.register kind handler) env g).1 := by
  have hnone : reg.handlers.get? kind = none := SortedMap.contains_eq_false_iff.mp hmissing
  induction g using Guard.induct generalizing flipped env with
  | group c members ih =>
    by_cases hk : c.kind = kind
    · have hfalse : (evaluate reg env (.group c members)).1 = false :=
        evaluate_missing (by simpa [Guard.condition, hk] using hnone)
      rw [hfalse]
      exact .of_false (by simpa [Guard.upright, hk] using hup) _
    · have hsame : (reg.register kind handler).handlers.get? c.kind = reg.handlers.get? c.kind := by
        rw [get?_register, if_neg hk]
      cases hget : reg.handlers.get? c.kind with
      | none =>
        rw [hget] at hsame
        rw [evaluate_missing (by exact hget), evaluate_missing (by exact hsame)]
        exact .refl _ _
      | some h =>
        rw [hget] at hsame
        cases h with
        | test decide =>
          simp only [evaluate, hget, hsame]
          exact .refl _ _
        | combine how =>
          -- The negations of the group are those that its members stand below in addition.
          rw [evaluate_combine hget, evaluate_combine hsame]
          have hmembers : Guard.uprightAll reg kind ((flipped != c.negate) != decide (how = .not))
              members := by
            simpa [Guard.upright, hk, hget] using hup
          refine (Implies.value fun g hg => ?_).bne
          exact ih g hg _ _ (Guard.uprightAll_iff.mp hmembers g hg)
        | inquire start =>
          obtain ⟨htrue, hfalse⟩ : Guard.uprightAll reg kind true members ∧
              Guard.uprightAll reg kind false members := by
            simpa [Guard.upright, hk, hget] using hup
          rw [evaluate_inquire hget hsame fun g hg env => Implies.eq_of_both
            (ih g hg env true (Guard.uprightAll_iff.mp htrue g hg))
            (ih g hg env false (Guard.uprightAll_iff.mp hfalse g hg))]
          exact .refl _ _
  | single c why =>
    by_cases hk : c.kind = kind
    · have hfalse : (evaluate reg env (.single c why)).1 = false :=
        evaluate_missing (by simpa [Guard.condition, hk] using hnone)
      rw [hfalse]
      exact .of_false (by simpa [Guard.upright, hk] using hup) _
    · have hsame : (reg.register kind handler).handlers.get? c.kind = reg.handlers.get? c.kind := by
        rw [get?_register, if_neg hk]
      simp only [evaluate, hsame]
      exact .refl _ _

def Upright (reg : ConditionRegistry) (kind : String) (flipped : Bool) (cs : List Condition) : Prop :=
  Guard.uprightAll reg kind flipped (cs.map Guard.ofCondition)

theorem implies_allHold {kind : String} (hmissing : reg.contains kind = false)
    (handler : ConditionHandler) (env : ConditionEnv) {cs : List Condition} {flipped : Bool}
    (hup : reg.Upright kind flipped cs) :
    Implies flipped (reg.allHold env cs) ((reg.register kind handler).allHold env cs) := by
  rw [allHold, allHold, evaluateAll_fst, evaluateAll_fst]
  exact Implies.all fun g hg =>
    evaluate_register hmissing handler env g flipped (Guard.uprightAll_iff.mp hup g hg)

/-- A missing handler lets nothing pass that it would not let pass itself, as long as no negation turns
its condition round. -/
theorem allHold_register {kind : String} (hmissing : reg.contains kind = false)
    (handler : ConditionHandler) (env : ConditionEnv) {cs : List Condition}
    (hup : reg.Upright kind false cs) (h : reg.allHold env cs) :
    (reg.register kind handler).allHold env cs :=
  Bool.le_iff_imp.mp (implies_allHold hmissing handler env hup) h

def composite (kind : String) (members : List Condition) : Condition :=
  ⟨kind, SortedMap.ofList [("conditions", .array (members.map Condition.toJson))], false⟩

def moonPhase : Condition := ⟨"moon_phase", .empty, false⟩

def nowhere : ConditionEnv := ⟨{}, {}, "", 0, none, 0⟩

def fullMoon : ConditionHandler := .test fun _ _ => .ok true

def moonlit : Condition :=
  composite "any" [composite "not" [composite "not" [moonPhase]], composite "all" []]

theorem ofCondition_moonPhase :
    Guard.ofCondition moonPhase = .single moonPhase (.param (.missing "conditions")) := by
  rw [Guard.ofCondition_eq]
  rfl

theorem ofCondition_composite {kind : String} {members : List Condition}
    (h : (composite kind members).members = .ok members) :
    Guard.ofCondition (composite kind members) =
      .group (composite kind members) (members.map Guard.ofCondition) := by
  rw [Guard.ofCondition_eq, h]

theorem ofCondition_moonlit :
    Guard.ofCondition moonlit =
      .group moonlit [.group (composite "not" [composite "not" [moonPhase]])
        [.group (composite "not" [moonPhase])
          [.single moonPhase (.param (.missing "conditions"))]],
        .group (composite "all" []) []] := by
  have hinner := @ofCondition_composite "not" [moonPhase] rfl
  have houter := @ofCondition_composite "not" [composite "not" [moonPhase]] rfl
  have hall := @ofCondition_composite "all" [] rfl
  have hany := @ofCondition_composite "any"
    [composite "not" [composite "not" [moonPhase]], composite "all" []] rfl
  simp only [moonlit, hany, houter, hinner, hall, List.map_cons, List.map_nil,
    ofCondition_moonPhase]

theorem allHold_register_moonlit :
    builtin.contains "moon_phase" = false ∧ builtin.Upright "moon_phase" false [moonlit] ∧
      builtin.allHold nowhere [moonlit] = true ∧
      (builtin.register "moon_phase" fullMoon).allHold nowhere [moonlit] = true := by
  have hmissing : builtin.contains "moon_phase" = false := by decide
  have hup : builtin.Upright "moon_phase" false [moonlit] := by
    rw [Upright, List.map_singleton, ofCondition_moonlit]
    rfl
  have hholds : builtin.allHold nowhere [moonlit] = true := by
    rw [allHold, List.map_singleton, ofCondition_moonlit]
    rfl
  exact ⟨hmissing, hup, hholds, allHold_register hmissing fullMoon nowhere hup hholds⟩

/-- Without a handler for the moon, its absence lets a rule fire that the full moon would keep quiet. -/
theorem allHold_not_moonPhase :
    builtin.handlers.get? "all" = some (.combine .all) ∧
      builtin.handlers.get? "any" = some (.combine .any) ∧
      builtin.handlers.get? "not" = some (.combine .not) ∧
      builtin.contains "moon_phase" = false ∧
      builtin.allHold nowhere [composite "not" [moonPhase]] = true ∧
      (builtin.register "moon_phase" fullMoon).allHold nowhere
        [composite "not" [moonPhase]] = false := by
  have hguard : Guard.ofCondition (composite "not" [moonPhase]) =
      .group (composite "not" [moonPhase])
        [.single moonPhase (.param (.missing "conditions"))] := by
    rw [@ofCondition_composite "not" [moonPhase] rfl, List.map_singleton, ofCondition_moonPhase]
  refine ⟨rfl, rfl, rfl, by decide, ?_, ?_⟩
  · rw [allHold, List.map_singleton, hguard]
    rfl
  · rw [allHold, List.map_singleton, hguard]
    rfl

end ConditionRegistry

end WorldTriggers
