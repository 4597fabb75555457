import WorldTriggers.Proofs.Condition

namespace WorldTriggers

inductive Formula where
  | atom (value : Bool)
  | conj (members : List Formula)
  | disj (members : List Formula)
  | neg (operand : Formula)

namespace Formula

def Holds : Formula → Prop
  | atom value => value = true
  | conj members => ∀ φ, (_ : φ ∈ members) → φ.Holds
  | disj members => ∃ φ, ∃ _ : φ ∈ members, φ.Holds
  | neg operand => ¬operand.Holds

def signed (φ : Formula) (negate : Bool) : Formula := if negate then .neg φ else φ

theorem holds_signed {φ : Formula} {negate value : Bool} (h : value = true ↔ φ.Holds) :
    (value != negate) = true ↔ (φ.signed negate).Holds := by
  cases negate with
  | false => simpa [signed] using h
  | true => simp [signed, Holds, ← h]

end Formula

namespace Combination

def kind : Combination → String
  | all => "all"
  | any => "any"
  | not => "not"

def formula : Combination → List Formula → Formula
  | all, members => .conj members
  | any, members => .disj members
  | not, members => .neg (.conj members)

def inner : Combination → Combination
  | all => all
  | any => any
  | not => all

theorem holds_formula {how : Combination} {members : List (Condition × Formula)} {f : Guard → Bool}
    (h : ∀ m ∈ members, f (.ofCondition m.1) = true ↔ m.2.Holds) :
    how.value ((members.map Prod.fst).map Guard.ofCondition) f = true ↔
      (how.formula (members.map Prod.snd)).Holds := by
  have hall : ((members.map Prod.fst).map Guard.ofCondition).all f = true ↔
      (Formula.conj (members.map Prod.snd)).Holds := by
    simp only [List.all_map, List.all_eq_true, Formula.Holds, List.forall_mem_map]
    exact forall₂_congr h
  cases how with
  | all => exact hall
  | any =>
    simp only [value, List.any_map, List.any_eq_true, formula, Formula.Holds, exists_prop,
      List.mem_map, exists_exists_and_eq_and]
    exact exists_congr fun m => and_congr_right (h m)
  | not =>
    rw [value, formula, Formula.Holds, ← hall]
    simp

end Combination

namespace Condition

structure Groups (c : Condition) (how : Combination) (negate : Bool) (ds : List Condition) : Prop where
  kind : c.kind = how.kind
  negate : c.negate = negate
  members : c.members = .ok ds

def inverted (c : Condition) : Condition := { c with negate := !c.negate }

@[simp] theorem inverted_inverted (c : Condition) : c.inverted.inverted = c := by simp [inverted]

theorem inverted_comp_inverted : inverted ∘ inverted = id := funext inverted_inverted

/-- The laws by which conditions may be rewritten. -/
inductive Law : Condition → Condition → Prop where
  | anyToAll {c c' : Condition} {negate : Bool} {ds : List Condition} (h : c.Groups .any negate ds)
      (h' : c'.Groups .all (!negate) (ds.map inverted)) : Law c c'
  | allToAny {c c' : Condition} {negate : Bool} {ds : List Condition} (h : c.Groups .all negate ds)
      (h' : c'.Groups .any (!negate) (ds.map inverted)) : Law c c'
  | notToAll {c c' : Condition} {negate : Bool} {ds : List Condition} (h : c.Groups .not negate ds)
      (h' : c'.Groups .all (!negate) ds) : Law c c'
  | reorder {c c' : Condition} {how : Combination} {negate : Bool} {ds es : List Condition}
      (hperm : ds.Perm es) (h : c.Groups how negate ds) (h' : c'.Groups how negate es) : Law c c'
  | flatten {c c' d : Condition} {how : Combination} {negate : Bool} {before ds after : List Condition}
      (h : c.Groups how negate (before ++ d :: after)) (hd : d.Groups how.inner false ds)
      (h' : c'.Groups how negate (before ++ ds ++ after)) : Law c c'
  | inside {c c' d d' : Condition} {how : Combination} {negate : Bool} {before after : List Condition}
      (h : c.Groups how negate (before ++ d :: after)) (hd : Law d d')
      (h' : c'.Groups how negate (before ++ d' :: after)) : Law c c'

end Condition

namespace ConditionRegistry

variable {reg : ConditionRegistry} {env : ConditionEnv} {c c' : Condition}

def verdict (reg : ConditionRegistry) (env : ConditionEnv) (c : Condition) : Verdict :=
  reg.evaluate env (.ofCondition c)

def HasCombinations (reg : ConditionRegistry) : Prop :=
  ∀ how : Combination, reg.handlers.get? how.kind = some (.combine how)

def answer (reg : ConditionRegistry) (env : ConditionEnv)
    (start : Params → ConditionEnv → (members : Nat) → Inquiry members) (c : Condition) :
    Except ConditionError Bool × List Complaint :=
  match c.members with
  | .ok ds => (start c.params env _).answer (reg.evaluateMember (ds.map Guard.ofCondition))
  | .error _ => (start c.params env 0).answer fun i _ => i.elim0

def NoneInquires (reg : ConditionRegistry) : Prop :=
  ∀ kind start, reg.handlers.get? kind ≠ some (.inquire start)

/-- A condition whose lists can be read, and whose tests can be decided, stands for a formula. -/
inductive Reads (reg : ConditionRegistry) (env : ConditionEnv) : Condition → Formula → Prop where
  | test {c : Condition} {decide : Params → ConditionEnv → Except ConditionError Bool} {value : Bool}
      (hget : reg.handlers.get? c.kind = some (.test decide)) (hvalue : decide c.params env = .ok value) :
      Reads reg env c ((Formula.atom value).signed c.negate)
  | inquire {c : Condition} {start : Params → ConditionEnv → (members : Nat) → Inquiry members}
      {value : Bool} (hget : reg.handlers.get? c.kind = some (.inquire start))
      (hvalue : (reg.answer env start c).1 = .ok value) :
      Reads reg env c ((Formula.atom value).signed c.negate)
  | group {c : Condition} {how : Combination} (members : List (Condition × Formula))
      (hkind : c.kind = how.kind) (hmembers : c.members = .ok (members.map Prod.fst))
      (h : ∀ m ∈ members, Reads reg env m.1 m.2) :
      Reads reg env c ((how.formula (members.map Prod.snd)).signed c.negate)

def Decided (reg : ConditionRegistry) (env : ConditionEnv) (c : Condition) : Prop :=
  ∃ φ, Reads reg env c φ

theorem verdict_test {decide : Params → ConditionEnv → Except ConditionError Bool}
    (h : reg.handlers.get? c.kind = some (.test decide)) :
    reg.verdict env c = conclude c (decide c.params env) := by
  rw [verdict, Guard.ofCondition_eq]
  cases c.members <;> simp [evaluate, h]

theorem verdict_inquire {start : Params → ConditionEnv → (members : Nat) → Inquiry members}
    (h : reg.handlers.get? c.kind = some (.inquire start)) :
    (reg.verdict env c).1 = (conclude c (reg.answer env start c).1).1 := by
  rw [verdict, Guard.ofCondition_eq, answer]
  cases c.members <;> simp [evaluate, h]

theorem verdict_group {how : Combination} {ds : List Condition} (hreg : reg.HasCombinations)
    (hkind : c.kind = how.kind) (hmembers : c.members = .ok ds) :
    (reg.verdict env c).1 =
      (how.value (ds.map Guard.ofCondition) (fun g => (evaluate reg env g).1) != c.negate) := by
  rw [verdict, Guard.ofCondition_eq, hmembers]
  exact evaluate_combine (hkind ▸ hreg how)

theorem exists_mem_of_verdict_group {how : Combination} {ds : List Condition}
    (hreg : reg.HasCombinations) (hkind : c.kind = how.kind) (hmembers : c.members = .ok ds)
    {x : Complaint} (hx : x ∈ (reg.verdict env c).2) : ∃ d ∈ ds, x ∈ (reg.verdict env d).2 := by
  rw [verdict, Guard.ofCondition_eq, hmembers] at hx
  obtain ⟨g, hg, hx⟩ := exists_mem_of_evaluate_combine (hkind ▸ hreg how) hx
  obtain ⟨d, hd, rfl⟩ := List.mem_map.mp hg
  exact ⟨d, hd, hx⟩

theorem Reads.verdict_fst {φ : Formula} (hreg : reg.HasCombinations) (h : Reads reg env c φ) :
    (reg.verdict env c).1 = true ↔ φ.Holds := by
  induction h with
  | test hget hvalue =>
    rw [verdict_test hget, hvalue]
    exact Formula.holds_signed (by simp [Formula.Holds])
  | inquire hget hvalue =>
    rw [verdict_inquire hget, hvalue]
    exact Formula.holds_signed (by simp [Formula.Holds])
  | group members hkind hmembers h ih =>
    rw [verdict_group hreg hkind hmembers]
    exact Formula.holds_signed (Combination.holds_formula ih)

theorem Reads.verdict_snd {φ : Formula} (hreg : reg.HasCombinations) (hnone : reg.NoneInquires)
    (h : Reads reg env c φ) : (reg.verdict env c).2 = [] := by
  induction h with
  | test hget hvalue =>
    rw [verdict_test hget, hvalue]
    rfl
  | inquire hget => exact absurd hget (hnone _ _)
  | group members hkind hmembers h ih =>
    apply List.eq_nil_iff_forall_not_mem.mpr
    intro x hx
    obtain ⟨d, hd, hx⟩ := exists_mem_of_verdict_group hreg hkind hmembers hx
    obtain ⟨m, hm, rfl⟩ := List.mem_map.mp hd
    rw [ih m hm] at hx
    cases hx

theorem exists_reads {ds : List Condition} (h : ∀ d ∈ ds, reg.Decided env d) :
    ∃ members : List (Condition × Formula),
      members.map Prod.fst = ds ∧ ∀ m ∈ members, Reads reg env m.1 m.2 := by
  induction ds with
  | nil => exact ⟨[], rfl, List.forall_mem_nil _⟩
  | cons d ds ih =>
    obtain ⟨⟨φ, hφ⟩, hds⟩ := List.forall_mem_cons.mp h
    obtain ⟨members, rfl, hmembers⟩ := ih hds
    exact ⟨(d, φ) :: members, rfl, List.forall_mem_cons.mpr ⟨hφ, hmembers⟩⟩

section Laws

open Condition

variable {how : Combination} {negate : Bool} {d : Condition} {ds : List Condition}

theorem decided_group_iff (hreg : reg.HasCombinations) (h : c.Groups how negate ds) :
    reg.Decided env c ↔ ∀ d ∈ ds, reg.Decided env d := by
  constructor
  · rintro ⟨φ, hφ⟩
    cases hφ with
    | test hget | inquire hget =>
      rw [h.kind, hreg how] at hget
      cases hget
    | group members hkind hmembers hall =>
      rw [h.members] at hmembers
      obtain rfl := Except.ok.inj hmembers
      intro d hd
      obtain ⟨m, hm, rfl⟩ := List.mem_map.mp hd
      exact ⟨m.2, hall m hm⟩
  · intro hds
    obtain ⟨members, rfl, hmembers⟩ := exists_reads hds
    exact ⟨_, .group members h.kind h.members hmembers⟩

theorem Reads.inverted {φ : Formula} (h : Reads reg env c φ) :
    ∃ ψ, Reads reg env c.inverted ψ ∧ (ψ.Holds ↔ ¬φ.Holds) := by
  have hsigned (χ : Formula) : (χ.signed (!c.negate)).Holds ↔ ¬(χ.signed c.negate).Holds := by
    cases c.negate <;> simp [Formula.signed, Formula.Holds]
  cases h with
  | test hget hvalue => exact ⟨_, .test (c := c.inverted) hget hvalue, hsigned _⟩
  | inquire hget hvalue => exact ⟨_, .inquire (c := c.inverted) hget hvalue, hsigned _⟩
  | group members hkind hmembers h =>
    exact ⟨_, .group (c := c.inverted) members hkind hmembers h, hsigned _⟩

theorem decided_inverted_iff : reg.Decided env d.inverted ↔ reg.Decided env d := by
  have hinverted {d : Condition} (h : reg.Decided env d) : reg.Decided env d.inverted := by
    obtain ⟨φ, hφ⟩ := h
    obtain ⟨ψ, hψ, -⟩ := hφ.inverted
    exact ⟨ψ, hψ⟩
  constructor
  · intro h
    exact Condition.inverted_inverted d ▸ hinverted h
  · exact hinverted

theorem verdict_inverted (hreg : reg.HasCombinations) (h : reg.Decided env d) :
    (reg.verdict env d.inverted).1 = !(reg.verdict env d).1 := by
  obtain ⟨φ, hφ⟩ := h
  obtain ⟨ψ, hψ, hneg⟩ := hφ.inverted
  rw [Bool.eq_iff_iff, hψ.verdict_fst hreg, hneg, ← hφ.verdict_fst hreg]
  simp

theorem all_inverted (hreg : reg.HasCombinations) (h : ∀ d ∈ ds, reg.Decided env d) :
    ((ds.map Condition.inverted).map Guard.ofCondition).all (fun g => (evaluate reg env g).1) =
      !(ds.map Guard.ofCondition).any fun g => (evaluate reg env g).1 := by
  rw [List.all_map, List.all_map, List.any_map, List.not_any_eq_all_not, Bool.eq_iff_iff,
    List.all_eq_true, List.all_eq_true]
  apply forall₂_congr
  intro d hd
  rw [Function.comp_apply, Function.comp_apply, ← verdict, verdict_inverted hreg (h d hd)]
  rfl

theorem any_inverted (hreg : reg.HasCombinations) (h : ∀ d ∈ ds, reg.Decided env d) :
    ((ds.map Condition.inverted).map Guard.ofCondition).any (fun g => (evaluate reg env g).1) =
      !(ds.map Guard.ofCondition).all fun g => (evaluate reg env g).1 := by
  have hinverted : ∀ d ∈ ds.map Condition.inverted, reg.Decided env d := by
    simpa only [List.forall_mem_map, decided_inverted_iff] using h
  have htwice : (ds.map Condition.inverted).map Condition.inverted = ds := by
    rw [List.map_map, Condition.inverted_comp_inverted, List.map_id]
  have hall := all_inverted hreg hinverted
  rw [htwice] at hall
  rw [hall, Bool.not_not]

theorem Law.decided_iff (hreg : reg.HasCombinations) (h : Law c c') :
    reg.Decided env c ↔ reg.Decided env c' := by
  induction h with
  | anyToAll h h' | allToAny h h' =>
    simp only [decided_group_iff hreg h, decided_group_iff hreg h', List.forall_mem_map,
      decided_inverted_iff]
  | notToAll h h' => rw [decided_group_iff hreg h, decided_group_iff hreg h']
  | reorder hperm h h' =>
    rw [decided_group_iff hreg h, decided_group_iff hreg h']
    exact forall_congr' fun d => by rw [hperm.mem_iff]
  | flatten h hd h' =>
    simp only [decided_group_iff hreg h, decided_group_iff hreg h', List.forall_mem_append,
      List.forall_mem_cons, decided_group_iff hreg hd, and_assoc]
  | inside h hd h' ih =>
    simp only [decided_group_iff hreg h, decided_group_iff hreg h', List.forall_mem_append,
      List.forall_mem_cons, ih]

theorem Groups.verdict (hreg : reg.HasCombinations) (h : c.Groups how negate ds) :
    (reg.verdict env c).1 =
      (how.value (ds.map Guard.ofCondition) (fun g => (evaluate reg env g).1) != negate) := by
  rw [verdict_group hreg h.kind h.members, h.negate]

theorem Law.verdict_fst (hreg : reg.HasCombinations) (h : Law c c') (hc : reg.Decided env c) :
    (reg.verdict env c').1 = (reg.verdict env c).1 := by
  induction h with
  | anyToAll h h' =>
    rw [Groups.verdict hreg h, Groups.verdict hreg h']
    simp only [Combination.value, all_inverted hreg ((decided_group_iff hreg h).mp hc), Bool.not_bne_not]
  | allToAny h h' =>
    rw [Groups.verdict hreg h, Groups.verdict hreg h']
    simp only [Combination.value, any_inverted hreg ((decided_group_iff hreg h).mp hc), Bool.not_bne_not]
  | notToAll h h' =>
    rw [Groups.verdict hreg h, Groups.verdict hreg h']
    simp [Combination.value]
  | @reorder c c' how negate ds es hperm h h' =>
    rw [Groups.verdict hreg h, Groups.verdict hreg h']
    have hperm := hperm.map Guard.ofCondition
    cases how <;> simp only [Combination.value, hperm.all_eq, hperm.any_eq]
  | @flatten c c' d how negate before ds after h hd h' =>
    rw [Groups.verdict hreg h, Groups.verdict hreg h']
    have hinner : (evaluate reg env (.ofCondition d)).1 = how.inner.value (ds.map Guard.ofCondition)
        fun g => (evaluate reg env g).1 := by
      simpa [ConditionRegistry.verdict] using Groups.verdict hreg hd
    simp only [List.map_append, List.map_cons]
    cases how <;> simp only [Combination.value, Combination.inner] at hinner ⊢ <;>
      simp only [List.all_append, List.all_cons, List.any_append, List.any_cons, hinner,
        Bool.and_assoc, Bool.or_assoc]
  | @inside c c' d d' how negate before after h hd h' ih =>
    rw [Groups.verdict hreg h, Groups.verdict hreg h']
    have hsame := ih ((decided_group_iff hreg h).mp hc d (by simp))
    rw [ConditionRegistry.verdict, ConditionRegistry.verdict] at hsame
    cases how <;> simp [Combination.value, hsame]

theorem EqvGen.decided_iff (hreg : reg.HasCombinations) (h : Relation.EqvGen Law c c') :
    reg.Decided env c ↔ reg.Decided env c' := by
  induction h with
  | rel c c' h => exact Law.decided_iff hreg h
  | refl c => exact Iff.rfl
  | symm c c' _ ih => exact ih.symm
  | trans c d c' _ _ ih ih' => exact ih.trans ih'

theorem EqvGen.verdict_fst (hreg : reg.HasCombinations) (h : Relation.EqvGen Law c c')
    (hc : reg.Decided env c) : (reg.verdict env c').1 = (reg.verdict env c).1 := by
  induction h with
  | rel c c' h => exact Law.verdict_fst hreg h hc
  | refl c => rfl
  | symm c c' h ih => exact (ih ((EqvGen.decided_iff hreg h).mpr hc)).symm
  | trans c d c' h _ ih ih' => exact (ih' ((EqvGen.decided_iff hreg h).mp hc)).trans (ih hc)

theorem EqvGen.verdict_eq (hreg : reg.HasCombinations) (hnone : reg.NoneInquires)
    (h : Relation.EqvGen Law c c') (hc : reg.Decided env c) :
    reg.verdict env c' = reg.verdict env c := by
  refine Prod.ext (EqvGen.verdict_fst hreg h hc) ?_
  obtain ⟨φ', hφ'⟩ := (EqvGen.decided_iff hreg h).mp hc
  obtain ⟨φ, hφ⟩ := hc
  rw [hφ.verdict_snd hreg hnone, hφ'.verdict_snd hreg hnone]

/-- All the verdicts on decided trees are those of classical logic: each is the value of the tree's
formula, a list holds if all its members do, and rewriting by the laws changes no verdict. There is nothing
to complain of, but for what a handler has evaluated that inquires. -/
theorem verdicts_classical (hreg : reg.HasCombinations) (env : ConditionEnv) :
    (∀ c φ, Reads reg env c φ → ((reg.verdict env c).1 = true ↔ φ.Holds) ∧
        (reg.NoneInquires → (reg.verdict env c).2 = [])) ∧
      (∀ members : List (Condition × Formula), (∀ m ∈ members, Reads reg env m.1 m.2) →
        (reg.allHold env (members.map Prod.fst) = true ↔ ∀ m ∈ members, m.2.Holds)) ∧
      ∀ c c', Relation.EqvGen Law c c' → reg.Decided env c →
        (reg.verdict env c').1 = (reg.verdict env c).1 ∧
          (reg.NoneInquires → reg.verdict env c' = reg.verdict env c) := by
  refine ⟨fun c φ h => ⟨h.verdict_fst hreg, fun hnone => h.verdict_snd hreg hnone⟩,
    fun members h => ?_,
    fun c c' h hc => ⟨EqvGen.verdict_fst hreg h hc, fun hnone => EqvGen.verdict_eq hreg hnone h hc⟩⟩
  rw [allHold, evaluateAll_fst, List.map_map, List.all_map, List.all_eq_true]
  exact forall₂_congr fun m hm => (h m hm).verdict_fst hreg

end Laws

theorem hasCombinations_builtin : builtin.HasCombinations := by
  intro how
  cases how <;> rfl

theorem noneInquires_builtin : builtin.NoneInquires := by
  intro kind start hget
  have hmem := SortedMap.mem_ofList (SortedMap.get?_eq_some_iff.mp hget)
  simp at hmem

def alone : ConditionEnv := ⟨{}, { actor := some "alice" }, "", 0, none, 0⟩

def inCombat : Condition := ⟨"in_combat", .empty, false⟩

def daytime : Condition := ⟨"time_of_day", .empty, false⟩

def uneasy : Condition :=
  (composite "any" [composite "not" [inCombat], daytime.inverted]).inverted

def uneasyFormula : Formula := .neg (.disj [.neg (.conj [.atom false]), .neg (.atom true)])

def uneasyToo : Condition := composite "all" [(composite "not" [inCombat]).inverted, daytime]

theorem reads_uneasy : Reads builtin alone uneasy uneasyFormula := by
  have hcombat : Reads builtin alone inCombat (.atom false) := by
    have hget : builtin.handlers.get? inCombat.kind = some (.test ConditionHandler.inCombat) := rfl
    exact .test hget rfl
  have hday : Reads builtin alone daytime.inverted (.neg (.atom true)) := by
    have hget : builtin.handlers.get? daytime.inverted.kind = some (.test ConditionHandler.timeOfDay) :=
      rfl
    exact .test hget rfl
  have hpeace : Reads builtin alone (composite "not" [inCombat]) (.neg (.conj [.atom false])) := by
    have hkind : (composite "not" [inCombat]).kind = Combination.not.kind := rfl
    exact .group [(inCombat, .atom false)] hkind rfl (by simpa using hcombat)
  have hkind : uneasy.kind = Combination.any.kind := rfl
  exact .group
    [(composite "not" [inCombat], .neg (.conj [.atom false])), (daytime.inverted, .neg (.atom true))]
    hkind rfl (by simpa using ⟨hpeace, hday⟩)

theorem law_uneasy : Condition.Law uneasy uneasyToo := by
  have hany : uneasy.Groups .any true [composite "not" [inCombat], daytime.inverted] := ⟨rfl, rfl, rfl⟩
  exact .anyToAll hany ⟨rfl, rfl, rfl⟩

theorem verdicts_classical_uneasy :
    builtin.HasCombinations ∧ Reads builtin alone uneasy uneasyFormula ∧ ¬uneasyFormula.Holds ∧
      Condition.Law uneasy uneasyToo ∧ builtin.verdict alone uneasy = (false, []) ∧
      builtin.verdict alone uneasyToo = (false, []) ∧ builtin.allHold alone [uneasy] = false := by
  have hnot : ¬uneasyFormula.Holds := by simp [uneasyFormula, Formula.Holds]
  obtain ⟨hvalues, hlists, hlaws⟩ := verdicts_classical hasCombinations_builtin alone
  obtain ⟨hvalue, hlog⟩ := hvalues _ _ reads_uneasy
  have hverdict : builtin.verdict alone uneasy = (false, []) :=
    Prod.ext (Bool.eq_false_iff.mpr fun h => hnot (hvalue.mp h)) (hlog noneInquires_builtin)
  have hlist : ¬builtin.allHold alone [uneasy] = true := fun h =>
    hnot ((hlists [(uneasy, uneasyFormula)] (by simpa using reads_uneasy)).mp h _ (List.mem_singleton_self _))
  exact ⟨hasCombinations_builtin, reads_uneasy, hnot, law_uneasy, hverdict,
    ((hlaws _ _ (.rel _ _ law_uneasy) ⟨_, reads_uneasy⟩).2 noneInquires_builtin).trans hverdict,
    Bool.eq_false_iff.mpr hlist⟩

end ConditionRegistry

end WorldTriggers
