import WorldTriggers.Proofs.Condition.Formula

/-!
What is checked of conditions before any of them is evaluated. A list is well-formed if the members of
all composite conditions in it can be read; its unknown kinds are those without a handler, in the order
in which a walk meets them. Both foretell what evaluation complains of, as long as it goes no other way than
the walk (`complaints_foretold`).
-/

namespace WorldTriggers

namespace Condition

def Nests (c d : Condition) : Prop := c.kind ∈ compositeKinds ∧ ∃ ds, c.members = .ok ds ∧ d ∈ ds

def Within (cs : List Condition) (d : Condition) : Prop := ∃ c ∈ cs, Relation.ReflTransGen Nests c d

theorem wellFounded_members : WellFounded fun d c : Condition => ∃ ds, c.members = .ok ds ∧ d ∈ ds := by
  refine Subrelation.wf ?_ (InvImage.wf height Nat.lt_wfRel.wf)
  rintro d c ⟨ds, hds, hd⟩
  exact height_lt_of_members hds hd

theorem induct {P : Condition → Prop}
    (h : ∀ c, (∀ ds, c.members = .ok ds → ∀ d ∈ ds, P d) → P c) (c : Condition) : P c :=
  wellFounded_members.induction c fun c ih => h c fun ds hds d hd => ih d ⟨ds, hds, hd⟩

theorem reach_iff {c d : Condition} : Relation.ReflTransGen Nests c d ↔
    c = d ∨ c.kind ∈ compositeKinds ∧ ∃ ds, c.members = .ok ds ∧ Within ds d := by
  rw [Relation.ReflTransGen.cases_head_iff]
  apply or_congr_right
  constructor
  · rintro ⟨e, ⟨hkind, ds, hds, he⟩, hd⟩
    exact ⟨hkind, ds, hds, e, he, hd⟩
  · rintro ⟨hkind, ds, hds, e, he, hd⟩
    exact ⟨e, ⟨hkind, ds, hds, he⟩, hd⟩

/-- The kinds in the trees of a list as a walk meets them, a condition before its members. -/
inductive Visits : List Condition → List String → Prop where
  | nil : Visits [] []
  | composite {c : Condition} {cs ds : List Condition} {ks ls : List String}
      (hkind : c.kind ∈ compositeKinds) (hmembers : c.members = .ok ds) (hds : Visits ds ks)
      (hcs : Visits cs ls) : Visits (c :: cs) (c.kind :: (ks ++ ls))
  | single {c : Condition} {cs : List Condition} {ls : List String}
      (h : c.kind ∈ compositeKinds → ∃ e, c.members = .error e) (hcs : Visits cs ls) :
      Visits (c :: cs) (c.kind :: ls)

end Condition

namespace Guard

open Condition

variable {c : Condition} {cs : List Condition} {ks : List String}

mutual

def kinds : Guard → List String
  | group c members => if compositeKinds.contains c.kind then c.kind :: kindsOf members else [c.kind]
  | single c _ => [c.kind]

def kindsOf : List Guard → List String
  | [] => []
  | g :: rest => kinds g ++ kindsOf rest

end

theorem validate_ofCondition (c : Condition) : validate (.ofCondition c) =
    if c.kind ∈ compositeKinds then
      match c.members with
      | .ok ds => validateAll (ds.map ofCondition)
      | .error e => .error e
    else .ok () := by
  rw [ofCondition_eq]
  cases c.members <;> simp [validate]

theorem kinds_ofCondition (c : Condition) : kinds (.ofCondition c) = c.kind ::
    if c.kind ∈ compositeKinds then
      match c.members with
      | .ok ds => kindsOf (ds.map ofCondition)
      | .error _ => []
    else [] := by
  rw [ofCondition_eq]
  cases c.members <;> by_cases hkind : c.kind ∈ compositeKinds <;> simp [kinds, hkind]

theorem validateAll_eq_ok_iff {gs : List Guard} :
    validateAll gs = .ok () ↔ ∀ g ∈ gs, validate g = .ok () := by
  induction gs with
  | nil => simp [validateAll]
  | cons g gs ih =>
    rw [validateAll, List.forall_mem_cons, ← ih]
    cases validate g <;> simp [bind, Except.bind]

theorem validate_eq_ok_iff : validate (.ofCondition c) = .ok () ↔
    ∀ d, Relation.ReflTransGen Nests c d → d.kind ∈ compositeKinds → ∃ ds, d.members = .ok ds := by
  induction c using Condition.induct with
  | h c ih =>
    rw [validate_ofCondition]
    split
    · rename_i hkind
      cases hmembers : c.members with
      | error e =>
        apply iff_of_false (by simp)
        intro h
        obtain ⟨ds, hds⟩ := h c .refl hkind
        rw [hmembers] at hds
        cases hds
      | ok ds =>
        rw [validateAll_eq_ok_iff, List.forall_mem_map]
        constructor
        · intro h d hd hd'
          rcases reach_iff.mp hd with rfl | ⟨-, es, hes, e, he, hd⟩
          · exact ⟨ds, hmembers⟩
          · obtain rfl := Except.ok.inj (hmembers.symm.trans hes)
            exact (ih ds hmembers e he).mp (h e he) d hd hd'
        · intro h e he
          apply (ih ds hmembers e he).mpr
          intro d hd
          exact h d (reach_iff.mpr (.inr ⟨hkind, ds, hmembers, e, he, hd⟩))
    · rename_i hkind
      apply iff_of_true rfl
      intro d hd hd'
      rcases reach_iff.mp hd with rfl | ⟨hkind', -⟩
      · exact absurd hd' hkind
      · exact absurd hkind' hkind

theorem mem_kindsOf {gs : List Guard} {k : String} : k ∈ kindsOf gs ↔ ∃ g ∈ gs, k ∈ kinds g := by
  induction gs with
  | nil => simp [kindsOf]
  | cons g gs ih => simp [kindsOf, ih]

theorem mem_kinds_iff {k : String} :
    k ∈ kinds (.ofCondition c) ↔ ∃ d, Relation.ReflTransGen Nests c d ∧ d.kind = k := by
  induction c using Condition.induct with
  | h c ih =>
    rw [kinds_ofCondition, List.mem_cons]
    constructor
    · rintro (rfl | hk)
      · exact ⟨c, .refl, rfl⟩
      · split at hk
        · rename_i hkind
          cases hmembers : c.members with
          | error e => simp [hmembers] at hk
          | ok ds =>
            rw [hmembers] at hk
            obtain ⟨g, hg, hk⟩ := mem_kindsOf.mp hk
            obtain ⟨e, he, rfl⟩ := List.mem_map.mp hg
            obtain ⟨d, hd, hdk⟩ := (ih ds hmembers e he).mp hk
            exact ⟨d, reach_iff.mpr (.inr ⟨hkind, ds, hmembers, e, he, hd⟩), hdk⟩
        · cases hk
    · rintro ⟨d, hd, rfl⟩
      rcases reach_iff.mp hd with rfl | ⟨hkind, ds, hmembers, e, he, hd⟩
      · exact .inl rfl
      · right
        rw [if_pos hkind, hmembers]
        exact mem_kindsOf.mpr ⟨_, List.mem_map_of_mem he, (ih ds hmembers e he).mpr ⟨d, hd, rfl⟩⟩

theorem visits_kindsOf (cs : List Condition) : Visits cs (kindsOf (cs.map ofCondition)) := by
  have hlist {ds : List Condition}
      (h : ∀ d ∈ ds, ∀ cs ls, Visits cs ls → Visits (d :: cs) (kinds (ofCondition d) ++ ls)) :
      Visits ds (kindsOf (ds.map ofCondition)) := by
    induction ds with
    | nil => exact .nil
    | cons d ds ih =>
      obtain ⟨hd, hds⟩ := List.forall_mem_cons.mp h
      exact hd _ _ (ih hds)
  have hone (c : Condition) :
      ∀ cs ls, Visits cs ls → Visits (c :: cs) (kinds (ofCondition c) ++ ls) := by
    induction c using Condition.induct with
    | h c ih =>
      intro cs ls hcs
      rw [kinds_ofCondition]
      split
      · rename_i hkind
        cases hmembers : c.members with
        | error e => exact .single (fun _ => ⟨e, hmembers⟩) hcs
        | ok ds => exact .composite hkind hmembers (hlist (ih ds hmembers)) hcs
      · rename_i hkind
        exact .single (fun hkind' => absurd hkind' hkind) hcs
  exact hlist fun c _ => hone c

theorem eq_kindsOf_of_visits (h : Visits cs ks) : ks = kindsOf (cs.map ofCondition) := by
  induction h with
  | nil => rfl
  | composite hkind hmembers _ _ ihds ihcs =>
    rw [List.map_cons, kindsOf, kinds_ofCondition, if_pos hkind, hmembers, ← ihcs, ihds]
    rfl
  | @single c cs ls h _ ihcs =>
    rw [List.map_cons, kindsOf, kinds_ofCondition, ← ihcs]
    split
    · rename_i hkind
      obtain ⟨e, hmembers⟩ := h hkind
      rw [hmembers]
      rfl
    · rfl

end Guard

theorem Condition.validate_eq_ok_iff {cs : List Condition} : validate cs = .ok () ↔
    ∀ d, Within cs d → d.kind ∈ compositeKinds → ∃ ds, d.members = .ok ds := by
  rw [validate, Guard.validateAll_eq_ok_iff, List.forall_mem_map]
  constructor
  · rintro h d ⟨c, hc, hd⟩
    exact Guard.validate_eq_ok_iff.mp (h c hc) d hd
  · intro h c hc
    apply Guard.validate_eq_ok_iff.mpr
    intro d hd
    exact h d ⟨c, hc, hd⟩

theorem Guard.mem_kindsOf_iff {cs : List Condition} {k : String} :
    k ∈ kindsOf (cs.map ofCondition) ↔ ∃ d, Condition.Within cs d ∧ d.kind = k := by
  rw [mem_kindsOf]
  constructor
  · rintro ⟨g, hg, hk⟩
    obtain ⟨c, hc, rfl⟩ := List.mem_map.mp hg
    obtain ⟨d, hd, hdk⟩ := mem_kinds_iff.mp hk
    exact ⟨d, ⟨c, hc, hd⟩, hdk⟩
  · rintro ⟨d, ⟨c, hc, hd⟩, hdk⟩
    exact ⟨_, List.mem_map_of_mem hc, mem_kinds_iff.mpr ⟨d, hd, hdk⟩⟩

theorem pairwise_eraseDups_filter {α : Type} [BEq α] [LawfulBEq α] (p : α → Bool) (ks : List α) :
    (ks.filter p).eraseDups.Pairwise fun a b => ks.idxOf a < ks.idxOf b := by
  induction ks generalizing p with
  | nil => simp
  | cons k ks ih =>
    -- Every kind but the first one stands one place further on in the longer list.
    have hnext {q : α → Bool} (hq : q k = false) :
        (ks.filter q).eraseDups.Pairwise fun a b => (k :: ks).idxOf a < (k :: ks).idxOf b := by
      refine (ih q).imp_of_mem ?_
      intro a b ha hb hab
      have hne {a : α} (ha : a ∈ (ks.filter q).eraseDups) : k ≠ a := by
        rintro rfl
        simp [hq] at ha
      rw [List.idxOf_cons_ne _ (hne ha), List.idxOf_cons_ne _ (hne hb)]
      omega
    by_cases hk : p k = true
    · rw [List.filter_cons_of_pos hk, List.eraseDups_cons, List.filter_filter]
      refine List.pairwise_cons.mpr ⟨fun b hb => ?_, hnext (by simp)⟩
      have hne : k ≠ b := by
        rintro rfl
        simp at hb
      rw [List.idxOf_cons_self, List.idxOf_cons_ne _ hne]
      omega
    · rw [List.filter_cons_of_neg hk]
      exact hnext (by simpa using hk)

theorem exists_combination {kind : String} (h : kind ∈ compositeKinds) :
    ∃ how : Combination, kind = how.kind := by
  simp only [compositeKinds, List.mem_cons, List.not_mem_nil, or_false] at h
  rcases h with rfl | rfl | rfl
  · exact ⟨.all, rfl⟩
  · exact ⟨.any, rfl⟩
  · exact ⟨.not, rfl⟩

namespace Inquiry

variable {n : Nat} {f : Fin n → ConditionEnv → Verdict} {q : Inquiry n} {x : Complaint}

/-- In some course of the inquiry a member is evaluated. -/
inductive Asks (i : Fin n) : Inquiry n → Prop where
  | now (env : ConditionEnv) (next : Bool → Inquiry n) : Asks i (ask i env next)
  | later (j : Fin n) (env : ConditionEnv) {next : Bool → Inquiry n} {b : Bool} (h : Asks i (next b)) :
      Asks i (ask j env next)

theorem exists_asks_of_answer (hx : x ∈ (q.answer f).2) : ∃ i env, q.Asks i ∧ x ∈ (f i env).2 := by
  induction q with
  | decided result => cases hx
  | ask member env next ih =>
    rcases List.mem_append.mp hx with hx | hx
    · exact ⟨member, env, .now env next, hx⟩
    · obtain ⟨i, env', hasks, hx⟩ := ih _ hx
      exact ⟨i, env', .later member env hasks, hx⟩

def anyOf (env : ConditionEnv) : List (Fin n) → Inquiry n
  | [] => decided (.ok false)
  | i :: rest => ask i env fun b => if b then decided (.ok true) else anyOf env rest

end Inquiry

namespace ConditionRegistry

open Condition

variable {reg : ConditionRegistry} {env : ConditionEnv} {c d : Condition} {cs : List Condition}
  {x : Complaint}

inductive Evaluates (reg : ConditionRegistry) (c d : Condition) : Prop where
  | combined {how : Combination} {ds : List Condition} (hget : reg.handlers.get? c.kind = some (.combine how))
      (hmembers : c.members = .ok ds) (hd : d ∈ ds)
  | asked {start : Params → ConditionEnv → (members : Nat) → Inquiry members} {ds : List Condition} {n : Nat}
      {i : Fin n} (env : ConditionEnv) (hget : reg.handlers.get? c.kind = some (.inquire start))
      (hmembers : c.members = .ok ds) (hn : n = ds.length) (hd : ds[i.1]? = some d)
      (h : (start c.params env n).Asks i)

theorem Evaluates.exists_members (h : reg.Evaluates c d) : ∃ ds, c.members = .ok ds ∧ d ∈ ds := by
  cases h with
  | combined hget hmembers hd => exact ⟨_, hmembers, hd⟩
  | asked env hget hmembers hn hd h => exact ⟨_, hmembers, List.mem_of_getElem? hd⟩

/-- How a condition comes to be complained of. -/
inductive Complains (reg : ConditionRegistry) (env : ConditionEnv) (c : Condition) : Complaint → Prop where
  | unknown (hget : reg.handlers.get? c.kind = none) : Complains reg env c ⟨c.kind, none⟩
  | failed {decide : Params → ConditionEnv → Except ConditionError Bool} {e : ConditionError}
      (hget : reg.handlers.get? c.kind = some (.test decide)) (he : decide c.params env = .error e) :
      Complains reg env c ⟨c.kind, some e⟩
  | unreadable {how : Combination} {e : ConditionError}
      (hget : reg.handlers.get? c.kind = some (.combine how))
      (he : c.members = .error e) : Complains reg env c ⟨c.kind, some e⟩
  | undecided {start : Params → ConditionEnv → (members : Nat) → Inquiry members} {e : ConditionError}
      (hget : reg.handlers.get? c.kind = some (.inquire start)) (he : (reg.answer env start c).1 = .error e) :
      Complains reg env c ⟨c.kind, some e⟩

theorem verdict_missing (h : reg.handlers.get? c.kind = none) :
    reg.verdict env c = (false, [⟨c.kind, none⟩]) := by
  rw [verdict, Guard.ofCondition_eq]
  cases c.members <;> simp [evaluate, h]

theorem verdict_unreadable {how : Combination} {e : ConditionError}
    (h : reg.handlers.get? c.kind = some (.combine how)) (he : c.members = .error e) :
    reg.verdict env c = (false, [⟨c.kind, some e⟩]) := by
  rw [verdict, Guard.ofCondition_eq, he]
  simp [evaluate, h, conclude]

theorem mem_conclude {result : Except ConditionError Bool} (hx : x ∈ (conclude c result).2) :
    ∃ e, result = .error e ∧ x = ⟨c.kind, some e⟩ := by
  cases result with
  | ok value => cases hx
  | error e => exact ⟨e, rfl, List.mem_singleton.mp hx⟩

theorem mem_verdict_inquire {start : Params → ConditionEnv → (members : Nat) → Inquiry members}
    (hget : reg.handlers.get? c.kind = some (.inquire start)) (hx : x ∈ (reg.verdict env c).2) :
    (∃ d env', reg.Evaluates c d ∧ x ∈ (reg.verdict env' d).2) ∨ Complains reg env c x := by
  have hanswer : x ∈ (reg.answer env start c).2 ∨ x ∈ (conclude c (reg.answer env start c).1).2 := by
    rw [verdict, Guard.ofCondition_eq] at hx
    rw [answer]
    cases hmembers : c.members with
    | ok ds =>
      rw [hmembers] at hx
      simpa [evaluate, hget] using hx
    | error e =>
      rw [hmembers] at hx
      exact .inr (by simpa [evaluate, hget] using hx)
  rcases hanswer with hx | hx
  · left
    rw [answer] at hx
    cases hmembers : c.members with
    | error e =>
      rw [hmembers] at hx
      obtain ⟨i, -⟩ := Inquiry.exists_asks_of_answer hx
      exact i.elim0
    | ok ds =>
      rw [hmembers] at hx
      obtain ⟨i, env', hasks, hx⟩ := Inquiry.exists_asks_of_answer hx
      have hi : i.1 < ds.length := by simpa using i.isLt
      rw [evaluateMember_eq] at hx
      refine ⟨ds[i.1], env', .asked env hget hmembers (List.length_map _) (List.getElem?_eq_getElem hi) hasks,
        ?_⟩
      simpa [verdict] using hx
  · obtain ⟨e, he, rfl⟩ := mem_conclude hx
    exact .inr (.undecided hget he)

theorem exists_complains (hx : x ∈ (reg.verdict env c).2) :
    ∃ d env', Relation.ReflTransGen reg.Evaluates c d ∧ Complains reg env' d x := by
  induction c using Condition.induct generalizing env with
  | h c ih =>
    have hbelow {d : Condition} {env' : ConditionEnv} (hd : reg.Evaluates c d)
        (hx : x ∈ (reg.verdict env' d).2) :
        ∃ d env', Relation.ReflTransGen reg.Evaluates c d ∧ Complains reg env' d x := by
      obtain ⟨ds, hds, hmem⟩ := hd.exists_members
      obtain ⟨d', env'', hreach, hcomplains⟩ := ih ds hds d hmem hx
      exact ⟨d', env'', .head hd hreach, hcomplains⟩
    cases hget : reg.handlers.get? c.kind with
    | none =>
      rw [verdict_missing hget] at hx
      obtain rfl := List.mem_singleton.mp hx
      exact ⟨c, env, .refl, .unknown hget⟩
    | some handler =>
      cases handler with
      | test decide =>
        rw [verdict_test hget] at hx
        obtain ⟨e, he, rfl⟩ := mem_conclude hx
        exact ⟨c, env, .refl, .failed hget he⟩
      | combine how =>
        cases hmembers : c.members with
        | error e =>
          rw [verdict_unreadable hget hmembers] at hx
          obtain rfl := List.mem_singleton.mp hx
          exact ⟨c, env, .refl, .unreadable hget hmembers⟩
        | ok ds =>
          rw [verdict, Guard.ofCondition_eq, hmembers] at hx
          obtain ⟨g, hg, hx⟩ := exists_mem_of_evaluate_combine hget hx
          obtain ⟨d, hd, rfl⟩ := List.mem_map.mp hg
          exact hbelow (.combined hget hmembers hd) hx
      | inquire start =>
        rcases mem_verdict_inquire hget hx with ⟨d, env', hd, hx⟩ | hcomplains
        · exact hbelow hd hx
        · exact ⟨c, env, .refl, hcomplains⟩

theorem Complains.kind_eq (h : Complains reg env d x) : x.kind = d.kind := by
  cases h <;> rfl

theorem Complains.unknown_of_none (h : Complains reg env d x) (hx : x.error = none) :
    reg.handlers.get? d.kind = none := by
  cases h with
  | unknown hget => exact hget
  | failed | unreadable | undecided => cases hx

theorem Complains.unreadable_of_composite (hreg : reg.HasCombinations) (h : Complains reg env d x)
    (hkind : d.kind ∈ compositeKinds) : ∃ e, d.members = .error e := by
  obtain ⟨how, hhow⟩ := exists_combination hkind
  have hcombine := hreg how
  rw [← hhow] at hcombine
  cases h with
  | unreadable _ he => exact ⟨_, he⟩
  | unknown hget | failed hget | undecided hget =>
    rw [hcombine] at hget
    cases hget

section Unknown

theorem foldl_noteUnknown (ks found : List String) :
    ks.foldl (fun found k => reg.noteUnknown k found) found =
      found ++ (ks.filter fun k => !(reg.contains k || found.contains k)).eraseDups := by
  induction ks generalizing found with
  | nil => simp
  | cons k ks ih =>
    rw [List.foldl_cons, ih, noteUnknown, List.filter_cons]
    cases hk : reg.contains k || found.contains k with
    | true => rfl
    | false =>
      -- What is noted now is not noted again.
      have hagain : (ks.filter fun j => !(reg.contains j || (found ++ [k]).contains j)) =
          (ks.filter fun j => !(reg.contains j || found.contains j)).filter fun j => !j == k := by
        rw [List.filter_filter]
        apply List.filter_congr
        intro j _
        cases hj : j == k <;> simp_all
      rw [if_neg Bool.false_ne_true, Bool.not_false, if_pos rfl, hagain, List.eraseDups_cons,
        List.append_assoc, List.singleton_append]

theorem collectUnknownOf_eq_foldl {gs : List Guard}
    (h : ∀ g ∈ gs, ∀ found, reg.collectUnknown g found =
      (Guard.kinds g).foldl (fun found k => reg.noteUnknown k found) found) (found : List String) :
    reg.collectUnknownOf gs found =
      (Guard.kindsOf gs).foldl (fun found k => reg.noteUnknown k found) found := by
  induction gs generalizing found with
  | nil => rfl
  | cons g gs ih =>
    obtain ⟨hg, hgs⟩ := List.forall_mem_cons.mp h
    rw [collectUnknownOf, Guard.kindsOf, List.foldl_append, hg, ih hgs]

theorem collectUnknown_eq_foldl (g : Guard) (found : List String) : reg.collectUnknown g found =
    (Guard.kinds g).foldl (fun found k => reg.noteUnknown k found) found := by
  induction g using Guard.induct generalizing found with
  | single c why => rfl
  | group c members ih =>
    rw [collectUnknown, Guard.kinds]
    split
    · rw [List.foldl_cons, collectUnknownOf_eq_foldl ih]
    · rfl

theorem unknownKinds_eq (cs : List Condition) : reg.unknownKinds cs =
    ((Guard.kindsOf (cs.map Guard.ofCondition)).filter fun k => !reg.contains k).eraseDups := by
  rw [unknownKinds, collectUnknownOf_eq_foldl fun g _ => collectUnknown_eq_foldl g, foldl_noteUnknown]
  simp

theorem mem_unknownKinds_iff {k : String} :
    k ∈ reg.unknownKinds cs ↔ (∃ d, Within cs d ∧ d.kind = k) ∧ reg.contains k = false := by
  simp [unknownKinds_eq, Guard.mem_kindsOf_iff]

end Unknown

/-- A condition that no walk goes into has members evaluated, one of which is complained of on the way. -/
def Overlooks (reg : ConditionRegistry) (cs : List Condition) (x : Complaint) : Prop :=
  ∃ c d, Within cs c ∧ c.kind ∉ compositeKinds ∧ reg.Evaluates c d ∧
    ∃ d' env, Relation.ReflTransGen reg.Evaluates d d' ∧ Complains reg env d' x

theorem within_or_overlooks {e : Condition} (hc : Within cs c) (h : Relation.ReflTransGen reg.Evaluates c d)
    (hd : Relation.ReflTransGen reg.Evaluates d e) (hx : Complains reg env e x) :
    Within cs d ∨ reg.Overlooks cs x := by
  induction h using Relation.ReflTransGen.head_induction_on with
  | refl => exact .inl hc
  | @head a b hab hbd ih =>
    by_cases hkind : a.kind ∈ compositeKinds
    · obtain ⟨ds, hds, hb⟩ := hab.exists_members
      obtain ⟨c₀, hc₀, hreach⟩ := hc
      exact ih ⟨c₀, hc₀, hreach.tail ⟨hkind, ds, hds, hb⟩⟩
    · exact .inr ⟨a, b, hc, hkind, hab, e, env, hbd.trans hd, hx⟩

/-- Evaluation goes down trees of finite depth. The unknown kinds of a list are listed once each, in the
order in which the walk meets them. But for what lies below a condition that the walk does not go into, a
kind is only complained of as unknown if it is one of these, and in a list that is well-formed no
combination complains. -/
theorem complaints_foretold (hreg : reg.HasCombinations) (cs : List Condition) :
    (WellFounded fun d c : Condition => ∃ ds, c.members = .ok ds ∧ d ∈ ds) ∧
      (∀ env x, x ∈ (reg.evaluateAll env (cs.map .ofCondition)).2 ∨
          x ∈ (reg.evaluateAny env (cs.map .ofCondition)).2 →
        reg.Overlooks cs x ∨ (Condition.validate cs = .ok () → x.kind ∉ compositeKinds) ∧
          (x.error = none → x.kind ∈ reg.unknownKinds cs)) ∧
      ∃ ks, Visits cs ks ∧ (∀ ls, Visits cs ls → ls = ks) ∧
        (∀ k, k ∈ ks ↔ ∃ d, Within cs d ∧ d.kind = k) ∧
        (∀ k, k ∈ reg.unknownKinds cs ↔ k ∈ ks ∧ reg.contains k = false) ∧
        (reg.unknownKinds cs).Nodup ∧
        (reg.unknownKinds cs).Pairwise fun a b => ks.idxOf a < ks.idxOf b := by
  have hordered : (reg.unknownKinds cs).Pairwise fun a b =>
      (Guard.kindsOf (cs.map Guard.ofCondition)).idxOf a <
        (Guard.kindsOf (cs.map Guard.ofCondition)).idxOf b := by
    rw [unknownKinds_eq]
    exact pairwise_eraseDups_filter _ _
  refine ⟨wellFounded_members, ?_, _, Guard.visits_kindsOf cs, fun ls h => Guard.eq_kindsOf_of_visits h,
    fun k => Guard.mem_kindsOf_iff, fun k => ?_, ?_, hordered⟩
  · intro env x hx
    obtain ⟨c, hc, hx⟩ : ∃ c ∈ cs, x ∈ (reg.verdict env c).2 := by
      obtain ⟨g, hg, hx⟩ := hx.elim exists_mem_of_evaluateAll exists_mem_of_evaluateAny
      obtain ⟨c, hc, rfl⟩ := List.mem_map.mp hg
      exact ⟨c, hc, hx⟩
    obtain ⟨d, env', hd, hcomplains⟩ := exists_complains hx
    rcases within_or_overlooks ⟨c, hc, .refl⟩ hd .refl hcomplains with hwithin | hoverlooks
    · right
      rw [hcomplains.kind_eq]
      constructor
      · intro hvalid hkind
        obtain ⟨ds, hds⟩ := validate_eq_ok_iff.mp hvalid d hwithin hkind
        obtain ⟨e, he⟩ := hcomplains.unreadable_of_composite hreg hkind
        rw [hds] at he
        cases he
      · intro hnone
        have hmissing := hcomplains.unknown_of_none hnone
        exact mem_unknownKinds_iff.mpr ⟨⟨d, hwithin, rfl⟩, SortedMap.contains_eq_false_iff.mpr hmissing⟩
    · exact .inl hoverlooks
  · rw [mem_unknownKinds_iff, Guard.mem_kindsOf_iff]
  · exact hordered.imp fun hlt heq => by simp [heq] at hlt

theorem not_overlooks_builtin (cs : List Condition) (x : Complaint) : ¬builtin.Overlooks cs x := by
  rintro ⟨c, d, -, hkind, hevaluates, -⟩
  cases hevaluates with
  | asked env hget => exact noneInquires_builtin _ _ hget
  | combined hget =>
    have hmem := SortedMap.mem_ofList (SortedMap.get?_eq_some_iff.mp hget)
    simp only [List.mem_cons, Prod.mk.injEq, ConditionHandler.combine.injEq, reduceCtorEq, and_false,
      List.not_mem_nil, or_false, false_or] at hmem
    simp only [compositeKinds, List.mem_cons, List.not_mem_nil, or_false, not_or] at hkind
    tauto

def weather : Condition := ⟨"weather", .empty, false⟩

def omens : List Condition := [composite "any" [moonPhase, composite "not" [moonPhase]], weather]

theorem ofCondition_omens : omens.map Guard.ofCondition =
    [.group (composite "any" [moonPhase, composite "not" [moonPhase]])
        [.single moonPhase (.param (.missing "conditions")),
          .group (composite "not" [moonPhase]) [.single moonPhase (.param (.missing "conditions"))]],
      .single weather (.param (.missing "conditions"))] := by
  have hnot := @ofCondition_composite "not" [moonPhase] rfl
  have hany := @ofCondition_composite "any" [moonPhase, composite "not" [moonPhase]] rfl
  have hweather : Guard.ofCondition weather = .single weather (.param (.missing "conditions")) := by
    rw [Guard.ofCondition_eq]
    rfl
  simp only [omens, List.map_cons, List.map_nil, hany, hnot, hweather, ofCondition_moonPhase]

theorem complaints_foretold_omens :
    builtin.HasCombinations ∧ Condition.validate omens = .ok () ∧
      (builtin.evaluateAll nowhere (omens.map .ofCondition)).2 =
        [⟨"moon_phase", none⟩, ⟨"moon_phase", none⟩, ⟨"weather", none⟩] ∧
      "weather" ∉ compositeKinds ∧ "weather" ∈ builtin.unknownKinds omens ∧
      builtin.unknownKinds omens = ["moon_phase", "weather"] ∧ (builtin.unknownKinds omens).Nodup := by
  have hvalid : Condition.validate omens = .ok () := by
    rw [Condition.validate, ofCondition_omens]
    rfl
  have hlog : (builtin.evaluateAll nowhere (omens.map .ofCondition)).2 =
      [⟨"moon_phase", none⟩, ⟨"moon_phase", none⟩, ⟨"weather", none⟩] := by
    rw [ofCondition_omens]
    rfl
  have hunknown : builtin.unknownKinds omens = ["moon_phase", "weather"] := by
    rw [unknownKinds, ofCondition_omens]
    decide
  obtain ⟨-, hforetold, -, -, -, -, -, hnodup, -⟩ := complaints_foretold hasCombinations_builtin omens
  obtain ⟨hkind, hknown⟩ := (hforetold nowhere ⟨"weather", none⟩ (.inl (by simp [hlog]))).resolve_left
    (not_overlooks_builtin omens _)
  exact ⟨hasCombinations_builtin, hvalid, hlog, hkind hvalid, hknown rfl, hunknown, hnodup⟩

def either : ConditionHandler :=
  .inquire fun p env _ =>
    match Condition.members ⟨"either", p, false⟩ with
    | .ok _ => .anyOf env (List.finRange _)
    | .error e => .decided (.error e)

/-- A handler that has members evaluated, under a kind other than the composite ones: of a list that is
well-formed, and in which no kind is listed as unknown, evaluation complains of an unknown kind, or of a
combination without members. Nor are the kinds listed that stand below a kind without a handler. -/
theorem complaints_overlooked :
    (builtin.register "either" either).HasCombinations ∧
      Condition.validate [composite "either" [moonPhase]] = .ok () ∧
      (builtin.register "either" either).unknownKinds [composite "either" [moonPhase]] = [] ∧
      ((builtin.register "either" either).evaluateAll nowhere
        ([composite "either" [moonPhase]].map .ofCondition)).2 = [⟨"moon_phase", none⟩] ∧
      Condition.validate [composite "either" [⟨"all", .empty, false⟩]] = .ok () ∧
      ((builtin.register "either" either).evaluateAll nowhere
        ([composite "either" [⟨"all", .empty, false⟩]].map .ofCondition)).2 =
          [⟨"all", some (.param (.missing "conditions"))⟩] ∧
      builtin.contains "moon_phase" = false ∧
      builtin.unknownKinds [composite "either" [moonPhase]] = ["either"] := by
  have hmoon := @ofCondition_composite "either" [moonPhase] rfl
  have hall := @ofCondition_composite "either" [⟨"all", .empty, false⟩] rfl
  have hempty : Guard.ofCondition ⟨"all", .empty, false⟩ =
      .single ⟨"all", .empty, false⟩ (.param (.missing "conditions")) := by
    rw [Guard.ofCondition_eq]
    rfl
  simp only [Condition.validate, unknownKinds, List.map_cons, List.map_nil, hmoon, hall, hempty,
    ofCondition_moonPhase]
  refine ⟨fun how => ?_, rfl, rfl, rfl, rfl, rfl, rfl, rfl⟩
  cases how <;> rfl

end ConditionRegistry

end WorldTriggers
