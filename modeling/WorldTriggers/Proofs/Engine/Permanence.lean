import WorldTriggers.Proofs.Engine.Counting
import WorldTriggers.Proofs.Engine.Installation
import WorldTriggers.Proofs.Engine.Restart

namespace WorldTriggers

def Operation.Lasts (op : Operation) (ref : RuleRef) (p : Rule → Prop) : Prop :=
  (∀ records, op ≠ .restore records) ∧
    ∀ c, op.content? = some c → c.scope = ref.scope → op.Renews ref p

namespace Operation

variable {op : Operation} {ref : RuleRef} {p : Rule → Prop}

theorem Lasts.keeps (h : op.Lasts ref p) (hunload : op ≠ .unload ref.scope) : op.Keeps ref p true := by
  by_cases hinstalls : ∃ c, op.content? = some c ∧ c.scope = ref.scope
  · obtain ⟨c, hc, hs⟩ := hinstalls
    exact .inr ⟨rfl, h.2 c hc hs⟩
  · exact .inl ⟨fun c hc hs => hinstalls ⟨c, hc, hs⟩, hunload⟩

theorem Lasts.not_restores (h : op.Lasts ref p) (r : Record) : ¬op.Restores ref r := by
  rintro ⟨records, rfl, -⟩
  exact h.1 records rfl

theorem Lasts.of_scene? {x : World × Instant} (h : op.scene? = some x) : op.Lasts ref p := by
  cases op with
  | fire | handle | fireRule => exact ⟨by simp, fun _ hc => nomatch hc⟩
  | load | reload | unload | setEnabled | advance | restore => cases h

theorem Lasts.of_unload (scope : Scope) : (unload scope).Lasts ref p :=
  ⟨by simp, fun _ hc => nomatch hc⟩

theorem Lasts.of_content {c : Content} {rule : Rule} (hop : op.content? = some c)
    (hs : c.scope = ref.scope) (hfind : c.rules.find? (·.id == ref.rule) = some rule)
    (hperm : rule.permanent = true) (hp : p rule) : op.Lasts ref p := by
  refine ⟨?_, fun _ _ _ => ⟨c, rule, hop, hs, hfind, hperm, hp⟩⟩
  rintro records rfl
  cases hop

end Operation

namespace Ledger

variable {ref : RuleRef} {s s' : RuleState} {os : List Onset}

theorem eq_of_others (h : Ledger ref (fun _ => False) s os s') (hos : ∀ o ∈ os, o.ref ≠ ref) :
    s' = s := by
  induction h with
  | closed => rfl
  | other ho _ ih => exact ih fun o ho => hos o (List.mem_cons_of_mem _ ho)
  | own ho => exact absurd ho (hos _ List.mem_cons_self)
  | record hr => exact hr.elim

theorem of_others (s : RuleState) (hos : ∀ o ∈ os, o.ref ≠ ref) :
    Ledger ref (fun _ => False) s os s := by
  induction os with
  | nil => exact .closed s
  | cons o os ih =>
    obtain ⟨ho, hrest⟩ := List.forall_mem_cons.mp hos
    exact .other ho (ih hrest)

theorem fireCount_mono (h : Ledger ref (fun _ => False) s os s') (hmax : s.fireCount ≤ Record.maxCount) :
    s.fireCount ≤ s'.fireCount ∧ s'.fireCount ≤ Record.maxCount := by
  induction h with
  | closed => exact ⟨le_rfl, hmax⟩
  | other ho _ ih => exact ih hmax
  | own ho hs _ ih =>
    obtain ⟨hle, hmax'⟩ := ih (Nat.min_le_right _ _)
    refine ⟨?_, hmax'⟩
    simp only [RuleState.recordFiring] at hle
    omega
  | record hr => exact hr.elim

theorem limited {n : Nat} (h : Ledger ref (fun _ => False) s os s')
    (hlimit : ∀ o ∈ os, o.ref = ref → o.firing.rule.fireLimit? = some n) (hle : s.fireCount ≤ n) :
    s.fireCount + firingsOf ref os ≤ n ∧ s'.fireCount ≤ n := by
  by_cases hfired : ∃ o ∈ os, o.ref = ref
  · obtain ⟨o, ho, href⟩ := hfired
    obtain ⟨hcount, hs'⟩ := h.fireCount_le (Rule.fireLimit?_le (hlimit o ho href)) hlimit hle
    exact ⟨hcount ▸ hs', hs'⟩
  · have hothers : ∀ o ∈ os, o.ref ≠ ref := fun o ho href => hfired ⟨o, ho, href⟩
    have hnone : firingsOf ref os = 0 := by
      rw [firingsOf, List.count_eq_zero, List.mem_map]
      rintro ⟨o, ho, href⟩
      exact hothers o ho href
    rw [h.eq_of_others hothers, hnone]
    exact ⟨hle, hle⟩

end Ledger

namespace Engine

variable {e e' : Engine} {ref : RuleRef} {p : Rule → Prop} {op : Operation} {ds : List RuleEvent}

theorem OperationStep.not_fired (ht : OperationStep op e ds e') (hc : e.catalog.contains ref.scope = false) :
    ∀ o ∈ onsets ds, o.ref ≠ ref := by
  intro o ho href
  have hinstalled := (target?_eq_some_iff.mp (ht.installed o ho)).2
  rw [show o.firing.ref = ref from href, Catalog.rule?_eq_none_of_not_contains hc] at hinstalled
  cases hinstalled

theorem OperationStep.of_unload {scope : Scope} (ht : OperationStep (.unload scope) e ds e') :
    e' = e.detach scope := by
  cases ht with
  | loaded hop | replaced hop | restored hop => cases hop
  | switched ht | offered ht | popped ht | woken ht => cases ht
  | removed hop =>
    cases hop
    rfl

structure Lasting (e : Engine) (ref : RuleRef) (p : Rule → Prop) : Prop where
  rule : e.catalog.contains ref.scope = true → e.HasRule ref p true
  waiting : e.waiting.get? ref = none

theorem lasting_ofSettings (settings : Settings) (ref : RuleRef) (p : Rule → Prop) :
    (ofSettings settings).Lasting ref p := ⟨fun h => (nomatch h), rfl⟩

namespace Lasting

theorem operationStep (h : e.Lasting ref p) (hl : e.Linked) (ht : OperationStep op e ds e')
    (hop : op.Lasts ref p) : e'.Lasting ref p where
  rule hc := by
    rcases ht.get?_catalog hl ref.scope with ⟨c, epoch, hcontent, hs, hget⟩ | hnone | hsame
    · obtain ⟨c', rule, hcontent', -, hfind, hperm, hp⟩ := hop.2 c hcontent hs
      obtain rfl : c = c' := Option.some.inj (hcontent.symm.trans hcontent')
      have hrules : e'.catalog.rules ref.scope = c.rules := by
        simp [Catalog.rules, hget, Function.comp_def, LoadedRule.ofRule]
      refine ⟨rule, ?_, hp, fun _ => hperm⟩
      rw [rule?_eq_find?, hrules, hfind]
    · rw [Catalog.contains_eq, hnone] at hc
      cases hc
    · rw [Catalog.contains_eq, hsame] at hc
      obtain ⟨rule, hrule, hp⟩ := h.rule hc
      exact ⟨rule, (Catalog.rule?_congr hsame).trans hrule, hp⟩
  waiting := by
    by_contra hne
    obtain ⟨r, hr⟩ := Option.ne_none_iff_exists'.mp hne
    rcases ht.waiting hl hr with hrestores | hwaits
    · exact hop.not_restores r hrestores
    · rw [h.waiting] at hwaits
      cases hwaits

theorem ledger (h : e.Lasting ref p) (hl : e.Linked) (ht : OperationStep op e ds e') (hop : op.Lasts ref p)
    (hunload : op ≠ .unload ref.scope) :
    Ledger ref (fun _ => False) (e.tallyOf ref) (onsets ds) (e'.tallyOf ref) ∧
      ∀ o ∈ onsets ds, o.ref = ref → p o.firing.rule := by
  cases hc : e.catalog.contains ref.scope with
  | true =>
    have hhas := h.rule hc
    refine ⟨(ht.ledger hl hhas (hop.keeps hunload)).mono hop.not_restores, fun o ho href => ?_⟩
    obtain ⟨rule, hrule, hp, -⟩ := hhas
    have hinstalled := (target?_eq_some_iff.mp (ht.installed o ho)).2
    rw [show o.firing.ref = ref from href, hrule] at hinstalled
    rwa [← Option.some.inj hinstalled]
  | false =>
    -- Where the scope is not loaded, nothing fires and no record waits to set the tally back.
    have hothers := ht.not_fired hc
    have htally : e'.tallyOf ref = e.tallyOf ref := by
      rcases ht.tally_cases hl ref with hledger | hanew | ⟨r, hwaits, -⟩ | ⟨r, hrestores, -⟩
      · exact hledger.eq_of_others hothers
      · rw [hanew, hl.tallyOf_of_not_contains hc]
      · rw [h.waiting] at hwaits
        cases hwaits
      · exact absurd hrestores (hop.not_restores r)
    rw [htally]
    exact ⟨.of_others _ hothers, fun o ho href => absurd href (hothers o ho)⟩

theorem contains_operationStep (h : e.Lasting ref p) (hl : e.Linked) (ht : OperationStep op e ds e')
    (hop : op.Lasts ref p) (hunload : op ≠ .unload ref.scope)
    (hc : e.catalog.contains ref.scope = true) : e'.catalog.contains ref.scope = true := by
  obtain ⟨rule, hrule, -⟩ := (h.rule hc).operationStep hl ht (hop.keeps hunload)
  exact Catalog.contains_of_rule? hrule

theorem since (h : e.Lasting ref p) (hl : e.Linked) {later : List Operation}
    (ha : ∀ op ∈ later, op.Authored)
    (hlater : ∀ op ∈ later, op.Lasts ref p ∧ op ≠ .unload ref.scope) :
    ∃ e', e'.Linked ∧ e'.Lasting ref p ∧
      (e.catalog.contains ref.scope = true → e'.catalog.contains ref.scope = true) ∧
      Ledger ref (fun _ => False) (e.tallyOf ref) (onsets (e.ruleEventsSince later)) (e'.tallyOf ref) ∧
      (∀ o ∈ onsets (e.ruleEventsSince later), o.ref = ref → p o.firing.rule) ∧
      ∀ d, e.performAll? later = some d → d = e' := by
  obtain ⟨e', ⟨hl', hlasting, hcontains, hledger, hrules⟩, hlast⟩ := ruleEventsSince_induct
    (motive := fun ds d => d.Linked ∧ d.Lasting ref p ∧
      (e.catalog.contains ref.scope = true → d.catalog.contains ref.scope = true) ∧
      Ledger ref (fun _ => False) (e.tallyOf ref) (onsets ds) (d.tallyOf ref) ∧
      ∀ o ∈ onsets ds, o.ref = ref → p o.firing.rule) hl ha
    (fun op hop ds d ds' d' hd ht hm => by
      obtain ⟨-, hlasting, hcontains, hledger, hrules⟩ := hm
      obtain ⟨hlasts, hunload⟩ := hlater op hop
      obtain ⟨hledger', hrules'⟩ := hlasting.ledger hd ht hlasts hunload
      rw [onsets_append, List.forall_mem_append]
      exact ⟨hd.operationStep ht, hlasting.operationStep hd ht hlasts,
        fun hc => hlasting.contains_operationStep hd ht hlasts hunload (hcontains hc),
        hledger.append hledger', hrules, hrules'⟩)
    ⟨hl, h, id, .closed _, List.forall_mem_nil _⟩
  exact ⟨e', hl', hlasting, hcontains, hledger, hrules, hlast⟩

theorem saved?_eq (h : e.Lasting ref p) : e.saved? ref =
    if e.catalog.contains ref.scope then some (e.states.snapshot ref) else none := by
  unfold saved?
  cases hc : e.catalog.contains ref.scope with
  | true =>
    obtain ⟨rule, hrule, -, hperm⟩ := h.rule hc
    rw [hrule]
    dsimp only
    rw [if_pos (hperm rfl), if_pos rfl]
  | false =>
    rw [Catalog.rule?_eq_none_of_not_contains hc]
    exact h.waiting

theorem mem_exported_iff (h : e.Lasting ref p) (hl : e.Linked) {r : Record} (href : r.ref = ref) :
    r ∈ e.exported ↔ e.catalog.contains ref.scope = true ∧ r = e.states.snapshot ref := by
  rw [hl.mem_exported_iff, href, h.saved?_eq]
  cases e.catalog.contains ref.scope <;> simp [eq_comm]

theorem exists_exported (h : e.Lasting ref p) (hl : e.Linked)
    (hc : e.catalog.contains ref.scope = true) :
    ∃ r ∈ e.exported, r.ref = ref ∧ r.fireCount = e.countOf ref :=
  ⟨_, (h.mem_exported_iff hl (ref_snapshot ..)).mpr ⟨hc, rfl⟩, ref_snapshot .., rfl⟩

end Lasting

theorem Reaches.lasting {settings : Settings} {ops : List Operation} (h : Reaches settings ops e)
    (hops : ∀ op ∈ ops, op.Lasts ref p) {bound : Nat}
    (hbound : ∀ s os s', Ledger ref (fun _ => False) s os s' →
      (∀ o ∈ os, o.ref = ref → p o.firing.rule) → s.fireCount ≤ bound → s'.fireCount ≤ bound) :
    e.Lasting ref p ∧ e.countOf ref ≤ bound := by
  refine h.induct_operationSteps (motive := fun _ d => d.Lasting ref p ∧ (d.tallyOf ref).fireCount ≤ bound)
    ⟨lasting_ofSettings settings ref p, Nat.zero_le _⟩ ?_
  rintro op hop _ d ds d' hl ht ⟨hlasting, hcount⟩
  refine ⟨hlasting.operationStep hl ht (hops op hop), ?_⟩
  by_cases hunload : op = .unload ref.scope
  · subst hunload
    rw [ht.of_unload, (hl.detach _).tallyOf_of_not_contains (not_contains_detach ..)]
    exact Nat.zero_le _
  · obtain ⟨hledger, hrules⟩ := hlasting.ledger hl ht (hops op hop) hunload
    exact hbound _ _ _ hledger hrules hcount

/-- The count of a permanent rule is exported as long as its scope is loaded, and from one unloading of
the scope to the next it never goes down, whatever content comes in place of what there was, nor does
the rule fire more often than its limit allows. An unloading drops the count. -/
theorem permanence_of_reaches {settings : Settings} {ops : List Operation} (h : Reaches settings ops e)
    (hops : ∀ op ∈ ops, op.Lasts ref fun _ => True) :
    (e.catalog.contains ref.scope = true → ∃ r ∈ e.exported, r.ref = ref) ∧
    (∀ later d, (∀ op ∈ later, op.Authored) →
      (∀ op ∈ later, op.Lasts ref (fun _ => True) ∧ op ≠ .unload ref.scope) →
      e.performAll? later = some d → ∀ r ∈ e.exported, r.ref = ref →
        ∃ q ∈ d.exported, q.ref = ref ∧ r.fireCount ≤ q.fireCount) ∧
    (e.catalog.contains ref.scope = false → (∀ r ∈ e.exported, r.ref ≠ ref) ∧
      ∀ c now, c.Authored → c.scope = ref.scope → (Operation.load c now).Lasts ref (fun _ => True) →
        ∃ r ∈ (e.load c now).2.exported, r.ref = ref ∧ r.fireCount = 0) ∧
    ∀ n later, (∀ op ∈ ops, op.Lasts ref (·.fireLimit? = some n)) → (∀ op ∈ later, op.Authored) →
      (∀ op ∈ later, op.Lasts ref (·.fireLimit? = some n) ∧ op ≠ .unload ref.scope) →
        e.countOf ref + firingsOf ref (onsets (e.ruleEventsSince later)) ≤ n := by
  have hl := h.linked
  obtain ⟨hlasting, hmax⟩ := h.lasting hops fun s os s' hledger _ hs => (hledger.fireCount_mono hs).2
  refine ⟨fun hc => ?_, ?_, fun hc => ⟨?_, ?_⟩, ?_⟩
  · obtain ⟨r, hr, href, -⟩ := hlasting.exists_exported hl hc
    exact ⟨r, hr, href⟩
  · intro later d ha hlater hd r hr href
    obtain ⟨hc, rfl⟩ := (hlasting.mem_exported_iff hl href).mp hr
    obtain ⟨e', hl', hlasting', hcontains, hledger, -, hlast⟩ := hlasting.since hl ha hlater
    obtain rfl := hlast d hd
    obtain ⟨q, hq, hqref, hcount⟩ := hlasting'.exists_exported hl' (hcontains hc)
    exact ⟨q, hq, hqref, hcount ▸ (hledger.fireCount_mono hmax).1⟩
  · intro r hr href
    obtain ⟨hloaded, -⟩ := (hlasting.mem_exported_iff hl href).mp hr
    rw [hc] at hloaded
    cases hloaded
  · intro c now ha hs hlasts
    have hload : ∀ op ∈ [Operation.load c now], op.Authored := List.forall_mem_singleton.mpr ha
    obtain ⟨e', hl', hlasting', -, hledger, -, hlast⟩ :=
      hlasting.since hl hload (List.forall_mem_singleton.mpr ⟨hlasts, by simp⟩)
    have hd : (e.load c now).2 = e' := hlast _ rfl
    have hruleEvents : onsets (e.ruleEventsSince [.load c now]) = [] := onsets_removal e c.scope
    have htally : e'.tallyOf ref = {} := by
      rw [hruleEvents] at hledger
      rw [hledger.eq_of_others (List.forall_mem_nil _), hl.tallyOf_of_not_contains hc]
    have hloaded : e'.catalog.contains ref.scope = true := by
      rw [← hd, ← hs]
      exact (rules_load hl ha.sound now).1
    obtain ⟨r, hr, href, hcount⟩ := hlasting'.exists_exported hl' hloaded
    refine ⟨r, hd ▸ hr, href, ?_⟩
    rw [hcount, show e'.countOf ref = (e'.tallyOf ref).fireCount from rfl, htally]
  · intro n later hops' ha hlater
    obtain ⟨hlasting', hle⟩ := h.lasting hops' fun s os s' hledger hrules hs =>
      (hledger.limited hrules hs).2
    obtain ⟨e', -, -, -, hledger, hrules, -⟩ := hlasting'.since hl ha hlater
    exact (hledger.limited hrules hle).1

def hoard : Content :=
  .ofRules (.room "cellar") [{ Rule.plain "chest" .enter [] with maxFires := 1, permanent := true }]

def chest : RuleRef := ⟨.room "cellar", "chest"⟩

theorem lasts_hoard {op : Operation} (hop : op.content? = some hoard) :
    op.Lasts chest (fun _ => True) ∧ op.Lasts chest (·.fireLimit? = some 1) := by
  have hany : (hoard.rules.find? (·.id == chest.rule)).any
      (fun r => r.permanent && r.fireLimit? == some 1) = true := by decide +kernel
  obtain ⟨rule, hfind, hrule⟩ := (Option.any_eq_true _ _).mp hany
  rw [Bool.and_eq_true, beq_iff_eq] at hrule
  have hs : hoard.scope = chest.scope := by decide +kernel
  exact ⟨.of_content hop hs hfind hrule.1 trivial, .of_content hop hs hfind hrule.1 hrule.2⟩

def opened : List Operation := [.fireRule {} chest {} 1, .load hoard 0]

def reopened : List Operation := [.fireRule {} chest {} 3, .reload hoard 2]

theorem permanence_hoard :
    ∃ e d, Reaches (.builtin 8) opened e ∧ e.performAll? reopened = some d ∧ e.countOf chest = 1 ∧
      (∃ r ∈ e.exported, r.ref = chest) ∧
      (∀ r ∈ e.exported, r.ref = chest → ∃ q ∈ d.exported, q.ref = chest ∧ r.fireCount ≤ q.fireCount) ∧
      firingsOf chest (onsets (e.ruleEventsSince reopened)) = 0 := by
  have hopened : ∀ op ∈ opened, op.Lasts chest (fun _ => True) ∧
      op.Lasts chest (·.fireLimit? = some 1) := by
    simp only [opened, List.forall_mem_cons]
    exact ⟨⟨.of_scene? rfl, .of_scene? rfl⟩, lasts_hoard rfl, List.forall_mem_nil _⟩
  have hreopened : ∀ op ∈ reopened, op.Lasts chest (fun _ => True) ∧
      op.Lasts chest (·.fireLimit? = some 1) := by
    simp only [reopened, List.forall_mem_cons]
    exact ⟨⟨.of_scene? rfl, .of_scene? rfl⟩, lasts_hoard rfl, List.forall_mem_nil _⟩
  have hloaded : ∀ op ∈ reopened, op ≠ .unload chest.scope := by simp [reopened]
  have ha : ∀ op ∈ reopened, op.Authored := by
    simp [reopened, Operation.Authored, hoard, Content.Authored.ofRules]
  obtain ⟨e, h, hp⟩ := exists_reaches (.builtin 8) opened
    (fun e => e.countOf chest == 1 && e.catalog.contains chest.scope && (e.performAll? reopened).isSome)
    (by simp [opened, Operation.Authored, hoard, Content.Authored.ofRules]) (by decide +kernel)
  simp only [Bool.and_eq_true, beq_iff_eq, Option.isSome_iff_exists] at hp
  obtain ⟨⟨hcount, hcontains⟩, d, hd⟩ := hp
  obtain ⟨hexported, hkept, -, hlimit⟩ := permanence_of_reaches h fun op hop => (hopened op hop).1
  have hle := hlimit 1 reopened (fun op hop => (hopened op hop).2) ha
    fun op hop => ⟨(hreopened op hop).2, hloaded op hop⟩
  rw [hcount] at hle
  exact ⟨e, d, h, hd, hcount, hexported hcontains,
    hkept reopened d ha (fun op hop => ⟨(hreopened op hop).1, hloaded op hop⟩) hd, by omega⟩

def robbed : List Operation :=
  [.fireRule {} chest {} 3, .load hoard 2, .unload (.room "cellar"), .fireRule {} chest {} 1,
    .load hoard 0]

theorem chest_forgotten :
    (∀ op ∈ robbed, op.Authored ∧ op.Lasts chest (·.fireLimit? = some 1)) ∧
      ((after? (.builtin 8) (robbed.drop 3)).map fun e =>
        e.exported.map fun r => (r.ref, r.fireCount)) = some [(chest, 1)] ∧
      ((after? (.builtin 8) (robbed.drop 2)).map fun e =>
        e.exported.map fun r => (r.ref, r.fireCount)) = some [] ∧
      ((after? (.builtin 8) (robbed.drop 1)).map fun e =>
        e.exported.map fun r => (r.ref, r.fireCount)) = some [(chest, 0)] ∧
      firingsOf chest (onsets (history (.builtin 8) robbed)) = 2 := by
  refine ⟨?_, by decide +kernel, by decide +kernel, by decide +kernel, by decide +kernel⟩
  have hauthored : hoard.Authored := by simp [hoard, Content.Authored.ofRules]
  simp only [robbed, List.forall_mem_cons]
  exact ⟨⟨trivial, .of_scene? rfl⟩, ⟨hauthored, (lasts_hoard rfl).2⟩, ⟨trivial, .of_unload _⟩,
    ⟨trivial, .of_scene? rfl⟩, ⟨hauthored, (lasts_hoard rfl).2⟩, List.forall_mem_nil _⟩

end Engine

end WorldTriggers
