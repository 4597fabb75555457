import WorldTriggers.Proofs.Engine.OperationSteps
import WorldTriggers.Proofs.Engine.TimersRestored

namespace WorldTriggers

def Operation.Avoids (op : Operation) (scope : Scope) : Prop :=
  (∀ c, op.content? = some c → c.scope ≠ scope) ∧ op ≠ .unload scope

theorem Operation.avoids_of_scene? {op : Operation} {x : World × Instant} (h : op.scene? = some x)
    (scope : Scope) : op.Avoids scope := by
  cases op with
  | fire | handle | fireRule =>
    constructor
    · intro c hc
      cases hc
    · intro hop
      cases hop
  | load | reload | unload | setEnabled | advance | restore => cases h

theorem Operation.avoids_restore (records : List Record) (scope : Scope) :
    (restore records).Avoids scope := by
  constructor
  · intro c hc
    cases hc
  · intro hop
    cases hop

def Operation.Renews (op : Operation) (ref : RuleRef) (p : Rule → Prop) : Prop :=
  ∃ c rule, op.content? = some c ∧ c.scope = ref.scope ∧
    c.rules.find? (·.id == ref.rule) = some rule ∧ rule.permanent = true ∧ p rule

def Operation.Keeps (op : Operation) (ref : RuleRef) (p : Rule → Prop) (lasting : Bool) : Prop :=
  op.Avoids ref.scope ∨ lasting = true ∧ op.Renews ref p

theorem Operation.Keeps.not_unload {op : Operation} {ref : RuleRef} {p : Rule → Prop} {lasting : Bool}
    (h : op.Keeps ref p lasting) : op ≠ .unload ref.scope := by
  rcases h with havoids | ⟨-, c, rule, hc, -⟩
  · exact havoids.2
  · rintro rfl
    cases hc

def Operation.Restores (op : Operation) (ref : RuleRef) (r : Record) : Prop :=
  ∃ records, op = .restore records ∧ r ∈ records ∧ r.ref = ref

theorem Operation.not_restores_of_scene? {op : Operation} {x : World × Instant}
    (h : op.scene? = some x) (ref : RuleRef) (r : Record) : ¬op.Restores ref r := by
  rintro ⟨records, rfl, -⟩
  cases h

namespace Engine

variable {e e' : Engine} {ref : RuleRef} {scope : Scope} {now : Instant} {c : Content}
  {carried : List (RuleRef × RuleState)} {op : Operation} {ds : List RuleEvent}

section Tallies

theorem tallyOf_congr (h : e'.states.stateOf ref = e.states.stateOf ref) :
    e'.tallyOf ref = e.tallyOf ref := by
  unfold tallyOf
  rw [h]

theorem tallyOf_detach (h : ref.scope ≠ scope) : (e.detach scope).tallyOf ref = e.tallyOf ref := by
  apply tallyOf_congr
  rw [show (e.detach scope).states = e.states.withoutScope scope from rfl,
    RuleStates.stateOf_withoutScope, if_neg h]

theorem tallyOf_detach_cases (e : Engine) (scope : Scope) (ref : RuleRef) :
    (e.detach scope).tallyOf ref = e.tallyOf ref ∨ (e.detach scope).tallyOf ref = {} := by
  by_cases h : ref.scope = scope
  · right
    rw [tallyOf, show (e.detach scope).states = e.states.withoutScope scope from rfl,
      RuleStates.stateOf_withoutScope, if_pos h]
    rfl
  · exact .inl (tallyOf_detach h)

theorem tallyOf_update_restore (e : Engine) (r : Record) (ref : RuleRef) :
    tallyOf { e with states := e.states.update r.ref (·.restore r) } ref =
      if ref = r.ref then (e.tallyOf ref).restore r else e.tallyOf ref :=
  tallyOf_update_carried (f := (·.restore r)) (fun _ => rfl) e r.ref ref

theorem tallyOf_applyRecord (e : Engine) (r : Record) (ref : RuleRef) :
    (e.applyRecord r).2.tallyOf ref = e.tallyOf ref ∨
      r.ref = ref ∧ (e.applyRecord r).2.tallyOf ref = (e.tallyOf ref).restore r := by
  have hupdate : tallyOf { e with states := e.states.update r.ref (·.restore r) } ref = e.tallyOf ref ∨
      r.ref = ref ∧ tallyOf { e with states := e.states.update r.ref (·.restore r) } ref =
        (e.tallyOf ref).restore r := by
    rw [tallyOf_update_restore]
    by_cases href : ref = r.ref
    · exact .inr ⟨href.symm, if_pos href⟩
    · exact .inl (if_neg href)
  rcases applyRecord_cases e r with ⟨-, h⟩ | ⟨_, -, -, ⟨-, h⟩ | ⟨-, h⟩⟩ <;> rw [h]
  · exact .inl rfl
  · rwa [tallyOf_disarmTimer]
  · exact hupdate

theorem tallyOf_restoreOne (e : Engine) (r : Record) (ref : RuleRef) :
    (e.restoreOne r).2.tallyOf ref = e.tallyOf ref ∨
      r.ref = ref ∧ (e.restoreOne r).2.tallyOf ref = (e.tallyOf ref).restore r := by
  unfold restoreOne
  split
  · exact tallyOf_applyRecord e r ref
  · exact .inl rfl

theorem tallyOf_install_of_ne (hl : e.Linked) (hrules : Content.Sound c.rules)
    (hcarries : Carries c carried) (h : ref.scope ≠ c.scope) :
    (e.install c carried now).2.tallyOf ref = e.tallyOf ref := by
  refine install_induct (motive := fun e' => e'.tallyOf ref = e.tallyOf ref) hrules hl.catalog
    (tallyOf_congr (stateOf_placed_of_ne hcarries h)) ?_ ?_
  · intro e' r hr hm
    rcases tallyOf_applyRecord e' r ref with heq | ⟨rfl, -⟩
    · rw [heq, hm]
    · exact absurd (hl.mem_waitingFor_iff.mp hr).2 h
  · intro e' r epoch _ hm
    rw [tallyOf_armTimer, hm]

theorem mem_carriedStates_iff {rules : List Rule} {s : RuleState} :
    (ref, s) ∈ e.carriedStates scope rules ↔
      ref.scope = scope ∧ (e.catalog.rule? ref).any (·.permanent) = true ∧
        hasPermanent rules ref.rule = true ∧ ∃ t, e.states.get? ref = some t ∧ t.carried = s := by
  have hentry (k : RuleRef) (t : RuleState) : (k, t) ∈ (e.states.ofScope scope).entries ↔
      k.scope = scope ∧ e.states.get? k = some t := by
    rw [← SortedMap.get?_eq_some_iff, RuleStates.get?_ofScope]
    split <;> simp_all
  simp only [carriedStates, List.mem_map, List.mem_filter, Bool.and_eq_true, Prod.exists, hentry,
    Prod.mk.injEq]
  constructor
  · rintro ⟨k, t, ⟨⟨hs, hget⟩, hrule, hperm⟩, rfl, rfl⟩
    exact ⟨hs, hrule, hperm, t, hget, rfl⟩
  · rintro ⟨hs, hrule, hperm, t, hget, rfl⟩
    exact ⟨ref, t, ⟨⟨hs, hget⟩, hrule, hperm⟩, rfl, rfl⟩

theorem get?_foldl_insert_isSome (states : RuleStates)
    (h : (∃ s, (ref, s) ∈ carried) ∨ (states.get? ref).isSome) :
    (SortedMap.get? (carried.foldl (fun states (ref, s) => states.insert ref s) states) ref).isSome := by
  induction carried generalizing states with
  | nil => simpa using h
  | cons p rest ih =>
    apply ih
    rw [SortedMap.get?_insert]
    rcases h with ⟨s, hs⟩ | hsome
    · rcases List.mem_cons.mp hs with rfl | hrest
      · exact .inr (by simp)
      · exact .inl ⟨s, hrest⟩
    · right
      split
      · rfl
      · exact hsome

theorem tallyOf_placed_cases (e : Engine) (c : Content) (carried : List (RuleRef × RuleState))
    (ref : RuleRef) : (e.placed c carried).tallyOf ref = e.tallyOf ref ∨
      ∃ s, (ref, s) ∈ carried ∧ (e.placed c carried).tallyOf ref = s.carried := by
  obtain ⟨hsome, hnone⟩ := get?_foldl_insert carried e.states ref
  by_cases hm : ∃ s, (ref, s) ∈ carried
  · obtain ⟨t, ht⟩ := Option.isSome_iff_exists.mp (get?_foldl_insert_isSome e.states (.inl hm))
    have hplaced : (e.placed c carried).states.stateOf ref = t := RuleStates.stateOf_of_get? ht
    rcases hsome t ht with hm | hold
    · right
      exact ⟨t, hm, by rw [tallyOf, hplaced]⟩
    · left
      rw [tallyOf, tallyOf, hplaced, RuleStates.stateOf_of_get? hold]
  · left
    apply tallyOf_congr
    have hsame : (e.placed c carried).states.get? ref = e.states.get? ref :=
      hnone fun s hs => hm ⟨s, hs⟩
    rw [RuleStates.stateOf, RuleStates.stateOf, hsame]

theorem Linked.tallyOf_of_not_contains (hl : e.Linked) (hc : e.catalog.contains ref.scope = false) :
    e.tallyOf ref = {} := by
  rw [tallyOf, RuleStates.stateOf_of_get?_none (hl.get?_states_of_not_contains hc)]
  rfl

theorem tallyOf_of_waiting {r : Record} (hl : e.Linked) (hw : e.waiting.get? ref = some r) :
    e.tallyOf ref = {} := hl.tallyOf_of_not_contains (hl.waiting ref r hw).2

theorem restore_restore (s : RuleState) (q r : Record) : (s.restore q).restore r = s.restore r := rfl

theorem tallyOf_install_cases (hl : e.Linked) (hrules : Content.Sound c.rules)
    (carried : List (RuleRef × RuleState)) (now : Instant) (ref : RuleRef) :
    (e.install c carried now).2.tallyOf ref = (e.placed c carried).tallyOf ref ∨
      ∃ r, e.waiting.get? ref = some r ∧
        (e.install c carried now).2.tallyOf ref = ((e.placed c carried).tallyOf ref).restore r := by
  refine install_induct (motive := fun d => d.tallyOf ref = (e.placed c carried).tallyOf ref ∨
    ∃ r, e.waiting.get? ref = some r ∧ d.tallyOf ref = ((e.placed c carried).tallyOf ref).restore r)
    hrules hl.catalog (.inl rfl) ?_ ?_
  · intro d r hr hm
    rcases tallyOf_applyRecord d r ref with heq | ⟨rfl, heq⟩
    · rw [heq]
      exact hm
    · right
      refine ⟨r, (hl.mem_waitingFor_iff.mp hr).1, ?_⟩
      rcases hm with hm | ⟨q, -, hm⟩
      · rw [heq, hm]
      · rw [heq, hm, restore_restore]
  · intro d r epoch _ hm
    rw [tallyOf_armTimer]
    exact hm

theorem tallyOf_reload {rule : Rule} (hl : e.Linked) (hrules : Content.Sound c.rules)
    (hs : ref.scope = c.scope) (hrule : e.catalog.rule? ref = some rule) (hold : rule.permanent = true)
    (hnew : hasPermanent c.rules ref.rule = true) : (e.reload c now).2.tallyOf ref = e.tallyOf ref := by
  have hloaded : e.catalog.contains c.scope = true := hs ▸ Catalog.contains_of_rule? hrule
  -- Records wait only for scopes that are not loaded.
  have hwaiting : ∀ r ∈ (e.detach c.scope).waitingFor c.scope, False := by
    intro r hr
    obtain ⟨hwaits, hscope⟩ := (hl.detach c.scope).mem_waitingFor_iff.mp hr
    have hout := (hl.waiting r.ref r hwaits).2
    rw [hscope, hloaded] at hout
    cases hout
  have hplaced : ((e.detach c.scope).placed c (e.carriedStates c.scope c.rules)).tallyOf ref =
      e.tallyOf ref := by
    have hmem {s : RuleState} (h : (ref, s) ∈ e.carriedStates c.scope c.rules) :
        ∃ t, e.states.get? ref = some t ∧ t.carried = s := (mem_carriedStates_iff.mp h).2.2.2
    have hget : ((e.detach c.scope).placed c (e.carriedStates c.scope c.rules)).states.get? ref =
        (e.states.get? ref).map RuleState.carried := by
      obtain ⟨hsome, hnone⟩ := get?_foldl_insert (e.carriedStates c.scope c.rules)
        (e.states.withoutScope c.scope) ref
      rw [RuleStates.get?_withoutScope, if_pos hs] at hsome hnone
      cases hget : e.states.get? ref with
      | none =>
        refine hnone fun s hm => ?_
        obtain ⟨t, ht, -⟩ := hmem hm
        simp [hget] at ht
      | some t =>
        have hcarried : (ref, t.carried) ∈ e.carriedStates c.scope c.rules :=
          mem_carriedStates_iff.mpr ⟨hs, by simp [hrule, hold], hnew, t, hget, rfl⟩
        obtain ⟨s, hfound⟩ := Option.isSome_iff_exists.mp (get?_foldl_insert_isSome
          (e.states.withoutScope c.scope) (.inl ⟨_, hcarried⟩))
        rcases hsome s hfound with hm | hm
        · obtain ⟨u, hu, rfl⟩ := hmem hm
          rw [hget] at hu
          rw [Option.some.inj hu]
          exact hfound
        · cases hm
    unfold tallyOf RuleStates.stateOf
    rw [hget]
    cases e.states.get? ref <;> rfl
  refine install_induct (motive := fun e' => e'.tallyOf ref = e.tallyOf ref) hrules
    (hl.detach c.scope).catalog hplaced (fun _ r hr _ => (hwaiting r hr).elim) ?_
  intro e' r epoch _ hm
  rw [tallyOf_armTimer, hm]

end Tallies

section OperationSteps

theorem onsets_removal (e : Engine) (scope : Scope) : onsets (e.removal scope) = [] := by
  unfold removal
  split <;> rfl

theorem OperationStep.installed (h : OperationStep op e ds e') : ∀ o ∈ onsets ds, e.Installed o.firing := by
  cases h with
  | @offered now fs ht w hfs =>
    exact fun o ho => ((fires_attempts (Run.start e w now) _ hfs).installed o ho).2
  | @woken k r c now ht w hr hdue hp =>
    intro o ho
    exact ((Run.fires_resume _ k c).installed o ho).2.congr (catalog_taken ..).symm
  | @replaced c now hop ht hrules =>
    rw [onsets_removal]
    exact List.forall_mem_nil _
  | loaded | removed | switched | popped | restored => exact List.forall_mem_nil _

theorem OperationStep.time (h : OperationStep op e ds e') : ∀ o ∈ onsets ds, op.time? = some o.now := by
  cases h with
  | @offered now fs ht w hfs =>
    intro o ho
    rw [((fires_attempts (Run.start e w now) _ hfs).installed o ho).1]
    exact ht
  | @woken k r c now ht w hr hdue hp =>
    intro o ho
    rw [((Run.fires_resume _ k c).installed o ho).1]
    exact ht
  | @replaced c now hop ht hrules =>
    rw [onsets_removal]
    exact List.forall_mem_nil _
  | loaded | removed | switched | popped | restored => exact List.forall_mem_nil _

theorem OperationStep.waiting {r : Record} (hl : e.Linked) (h : OperationStep op e ds e')
    (hw : e'.waiting.get? ref = some r) : op.Restores ref r ∨ e.waiting.get? ref = some r := by
  have hinstall {d : Engine} {c : Content} {carried : List (RuleRef × RuleState)} {now : Instant}
      (hrules : Content.Sound c.rules) (hd : d.Linked) (hsame : d.waiting = e.waiting)
      (hw : (d.install c carried now).2.waiting.get? ref = some r) : e.waiting.get? ref = some r := by
    rw [waiting_install hrules hd.catalog, hsame, SortedMap.get?_filter,
      Option.filter_eq_some_iff] at hw
    exact hw.1
  cases h with
  | loaded hop ht hrules hc => exact .inr (hinstall hrules hl rfl hw)
  | replaced hop ht hrules => exact .inr (hinstall hrules (hl.detach _) rfl hw)
  | removed hop hc => exact .inr hw
  | switched ht h =>
    rw [waiting_of_setEnabled h] at hw
    exact .inr hw
  | offered ht w hfs =>
    rw [(steps_attempts hfs _ w _).waiting] at hw
    exact .inr hw
  | popped ht hr hdue hp =>
    rw [waiting_taken] at hw
    exact .inr hw
  | woken ht w hr hdue hp =>
    rw [(hl.steps_resume hr hp w _).waiting, waiting_taken] at hw
    exact .inr hw
  | @restored records q hop hq =>
    rcases waiting_of_restoreOne hw with ⟨rfl, href⟩ | hw
    · exact .inl ⟨records, hop, hq, href⟩
    · exact .inr hw

theorem OperationStep.tally_cases (hl : e.Linked) (h : OperationStep op e ds e') (ref : RuleRef) :
    Ledger ref (fun _ => False) (e.tallyOf ref) (onsets ds) (e'.tallyOf ref) ∨
      e'.tallyOf ref = {} ∨
      (∃ r, e.waiting.get? ref = some r ∧ e'.tallyOf ref = ({} : RuleState).restore r) ∨
      ∃ r, op.Restores ref r ∧ e'.tallyOf ref = (e.tallyOf ref).restore r := by
  have hclosed (hsame : e'.tallyOf ref = e.tallyOf ref) :
      Ledger ref (fun _ => False) (e.tallyOf ref) [] (e'.tallyOf ref) := hsame ▸ .closed _
  cases h with
  | @loaded c now hop ht hrules hc =>
    rcases tallyOf_install_cases hl hrules [] now ref with hsame | ⟨r, hw, hset⟩
    · exact .inl (hclosed hsame)
    · rw [show (e.placed c []).tallyOf ref = e.tallyOf ref from rfl, tallyOf_of_waiting hl hw] at hset
      exact .inr (.inr (.inl ⟨r, hw, hset⟩))
  | @replaced c now hop ht hrules =>
    rw [onsets_removal]
    have hplaced : ((e.detach c.scope).placed c (e.carriedStates c.scope c.rules)).tallyOf ref =
        e.tallyOf ref ∨
        ((e.detach c.scope).placed c (e.carriedStates c.scope c.rules)).tallyOf ref = {} := by
      rcases tallyOf_placed_cases (e.detach c.scope) c (e.carriedStates c.scope c.rules) ref with
        hsame | ⟨s, hs, hcarried⟩
      · rw [hsame]
        exact tallyOf_detach_cases e c.scope ref
      · obtain ⟨-, -, -, t, ht, rfl⟩ := mem_carriedStates_iff.mp hs
        left
        rw [hcarried, tallyOf, RuleStates.stateOf_of_get? ht]
        rfl
    rcases tallyOf_install_cases (hl.detach c.scope) hrules _ now ref with hsame | ⟨r, hw, hset⟩
    · rcases hplaced with hplaced | hplaced
      · exact .inl (hclosed (hsame.trans hplaced))
      · exact .inr (.inl (hsame.trans hplaced))
    · rw [tallyOf_of_waiting hl hw, or_self] at hplaced
      rw [hplaced] at hset
      exact .inr (.inr (.inl ⟨r, hw, hset⟩))
  | @removed scope hop hc =>
    rcases tallyOf_detach_cases e scope ref with hsame | hanew
    · exact .inl (hclosed hsame)
    · exact .inr (.inl hanew)
  | switched ht h => exact .inl (hclosed (tallyOf_setEnabled h ref))
  | @offered now fs ht w hfs =>
    exact .inl ((fires_attempts (Run.start e w now) _ hfs).ledger ref)
  | popped ht hr hdue hp => exact .inl (hclosed (tallyOf_congr (by rw [states_taken])))
  | @woken k q c now ht w hr hdue hp =>
    have hledger := (Run.fires_resume (Run.start (e.taken k q now) w now) k c).ledger ref
    rw [show (Run.start (e.taken k q now) w now).engine.tallyOf ref = e.tallyOf ref from
      tallyOf_congr (by rw [Run.start, states_taken])] at hledger
    exact .inl hledger
  | @restored records r hop hr =>
    rcases tallyOf_restoreOne e r ref with hsame | ⟨href, hset⟩
    · exact .inl (hclosed hsame)
    · exact .inr (.inr (.inr ⟨r, ⟨records, hop, hr, href⟩, hset⟩))

variable {p : Rule → Prop}

def HasRule (e : Engine) (ref : RuleRef) (p : Rule → Prop) (lasting : Bool) : Prop :=
  ∃ rule, e.catalog.rule? ref = some rule ∧ p rule ∧ (lasting = true → rule.permanent = true)

theorem hasRule_install (hl : e.Linked) (hrules : Content.Sound c.rules)
    (hop : op.content? = some c) (hr : op.Renews ref p) (lasting : Bool) :
    (e.install c carried now).2.HasRule ref p lasting := by
  obtain ⟨c', rule, hc, hs, hfind, hperm, hp⟩ := hr
  obtain rfl : c = c' := Option.some.inj (hop.symm.trans hc)
  refine ⟨rule, ?_, hp, fun _ => hperm⟩
  rw [catalog_install hrules hl.catalog, ← hfind]
  cases ref
  cases hs
  exact Catalog.rule?_insert_self ..

theorem HasRule.operationStep {lasting : Bool} (hl : e.Linked) (hr : e.HasRule ref p lasting)
    (h : OperationStep op e ds e') (hop : op.Keeps ref p lasting) : e'.HasRule ref p lasting := by
  have hcongr (hsame : e'.catalog.rule? ref = e.catalog.rule? ref) : e'.HasRule ref p lasting := by
    obtain ⟨rule, hrule, hp⟩ := hr
    exact ⟨rule, hsame.trans hrule, hp⟩
  cases h with
  | loaded hc ht hrules hn =>
    rcases hop with havoids | ⟨-, hrenews⟩
    · apply hcongr
      rw [catalog_install hrules hl.catalog, rule?_placed_of_ne (Ne.symm (havoids.1 _ hc))]
    · exact hasRule_install hl hrules hc hrenews lasting
  | replaced hc ht hrules =>
    rcases hop with havoids | ⟨-, hrenews⟩
    · have hne := Ne.symm (havoids.1 _ hc)
      apply hcongr
      rw [reload, catalog_install hrules (hl.detach _).catalog, rule?_placed_of_ne hne, rule?_detach,
        if_neg hne]
    · exact hasRule_install (hl.detach _) hrules hc hrenews lasting
  | @removed scope hop' hc =>
    apply hcongr
    rw [rule?_detach, if_neg]
    rintro rfl
    exact hop.not_unload hop'
  | switched ht h => exact hcongr (by rw [catalog_of_setEnabled h])
  | @offered now fs ht w hfs =>
    apply hcongr
    rw [(fires_attempts (Run.start e w now) _ hfs).catalog, show (Run.start e w now).engine = e from rfl]
  | popped ht hr hdue hp => exact hcongr (by rw [catalog_taken])
  | @woken k r c now ht w hr hdue hp =>
    apply hcongr
    rw [(Run.fires_resume _ k c).catalog,
      show (Run.start (e.taken k r now) w now).engine = e.taken k r now from rfl, catalog_taken]
  | restored hop hr => exact hcongr (by rw [catalog_restoreOne])

theorem OperationStep.ledger {lasting : Bool} (hl : e.Linked) (hr : e.HasRule ref p lasting)
    (h : OperationStep op e ds e') (hop : op.Keeps ref p lasting) :
    Ledger ref (op.Restores ref) (e.tallyOf ref) (onsets ds) (e'.tallyOf ref) := by
  have hclosed (hsame : e'.tallyOf ref = e.tallyOf ref) :
      Ledger ref (op.Restores ref) (e.tallyOf ref) [] (e'.tallyOf ref) := hsame ▸ .closed _
  obtain ⟨rule, hrule, -, hlasting⟩ := hr
  cases h with
  | @loaded c now hc ht hrules hn =>
    refine hclosed (tallyOf_install_of_ne hl hrules (carries_nil c) ?_)
    intro hs
    rw [← hs, Catalog.contains_of_rule? hrule] at hn
    cases hn
  | @replaced c now hc ht hrules =>
    rw [onsets_removal]
    apply hclosed
    rcases hop with havoids | ⟨hlasts, c', rule', hc', hs, hfind, hperm, -⟩
    · have hne := Ne.symm (havoids.1 _ hc)
      rw [reload, tallyOf_install_of_ne (hl.detach _) hrules (carries_carriedStates e c) hne,
        tallyOf_detach hne]
    · obtain rfl : c = c' := Option.some.inj (hc.symm.trans hc')
      refine tallyOf_reload hl hrules hs.symm hrule (hlasting hlasts) ?_
      rw [hasPermanent, List.any_eq_true]
      exact ⟨rule', List.mem_of_find?_eq_some hfind, by simp_all [List.find?_some hfind]⟩
  | @removed scope hop' hc =>
    refine hclosed (tallyOf_detach ?_)
    rintro rfl
    exact hop.not_unload hop'
  | switched ht h => exact hclosed (tallyOf_setEnabled h ref)
  | @offered now fs ht w hfs =>
    exact ((fires_attempts (Run.start e w now) _ hfs).ledger ref).of_none
  | popped ht hr hdue hp => exact hclosed (tallyOf_congr (by rw [states_taken]))
  | @woken k r c now ht w hr hdue hp =>
    have hledger := (Run.fires_resume (Run.start (e.taken k r now) w now) k c).ledger ref
    rw [show (Run.start (e.taken k r now) w now).engine.tallyOf ref = e.tallyOf ref from
      tallyOf_congr (by rw [Run.start, states_taken])] at hledger
    exact hledger.of_none
  | @restored records r hop' hr =>
    rcases tallyOf_restoreOne e r ref with hsame | ⟨href, hset⟩
    · exact hclosed hsame
    · exact .record ⟨records, hop', hr, href⟩ (hset ▸ .closed _)

theorem ledger_since (lasting : Bool) {later : List Operation} (hl : e.Linked)
    (ha : ∀ op ∈ later, op.Authored) (hr : e.HasRule ref p lasting)
    (hkeeps : ∀ op ∈ later, op.Keeps ref p lasting) :
    ∃ s, Ledger ref (fun r => ∃ op ∈ later, op.Restores ref r) (e.tallyOf ref)
        (onsets (e.ruleEventsSince later)) s ∧
      (∀ o ∈ onsets (e.ruleEventsSince later), o.ref = ref → p o.firing.rule) ∧
      ∀ d, e.performAll? later = some d → d.tallyOf ref = s := by
  obtain ⟨e', ⟨-, hledger, hrules⟩, hlast⟩ := ruleEventsSince_induct
    (motive := fun ds d => d.HasRule ref p lasting ∧
      Ledger ref (fun r => ∃ op ∈ later, op.Restores ref r) (e.tallyOf ref) (onsets ds) (d.tallyOf ref) ∧
      ∀ o ∈ onsets ds, o.ref = ref → p o.firing.rule) hl ha
    (fun op hop ds d ds' d' hd hopStep hm => by
      obtain ⟨hhas, hledger, hrules⟩ := hm
      refine ⟨hhas.operationStep hd hopStep (hkeeps op hop), ?_, ?_⟩
      · rw [onsets_append]
        exact hledger.append ((hopStep.ledger hd hhas (hkeeps op hop)).mono fun _ h => ⟨op, hop, h⟩)
      · intro o ho href
        rw [onsets_append, List.mem_append] at ho
        rcases ho with ho | ho
        · exact hrules o ho href
        · obtain ⟨rule, hrule, hp, -⟩ := hhas
          have hinstalled := (target?_eq_some_iff.mp (hopStep.installed o ho)).2
          rw [show o.firing.ref = ref from href, hrule] at hinstalled
          rwa [← Option.some.inj hinstalled])
    ⟨hr, .closed _, List.forall_mem_nil _⟩
  exact ⟨_, hledger, hrules, fun d hd => by rw [hlast d hd]⟩

end OperationSteps

end Engine

end WorldTriggers
