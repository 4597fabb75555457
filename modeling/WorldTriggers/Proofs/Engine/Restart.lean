import WorldTriggers.Proofs.Engine.Bookkeeping
import WorldTriggers.Proofs.Engine.Cooling
import WorldTriggers.Proofs.Engine.OperationTallies

namespace WorldTriggers.Engine

variable {e f : Engine} {ref : RuleRef} {scope : Scope} {now : Instant} {c : Content}

section Saved

def saved? (e : Engine) (ref : RuleRef) : Option Record :=
  match e.catalog.rule? ref with
  | some rule => if rule.permanent then some (e.states.snapshot ref) else none
  | none => e.waiting.get? ref

theorem snapshot_congr {s : RuleState} (h : f.tallyOf ref = s) :
    f.states.snapshot ref = ⟨ref.rule, ref.scope, s.fireCount, s.lastFiredAny⟩ := by
  subst h
  rfl

theorem Linked.mem_exported_iff (hl : e.Linked) {r : Record} :
    r ∈ e.exported ↔ e.saved? r.ref = some r := by
  unfold exported saved?
  constructor
  · intro hr
    rcases List.mem_append.mp hr with hr | hr
    · obtain ⟨⟨scope, i⟩, hi, hr⟩ := List.mem_flatMap.mp hr
      obtain ⟨l, hl', rfl⟩ := List.mem_map.mp hr
      obtain ⟨hmem, hperm⟩ := List.mem_filter.mp hl'
      have hrule := hl.catalog.rule?_of_mem (SortedMap.get?_eq_some_iff.mpr hi) hmem
      rw [ref_snapshot, hrule]
      simp [hperm]
    · obtain ⟨k, hk⟩ := SortedMap.mem_values.mp hr
      obtain ⟨rfl, hnot⟩ := hl.waiting k r hk
      rw [Catalog.rule?_eq_none_of_not_contains hnot]
      exact hk
  · intro hr
    cases hrule : e.catalog.rule? r.ref with
    | none =>
      rw [hrule] at hr
      exact List.mem_append_right _ (SortedMap.mem_values.mpr ⟨_, hr⟩)
    | some rule =>
      rw [hrule] at hr
      dsimp only at hr
      split at hr
      · rename_i hperm
        obtain ⟨i, l, hi, hmem, rfl, hid⟩ := Catalog.exists_mem_of_rule? hrule
        refine List.mem_append_left _ (List.mem_flatMap.mpr ⟨_, hi, List.mem_map.mpr ⟨l, ?_, ?_⟩⟩)
        · exact List.mem_filter.mpr ⟨hmem, hperm⟩
        · rw [hid]
          exact Option.some.inj hr
      · cases hr

theorem Linked.ref_of_saved? (hl : e.Linked) {r : Record} (h : e.saved? ref = some r) :
    r.ref = ref := by
  unfold saved? at h
  split at h
  · split at h
    · rw [← Option.some.inj h]
      exact ref_snapshot ..
    · cases h
  · exact (hl.waiting ref r h).1

theorem Linked.perm_exported (hl : e.Linked) (hf : f.Linked) (h : ∀ ref, f.saved? ref = e.saved? ref) :
    f.exported.Perm e.exported := by
  have hnodup {d : Engine} (hd : d.Linked) : d.exported.Nodup :=
    List.Nodup.of_map Record.ref hd.nodup_exported
  apply (List.perm_ext_iff_of_nodup (hnodup hf) (hnodup hl)).mpr
  intro r
  rw [hf.mem_exported_iff, hl.mem_exported_iff, h]

end Saved

section Fresh

def fresh (settings : Settings) (records : List Record) : Engine :=
  ((ofSettings settings).restore records).2

theorem restore_of_nothing_loaded (hc : e.catalog = {}) (records : List Record) :
    (e.restore records).2 =
      { e with waiting := records.foldl (fun waiting r => waiting.insert r.ref r) e.waiting } := by
  induction records generalizing e with
  | nil => rfl
  | cons r rest ih =>
    have hone : (e.restoreOne r).2 = { e with waiting := e.waiting.insert r.ref r } := by
      have hnot : e.catalog.contains r.scope = false := by
        rw [hc]
        rfl
      simp [restoreOne, hnot]
    have hcons : (e.restore (r :: rest)).2 = ((e.restoreOne r).2.restore rest).2 := rfl
    rw [hcons, hone]
    exact ih hc

theorem get?_foldl_waiting {records : List Record} (hnodup : (records.map Record.ref).Nodup)
    (waiting : SortedMap RuleRef Record) (ref : RuleRef) (r : Record) :
    (records.foldl (fun waiting r => waiting.insert r.ref r) waiting).get? ref = some r ↔
      r ∈ records ∧ r.ref = ref ∨
        ref ∉ records.map Record.ref ∧ waiting.get? ref = some r := by
  induction records generalizing waiting with
  | nil => simp
  | cons q rest ih =>
    obtain ⟨hq, hrest⟩ := List.nodup_cons.mp hnodup
    rw [List.foldl_cons, ih hrest, SortedMap.get?_insert]
    by_cases href : ref = q.ref
    · subst href
      simp only [if_true, List.mem_cons, List.map_cons, Option.some.injEq, hq]
      constructor
      · rintro (⟨hr, heq⟩ | ⟨-, rfl⟩)
        · exact absurd (heq ▸ List.mem_map_of_mem hr) hq
        · simp
      · rintro (⟨rfl | hr, heq⟩ | ⟨hout, -⟩)
        · simp
        · exact .inl ⟨hr, heq⟩
        · simp at hout
    · have hne : q.ref ≠ ref := Ne.symm href
      simp only [href, if_false, List.mem_cons, List.map_cons, not_or, not_false_eq_true, true_and]
      constructor
      · rintro (⟨hr, heq⟩ | h)
        · exact .inl ⟨.inr hr, heq⟩
        · exact .inr h
      · rintro (⟨rfl | hr, heq⟩ | h)
        · exact absurd heq hne
        · exact .inl ⟨hr, heq⟩
        · exact .inr h

theorem fresh_eq (settings : Settings) (records : List Record) :
    fresh settings records = { ofSettings settings with
      waiting := records.foldl (fun waiting r => waiting.insert r.ref r) .empty } :=
  restore_of_nothing_loaded rfl records

theorem get?_waiting_fresh {settings : Settings} {records : List Record}
    (hnodup : (records.map Record.ref).Nodup) {r : Record} :
    (fresh settings records).waiting.get? ref = some r ↔ r ∈ records ∧ r.ref = ref := by
  rw [fresh_eq, get?_foldl_waiting hnodup]
  simp

theorem fresh_congr (settings : Settings) {records records' : List Record}
    (hnodup : (records.map Record.ref).Nodup) (h : records'.Perm records) :
    fresh settings records' = fresh settings records := by
  have hnodup' : (records'.map Record.ref).Nodup := (h.map _).nodup_iff.mpr hnodup
  have hwaiting : (fresh settings records').waiting = (fresh settings records).waiting := by
    refine SortedMap.ext_get? fun ref => Option.ext fun r => ?_
    rw [get?_waiting_fresh hnodup, get?_waiting_fresh hnodup', h.mem_iff]
  rw [fresh_eq, fresh_eq] at hwaiting ⊢
  exact congrArg (fun waiting => { ofSettings settings with waiting }) hwaiting

theorem linked_fresh (settings : Settings) (records : List Record) :
    (fresh settings records).Linked :=
  restore_induct records (fun _ r h => h.restoreOne r) (linked_ofSettings settings)

end Fresh

section Load

theorem rule?_eq_find? (c : Catalog) (ref : RuleRef) :
    c.rule? ref = (c.rules ref.scope).find? (·.id == ref.rule) := by
  unfold Catalog.rule? Catalog.find? Catalog.rules
  cases c.get? ref.scope with
  | none => rfl
  | some i => simp [Installation.find?, List.find?_map]

theorem Linked.load_cases (hl : f.Linked) (c : Content) (now : Instant) :
    ∃ (d : Engine) (carried : _), (f.load c now).2 = (d.install c carried now).2 ∧ d.Linked ∧
      d.catalog.contains c.scope = false ∧ Carries c carried ∧ d.waiting = f.waiting ∧
      (∀ scope, scope ≠ c.scope → d.catalog.get? scope = f.catalog.get? scope) ∧
      ∀ ref, ref.scope ≠ c.scope → d.tallyOf ref = f.tallyOf ref := by
  rcases load_eq_install f c now with ⟨hload, hnot⟩ | hload
  · exact ⟨f, [], hload, hl, hnot, carries_nil c, rfl, fun _ _ => rfl, fun _ _ => rfl⟩
  · refine ⟨f.detach c.scope, _, hload, hl.detach _, not_contains_detach f _,
      carries_carriedStates f c, rfl, fun scope hs => ?_, fun ref hs => tallyOf_detach hs⟩
    exact (Catalog.get?_remove ..).trans (if_neg hs)

theorem get?_catalog_load (hl : f.Linked) (hrules : Content.Sound c.rules) (now : Instant)
    (hs : scope ≠ c.scope) : (f.load c now).2.catalog.get? scope = f.catalog.get? scope := by
  obtain ⟨d, carried, hload, hd, -, -, -, hget, -⟩ := hl.load_cases c now
  rw [hload, catalog_install hrules hd.catalog, ← hget scope hs]
  exact (Catalog.get?_insert ..).trans (if_neg hs)

theorem rules_load (hl : f.Linked) (hrules : Content.Sound c.rules) (now : Instant) :
    (f.load c now).2.catalog.contains c.scope = true ∧
      (f.load c now).2.catalog.rules c.scope = c.rules := by
  obtain ⟨d, carried, hload, hd, -⟩ := hl.load_cases c now
  have hcatalog : (f.load c now).2.catalog = (d.placed c carried).catalog := by
    rw [hload, catalog_install hrules hd.catalog]
  rw [Catalog.contains_eq, Catalog.rules, hcatalog, get?_placed]
  simp [Function.comp_def]

theorem contains_load (hl : f.Linked) (hrules : Content.Sound c.rules) (now : Instant)
    (scope : Scope) : (f.load c now).2.catalog.contains scope = true ↔
      scope = c.scope ∨ f.catalog.contains scope = true := by
  by_cases hs : scope = c.scope
  · rw [hs, (rules_load hl hrules now).1]
    simp
  · rw [Catalog.contains_eq, Catalog.contains_eq, get?_catalog_load hl hrules now hs]
    simp [hs]

theorem waiting_load (hl : f.Linked) (hrules : Content.Sound c.rules) (now : Instant)
    (hs : ref.scope ≠ c.scope) : (f.load c now).2.waiting.get? ref = f.waiting.get? ref := by
  obtain ⟨d, carried, hload, hd, -, -, hwaiting, -, -⟩ := hl.load_cases c now
  rw [hload, waiting_install hrules hd.catalog, hwaiting, SortedMap.get?_filter]
  cases f.waiting.get? ref <;> simp [hs]

theorem tallyOf_load_of_ne (hl : f.Linked) (hrules : Content.Sound c.rules) (now : Instant)
    (hs : ref.scope ≠ c.scope) : (f.load c now).2.tallyOf ref = f.tallyOf ref := by
  obtain ⟨d, carried, hload, hd, -, hcarries, -, -, htally⟩ := hl.load_cases c now
  rw [hload, tallyOf_install_of_ne hd hrules hcarries hs, htally ref hs]

theorem tallyOf_applyRecord_self {r : Record} {rule : Rule}
    (hrule : e.catalog.rule? r.ref = some rule) (hperm : rule.permanent = true) :
    (e.applyRecord r).2.tallyOf r.ref = (e.tallyOf r.ref).restore r := by
  have hupdate : tallyOf { e with states := e.states.update r.ref (·.restore r) } r.ref =
      (e.tallyOf r.ref).restore r := by
    rw [tallyOf_update_restore, if_pos rfl]
  rcases applyRecord_cases e r with ⟨hnot, -⟩ | ⟨_, -, -, ⟨-, h⟩ | ⟨-, h⟩⟩
  · rw [hnot rule hrule] at hperm
    cases hperm
  · rw [h, tallyOf_disarmTimer, hupdate]
  · rw [h, hupdate]

theorem tallyOf_applyRecords {r : Record} {rule : Rule} {s : RuleState} (records : List Record)
    (hrule : e.catalog.rule? r.ref = some rule) (hperm : rule.permanent = true)
    (honly : ∀ q ∈ records, q.ref = r.ref → q = r)
    (hs : r ∈ records ∧ e.tallyOf r.ref = s ∨ e.tallyOf r.ref = s.restore r) :
    (e.applyRecords records).2.tallyOf r.ref = s.restore r := by
  induction records generalizing e with
  | nil =>
    rcases hs with ⟨hr, -⟩ | hs
    · cases hr
    · exact hs
  | cons q rest ih =>
    obtain ⟨hq, hrest⟩ := List.forall_mem_cons.mp honly
    have hcons : (e.applyRecords (q :: rest)).2 = ((e.applyRecord q).2.applyRecords rest).2 := rfl
    rw [hcons]
    refine ih (by rw [catalog_applyRecord, hrule]) hrest ?_
    by_cases href : q.ref = r.ref
    · obtain rfl := hq href
      right
      rw [tallyOf_applyRecord_self hrule hperm]
      rcases hs with ⟨-, hs⟩ | hs
      · rw [hs]
      · rw [hs, restore_restore]
    · have hsame : (e.applyRecord q).2.tallyOf r.ref = e.tallyOf r.ref := by
        rcases tallyOf_applyRecord e q r.ref with h | ⟨h, -⟩
        · exact h
        · exact absurd h href
      rw [hsame]
      refine hs.imp_left fun ⟨hr, hs⟩ => ⟨?_, hs⟩
      rcases List.mem_cons.mp hr with rfl | hr
      · exact absurd rfl href
      · exact hr

theorem tallyOf_armTimers (e : Engine) (scope : Scope) (epoch : Nat) (now : Instant) (ref : RuleRef) :
    (e.armTimers scope epoch now).tallyOf ref = e.tallyOf ref := by
  unfold armTimers
  induction e.catalog.candidates scope .timer generalizing e with
  | nil => rfl
  | cons l rest ih => rw [List.foldl_cons, ih, tallyOf_armTimer]

theorem tallyOf_install_waiting {r : Record} {rule : Rule} (hl : e.Linked) (hs : ref.scope = c.scope)
    (hrule : c.rules.find? (·.id == ref.rule) = some rule) (hperm : rule.permanent = true)
    (hw : e.waiting.get? ref = some r) :
    (e.install c [] now).2.tallyOf ref = ({} : RuleState).restore r := by
  obtain ⟨rfl, -⟩ := hl.waiting ref r hw
  have hplaced : (e.placed c []).catalog.rule? r.ref = some rule := by
    rw [← hrule]
    cases href : r.ref
    rw [href] at hs
    cases hs
    exact Catalog.rule?_insert_self ..
  have hdefault : e.tallyOf r.ref = {} := tallyOf_of_waiting hl hw
  rw [install_eq, tallyOf_armTimers]
  refine tallyOf_applyRecords _ hplaced hperm ?_ (.inl ⟨hl.mem_waitingFor_iff.mpr ⟨hw, hs⟩, hdefault⟩)
  intro q hq href
  have hq := (hl.mem_waitingFor_iff.mp hq).1
  rw [href, hw] at hq
  exact (Option.some.inj hq).symm

end Load

section Restart

theorem Linked.waiting_eq_none (hl : e.Linked) (hc : e.catalog.contains ref.scope = true) :
    e.waiting.get? ref = none := by
  cases hw : e.waiting.get? ref with
  | none => rfl
  | some r =>
    have hnot := (hl.waiting ref r hw).2
    simp [hc] at hnot

structure Resumes (f e : Engine) : Prop where
  linked : f.Linked
  loaded : ∀ scope, f.catalog.contains scope = true → e.catalog.contains scope = true
  rules : ∀ ref, f.catalog.contains ref.scope = true → f.catalog.rule? ref = e.catalog.rule? ref
  waiting : ∀ ref, f.catalog.contains ref.scope = false → f.waiting.get? ref = e.saved? ref
  tallies : ∀ ref rule, f.catalog.rule? ref = some rule → rule.permanent = true →
    f.tallyOf ref = ({} : RuleState).restore (e.states.snapshot ref)

theorem Resumes.saved (h : f.Resumes e) (hl : e.Linked) (ref : RuleRef) :
    f.saved? ref = e.saved? ref := by
  cases hc : f.catalog.contains ref.scope with
  | false => rw [← h.waiting ref hc, saved?, Catalog.rule?_eq_none_of_not_contains hc]
  | true =>
    have hrule := h.rules ref hc
    unfold saved?
    cases hr : e.catalog.rule? ref with
    | none =>
      rw [hrule, hr, h.linked.waiting_eq_none hc, hl.waiting_eq_none (h.loaded _ hc)]
    | some rule =>
      rw [hrule, hr]
      dsimp only
      split
      · rw [snapshot_congr (h.tallies ref rule (hrule.trans hr) ‹_›)]
        rfl
      · rfl

theorem resumes_fresh (hl : e.Linked) (settings : Settings) {records : List Record}
    (h : records.Perm e.exported) : (fresh settings records).Resumes e := by
  have hcatalog : (fresh settings records).catalog = {} := by
    rw [fresh_eq]
    rfl
  have hnot (scope : Scope) : (fresh settings records).catalog.contains scope = false := by
    rw [hcatalog]
    rfl
  have hnodup : (records.map Record.ref).Nodup := (h.map _).nodup_iff.mpr hl.nodup_exported
  refine ⟨linked_fresh settings records, ?_, ?_, ?_, ?_⟩
  · intro scope hc
    simp [hnot] at hc
  · intro ref hc
    simp [hnot] at hc
  · intro ref _
    refine Option.ext fun r => ?_
    rw [get?_waiting_fresh hnodup, h.mem_iff, hl.mem_exported_iff]
    constructor
    · rintro ⟨hr, rfl⟩
      exact hr
    · intro hr
      have href := hl.ref_of_saved? hr
      exact ⟨href ▸ hr, href⟩
  · intro ref rule hrule
    rw [Catalog.rule?_eq_none_of_not_contains (hnot _)] at hrule
    cases hrule

def Holds (e : Engine) (c : Content) : Prop :=
  e.catalog.contains c.scope = true ∧ c.rules = e.catalog.rules c.scope

theorem Holds.sound (hl : e.Linked) (h : e.Holds c) : Content.Sound c.rules := by
  obtain ⟨hc, hrules⟩ := h
  obtain ⟨i, hi⟩ := Option.isSome_iff_exists.mp ((Catalog.contains_eq _ _).symm.trans hc)
  rw [hrules, Catalog.rules, hi]
  exact hl.catalog _ i hi

theorem holds_load (hl : f.Linked) (hrules : Content.Sound c.rules) (now : Instant) :
    (f.load c now).2.Holds c := by
  obtain ⟨hc, hsame⟩ := rules_load hl hrules now
  exact ⟨hc, hsame.symm⟩

theorem Resumes.load (h : f.Resumes e) (hl : e.Linked) (hc : e.Holds c) (now : Instant) :
    (f.load c now).2.Resumes e := by
  have hsound := hc.sound hl
  obtain ⟨hloaded, hrules⟩ := hc
  obtain ⟨hself, hself'⟩ := rules_load h.linked hsound now
  have hcontains {scope : Scope} (hs : scope ≠ c.scope) :
      (f.load c now).2.catalog.contains scope = f.catalog.contains scope := by
    rw [Bool.eq_iff_iff, contains_load h.linked hsound now scope]
    simp [hs]
  have hrule {ref : RuleRef} (hs : ref.scope ≠ c.scope) :
      (f.load c now).2.catalog.rule? ref = f.catalog.rule? ref :=
    Catalog.rule?_congr (get?_catalog_load h.linked hsound now hs)
  have hsame {ref : RuleRef} (hs : ref.scope = c.scope) :
      (f.load c now).2.catalog.rule? ref = e.catalog.rule? ref := by
    rw [rule?_eq_find?, rule?_eq_find?, hs, hself', hrules]
  refine ⟨h.linked.load hsound now, ?_, ?_, ?_, ?_⟩
  · intro scope hscope
    by_cases hs : scope = c.scope
    · rw [hs, hloaded]
    · exact h.loaded scope ((hcontains hs).symm.trans hscope)
  · intro ref href
    by_cases hs : ref.scope = c.scope
    · exact hsame hs
    · rw [hrule hs]
      exact h.rules ref ((hcontains hs).symm.trans href)
  · intro ref href
    by_cases hs : ref.scope = c.scope
    · rw [hs, hself] at href
      cases href
    · rw [waiting_load h.linked hsound now hs]
      exact h.waiting ref ((hcontains hs).symm.trans href)
  · intro ref rule hr hperm
    by_cases hs : ref.scope = c.scope
    · have hr' : e.catalog.rule? ref = some rule := (hsame hs).symm.trans hr
      have hfind : c.rules.find? (·.id == ref.rule) = some rule := by
        rw [hrules, ← hs, ← rule?_eq_find?, hr']
      cases hc : f.catalog.contains c.scope with
      | false =>
        have hsaved : e.saved? ref = some (e.states.snapshot ref) := by simp [saved?, hr', hperm]
        have hload : (f.load c now).2 = (f.install c [] now).2 := by simp [Engine.load, hc]
        rw [hload]
        exact tallyOf_install_waiting h.linked hs hfind hperm
          ((h.waiting ref (hs ▸ hc)).trans hsaved)
      | true =>
        have hold : f.catalog.rule? ref = some rule := (h.rules ref (hs ▸ hc)).trans hr'
        have hlasts : hasPermanent c.rules ref.rule = true := by
          rw [hasPermanent, List.any_eq_true]
          refine ⟨rule, List.mem_of_find?_eq_some hfind, ?_⟩
          have hid := List.find?_some hfind
          simp_all
        have hload : (f.load c now).2 = (f.reload c now).2 := by simp [Engine.load, hc]
        rw [hload, tallyOf_reload h.linked hsound hs hold hperm hlasts]
        exact h.tallies ref rule hold hperm
    · rw [tallyOf_load_of_ne h.linked hsound now hs]
      exact h.tallies ref rule ((hrule hs).symm.trans hr) hperm

def loadAll (e : Engine) (loads : List (Content × Instant)) : Engine :=
  loads.foldl (fun e p => (e.load p.1 p.2).2) e

theorem Resumes.loadAll (h : f.Resumes e) (hl : e.Linked) {loads : List (Content × Instant)}
    (hloads : ∀ p ∈ loads, e.Holds p.1) : (f.loadAll loads).Resumes e := by
  induction loads generalizing f with
  | nil => exact h
  | cons p rest ih =>
    obtain ⟨hp, hrest⟩ := List.forall_mem_cons.mp hloads
    exact ih (h.load hl hp p.2) hrest

theorem contains_loadAll (hl : f.Linked) {loads : List (Content × Instant)}
    (hrules : ∀ p ∈ loads, Content.Sound p.1.rules)
    (h : f.catalog.contains scope = true ∨ ∃ p ∈ loads, p.1.scope = scope) :
    (f.loadAll loads).catalog.contains scope = true := by
  induction loads generalizing f with
  | nil =>
    rcases h with h | ⟨p, hp, -⟩
    · exact h
    · cases hp
  | cons p rest ih =>
    obtain ⟨hp, hrest⟩ := List.forall_mem_cons.mp hrules
    refine ih (hl.load hp p.2) hrest ?_
    rw [contains_load hl hp]
    rcases h with h | ⟨q, hq, rfl⟩
    · exact .inl (.inr h)
    · rcases List.mem_cons.mp hq with rfl | hq
      · exact .inl (.inl rfl)
      · exact .inr ⟨q, hq, rfl⟩

/-- A fresh engine that takes in what was exported, in any order, and loads scopes as they were loaded
before, in any order and at any times, exports the same records. No rule is exported twice. -/
theorem exported_restarted {settings settings' : Settings} {ops : List Operation}
    (h : Reaches settings ops e) {records : List Record} (hrecords : records.Perm e.exported)
    {loads : List (Content × Instant)} (hloads : ∀ p ∈ loads, e.Holds p.1) :
    ((fresh settings' records).loadAll loads).exported.Perm e.exported ∧
      (e.exported.map Record.ref).Nodup ∧
      (fresh settings' records).loadAll loads = (fresh settings' e.exported).loadAll loads := by
  have hl := h.linked
  have hresumes := (resumes_fresh hl settings' hrecords).loadAll hl hloads
  refine ⟨hl.perm_exported hresumes.linked (hresumes.saved hl), hl.nodup_exported, ?_⟩
  rw [fresh_congr settings' hl.nodup_exported hrecords]

theorem catalog_of_scene? {op : Operation} {x : World × Instant} (hl : e.Linked)
    (hop : op.scene? = some x) (hp : e.perform op = some f) : f.catalog = e.catalog := by
  have hattempts := perform_of_scene? hl.catalog hop
  rw [hp] at hattempts
  obtain rfl := Option.some.inj hattempts
  exact (fires_attempts (Run.start e x.1 x.2) _ (installed_of_offered hl.catalog op)).catalog

theorem Holds.congr (h : e.Holds c) (hcatalog : f.catalog = e.catalog) : f.Holds c := by
  rw [Holds, hcatalog]
  exact h

def struck : List Operation :=
  [.restore [⟨"bell", .room "attic", 3, some ⟨59, 1500000000⟩⟩], .fireRule {} gong {} 5000000000,
    .load gongs 0]

theorem exported_restarted_struck :
    ∃ e, Reaches (.builtin 8) struck e ∧
      e.exported = [⟨"gong", .room "cellar", 1, some (.ofInstant 5000000000)⟩,
        ⟨"bell", .room "attic", 3, some ⟨59, 1500000000⟩⟩] ∧
      e.Holds gongs ∧
      ((fresh (.builtin 8) e.exported.reverse).loadAll [(gongs, 7000000000)]).exported.Perm
        e.exported := by
  obtain ⟨e, h, hp⟩ := exists_reaches (.builtin 8) struck
    (fun e => e.exported == [⟨"gong", .room "cellar", 1, some (.ofInstant 5000000000)⟩,
      ⟨"bell", .room "attic", 3, some ⟨59, 1500000000⟩⟩])
    (by simp [struck, Operation.Authored, gongs, Content.Authored.ofRules]) (by decide +kernel)
  have hholds : e.Holds gongs := by
    rw [struck] at h
    obtain _ | ⟨hfired, -, hrestore⟩ := h
    obtain _ | ⟨hloaded, -, hfire⟩ := hfired
    obtain _ | ⟨hstart, ha, hload⟩ := hloaded
    cases hrestore
    cases hload
    have hl := hstart.linked
    have hheld := holds_load hl ha.sound 0
    exact (hheld.congr (catalog_of_scene? (hl.load ha.sound 0) rfl hfire)).congr (catalog_restore ..)
  refine ⟨e, h, by simpa using hp, hholds, ?_⟩
  refine (exported_restarted h (List.reverse_perm _) fun p hp => ?_).1
  obtain rfl := List.mem_singleton.mp hp
  exact hholds

end Restart

end WorldTriggers.Engine
