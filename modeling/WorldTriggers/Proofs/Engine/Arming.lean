import WorldTriggers.Proofs.Engine.LoadAfterUnload
import WorldTriggers.Proofs.Engine.Numbering

namespace WorldTriggers

structure Start where
  ref : RuleRef
  due : Instant
  interval : Option Span

def Start.registration (s : Start) (turn epoch : Nat) : Registration Job :=
  ⟨s.due, turn, s.interval, .ruleTimer s.ref epoch⟩

def Rule.start? (r : Rule) (scope : Scope) (s : RuleState) (now : Instant) : Option Start :=
  if s.isEnabled r.enabled && !s.isExhausted r.fireLimit? then
    r.timerPlan?.bind fun plan => (now.after? plan.initial).map fun due =>
      ⟨⟨scope, r.id⟩, due, if 0 < plan.interval then some plan.interval else none⟩
  else none

theorem Rule.ref_of_start? {r : Rule} {scope : Scope} {s : RuleState} {now : Instant} {t : Start}
    (h : r.start? scope s now = some t) : t.ref = ⟨scope, r.id⟩ := by
  unfold start? at h
  split at h
  · obtain ⟨plan, -, h⟩ := Option.bind_eq_some_iff.mp h
    obtain ⟨due, -, rfl⟩ := Option.map_eq_some_iff.mp h
    rfl
  · cases h

theorem RuleState.isExhausted_eq_false_iff {s : RuleState} {limit : Option Nat} :
    s.isExhausted limit = false ↔ ∀ n, limit = some n → s.fireCount < n := by
  cases limit <;> simp [isExhausted]

theorem Rule.start?_eq_some_iff {r : Rule} {scope : Scope} {s : RuleState} {now : Instant} {t : Start}
    (hs : s.enabledOverride = none) : r.start? scope s now = some t ↔
      r.enabled = true ∧ s.isExhausted r.fireLimit? = false ∧
        ∃ plan, r.timerPlan? = some plan ∧ now.after? plan.initial = some t.due ∧
          t.interval = (if 0 < plan.interval then some plan.interval else none) ∧
          t.ref = ⟨scope, r.id⟩ := by
  have henabled : s.isEnabled r.enabled = r.enabled := by
    unfold RuleState.isEnabled
    rw [hs]
    rfl
  unfold start?
  rw [henabled]
  constructor
  · intro h
    split at h
    · rename_i hgate
      obtain ⟨hen, hex⟩ := Bool.and_eq_true_iff.mp hgate
      obtain ⟨plan, hplan, h⟩ := Option.bind_eq_some_iff.mp h
      obtain ⟨due, hdue, rfl⟩ := Option.map_eq_some_iff.mp h
      exact ⟨hen, by simpa using hex, plan, hplan, hdue, rfl, rfl⟩
    · cases h
  · obtain ⟨ref, due, interval⟩ := t
    rintro ⟨hen, hex, plan, hplan, hdue, rfl, rfl⟩
    rw [if_pos (by rw [hen, hex]; rfl), hplan, Option.bind_some, hdue]
    rfl

theorem Rule.start?_iff_default {r : Rule} {scope : Scope} {s : RuleState} {now : Instant} {t : Start}
    (hs : s.enabledOverride = none) : r.start? scope s now = some t ↔
      r.start? scope {} now = some t ∧ s.isExhausted r.fireLimit? = false := by
  have hfresh (h : s.isExhausted r.fireLimit? = false) :
      RuleState.isExhausted {} r.fireLimit? = false := by
    rw [RuleState.isExhausted_eq_false_iff] at h ⊢
    exact fun n hn => (Nat.zero_le _).trans_lt (h n hn)
  rw [start?_eq_some_iff hs, start?_eq_some_iff rfl]
  constructor
  · rintro ⟨hen, hex, hplan⟩
    exact ⟨⟨hen, hfresh hex, hplan⟩, hex⟩
  · rintro ⟨⟨hen, -, hplan⟩, hex⟩
    exact ⟨hen, hex, hplan⟩

theorem Content.Sound.find?_of_mem {rules : List Rule} (h : Content.Sound rules) {r : Rule}
    (hr : r ∈ rules) : rules.find? (·.id == r.id) = some r := by
  obtain ⟨k, hk⟩ : ∃ k, rules.find? (·.id == r.id) = some k := by
    rw [← Option.isSome_iff_exists, List.find?_isSome]
    exact ⟨r, hr, beq_self_eq_true r.id⟩
  have hid : k.id = r.id := by simpa using List.find?_some hk
  rw [hk, List.inj_on_of_nodup_map h.distinct (List.mem_of_find?_eq_some hk) hr hid]

namespace Engine

variable {e e' d : Engine} {scope : Scope} {epoch : Nat} {now : Instant} {ls : List LoadedRule}
  {l : LoadedRule} {ref : RuleRef}

def startOf? (e : Engine) (scope : Scope) (now : Instant) (l : LoadedRule) : Option Start :=
  l.rule.start? scope (e.states.stateOf ⟨scope, l.rule.id⟩) now

def starts (e : Engine) (scope : Scope) (now : Instant) (ls : List LoadedRule) : List Start :=
  ls.filterMap (e.startOf? scope now)

def refsOf (scope : Scope) (ls : List LoadedRule) : List RuleRef :=
  ls.map fun l => ⟨scope, l.rule.id⟩

theorem nodup_refsOf (scope : Scope) (h : (ls.map (·.rule.id)).Nodup) : (refsOf scope ls).Nodup := by
  have hmap : refsOf scope ls = (ls.map (·.rule.id)).map fun id => ⟨scope, id⟩ := by
    rw [refsOf, List.map_map]
    rfl
  rw [hmap]
  exact h.map fun _ _ heq => congrArg RuleRef.rule heq

theorem starts_refs_sublist (e : Engine) (scope : Scope) (now : Instant) (ls : List LoadedRule) :
    ((e.starts scope now ls).map Start.ref).Sublist (refsOf scope ls) := by
  induction ls with
  | nil => exact .refl _
  | cons l rest ih =>
    unfold starts at ih ⊢
    rw [List.filterMap_cons]
    cases hstart : e.startOf? scope now l with
    | none => exact ih.cons _
    | some s =>
      rw [List.map_cons, Rule.ref_of_start? hstart]
      exact ih.cons_cons _

structure Armed (scope : Scope) (epoch : Nat) (now : Instant) (ls : List LoadedRule) (e e' : Engine) :
    Prop where
  settings : e'.settings = e.settings
  catalog : e'.catalog = e.catalog
  deferred : e'.deferred = e.deferred
  waiting : e'.waiting = e.waiting
  nextHandle : e'.schedule.nextHandle = e.schedule.nextHandle + (e.starts scope now ls).length
  nextTurn : e'.schedule.nextTurn = e.schedule.nextTurn + (e.starts scope now ls).length
  old : ∀ h, h < e.schedule.nextHandle → e'.job? h = e.job? h
  new : ∀ i : Nat, e'.job? (e.schedule.nextHandle + i) =
    (e.starts scope now ls)[i]?.map (·.registration (e.schedule.nextTurn + i) epoch)
  others : ∀ ref, ref ∉ refsOf scope ls → e'.states.get? ref = e.states.get? ref
  states : ∀ ref ∈ refsOf scope ls,
    e'.states.get? ref = some { e.states.stateOf ref with timer := e'.timerOf ref }
  timers : ∀ ref ∈ refsOf scope ls, ∀ h, e'.timerOf ref = some h ↔
    ∃ (i : Nat) (s : Start), (e.starts scope now ls)[i]? = some s ∧ s.ref = ref ∧
      h = e.schedule.nextHandle + i

section Starts

theorem mem_refsOf_concat : ref ∈ refsOf scope (ls ++ [l]) ↔
    ref ∈ refsOf scope ls ∨ ref = ⟨scope, l.rule.id⟩ := by
  simp [refsOf]

theorem starts_concat (e : Engine) (scope : Scope) (now : Instant) (ls : List LoadedRule)
    (l : LoadedRule) : e.starts scope now (ls ++ [l]) = e.starts scope now ls ++
      (e.startOf? scope now l).toList := by
  unfold starts
  rw [List.filterMap_append]
  cases h : e.startOf? scope now l <;> simp [h]

theorem mem_refsOf_of_start {i : Nat} {s : Start} (h : (e.starts scope now ls)[i]? = some s) :
    s.ref ∈ refsOf scope ls :=
  (starts_refs_sublist e scope now ls).subset (List.mem_map_of_mem (List.mem_of_getElem? h))

theorem getElem?_starts_concat (e : Engine) (scope : Scope) (now : Instant) (ls : List LoadedRule)
    (l : LoadedRule) (i : Nat) : (e.starts scope now (ls ++ [l]))[i]? =
      if i = (e.starts scope now ls).length then e.startOf? scope now l
      else (e.starts scope now ls)[i]? := by
  rw [starts_concat]
  rcases Nat.lt_trichotomy i (e.starts scope now ls).length with hlt | rfl | hgt
  · rw [if_neg hlt.ne, List.getElem?_append_left hlt]
  · rw [if_pos rfl, List.getElem?_append_right le_rfl, Nat.sub_self]
    cases e.startOf? scope now l <;> rfl
  · rw [if_neg hgt.ne', List.getElem?_eq_none hgt.le, List.getElem?_eq_none]
    rw [List.length_append]
    have hlength : (e.startOf? scope now l).toList.length ≤ 1 := by
      cases e.startOf? scope now l <;> simp
    omega

theorem exists_starts_concat {s : Start} (hstart : e.startOf? scope now l = some s)
    (hn : s.ref ∉ refsOf scope ls) (base h : Nat) :
    (∃ (i : Nat) (t : Start), (e.starts scope now (ls ++ [l]))[i]? = some t ∧ t.ref = ref ∧
      h = base + i) ↔
        if ref = s.ref then h = base + (e.starts scope now ls).length
        else ∃ (i : Nat) (t : Start), (e.starts scope now ls)[i]? = some t ∧ t.ref = ref ∧ h = base + i := by
  simp only [getElem?_starts_concat]
  split
  · subst ref
    constructor
    · rintro ⟨i, t, ht, href, rfl⟩
      split at ht
      · subst i
        rfl
      · exact absurd (href ▸ mem_refsOf_of_start ht) hn
    · rintro rfl
      exact ⟨_, s, (if_pos rfl).trans hstart, rfl, rfl⟩
  · rename_i hne
    constructor
    · rintro ⟨i, t, ht, rfl, rfl⟩
      split at ht
      · obtain rfl := Option.some.inj (hstart.symm.trans ht)
        exact absurd rfl hne
      · exact ⟨i, t, ht, rfl, rfl⟩
    · rintro ⟨i, t, ht, hrest⟩
      have hi := (List.getElem?_eq_some_iff.mp ht).1
      exact ⟨i, t, (if_neg hi.ne).trans ht, hrest⟩

end Starts

namespace Armed

theorem stateOf_of_not_mem (h : Armed scope epoch now ls e d) (hn : ref ∉ refsOf scope ls) :
    d.states.stateOf ref = e.states.stateOf ref := by
  unfold RuleStates.stateOf
  rw [h.others ref hn]

theorem nil (hissued : ∀ h, e.schedule.nextHandle ≤ h → e.job? h = none) :
    Armed scope epoch now [] e e where
  settings := rfl
  catalog := rfl
  deferred := rfl
  waiting := rfl
  nextHandle := rfl
  nextTurn := rfl
  old _ _ := rfl
  new _ := hissued _ (Nat.le_add_right ..)
  others _ _ := rfl
  states _ hm := nomatch hm
  timers _ hm := nomatch hm

theorem touch (h : Armed scope epoch now ls e d) (hn : ⟨scope, l.rule.id⟩ ∉ refsOf scope ls)
    (hidle : e.timerOf ⟨scope, l.rule.id⟩ = none)
    (hstart : e.startOf? scope now l = none) :
    Armed scope epoch now (ls ++ [l]) e (d.touch ⟨scope, l.rule.id⟩) := by
  have hstarts : e.starts scope now (ls ++ [l]) = e.starts scope now ls := by
    rw [starts_concat, hstart]
    exact List.append_nil _
  have hget (k : RuleRef) : (d.touch ⟨scope, l.rule.id⟩).states.get? k =
      if k = ⟨scope, l.rule.id⟩ then some (d.states.stateOf ⟨scope, l.rule.id⟩) else d.states.get? k :=
    RuleStates.get?_update ..
  refine { h with nextHandle := ?_, nextTurn := ?_, new := ?_, others := ?_, states := ?_, timers := ?_ }
  · rw [hstarts]
    exact h.nextHandle
  · rw [hstarts]
    exact h.nextTurn
  · rw [hstarts]
    exact h.new
  · intro k hk
    rw [mem_refsOf_concat, not_or] at hk
    rw [hget, if_neg hk.2, h.others k hk.1]
  · intro k hk
    rw [hget, timerOf_touch]
    split
    · subst k
      rw [timerOf, h.stateOf_of_not_mem hn]
    · exact h.states k ((mem_refsOf_concat.mp hk).resolve_right ‹_›)
  · intro k hk j
    rw [hstarts, timerOf_touch]
    rcases mem_refsOf_concat.mp hk with hk | rfl
    · exact h.timers k hk j
    · rw [timerOf, h.stateOf_of_not_mem hn]
      constructor
      · intro ht
        rw [show e.timerOf _ = some j from ht] at hidle
        cases hidle
      · rintro ⟨i, s, hs, href, -⟩
        exact absurd (href ▸ mem_refsOf_of_start hs) hn

theorem get?_startTimer {k : RuleRef} {interval : Span} {due : Instant}
    (h : Armed scope epoch now ls e d) (hn : ref ∉ refsOf scope ls) :
    ((d.touch ref).startTimer ref epoch interval due).states.get? k =
      if k = ref then some { e.states.stateOf ref with timer := some d.schedule.nextHandle }
      else d.states.get? k := by
  have hupdate := RuleStates.get?_update (d.touch ref).states ref
    (fun s => { s with timer := some d.schedule.nextHandle }) k
  rw [stateOf_touch, h.stateOf_of_not_mem hn] at hupdate
  refine hupdate.trans ?_
  split
  · rfl
  · exact (RuleStates.get?_update d.states ref id k).trans (if_neg ‹_›)

theorem startTimer {due : Instant} {interval : Span} (h : Armed scope epoch now ls e d)
    (hn : ⟨scope, l.rule.id⟩ ∉ refsOf scope ls)
    (hstart : e.startOf? scope now l =
      some ⟨⟨scope, l.rule.id⟩, due, if 0 < interval then some interval else none⟩) :
    Armed scope epoch now (ls ++ [l]) e
      ((d.touch ⟨scope, l.rule.id⟩).startTimer ⟨scope, l.rule.id⟩ epoch interval due) := by
  let ref : RuleRef := ⟨scope, l.rule.id⟩
  let start : Start := ⟨ref, due, if 0 < interval then some interval else none⟩
  have hlength : (e.starts scope now (ls ++ [l])).length = (e.starts scope now ls).length + 1 := by
    rw [starts_concat, hstart]
    exact List.length_append
  have hjob (j : Handle) : ((d.touch ref).startTimer ref epoch interval due).job? j =
      if j = d.schedule.nextHandle then some (start.registration d.schedule.nextTurn epoch)
      else d.job? j := Schedule.job?_register ..
  have htimer (k : RuleRef) : ((d.touch ref).startTimer ref epoch interval due).timerOf k =
      if k = ref then some d.schedule.nextHandle else d.timerOf k := by
    rw [timerOf_startTimer, timerOf_touch]
    rfl
  refine ⟨h.settings, h.catalog, h.deferred, h.waiting, ?_, ?_, fun j hj => ?_, fun i => ?_,
    fun k hk => ?_, fun k hk => ?_, fun k hk j => ?_⟩
  · rw [hlength, ← Nat.add_assoc, ← h.nextHandle]
    rfl
  · rw [hlength, ← Nat.add_assoc, ← h.nextTurn]
    rfl
  · have hne : j ≠ d.schedule.nextHandle := by
      rw [h.nextHandle]
      exact Nat.ne_of_lt (Nat.lt_add_right _ hj)
    rw [hjob, if_neg hne, h.old j hj]
  · rw [hjob, getElem?_starts_concat, h.nextHandle, h.nextTurn]
    simp only [Nat.add_left_cancel_iff]
    split
    · subst i
      rw [hstart]
      rfl
    · exact h.new i
  · rw [mem_refsOf_concat, not_or] at hk
    rw [h.get?_startTimer hn, if_neg hk.2, h.others k hk.1]
  · rw [h.get?_startTimer hn, htimer]
    split
    · subst k
      rfl
    · exact h.states k ((mem_refsOf_concat.mp hk).resolve_right ‹_›)
  · rw [htimer, exists_starts_concat hstart hn]
    by_cases hself : k = ref
    · rw [if_pos hself, if_pos hself, h.nextHandle, Option.some_inj]
      exact eq_comm
    · rw [if_neg hself, if_neg hself]
      exact h.timers k ((mem_refsOf_concat.mp hk).resolve_right hself) j

end Armed

theorem armed_armEach (hissued : ∀ h, e.schedule.nextHandle ≤ h → e.job? h = none)
    (hidle : ∀ ref ∈ refsOf scope ls, e.timerOf ref = none)
    (hplans : ∀ l ∈ ls, l.rule.timerPlan?.isSome) (hnodup : (refsOf scope ls).Nodup) :
    Armed scope epoch now ls e (e.armEach scope epoch now ls) := by
  -- The rules are gone through in order, so what `Armed` says of them is extended at the end.
  induction ls using List.reverseRecOn with
  | nil => exact .nil hissued
  | append_singleton ls l ih =>
    have hsplit : refsOf scope (ls ++ [l]) = refsOf scope ls ++ [⟨scope, l.rule.id⟩] :=
      List.map_append
    rw [hsplit, List.nodup_append] at hnodup
    obtain ⟨hfirst, -, hdisjoint⟩ := hnodup
    have hn : ⟨scope, l.rule.id⟩ ∉ refsOf scope ls := fun hm =>
      hdisjoint _ hm _ (List.mem_singleton_self _) rfl
    have hd := ih (fun ref hm => hidle ref (mem_refsOf_concat.mpr (.inl hm)))
      (fun k hk => hplans k (List.mem_append_left _ hk)) hfirst
    have htimer := hidle _ (mem_refsOf_concat.mpr (.inr rfl))
    obtain ⟨plan, hplan⟩ := Option.isSome_iff_exists.mp
      (hplans l (List.mem_append_right _ (List.mem_singleton_self l)))
    have hstep : e.armEach scope epoch now (ls ++ [l]) =
        (e.armEach scope epoch now ls).armTimer scope epoch l.rule now := List.foldl_concat ..
    -- A timer that is not running yet is lacking just when the rule is to have one.
    have hlacks : ((e.armEach scope epoch now ls).touch ⟨scope, l.rule.id⟩).lacksTimer
        ⟨scope, l.rule.id⟩ l.rule ↔
          ((e.states.stateOf ⟨scope, l.rule.id⟩).isEnabled l.rule.enabled &&
            !(e.states.stateOf ⟨scope, l.rule.id⟩).isExhausted l.rule.fireLimit?) = true := by
      unfold lacksTimer timerOf
      rw [stateOf_touch, hd.stateOf_of_not_mem hn,
        show (e.states.stateOf ⟨scope, l.rule.id⟩).timer = none from htimer]
      simp
    rw [hstep]
    rcases armTimer_eq hplan (e.armEach scope epoch now ls) scope epoch now with
      ⟨hstays, he⟩ | ⟨due, hstarts, hdue, he⟩ <;> rw [he]
    · refine hd.touch hn htimer ?_
      unfold startOf? Rule.start?
      rcases hstays with hstays | hnever
      · rw [if_neg (mt hlacks.mpr hstays)]
      · simp [hplan, hnever]
    · refine hd.startTimer hn ?_
      unfold startOf? Rule.start?
      rw [if_pos (hlacks.mp hstarts), hplan, Option.bind_some, hdue]
      rfl

section TimerRules

variable {c : Content}

def timerRules (c : Content) : List LoadedRule :=
  (c.rules.map LoadedRule.ofRule).filter (·.rule.event == .timer)

theorem mem_timerRules : l ∈ timerRules c ↔
    ∃ r ∈ c.rules, r.event = .timer ∧ LoadedRule.ofRule r = l := by
  simp only [timerRules, List.mem_filter, List.mem_map, beq_iff_eq]
  constructor
  · rintro ⟨⟨r, hr, rfl⟩, ht⟩
    exact ⟨r, hr, ht, rfl⟩
  · rintro ⟨r, hr, ht, rfl⟩
    exact ⟨⟨r, hr, rfl⟩, ht⟩

theorem nodup_timerRules (hrules : Content.Sound c.rules) :
    (refsOf c.scope (timerRules c)).Nodup := by
  refine nodup_refsOf _ (List.Nodup.sublist (List.filter_sublist.map _) ?_)
  rw [List.map_map]
  exact hrules.distinct

theorem Linked.timerOf_placed_self {carried : List (RuleRef × RuleState)} (hl : e.Linked)
    (hc : e.catalog.contains c.scope = false) (hcarries : Carries c carried)
    (hs : ref.scope = c.scope) : (e.placed c carried).timerOf ref = none := by
  rw [hl.timerOf_placed hc hcarries]
  exact hl.timerOf_of_not_contains (hs ▸ hc)

theorem Linked.armed (hl : e.Linked) (hrules : Content.Sound c.rules)
    (hidle : ∀ ref, ref.scope = c.scope → e.timerOf ref = none) (epoch : Nat) (now : Instant) :
    Armed c.scope epoch now (timerRules c) e (e.armEach c.scope epoch now (timerRules c)) := by
  refine armed_armEach (fun h hge => ?_) (fun ref hm => hidle ref ?_) (fun l hm => ?_)
    (nodup_timerRules hrules)
  · by_contra hpending
    obtain ⟨r, hr⟩ := Option.ne_none_iff_exists'.mp hpending
    exact absurd (hl.issued h r hr).1 (Nat.not_lt.mpr hge)
  · obtain ⟨l, -, rfl⟩ := List.mem_map.mp hm
    rfl
  · obtain ⟨r, hr, ht, rfl⟩ := mem_timerRules.mp hm
    exact Rule.timerPlan?_isSome_of_validate (hrules.valid r hr) ht

end TimerRules

end Engine

end WorldTriggers
