import WorldTriggers.Proofs.Engine.Restart

namespace WorldTriggers

def RuleState.refuses (s : RuleState) (r : Rule) (key : CooldownKey) (now : Instant) : Bool :=
  r.cooldownSpan?.any (fun c => s.isCoolingDown key c now) || s.isExhausted r.fireLimit?

theorem Firing.isAllowed_eq (f : Firing) (s : RuleState) (now : Instant) : f.isAllowed s now =
    (s.isEnabled f.rule.enabled && !s.refuses f.rule f.cooldownKey now) := by
  simp [isAllowed, RuleState.refuses, Bool.and_assoc]

namespace RuleState

variable {s : RuleState} {key : CooldownKey} {now : Instant} {t : Timestamp} {r : Record}
  {past past' : Timestamp → Prop} {fired : Prop}

def Recalls (s : RuleState) (t : Timestamp) : Prop :=
  (∃ key, s.lastFired.get? key = some t) ∨ s.restoredFloor = some t

theorem recalls_of_lastCounted (h : s.lastCounted key = some t) : s.Recalls t := by
  unfold lastCounted at h
  cases hl : s.lastFired.get? key with
  | none =>
    rw [hl] at h
    exact .inr h
  | some a =>
    have ha : s.Recalls a := .inl ⟨key, hl⟩
    cases hf : s.restoredFloor with
    | none =>
      rw [hl, hf] at h
      obtain rfl := Option.some.inj h
      exact ha
    | some b =>
      rw [hl, hf] at h
      obtain rfl := Option.some.inj h
      rcases Timestamp.latest_cases a b with ⟨heq, -⟩ | ⟨heq, -⟩
      · rw [heq]
        exact ha
      · rw [heq]
        exact .inr hf

/-- The last firing of a rule comes after all that its cooldown is counted from. As long as no rule has
fired, it is the restored time. -/
structure Covered (s : RuleState) (past : Timestamp → Prop) (fired : Prop) : Prop where
  past : ∀ t, s.Recalls t → past t
  last : s.lastFired = .empty ∧ s.lastFiredAny = s.restoredFloor ∨
    fired ∧ ∃ m, s.lastFiredAny = some (.ofInstant m) ∧ ∀ t, s.Recalls t → t.reading ≤ m

theorem covered_default : Covered {} past fired where
  past t ht := by
    rcases ht with ⟨key, ht⟩ | ht <;> cases ht
  last := .inl ⟨rfl, rfl⟩

theorem Covered.mono {fired' : Prop} (hs : s.Covered past fired) (hpast : ∀ t, past t → past' t)
    (hfired : fired → fired') : s.Covered past' fired' :=
  ⟨fun t ht => hpast t (hs.past t ht), hs.last.imp_right fun h => ⟨hfired h.1, h.2⟩⟩

theorem Covered.restore (hs : s.Covered past fired) (hf : ¬fired)
    (hr : ∀ t, r.lastFired = some t → past t) : (s.restore r).Covered past fired := by
  have hempty : s.lastFired = .empty := by
    rcases hs.last with ⟨hempty, -⟩ | ⟨hfired, -⟩
    · exact hempty
    · exact absurd hfired hf
  refine ⟨?_, .inl ⟨hempty, rfl⟩⟩
  rintro t (⟨key, ht⟩ | ht)
  · exact hs.past t (.inl ⟨key, ht⟩)
  · exact hr t ht

theorem Covered.recordFiring (hs : s.Covered past fired) (hfired : fired)
    (hnow : past (.ofInstant now)) (hlate : ∀ t, past t → t.reading ≤ now) :
    (s.recordFiring key now).Covered past fired := by
  have hpast : ∀ t, (s.recordFiring key now).Recalls t → past t := by
    rintro t (⟨k, ht⟩ | ht)
    · rw [RuleState.recordFiring, SortedMap.get?_insert] at ht
      split at ht
      · rw [← Option.some.inj ht]
        exact hnow
      · exact hs.past t (.inl ⟨k, ht⟩)
    · exact hs.past t (.inr ht)
  exact ⟨hpast, .inr ⟨hfired, now, rfl, fun t ht => hlate t (hpast t ht)⟩⟩

theorem Covered.refuses_restore {rule : Rule} (hs : s.Covered past fired)
    (hcount : r.fireCount = s.fireCount) (hlast : r.lastFired = s.lastFiredAny)
    (h : s.refuses rule key now = true) :
    (({} : RuleState).restore r).refuses rule key now = true := by
  rw [refuses, Bool.or_eq_true] at h ⊢
  rcases h with h | h
  · left
    obtain ⟨c, hc, hcool⟩ := (Option.any_eq_true _ _).mp h
    refine (Option.any_eq_true _ _).mpr ⟨c, hc, ?_⟩
    have hcounted : (({} : RuleState).restore r).lastCounted key = s.lastFiredAny := hlast
    unfold isCoolingDown at hcool ⊢
    rw [hcounted]
    rcases hs.last with ⟨hempty, hfloor⟩ | ⟨-, m, hm, hle⟩
    · have hsame : s.lastCounted key = s.lastFiredAny := by
        rw [lastCounted, hempty, hfloor]
        rfl
      rwa [hsame] at hcool
    · cases ht : s.lastCounted key with
      | none => simp [ht] at hcool
      | some t =>
        rw [ht] at hcool
        have hread : t.reading ≤ m := hle t (recalls_of_lastCounted ht)
        have hshort : t.elapsed now < c := of_decide_eq_true hcool
        rw [hm]
        apply decide_eq_true
        calc (Timestamp.ofInstant m).elapsed now = now - m := Timestamp.elapsed_ofInstant m now
          _ ≤ now - t.reading := Int.sub_le_sub_left hread now
          _ ≤ t.elapsed now := t.sub_reading_le_elapsed now
          _ < c := hshort
  · right
    obtain ⟨n, hn, hle⟩ := isExhausted_eq_true_iff.mp h
    exact isExhausted_eq_true_iff.mpr ⟨n, hn, hle.trans_eq hcount.symm⟩

end RuleState

theorem Ledger.covered {ref : RuleRef} {s s' : RuleState} {os : List Onset}
    {past : Timestamp → Prop} {fired : Prop} (h : Ledger ref (fun _ => False) s os s')
    (hs : s.Covered past fired)
    (hos : ∀ o ∈ os, o.ref = ref →
      fired ∧ past (.ofInstant o.now) ∧ ∀ t, past t → t.reading ≤ o.now) : s'.Covered past fired := by
  induction h with
  | closed => exact hs
  | other _ _ ih => exact ih hs (List.forall_mem_cons.mp hos).2
  | own ho _ _ ih =>
    obtain ⟨hown, hrest⟩ := List.forall_mem_cons.mp hos
    obtain ⟨hfired, hnow, hlate⟩ := hown ho
    exact ih (hs.recordFiring hfired hnow hlate) hrest
  | record hr => exact hr.elim

namespace Engine

variable {e e' : Engine} {ref : RuleRef} {op : Operation} {ds : List RuleEvent} {settings : Settings}
  {before after : List Operation} {past : Timestamp → Prop} {fired : Prop}

section Covered

structure Covered (e : Engine) (ref : RuleRef) (past : Timestamp → Prop) (fired : Prop) : Prop where
  tally : (e.tallyOf ref).Covered past fired
  waiting : ∀ r, e.waiting.get? ref = some r → ∀ t, r.lastFired = some t → past t

theorem Covered.mono {past' : Timestamp → Prop} {fired' : Prop} (hc : e.Covered ref past fired)
    (hpast : ∀ t, past t → past' t) (hfired : fired → fired') : e.Covered ref past' fired' where
  tally := hc.tally.mono hpast hfired
  waiting r hw t ht := hpast t (hc.waiting r hw t ht)

theorem Covered.operationStep (hl : e.Linked) (hc : e.Covered ref past fired) (h : OperationStep op e ds e')
    (hrestores : ∀ r, op.Restores ref r → ¬fired ∧ ∀ t, r.lastFired = some t → past t)
    (hfirings : ∀ o ∈ onsets ds, o.ref = ref →
      fired ∧ past (.ofInstant o.now) ∧ ∀ t, past t → t.reading ≤ o.now) :
    e'.Covered ref past fired := by
  constructor
  · rcases h.tally_cases hl ref with hledger | hanew | ⟨r, hw, hset⟩ | ⟨r, hr, hset⟩
    · exact hledger.covered hc.tally hfirings
    · rw [hanew]
      exact RuleState.covered_default
    · -- What waited is restored to a rule that has not fired since its scope was loaded.
      rw [hset]
      have hfresh : (({} : RuleState).restore r).Covered past False :=
        RuleState.covered_default.restore id (hc.waiting r hw)
      exact hfresh.mono (fun _ => id) False.elim
    · obtain ⟨hf, ht⟩ := hrestores r hr
      rw [hset]
      exact hc.tally.restore hf ht
  · intro r hw
    rcases h.waiting hl hw with hr | hw
    · exact (hrestores r hr).2
    · exact hc.waiting r hw

theorem Covered.operationSteps (hl : e.Linked) (hc : e.Covered ref past fired) (h : OperationSteps op e ds e')
    (hrestores : ∀ r, op.Restores ref r → ¬fired ∧ ∀ t, r.lastFired = some t → past t)
    (hfirings : ∀ o ∈ onsets ds, o.ref = ref → op.time? = some o.now →
      fired ∧ past (.ofInstant o.now) ∧ ∀ t, past t → t.reading ≤ o.now) :
    e'.Covered ref past fired := by
  induction h with
  | nil => exact hc
  | cons h _ ih =>
    rw [onsets_append, List.forall_mem_append] at hfirings
    refine ih (hl.operationStep h) (hc.operationStep hl h hrestores fun o ho href => ?_) hfirings.2
    exact hfirings.1 o ho href (h.time o ho)

end Covered

section Orderly

def Restored (ops : List Operation) (ref : RuleRef) (t : Timestamp) : Prop :=
  ∃ op ∈ ops, ∃ r, op.Restores ref r ∧ r.lastFired = some t

theorem lastFired_of_restored {ops : List Operation} {r : Record} {t : Timestamp}
    (honly : ∀ records, .restore records ∈ ops → records = [r]) (ht : Restored ops ref t) :
    r.lastFired = some t := by
  obtain ⟨_, hop, q, ⟨records, rfl, hq, -⟩, hlast⟩ := ht
  obtain rfl := honly records hop
  obtain rfl := List.mem_singleton.mp hq
  exact hlast

/-- Operations that restore nothing once rules fire, and whose times from then on do not go back behind
each other nor behind the restored times. -/
structure Orderly (settings : Settings) (before after : List Operation) : Prop where
  quiet : onsets (history settings before) = []
  kept : ∀ op ∈ after, ∀ records, op ≠ .restore records
  forward : after.Pairwise fun later earlier => ∀ u ∈ later.time?, ∀ t ∈ earlier.time?, t ≤ u
  late : ∀ op ∈ after, ∀ now ∈ op.time?, ∀ ref t, Restored before ref t →
    t.latest (.ofInstant now) = .ofInstant now

theorem Orderly.tail (h : Orderly settings before (op :: after)) :
    Orderly settings before after where
  quiet := h.quiet
  kept := (List.forall_mem_cons.mp h.kept).2
  forward := (List.pairwise_cons.mp h.forward).2
  late := (List.forall_mem_cons.mp h.late).2

/-- A rule that does not fire in the second after a leap second that is restored for it. -/
def SparesLeaps (settings : Settings) (before after : List Operation) (ref : RuleRef) : Prop :=
  ∀ o ∈ onsets (history settings (after ++ before)), o.ref = ref →
    ∀ t, Restored before ref t → t.isLeap = true → t.reading ≤ o.now

def Past (before after : List Operation) (ref : RuleRef) (t : Timestamp) : Prop :=
  Restored before ref t ∨ ∃ op ∈ after, ∃ now ∈ op.time?, t = .ofInstant now

theorem covered_of_quiet (h : Reaches settings before e)
    (hquiet : onsets (history settings before) = []) :
    e.Covered ref (Restored before ref) False := by
  refine h.induct_operationSteps
    (motive := fun ds d => onsets ds = [] → d.Covered ref (Restored before ref) False)
    (fun _ => ?_) (fun op hop ds d ds' d' hl hopStep hd hnone => ?_) hquiet
  · exact ⟨RuleState.covered_default, fun r hw => by cases hw⟩
  · rw [onsets_append, List.append_eq_nil_iff] at hnone
    refine (hd hnone.1).operationStep hl hopStep (fun r hr => ?_) ?_
    · exact ⟨id, fun t ht => ⟨op, hop, r, hr, ht⟩⟩
    · rw [hnone.2]
      exact List.forall_mem_nil _

theorem Orderly.reading_le (h : Orderly settings before (op :: after)) {now : Instant}
    (hop : op.time? = some now)
    (hleap : ∀ t, Restored before ref t → t.isLeap = true → t.reading ≤ now) :
    ∀ t, Past before (op :: after) ref t → t.reading ≤ now := by
  rintro t (ht | ⟨q, hq, u, hu, rfl⟩)
  · cases hl : t.isLeap with
    | true => exact hleap t ht hl
    | false => exact Timestamp.reading_le_of_latest hl (h.late op List.mem_cons_self now hop ref t ht)
  · rw [Timestamp.reading_ofInstant]
    rcases List.mem_cons.mp hq with rfl | hq
    · exact le_of_eq (Option.some.inj (hu.symm.trans hop))
    · exact (List.pairwise_cons.mp h.forward).1 q hq now hop u hu

theorem covered_of_orderly (h : Reaches settings (after ++ before) e)
    (ho : Orderly settings before after) (hleaps : SparesLeaps settings before after ref) :
    e.Covered ref (Past before after ref) True := by
  induction after generalizing e with
  | nil => exact (covered_of_quiet h ho.quiet).mono (fun _ => .inl) fun _ => trivial
  | cons op after ih =>
    rw [List.cons_append] at h
    obtain _ | ⟨hd, ha, hp⟩ := h
    obtain ⟨e', hopSteps, hlast⟩ := exists_operationSteps hd.linked ha
    obtain rfl := hlast _ hp
    have hpast (t : Timestamp) : Past before after ref t → Past before (op :: after) ref t :=
      Or.imp_right fun ⟨q, hq, h⟩ => ⟨q, List.mem_cons_of_mem _ hq, h⟩
    unfold SparesLeaps at hleaps
    rw [List.cons_append, hd.history_cons, onsets_append, List.forall_mem_append] at hleaps
    refine ((ih hd ho.tail hleaps.1).mono hpast id).operationSteps hd.linked hopSteps ?_ ?_
    · rintro r ⟨records, hop, -⟩
      exact absurd hop (ho.kept op List.mem_cons_self records)
    · -- The operation comes after all that is past, so that a firing in it is the latest.
      intro o hfirst href hop
      exact ⟨trivial, .inr ⟨op, List.mem_cons_self, o.now, hop, rfl⟩,
        ho.reading_le hop (hleaps.2 o hfirst href)⟩

end Orderly

/-- A permanent rule that is refused under a key is refused as long after a restart, unless it has fired
in the second after a leap second that was restored for it. -/
theorem refuses_restarted {settings' : Settings} (h : Reaches settings (after ++ before) e)
    (ho : Orderly settings before after) (hleaps : SparesLeaps settings before after ref)
    {records : List Record} (hrecords : records.Perm e.exported) {loads : List (Content × Instant)}
    (hloads : ∀ p ∈ loads, e.Holds p.1) {rule : Rule} (hrule : e.catalog.rule? ref = some rule)
    (hperm : rule.permanent = true) (hloaded : ∃ p ∈ loads, p.1.scope = ref.scope) (key : CooldownKey)
    (now : Instant) (hrefuses : (e.states.stateOf ref).refuses rule key now = true) :
    ((fresh settings' records).loadAll loads).catalog.rule? ref = some rule ∧
      (((fresh settings' records).loadAll loads).states.stateOf ref).refuses rule key now = true := by
  have hl := h.linked
  have hresumes := (resumes_fresh hl settings' hrecords).loadAll hl hloads
  have hcontains := contains_loadAll (linked_fresh settings' records)
    (fun p hp => (hloads p hp).sound hl) (.inr hloaded)
  have hrule' := (hresumes.rules ref hcontains).trans hrule
  refine ⟨hrule', ?_⟩
  have hcovered := (covered_of_orderly h ho hleaps).tally
  have hrestored := hcovered.refuses_restore (r := e.states.snapshot ref) rfl rfl hrefuses
  rw [← hresumes.tallies ref rule hrule' hperm] at hrestored
  exact hrestored

def gongRecord (t : Timestamp) : Record := ⟨"gong", .room "cellar", 1, some t⟩

def recalled : List Operation := [.load gongs 0, .restore [gongRecord ⟨-1, 1500000000⟩]]

theorem refuses_restarted_recalled :
    ∃ e rule, Reaches (.builtin 8) (.fireRule {} gong {} 11000000000 :: recalled) e ∧
      e.catalog.rule? gong = some rule ∧
      (e.states.stateOf gong).refuses rule .rule 15000000000 = true ∧
      (((fresh (.builtin 8) e.exported).loadAll [(gongs, 13000000000)]).states.stateOf gong).refuses
        rule .rule 15000000000 = true := by
  obtain ⟨e, h, hp⟩ := exists_reaches (.builtin 8) ([.fireRule {} gong {} 11000000000] ++ recalled)
    (fun e => (e.catalog.rule? gong).any fun rule => rule.permanent &&
      (e.states.stateOf gong).refuses rule .rule 15000000000)
    (by simp [recalled, Operation.Authored, gongs, Content.Authored.ofRules]) (by decide +kernel)
  simp only [Option.any_eq_true, Bool.and_eq_true] at hp
  obtain ⟨rule, hrule, hperm, hrefuses⟩ := hp
  have hrecord {ref : RuleRef} {t : Timestamp} (ht : Restored recalled ref t) :
      t = ⟨-1, 1500000000⟩ := by
    have hlast : (gongRecord ⟨-1, 1500000000⟩).lastFired = some t :=
      lastFired_of_restored (by simp [recalled]) ht
    exact (Option.some.inj hlast).symm
  have horderly : Orderly (.builtin 8) recalled [.fireRule {} gong {} 11000000000] := by
    refine ⟨rfl, by simp, by simp, ?_⟩
    intro op hop now hnow ref t ht
    obtain rfl := List.mem_singleton.mp hop
    obtain rfl := Option.some.inj hnow
    obtain rfl := hrecord ht
    decide
  have hleaps : SparesLeaps (.builtin 8) recalled [.fireRule {} gong {} 11000000000] gong := by
    have hfirings : (onsets (history (.builtin 8) ([.fireRule {} gong {} 11000000000] ++ recalled))).map
        Onset.now = [11000000000] := by decide +kernel
    intro o ho _ t ht _
    have hnow : o.now ∈ [11000000000] := hfirings ▸ List.mem_map_of_mem ho
    obtain rfl := hrecord ht
    rw [List.mem_singleton.mp hnow]
    decide
  have hholds : e.Holds gongs := by
    obtain _ | ⟨hloaded, -, hfire⟩ := h
    obtain _ | ⟨hstart, ha, hload⟩ := hloaded
    cases hload
    have hl := hstart.linked
    exact (holds_load hl ha.sound 0).congr (catalog_of_scene? (hl.load ha.sound 0) rfl hfire)
  refine ⟨e, rule, h, hrule, hrefuses, ?_⟩
  exact (refuses_restarted h horderly hleaps (.refl _) (by simpa using hholds) hrule hperm
    ⟨_, List.mem_singleton_self _, rfl⟩ .rule 15000000000 hrefuses).2

def unguarded : Content :=
  .ofRules (.room "cellar") [{ Rule.plain "gong" .enter [] with permanent := true }]

def guarded : Content :=
  .ofRules (.room "cellar") [
    { Rule.plain "gong" .enter [] with cooldown := 43200, permanent := true }]

def noon : List Operation :=
  [.load guarded 43200000000000, .fireRule {} gong { actor := some "alice" } 43200000000000,
    .load unguarded 43200000000000]

def leapSecond : List Operation := [.restore [gongRecord ⟨43199, 1500000000⟩]]

/-- At midnight, half a day from noon, the leap second before noon is half a second too near. After a
restart it is forgotten. -/
theorem gong_refused_until_restart :
    ∃ e rule, Reaches (.builtin 8) (noon ++ leapSecond) e ∧
      Orderly (.builtin 8) leapSecond noon ∧
      e.Holds guarded ∧ e.catalog.rule? gong = some rule ∧ rule.permanent = true ∧
      (e.states.stateOf gong).refuses rule (.actor "bob") 86400000000000 = true ∧
      (((fresh (.builtin 8) e.exported).loadAll [(guarded, 86400000000000)]).states.stateOf
        gong).refuses rule (.actor "bob") 86400000000000 = false := by
  obtain ⟨e, h, hp⟩ := exists_reaches (.builtin 8) (noon ++ leapSecond)
    (fun e => (e.catalog.rule? gong).any fun rule => rule.permanent &&
      (e.states.stateOf gong).refuses rule (.actor "bob") 86400000000000 &&
      !(((fresh (.builtin 8) e.exported).loadAll [(guarded, 86400000000000)]).states.stateOf
        gong).refuses rule (.actor "bob") 86400000000000)
    (by simp [noon, leapSecond, Operation.Authored, unguarded, guarded, Content.Authored.ofRules])
    (by decide +kernel)
  simp only [Option.any_eq_true, Bool.and_eq_true, Bool.not_eq_true'] at hp
  obtain ⟨rule, hrule, ⟨hperm, hrefuses⟩, hforgets⟩ := hp
  refine ⟨e, rule, h, ⟨rfl, ?_, ?_, ?_⟩, ?_, hrule, hperm, hrefuses, hforgets⟩
  · simp [noon]
  · simp [noon, Operation.time?]
  · intro op hop now hnow ref t ht
    have hlast : (gongRecord ⟨43199, 1500000000⟩).lastFired = some t :=
      lastFired_of_restored (by simp [leapSecond]) ht
    obtain rfl := Option.some.inj hlast
    obtain rfl : now = 43200000000000 := by
      simp only [noon, List.mem_cons, List.not_mem_nil, or_false] at hop
      rcases hop with rfl | rfl | rfl <;> exact (Option.some.inj hnow).symm
    decide
  · obtain _ | ⟨hd, ha, hload⟩ := h
    cases hload
    exact holds_load hd.linked ha.sound _

end Engine

end WorldTriggers
