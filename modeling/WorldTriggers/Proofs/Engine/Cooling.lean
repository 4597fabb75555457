import WorldTriggers.Proofs.Engine.OperationTallies
import WorldTriggers.Proofs.Timestamp

namespace WorldTriggers

def Onset.key (o : Onset) : CooldownKey := o.firing.cooldownKey

def firingsUnder (ref : RuleRef) (key : CooldownKey) (os : List Onset) : List Onset :=
  os.filter fun o => o.ref == ref && o.key == key

/-- A firing that comes a cooldown after an instant, or less by up to a second where its floor is the
leap second of that instant. -/
def Onset.Waits (o : Onset) (c : Span) (last : Instant) : Prop :=
  last + c < o.now + Span.second ∧
    ((∀ t, o.floor = some t → t.isLeap = true → t.second ≠ last / Span.second) → last + c ≤ o.now)

def RuleState.Stamped (s : RuleState) : Prop :=
  ∀ key t, s.lastFired.get? key = some t → ∃ a, t = .ofInstant a

section Allowed

variable {o : Onset} {s : RuleState} {c : Span}

theorem Onset.Allowed.le_elapsed (h : o.Allowed s) (hc : o.firing.rule.cooldownSpan? = some c)
    {t : Timestamp} (ht : s.lastCounted o.key = some t) : c ≤ t.elapsed o.now := by
  have hwarm := h.warm c hc
  unfold RuleState.isCoolingDown at hwarm
  rw [show s.lastCounted o.firing.cooldownKey = some t from ht] at hwarm
  exact not_lt.mp (of_decide_eq_false hwarm)

theorem Onset.Allowed.waits (h : o.Allowed s) (hc : o.firing.rule.cooldownSpan? = some c)
    {last : Instant} (hlast : s.lastFired.get? o.key = some (.ofInstant last)) : o.Waits c last := by
  have hfloor := h.floor
  cases hf : s.restoredFloor with
  | none =>
    have hle := Timestamp.add_le_of_le_elapsed_ofInstant
      (h.le_elapsed hc (t := .ofInstant last) (by simp [RuleState.lastCounted, hlast, hf]))
    exact ⟨hle.trans_lt (Int.lt_add_of_pos_right _ (by decide)), fun _ => hle⟩
  | some t =>
    -- Only the later of the two times counts, and a leap second is later than any time in its second.
    have hle := h.le_elapsed hc (t := (Timestamp.ofInstant last).latest t)
      (by simp [RuleState.lastCounted, hlast, hf])
    obtain ⟨hlt, hexact⟩ := Timestamp.add_lt_of_le_elapsed hle
    refine ⟨hlt, fun hleap => hexact fun ht => hleap t ?_ ht⟩
    rw [hfloor, hf]

theorem Onset.Allowed.floor_add_le (h : o.Allowed s) (hs : s.Stamped)
    (hc : o.firing.rule.cooldownSpan? = some c) {t : Timestamp} (ht : o.floor = some t)
    (htime : t.IsTime) : t.reading + c ≤ o.now + if t.isLeap then Span.second else 0 := by
  have hfloor : s.restoredFloor = some t := h.floor.symm.trans ht
  cases hl : s.lastFired.get? o.key with
  | none =>
    exact Timestamp.le_of_le_elapsed (h.le_elapsed hc (by simp [RuleState.lastCounted, hl, hfloor]))
  | some u =>
    obtain ⟨a, rfl⟩ := hs _ _ hl
    have hle := h.le_elapsed hc (t := (Timestamp.ofInstant a).latest t)
      (by simp [RuleState.lastCounted, hl, hfloor])
    exact Timestamp.le_of_le_elapsed_latest htime hle

theorem RuleState.Stamped.recordFiring (hs : s.Stamped) (key : CooldownKey) (now : Instant) :
    (s.recordFiring key now).Stamped := by
  intro k t ht
  rw [RuleState.recordFiring, SortedMap.get?_insert] at ht
  split at ht
  · exact ⟨now, (Option.some.inj ht).symm⟩
  · exact hs k t ht

end Allowed

namespace Ledger

variable {ref : RuleRef} {restored : Record → Prop} {s s' : RuleState} {os : List Onset} {c : Span}

theorem stamped (h : Ledger ref restored s os s') (hs : s.Stamped) : s'.Stamped := by
  induction h with
  | closed => exact hs
  | other _ _ ih => exact ih hs
  | own _ _ _ ih => exact ih (hs.recordFiring _ _)
  | record _ _ ih => exact ih hs

theorem floor_add_le (h : Ledger ref restored s os s') (hs : s.Stamped)
    (hc : ∀ o ∈ os, o.ref = ref → o.firing.rule.cooldownSpan? = some c) :
    ∀ o ∈ os, o.ref = ref → ∀ t, o.floor = some t → t.IsTime →
      t.reading + c ≤ o.now + if t.isLeap then Span.second else 0 := by
  induction h with
  | closed => exact List.forall_mem_nil _
  | other ho _ ih =>
    obtain ⟨-, hrest⟩ := List.forall_mem_cons.mp hc
    exact List.forall_mem_cons.mpr ⟨fun href => absurd href ho, ih hs hrest⟩
  | own ho hallowed _ ih =>
    obtain ⟨hown, hrest⟩ := List.forall_mem_cons.mp hc
    exact List.forall_mem_cons.mpr ⟨fun href t ht htime => hallowed.floor_add_le hs (hown href) ht htime,
      ih (hs.recordFiring _ _) hrest⟩
  | record _ _ ih => exact ih hs hc

theorem waits (h : Ledger ref restored s os s')
    (hc : ∀ o ∈ os, o.ref = ref → o.firing.rule.cooldownSpan? = some c) (key : CooldownKey) :
    (firingsUnder ref key os).IsChain (fun a b => b.Waits c a.now) ∧
      ∀ last, s.lastFired.get? key = some (.ofInstant last) →
        ∀ o ∈ (firingsUnder ref key os).head?, o.Waits c last := by
  induction h with
  | closed => exact ⟨.nil, by simp [firingsUnder]⟩
  | @other o os s s' ho _ ih =>
    have hskip : firingsUnder ref key (o :: os) = firingsUnder ref key os := by simp [firingsUnder, ho]
    rw [hskip]
    exact ih (List.forall_mem_cons.mp hc).2
  | @own o os s s' ho hallowed _ ih =>
    obtain ⟨hown, hrest⟩ := List.forall_mem_cons.mp hc
    obtain ⟨hchain, hhead⟩ := ih hrest
    by_cases hkey : o.key = key
    · have htake : firingsUnder ref key (o :: os) = o :: firingsUnder ref key os := by
        simp [firingsUnder, ho, hkey]
      rw [htake]
      refine ⟨List.isChain_cons.mpr ⟨hhead o.now ?_, hchain⟩, fun last hlast b hb => ?_⟩
      · rw [RuleState.recordFiring, show o.firing.cooldownKey = key from hkey,
          SortedMap.get?_insert_self]
      · obtain rfl : o = b := by simpa using hb
        exact hallowed.waits (hown ho) (by rw [hkey, hlast])
    · -- What is recorded under another key leaves the latest firing under this one in place.
      have hskip : firingsUnder ref key (o :: os) = firingsUnder ref key os := by
        simp [firingsUnder, hkey]
      rw [hskip]
      refine ⟨hchain, fun last hlast => hhead last ?_⟩
      rw [RuleState.recordFiring, SortedMap.get?_insert, if_neg (fun h => hkey h.symm), hlast]
  | record _ _ ih => exact ih hc

end Ledger

namespace Engine

variable {e e' : Engine} {op : Operation} {ds : List RuleEvent} {ref : RuleRef}

section Stamped

def Stamped (e : Engine) : Prop := ∀ ref, (e.tallyOf ref).Stamped

theorem stamped_default : RuleState.Stamped {} := by
  intro key t ht
  cases ht

theorem Stamped.operationStep (hl : e.Linked) (hs : e.Stamped) (h : OperationStep op e ds e') :
    e'.Stamped := by
  intro ref
  rcases h.tally_cases hl ref with hledger | hanew | ⟨r, -, hset⟩ | ⟨r, -, hset⟩
  · exact hledger.stamped (hs ref)
  · rw [hanew]
    exact stamped_default
  · rw [hset]
    exact stamped_default
  · rw [hset]
    exact hs ref

theorem Reaches.stamped {settings : Settings} {ops : List Operation} (h : Reaches settings ops e) :
    e.Stamped :=
  h.induct_operationSteps (motive := fun _ e => e.Stamped) (fun _ => stamped_default)
    fun _ _ _ _ _ _ hl ht hs => hs.operationStep hl ht

end Stamped

/-- Through operations during which a rule keeps its cooldown, two firings in a row under one key are at
least the cooldown apart, or less by up to a second where a leap second was restored, and each firing is
at least the cooldown after the restored time in force. -/
theorem cooling_of_reaches {settings : Settings} {ops later : List Operation} {rule : Rule} {c : Span}
    (h : Reaches settings ops e) (hrule : e.catalog.rule? ref = some rule)
    (hc : rule.cooldownSpan? = some c) (ha : ∀ op ∈ later, op.Authored)
    (hkeeps : ∀ op ∈ later, op.Keeps ref (·.cooldownSpan? = some c) rule.permanent) :
    (∀ key, (firingsUnder ref key (onsets (e.ruleEventsSince later))).IsChain
        fun earlier o => o.Waits c earlier.now) ∧
      ∀ o ∈ onsets (e.ruleEventsSince later), o.ref = ref → ∀ t, o.floor = some t → t.IsTime →
        t.reading + c ≤ o.now + if t.isLeap then Span.second else 0 := by
  obtain ⟨s, hledger, hspans, -⟩ :=
    ledger_since rule.permanent h.linked ha ⟨rule, hrule, hc, id⟩ hkeeps
  exact ⟨fun key => (hledger.waits hspans key).1, hledger.floor_add_le (h.stamped ref) hspans⟩

def gongs : Content :=
  .ofRules (.room "cellar") [{ Rule.plain "gong" .enter [] with cooldown := 10, permanent := true }]

def gong : RuleRef := ⟨.room "cellar", "gong"⟩

def sounding : List Operation :=
  [.fireRule {} gong {} 30000000000, .fireRule {} gong {} 5000000000, .fireRule {} gong {} 0]

theorem cooling_gong :
    ∃ e, Reaches (.builtin 8) [.load gongs 0] e ∧
      (onsets (e.ruleEventsSince sounding)).map (fun o => (o.ref, o.now)) =
        [(gong, 0), (gong, 30000000000)] ∧
      (firingsUnder gong .rule (onsets (e.ruleEventsSince sounding))).IsChain
        fun earlier o => o.Waits 10000000000 earlier.now := by
  obtain ⟨e, h, hp⟩ := exists_reaches (.builtin 8) [.load gongs 0]
    (fun e => (e.catalog.rule? gong).any (fun r => r.cooldownSpan? == some 10000000000) &&
      (onsets (e.ruleEventsSince sounding)).map (fun o => (o.ref, o.now)) ==
        [(gong, 0), (gong, 30000000000)])
    (by simp [Operation.Authored, gongs, Content.Authored.ofRules]) (by decide +kernel)
  simp only [Bool.and_eq_true, beq_iff_eq, Option.any_eq_true] at hp
  obtain ⟨⟨rule, hrule, hc⟩, hfirings⟩ := hp
  refine ⟨e, h, hfirings, (cooling_of_reaches h hrule hc ?_ ?_).1 .rule⟩
  · simp [sounding, Operation.Authored]
  · intro op hop
    simp only [sounding, List.mem_cons, List.not_mem_nil, or_false] at hop
    rcases hop with rfl | rfl | rfl <;> exact .inl (Operation.avoids_of_scene? rfl _)

def hurrying : List Operation :=
  [.fireRule {} gong {} 69000000000, .restore [⟨"gong", .room "cellar", 1, some ⟨59, 1000000000⟩⟩],
    .fireRule {} gong {} 59900000000]

theorem gong_hurried :
    ∃ e rule, Reaches (.builtin 8) [.load gongs 0] e ∧ e.catalog.rule? gong = some rule ∧
      rule.cooldownSpan? = some 10000000000 ∧
      (∀ op ∈ hurrying, op.Keeps gong (·.cooldownSpan? = some 10000000000) rule.permanent) ∧
      (firingsUnder gong .rule (onsets (e.ruleEventsSince hurrying))).map Onset.now =
        [59900000000, 69000000000] ∧
      ¬(59900000000 : Instant) + 10000000000 ≤ 69000000000 := by
  obtain ⟨e, h, hp⟩ := exists_reaches (.builtin 8) [.load gongs 0]
    (fun e => (e.catalog.rule? gong).any (fun r => r.cooldownSpan? == some 10000000000) &&
      (firingsUnder gong .rule (onsets (e.ruleEventsSince hurrying))).map Onset.now ==
        [59900000000, 69000000000])
    (by simp [Operation.Authored, gongs, Content.Authored.ofRules]) (by decide +kernel)
  simp only [Bool.and_eq_true, beq_iff_eq, Option.any_eq_true] at hp
  obtain ⟨⟨rule, hrule, hc⟩, hfirings⟩ := hp
  refine ⟨e, rule, h, hrule, hc, fun op hop => ?_, hfirings, by decide⟩
  simp only [hurrying, List.mem_cons, List.not_mem_nil, or_false] at hop
  rcases hop with rfl | rfl | rfl
  · exact .inl (Operation.avoids_of_scene? rfl _)
  · exact .inl (Operation.avoids_restore ..)
  · exact .inl (Operation.avoids_of_scene? rfl _)

end Engine

end WorldTriggers
