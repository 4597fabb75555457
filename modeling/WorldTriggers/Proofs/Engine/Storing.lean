import WorldTriggers.Proofs.Engine.Permanence
import WorldTriggers.Proofs.Store

namespace WorldTriggers

theorem Content.Authored.of_ofText? {t : String} {source : Option String} {c : Content}
    (h : ofText? t source = some c) : c.Authored := by
  obtain ⟨n, -, h⟩ := Option.bind_eq_some_iff.mp h
  simp only [ofNode?, Option.bind_eq_bind, Option.bind_eq_some_iff, Option.pure_def,
    Option.some.injEq] at h
  obtain ⟨-, -, scope, -, records, -, rfl⟩ := h
  exact .ofRecords scope records source

def Operation.Counted (op : Operation) : Prop :=
  ∀ ref r, op.Restores ref r → r.fireCount ≤ Record.maxCount

theorem Operation.Counted.restore {records : List Record}
    (h : ∀ r ∈ records, r.fireCount ≤ Record.maxCount) : (Operation.restore records).Counted := by
  rintro ref r ⟨_, hop, hr, -⟩
  cases hop
  exact h r hr

theorem Operation.Counted.of_not_restore {op : Operation} (h : ∀ records, op ≠ .restore records) :
    op.Counted := by
  rintro ref r ⟨records, hop, -⟩
  exact absurd hop (h records)

namespace Engine

variable {e e' : Engine} {op : Operation} {ds : List RuleEvent}

structure Counted (e : Engine) : Prop where
  tally : ∀ ref, (e.tallyOf ref).fireCount ≤ Record.maxCount
  waiting : ∀ ref r, e.waiting.get? ref = some r → r.fireCount ≤ Record.maxCount

theorem counted_ofSettings (settings : Settings) : (ofSettings settings).Counted where
  tally _ := Nat.zero_le _
  waiting _ _ hr := nomatch hr

theorem Counted.operationStep (h : e.Counted) (hl : e.Linked) (ht : OperationStep op e ds e')
    (hop : op.Counted) :
    e'.Counted where
  tally ref := by
    rcases ht.tally_cases hl ref with hledger | hanew | ⟨r, hwaits, hset⟩ | ⟨r, hrestores, hset⟩
    · exact (hledger.fireCount_mono (h.tally ref)).2
    · rw [hanew]
      exact Nat.zero_le _
    · rw [hset]
      exact h.waiting ref r hwaits
    · rw [hset]
      exact hop ref r hrestores
  waiting ref r hr := by
    rcases ht.waiting hl hr with hrestores | hwaits
    · exact hop ref r hrestores
    · exact h.waiting ref r hwaits

theorem Reaches.counted {settings : Settings} {ops : List Operation} (h : Reaches settings ops e)
    (hops : ∀ op ∈ ops, op.Counted) : e.Counted :=
  h.induct_operationSteps (motive := fun _ d => d.Counted) (counted_ofSettings settings)
    fun op hop _ _ _ _ hl ht hd => hd.operationStep hl ht (hops op hop)

theorem Counted.exported (h : e.Counted) (hl : e.Linked) {r : Record} (hr : r ∈ e.exported) :
    r.fireCount ≤ Record.maxCount := by
  have hsaved := hl.mem_exported_iff.mp hr
  unfold saved? at hsaved
  split at hsaved
  · split at hsaved
    · rw [← Option.some.inj hsaved]
      exact h.tally r.ref
    · cases hsaved
  · exact h.waiting r.ref r hsaved

section Loads

variable {s : Store} {old : List Record}

theorem loads_exported {settings : Settings} {ops : List Operation} (h : Reaches settings ops e)
    (hops : ∀ op ∈ ops, op.Counted) (hold : s.loadAll = .ok old) :
    ((∃ rs, (s.save e.exported).loadAll = .ok rs) ↔ ∀ r ∈ e.exported, r.scope.id ≠ "") ∧
      (∀ rs, (s.save e.exported).loadAll = .ok rs →
        ∀ r, r ∈ rs ↔ r ∈ e.exported ∨ r ∈ old ∧ r.ref ∉ e.exported.map Record.ref) ∧
      ∀ c, (s.save e.exported).loadAll = .error c →
        ∃ r ∈ e.exported, r.scope.id = "" ∧ c = ⟨(Row.ofRecord r).1, .badScope⟩ := by
  have hl := h.linked
  have hlists := Store.loadAll_eq_ok_iff.mp hold
  have hhas := hlists.has.save hl.nodup_exported
  have hfits : ∀ r ∈ e.exported, r.fireCount ≤ Record.maxCount := fun r hr =>
    (h.counted hops).exported hl hr
  refine ⟨?_, fun rs hload r => Store.mem_iff_of_loadAll hload hhas r, fun c hload => ?_⟩
  · rw [Store.exists_loadAll_iff hhas]
    constructor
    · intro hall r hr
      exact (hall r (.inl hr)).named
    · rintro hnamed r (hr | ⟨hr, -⟩)
      · exact ⟨hnamed r hr, hfits r hr⟩
      · exact hlists.storable r hr
  · obtain ⟨r, hr | ⟨hr, -⟩, hid, hc⟩ := Store.exists_of_loadAll_error hload hhas (by
      rintro r (hr | ⟨hr, -⟩)
      · exact hfits r hr
      · exact (hlists.storable r hr).fits)
    · exact ⟨r, hr, hid, hc⟩
    · exact absurd hid (hlists.storable r hr).named

/-- A text names one scope at most and a scope has one text, which is read back unless the identifier is
empty, as it may be in a document. The records of such scopes are all that keeps a table from being
read. -/
theorem scopes_read_back (scope : Scope) (e : Engine) (s : Store) :
    (∃ n c, Content.ofNode? n none = some c ∧ c.scope = scope) ∧
      (Scope.ofText? scope.text = some scope ↔ scope.id ≠ "") ∧
      (∀ t, Scope.ofText? t = some scope → scope.text = t) ∧
      (∀ t t', Scope.ofText? t = some scope → Scope.ofText? t' = some scope → t = t') ∧
      Function.Injective Scope.text ∧
      ∀ settings ops old, Reaches settings ops e → (∀ op ∈ ops, op.Counted) → s.loadAll = .ok old →
        ((∃ rs, (s.save e.exported).loadAll = .ok rs) ↔ ∀ r ∈ e.exported, r.scope.id ≠ "") ∧
          (∀ rs, (s.save e.exported).loadAll = .ok rs →
            ∀ r, r ∈ rs ↔ r ∈ e.exported ∨ r ∈ old ∧ r.ref ∉ e.exported.map Record.ref) ∧
          ∀ c, (s.save e.exported).loadAll = .error c →
            ∃ r ∈ e.exported, r.scope.id = "" ∧ c = ⟨(Row.ofRecord r).1, .badScope⟩ := by
  have htext {t : String} (h : Scope.ofText? t = some scope) : t = scope.text :=
    (Scope.ofText?_eq_some_iff.mp h).1
  refine ⟨scope.exists_content, ?_, fun t h => (htext h).symm,
    fun t t' h h' => (htext h).trans (htext h').symm, Scope.text_injective, ?_⟩
  · rw [Scope.ofText?_eq_some_iff]
    simp
  · intro settings ops old h hops hold
    exact loads_exported h hops hold

end Loads

def shelf : Store :=
  .save {} [⟨"gong", .room "cellar", 9, none⟩, ⟨"door", .room "area:mill", 2, none⟩]

theorem scopes_read_back_struck :
    ∃ e rs, Reaches (.builtin 8) struck e ∧ (shelf.save e.exported).loadAll = .ok rs ∧
      Scope.ofText? "room:area:mill" = some (.room "area:mill") ∧
      (∀ r, r ∈ rs ↔ r = ⟨"gong", .room "cellar", 1, some (.ofInstant 5000000000)⟩ ∨
        r = ⟨"bell", .room "attic", 3, some ⟨59, 1500000000⟩⟩ ∨
        r = ⟨"door", .room "area:mill", 2, none⟩) := by
  obtain ⟨e, h, hp⟩ := exists_reaches (.builtin 8) struck
    (fun e => e.exported == [⟨"gong", .room "cellar", 1, some (.ofInstant 5000000000)⟩,
      ⟨"bell", .room "attic", 3, some ⟨59, 1500000000⟩⟩])
    (by simp [struck, Operation.Authored, gongs, Content.Authored.ofRules]) (by decide +kernel)
  have hexported := eq_of_beq hp
  have hcounted : ∀ op ∈ struck, op.Counted := by
    simp only [struck, List.forall_mem_cons]
    refine ⟨.restore (by decide +kernel), .of_not_restore (by simp),
      .of_not_restore (by simp), List.forall_mem_nil _⟩
  have hshelf : shelf.loadAll = .ok [⟨"door", .room "area:mill", 2, none⟩,
      ⟨"gong", .room "cellar", 9, none⟩] := by decide +kernel
  obtain ⟨-, htext, -, -, -, htables⟩ := scopes_read_back (.room "area:mill") e shelf
  obtain ⟨hiff, hmem, -⟩ := htables _ _ _ h hcounted hshelf
  obtain ⟨rs, hrs⟩ := hiff.mpr (by rw [hexported]; decide)
  refine ⟨e, rs, h, hrs, htext.mpr (by decide), fun r => ?_⟩
  rw [hmem rs hrs, hexported]
  simp only [List.mem_cons, List.not_mem_nil, or_false, List.map_cons, List.map_nil]
  constructor
  · rintro ((rfl | rfl) | ⟨rfl | rfl, hout⟩)
    · exact .inl rfl
    · exact .inr (.inl rfl)
    · exact .inr (.inr rfl)
    · simp [Record.ref] at hout
  · rintro (rfl | rfl | rfl)
    · exact .inl (.inl rfl)
    · exact .inl (.inr rfl)
    · exact .inr ⟨.inl rfl, by simp [Record.ref]⟩

def nameless : String :=
  "scope:\n  room: \"\"\ntriggers:\n  - id: bell\n    event: on_enter\n    permanent: true\n"

theorem nameless_unreadable :
    ∃ c e, Content.ofText? nameless none = some c ∧ c.scope = .room "" ∧
      Scope.ofText? c.scope.text = none ∧ Reaches (.builtin 8) [.load c 0] e ∧
      shelf.loadAll.isOk = true ∧
      (shelf.save e.exported).loadAll = .error ⟨⟨"room:", "bell"⟩, .badScope⟩ := by
  have hany : (Content.ofText? nameless none).any (fun c => c.scope == .room "" &&
      (after? (.builtin 8) [.load c 0]).any fun e =>
        decide ((shelf.save e.exported).loadAll = .error ⟨⟨"room:", "bell"⟩, .badScope⟩)) = true := by
    decide +kernel
  obtain ⟨c, hc, hp⟩ := (Option.any_eq_true _ _).mp hany
  rw [Bool.and_eq_true, beq_iff_eq] at hp
  obtain ⟨hscope, hp⟩ := hp
  obtain ⟨e, h, hload⟩ := exists_reaches (.builtin 8) [.load c 0] _
    (List.forall_mem_singleton.mpr (Content.Authored.of_ofText? hc)) hp
  refine ⟨c, e, hc, hscope, ?_, h, by decide +kernel, of_decide_eq_true hload⟩
  rw [hscope]
  decide +kernel

end Engine

end WorldTriggers
