import Mathlib.Data.List.NodupEquivFin
import WorldTriggers.Proofs.Engine.Arming

/-!
Engines that differ in the numbers that they gave out. When the same timers start in two engines, but for
those of some rules, the handles and turns of the one go over in order to handles and turns of the other.
-/

namespace WorldTriggers

structure Relabelling where
  handle : ℕ ↪o ℕ
  turn : ℕ ↪o ℕ

namespace Relabelling

def none : Relabelling := ⟨RelEmbedding.refl _, RelEmbedding.refl _⟩

def state (n : Relabelling) (s : RuleState) : RuleState := { s with timer := s.timer.map n.handle }

def registration (n : Relabelling) (r : Registration Job) : Registration Job :=
  { r with turn := n.turn r.turn }

structure Keeps (n : Relabelling) (e : Engine) : Prop where
  handles : ∀ h, h < e.schedule.nextHandle → n.handle h = h
  turns : ∀ t, t < e.schedule.nextTurn → n.turn t = t

def shift (base : ℕ) (φ : ℕ ↪o ℕ) : ℕ ↪o ℕ :=
  OrderEmbedding.ofStrictMono (fun k => if k < base then k else base + φ (k - base)) (by
    intro a b hab
    dsimp only
    split <;> split
    · exact hab
    · omega
    · omega
    · have hlt : φ (a - base) < φ (b - base) := φ.lt_iff_lt.mpr (by omega)
      omega)

theorem shift_of_lt {base k : ℕ} (φ : ℕ ↪o ℕ) (h : k < base) : shift base φ k = k := if_pos h

theorem shift_add (base i : ℕ) (φ : ℕ ↪o ℕ) : shift base φ (base + i) = base + φ i := by
  refine (if_neg (by omega)).trans ?_
  rw [Nat.add_sub_cancel_left]

def after (e : Engine) (φ : ℕ ↪o ℕ) : Relabelling :=
  ⟨shift e.schedule.nextHandle φ, shift e.schedule.nextTurn φ⟩

theorem keeps_after (e : Engine) (φ : ℕ ↪o ℕ) : (after e φ).Keeps e where
  handles _ := shift_of_lt φ
  turns _ := shift_of_lt φ

theorem handle_after (e : Engine) (φ : ℕ ↪o ℕ) (i : ℕ) :
    (after e φ).handle (e.schedule.nextHandle + i) = e.schedule.nextHandle + φ i := shift_add ..

theorem registration_after (e : Engine) (φ : ℕ ↪o ℕ) (s : Start) (i epoch : ℕ) :
    (after e φ).registration (s.registration (e.schedule.nextTurn + i) epoch) =
      s.registration (e.schedule.nextTurn + φ i) epoch :=
  congrArg (s.registration · epoch) (shift_add ..)

end Relabelling

namespace Engine

variable {n : Relabelling} {more : RuleRef → Prop} {p q d f : Engine} {scope : Scope} {epoch : Nat}
  {now : Instant} {ls : List LoadedRule}

/-- An engine whose jobs another one has under other numbers, besides the timers of some rules. -/
structure Alongside (n : Relabelling) (more : RuleRef → Prop) (d f : Engine) : Prop where
  has : ∀ h r, d.job? h = some r → f.job? (n.handle h) = some (n.registration r)
  only : ∀ k q, f.job? k = some q →
    (∃ h r, d.job? h = some r ∧ k = n.handle h ∧ q = n.registration r) ∨
      ∃ ref epoch, q.payload = .ruleTimer ref epoch ∧ more ref
  timers : ∀ ref, ¬more ref → f.timerOf ref = (d.timerOf ref).map n.handle

theorem starts_sublist
    (h : ∀ l ∈ ls, ∀ s, p.startOf? scope now l = some s → q.startOf? scope now l = some s) :
    (p.starts scope now ls).Sublist (q.starts scope now ls) := by
  unfold starts
  induction ls with
  | nil => exact .refl _
  | cons l rest ih =>
    obtain ⟨hl, hrest⟩ := List.forall_mem_cons.mp h
    have hsub := ih hrest
    cases hp : p.startOf? scope now l with
    | none =>
      rw [List.filterMap_cons_none hp]
      cases hq : q.startOf? scope now l with
      | none => rwa [List.filterMap_cons_none hq]
      | some s =>
        rw [List.filterMap_cons_some hq]
        exact hsub.cons s
    | some s =>
      rw [List.filterMap_cons_some hp, List.filterMap_cons_some (hl s hp)]
      exact hsub.cons_cons s

structure Numbered (e : Engine) : Prop where
  jobs : ∀ h r, e.job? h = some r → h < e.schedule.nextHandle
  turns : e.schedule.InTurn
  timers : ∀ ref h, e.timerOf ref = some h → h < e.schedule.nextHandle

theorem Linked.numbered (hl : p.Linked) (hturns : p.schedule.InTurn) : p.Numbered where
  jobs h r hr := (hl.issued h r hr).1
  turns := hturns
  timers ref h ht := (hl.timers ref h ht).1

theorem Numbered.kept {h : Handle} {r : Registration Job} (hq : q.Numbered) (hkeeps : n.Keeps q)
    (hr : q.job? h = some r) : n.handle h = h ∧ n.registration r = r := by
  refine ⟨hkeeps.handles h (hq.jobs h r hr), ?_⟩
  unfold Relabelling.registration
  rw [hkeeps.turns r.turn (hq.turns h r hr)]

structure Interspersed (φ : ℕ ↪o ℕ) (more : RuleRef → Prop) (ss ts : List Start) : Prop where
  has : ∀ j, ss[j]? = ts[φ j]?
  only : ∀ (i : ℕ) (t : Start), ts[i]? = some t → ¬more t.ref → ∃ j, ss[j]? = some t ∧ i = φ j

theorem exists_interspersed (hnodup : (refsOf scope ls).Nodup)
    (hstart : ∀ l ∈ ls, ∀ s, p.startOf? scope now l = some s ↔
      q.startOf? scope now l = some s ∧ ¬more ⟨scope, l.rule.id⟩) :
    ∃ φ, Interspersed φ more (p.starts scope now ls) (q.starts scope now ls) := by
  have hsub : (p.starts scope now ls).Sublist (q.starts scope now ls) :=
    starts_sublist fun l hl s hs => ((hstart l hl s).mp hs).1
  obtain ⟨φ, hφ⟩ := List.sublist_iff_exists_orderEmbedding_getElem?_eq.mp hsub
  have hdistinct : (q.starts scope now ls).Nodup :=
    List.Nodup.of_map _ ((starts_refs_sublist q scope now ls).nodup hnodup)
  refine ⟨φ, hφ, fun i s hs hmore => ?_⟩
  obtain ⟨l, hl, hstarts⟩ := List.mem_filterMap.mp (List.mem_of_getElem? hs)
  rw [Rule.ref_of_start? hstarts] at hmore
  have hmem : s ∈ p.starts scope now ls :=
    List.mem_filterMap.mpr ⟨l, hl, (hstart l hl s).mpr ⟨hstarts, hmore⟩⟩
  obtain ⟨j, hj⟩ := List.mem_iff_getElem?.mp hmem
  refine ⟨j, hj, ?_⟩
  rw [hφ, ← hs] at hj
  exact (List.getElem?_inj (List.getElem?_eq_some_iff.mp hs).1 hdistinct).mp hj.symm

section Alongside

variable {φ : ℕ ↪o ℕ} {ref : RuleRef}

theorem Armed.timerOf_after (hp : Armed scope epoch now ls p d) (hq : Armed scope epoch now ls q f)
    (hhandle : p.schedule.nextHandle = q.schedule.nextHandle) (hq' : q.Numbered)
    (hφ : Interspersed φ more (p.starts scope now ls) (q.starts scope now ls))
    (hsame : q.timerOf ref = p.timerOf ref) (hmore : ¬more ref) :
    f.timerOf ref = (d.timerOf ref).map (Relabelling.after q φ).handle := by
  by_cases hmem : ref ∈ refsOf scope ls
  · refine Option.ext fun k => ?_
    rw [hq.timers ref hmem, Option.map_eq_some_iff]
    constructor
    · rintro ⟨i, s, hs, rfl, rfl⟩
      obtain ⟨j, hj, rfl⟩ := hφ.only i s hs hmore
      refine ⟨p.schedule.nextHandle + j, (hp.timers _ hmem _).mpr ⟨j, s, hj, rfl, rfl⟩, ?_⟩
      rw [hhandle, Relabelling.handle_after]
    · rintro ⟨h, ht, rfl⟩
      obtain ⟨j, s, hj, rfl, rfl⟩ := (hp.timers ref hmem h).mp ht
      refine ⟨φ j, s, (hφ.has j).symm.trans hj, rfl, ?_⟩
      rw [hhandle, Relabelling.handle_after]
  · have hd : d.timerOf ref = q.timerOf ref := by
      rw [hsame, timerOf, hp.stateOf_of_not_mem hmem]
      rfl
    have hf : f.timerOf ref = q.timerOf ref := by
      rw [timerOf, hq.stateOf_of_not_mem hmem]
      rfl
    rw [hf, hd]
    cases ht : q.timerOf ref with
    | none => rfl
    | some h =>
      rw [Option.map_some, (Relabelling.keeps_after q φ).handles h (hq'.timers ref h ht)]

theorem Armed.alongside (hp : Armed scope epoch now ls p d) (hq : Armed scope epoch now ls q f)
    (hhandle : p.schedule.nextHandle = q.schedule.nextHandle)
    (hturn : p.schedule.nextTurn = q.schedule.nextTurn) (hq' : q.Numbered)
    (hpq : Alongside .none more p q) (hnodup : (refsOf scope ls).Nodup)
    (hstart : ∀ l ∈ ls, ∀ s, p.startOf? scope now l = some s ↔
      q.startOf? scope now l = some s ∧ ¬more ⟨scope, l.rule.id⟩) : ∃ n, n.Keeps q ∧ Alongside n more d f := by
  obtain ⟨φ, hφ⟩ := exists_interspersed hnodup hstart
  have hkeeps := Relabelling.keeps_after q φ
  have hold {h : Handle} (hlt : h < q.schedule.nextHandle) : d.job? h = p.job? h :=
    hp.old h (hhandle ▸ hlt)
  have hnew (i : ℕ) : d.job? (q.schedule.nextHandle + i) =
      (p.starts scope now ls)[i]?.map (·.registration (q.schedule.nextTurn + i) epoch) := by
    rw [← hhandle, ← hturn]
    exact hp.new i
  refine ⟨.after q φ, hkeeps, fun h r hr => ?_, fun k r hr => ?_, fun ref hmore =>
    hp.timerOf_after hq hhandle hq' hφ ((hpq.timers ref hmore).trans (Option.map_id_fun' ▸ rfl)) hmore⟩
  · rcases Nat.lt_or_ge h q.schedule.nextHandle with hlt | hge
    · rw [hold hlt] at hr
      have hr : q.job? h = some r := hpq.has h r hr
      obtain ⟨hhandle', hr'⟩ := hq'.kept hkeeps hr
      rw [hhandle', hr', hq.old h hlt, hr]
    · obtain ⟨i, rfl⟩ := Nat.exists_eq_add_of_le hge
      rw [hnew] at hr
      obtain ⟨s, hs, rfl⟩ := Option.map_eq_some_iff.mp hr
      rw [Relabelling.handle_after, Relabelling.registration_after, hq.new, ← hφ.has, hs]
      rfl
  · rcases Nat.lt_or_ge k q.schedule.nextHandle with hlt | hge
    · rw [hq.old k hlt] at hr
      rcases hpq.only k r hr with ⟨h, t, ht, hk, hrt⟩ | hmore
      · have hr' : p.job? k = some r := by
          rw [show k = h from hk, show r = t from hrt]
          exact ht
        obtain ⟨hhandle', hkept⟩ := hq'.kept hkeeps hr
        exact .inl ⟨k, r, (hold hlt).trans hr', hhandle'.symm, hkept.symm⟩
      · exact .inr hmore
    · obtain ⟨i, rfl⟩ := Nat.exists_eq_add_of_le hge
      rw [hq.new] at hr
      obtain ⟨s, hs, rfl⟩ := Option.map_eq_some_iff.mp hr
      by_cases hmore : more s.ref
      · exact .inr ⟨s.ref, epoch, rfl, hmore⟩
      · obtain ⟨j, hj, rfl⟩ := hφ.only i s hs hmore
        refine .inl ⟨q.schedule.nextHandle + j, s.registration (q.schedule.nextTurn + j) epoch, ?_,
          (Relabelling.handle_after ..).symm, (Relabelling.registration_after ..).symm⟩
        rw [hnew, hj]
        rfl

end Alongside

theorem Armed.get?_of_some {ref : RuleRef} {s : RuleState} (h : Armed scope epoch now ls p d)
    (hs : p.states.get? ref = some s) : d.states.get? ref = some { s with timer := d.timerOf ref } := by
  by_cases hmem : ref ∈ refsOf scope ls
  · rw [h.states ref hmem, RuleStates.stateOf_of_get? hs]
  · rw [timerOf, h.stateOf_of_not_mem hmem, h.others ref hmem, RuleStates.stateOf_of_get? hs, hs]

theorem Armed.get?_eq_map {ref : RuleRef} (hp : Armed scope epoch now ls p d)
    (hq : Armed scope epoch now ls q f) (hsame : p.states.get? ref = q.states.get? ref)
    (htimer : f.timerOf ref = (d.timerOf ref).map n.handle) :
    f.states.get? ref = (d.states.get? ref).map n.state := by
  cases hstate : q.states.get? ref with
  | some s =>
    rw [hq.get?_of_some hstate, hp.get?_of_some (hsame.trans hstate), htimer]
    rfl
  | none =>
    by_cases hmem : ref ∈ refsOf scope ls
    · rw [hq.states ref hmem, hp.states ref hmem, RuleStates.stateOf_of_get?_none hstate,
        RuleStates.stateOf_of_get?_none (hsame.trans hstate), htimer]
      rfl
    · rw [hq.others ref hmem, hp.others ref hmem, hsame, hstate]
      rfl

theorem Linked.deferred_iff (hl : q.Linked) (hkeeps : n.Keeps q) (k : Handle) (ref : RuleRef) :
    q.deferred.get? k = some ref ↔ ∃ h, q.deferred.get? h = some ref ∧ k = n.handle h := by
  have hfixed {h : Handle} (hd : q.deferred.get? h = some ref) : n.handle h = h := by
    obtain ⟨r, _, hr, -⟩ := hl.deferred h ref hd
    exact hkeeps.handles h (hl.issued h r hr).1
  constructor
  · exact fun hd => ⟨k, hd, (hfixed hd).symm⟩
  · rintro ⟨h, hd, rfl⟩
    rwa [hfixed hd]

end Engine

end WorldTriggers
