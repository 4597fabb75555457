import WorldTriggers.Proofs.Engine.Continuations

/-!
The histories of firings. A firing processes its actions one after the other; where an action is to wait it
goes to sleep, and it wakes when the continuation comes up. Between those stretches anything may happen,
other firings of the same rule included.
-/

namespace WorldTriggers

def Rule.waits (r : Rule) (n : Nat) : Int := ((r.actions.take n).map fun a => a.wait?.getD 0).sum

theorem Rule.waits_succ {r : Rule} {n : Nat} {a : Action} (ha : r.actions[n]? = some a) :
    r.waits (n + 1) = r.waits n + a.wait?.getD 0 := by
  rw [waits, List.take_add_one, ha]
  simp [waits]

def Action.CallsOff (actions : ActionRegistry) (f : Firing) (a : Action) : Prop :=
  ∃ act w outcome w', actions.get? a.kind = some act ∧
    act a.params ⟨w, f.context, f.scope⟩ = .ok (outcome, w') ∧ outcome.cancelRest = true

inductive FiringStatus where
  | underWay
  | asleep (handle : Handle)
  | finished
  | calledOff
  | stranded
  | cancelled
  deriving DecidableEq

def Ending.status : Ending → FiringStatus
  | finished => .finished
  | calledOff => .calledOff
  | stranded => .stranded
  | putOff h => .asleep h

/-- A firing with what became of it. -/
structure FiringHistory where
  onset : Onset
  acted : List (Nat × Instant)
  status : FiringStatus

namespace FiringHistory

def firing (l : FiringHistory) : Firing := l.onset.firing

def next? (l : FiringHistory) : Option Action := l.firing.rule.actions[l.acted.length]?

def latest (l : FiringHistory) : Instant := (l.acted.getLast?.map Prod.snd).getD l.onset.now

def due? (l : FiringHistory) : Option Instant := (l.next?.bind Action.wait?).bind l.latest.after?

def act (l : FiringHistory) (now : Instant) : FiringHistory :=
  { l with acted := l.acted ++ [(l.acted.length, now)] }

def carry (l : FiringHistory) (s : Stretch) : FiringHistory :=
  { l with acted := l.acted ++ s.acted.map fun i => (i, s.now) }

def retain (p : RuleRef → Bool) (l : FiringHistory) : FiringHistory :=
  match l.status with
  | .asleep _ => if p l.firing.ref then l else { l with status := .cancelled }
  | _ => l

structure Ordered (l : FiringHistory) : Prop where
  indices : l.acted.map Prod.fst = List.range l.acted.length
  bound : l.acted.length ≤ l.firing.rule.actions.length
  waited : ∀ p ∈ l.acted, l.onset.now + l.firing.rule.waits (p.1 + 1) ≤ p.2

/-- What there is to every way in which a firing may have come to rest. -/
def Rests (actions : ActionRegistry) (l : FiringHistory) : Prop :=
  match l.status with
  | .underWay => False
  | .asleep _ | .cancelled => ∃ due, l.due? = some due
  | .finished => l.next? = none
  | .calledOff => ∃ i a, l.acted.length = i + 1 ∧ l.firing.rule.actions[i]? = some a ∧
      a.CallsOff actions l.firing
  | .stranded => ∃ a wait, l.next? = some a ∧ a.wait? = some wait ∧ l.latest.after? wait = none

end FiringHistory

structure FiringHistories where
  underWay : List FiringHistory
  resting : List FiringHistory

namespace FiringHistories

def tell (ls : FiringHistories) : RuleEvent → FiringHistories
  | .fired o => { ls with underWay := ⟨o, [], .underWay⟩ :: ls.underWay }
  | .woke h =>
    match ls.resting.find? (·.status = .asleep h) with
    | some l => ⟨{ l with status := .underWay } :: ls.underWay, ls.resting.eraseP (·.status = .asleep h)⟩
    | none => ls
  | .stopped s ending =>
    match ls.underWay with
    | l :: outer => ⟨outer, { l.carry s with status := ending.status } :: ls.resting⟩
    | [] => ls
  | .switched ref enabled =>
    { ls with resting := ls.resting.map (·.retain fun k => enabled || k != ref) }
  | .removed scope => { ls with resting := ls.resting.map (·.retain fun ref => ref.scope != scope) }

def tellAll (ls : FiringHistories) (ds : List RuleEvent) : FiringHistories := ds.foldl tell ls

@[simp] theorem tellAll_nil (ls : FiringHistories) : ls.tellAll [] = ls := rfl

@[simp] theorem tellAll_cons (ls : FiringHistories) (d : RuleEvent) (ds : List RuleEvent) :
    ls.tellAll (d :: ds) = (ls.tell d).tellAll ds := rfl

@[simp] theorem tellAll_append (ls : FiringHistories) (ds ds' : List RuleEvent) :
    ls.tellAll (ds ++ ds') = (ls.tellAll ds).tellAll ds' := List.foldl_append

theorem tellAll_stopped {ls : FiringHistories} {l : FiringHistory} {outer : List FiringHistory}
    (h : ls.underWay = l :: outer) (s : Stretch) (ending : Ending) :
    ls.tellAll [.stopped s ending] =
      ⟨outer, { l.carry s with status := ending.status } :: ls.resting⟩ := by
  rw [tellAll_cons, tellAll_nil, tell, h]

def onsets (ls : FiringHistories) : List Onset := (ls.underWay ++ ls.resting).map FiringHistory.onset

end FiringHistories

def firingHistoriesOf (ds : List RuleEvent) : FiringHistories := FiringHistories.tellAll ⟨[], []⟩ ds

namespace FiringHistory

variable {l : FiringHistory} {s : Stretch} {p : RuleRef → Bool} {now : Instant} {h : Handle}

@[simp] theorem onset_retain (p : RuleRef → Bool) (l : FiringHistory) : (l.retain p).onset = l.onset := by
  unfold retain
  split
  · split <;> rfl
  · rfl

theorem retain_eq (p : RuleRef → Bool) (l : FiringHistory) :
    l.retain p = l ∨ (∃ h, l.status = .asleep h) ∧ l.retain p = { l with status := .cancelled } := by
  unfold retain
  split
  · rename_i h hstatus
    split
    · exact .inl rfl
    · exact .inr ⟨⟨h, hstatus⟩, rfl⟩
  · exact .inl rfl

theorem retain_of_asleep (hp : p l.firing.ref = true) : l.retain p = l := by
  unfold retain
  split
  · rw [if_pos hp]
  · rfl

theorem of_asleep_retain (hl : (l.retain p).status = .asleep h) :
    l.status = .asleep h ∧ p l.firing.ref = true ∧ l.retain p = l := by
  unfold retain at hl ⊢
  split at hl
  · split at hl
    · rename_i hp
      simp only [hp, if_true, and_self, and_true]
      exact hl
    · cases hl
  · rename_i hstatus
    exact absurd hl (hstatus h)

theorem Rests.retain {actions : ActionRegistry} (hl : l.Rests actions) :
    (l.retain p).Rests actions := by
  rcases l.retain_eq p with heq | ⟨⟨h, hstatus⟩, heq⟩
  · rwa [heq]
  · unfold Rests at hl
    rw [hstatus] at hl
    rw [heq]
    exact hl

theorem Ordered.retain (hl : l.Ordered) : (l.retain p).Ordered := by
  rcases l.retain_eq p with heq | ⟨-, heq⟩
  · rwa [heq]
  · rw [heq]
    exact ⟨hl.indices, hl.bound, hl.waited⟩

theorem Ordered.setStatus (hl : l.Ordered) (status : FiringStatus) : Ordered { l with status } :=
  ⟨hl.indices, hl.bound, hl.waited⟩

theorem Ordered.waits_le (hl : l.Ordered) :
    l.onset.now + l.firing.rule.waits l.acted.length ≤ l.latest := by
  rcases l.acted.eq_nil_or_concat with hnil | ⟨init, ⟨i, t⟩, hacted⟩
  · simp [latest, hnil, Rule.waits]
  · have hindices := hl.indices
    have hlast : i = init.length := by
      rw [hacted, List.concat_eq_append, List.length_append, List.length_singleton, List.range_succ,
        List.map_append] at hindices
      exact List.singleton_inj.mp (List.append_inj' hindices rfl).2
    have hwaited := hl.waited (i, t) (by simp [hacted])
    simpa [latest, hacted, hlast] using hwaited

theorem Ordered.act (hl : l.Ordered) (hnext : l.next?.isSome)
    (hnow : l.onset.now + l.firing.rule.waits (l.acted.length + 1) ≤ now) : (l.act now).Ordered where
  indices := by
    rw [FiringHistory.act, List.map_append, hl.indices, List.length_append, List.length_singleton,
      List.range_succ]
    rfl
  bound := by
    have hlt : l.acted.length < l.firing.rule.actions.length := by
      simpa [next?] using hnext
    rw [FiringHistory.act, List.length_append, List.length_singleton]
    exact hlt
  waited q hq := by
    rcases List.mem_append.mp hq with hq | hq
    · exact hl.waited q hq
    · obtain rfl := List.mem_singleton.mp hq
      exact hnow

theorem carry_act (l : FiringHistory) {s : Stretch} {i : Nat} (hi : (l.carry s).acted.length = i) :
    l.carry (s.act i) = (l.carry s).act s.now := by
  subst hi
  simp [carry, Stretch.act, FiringHistory.act, List.append_assoc]

end FiringHistory

namespace FiringHistories

theorem exists_eraseP_of_find? {ls : List FiringHistory} {p : FiringHistory → Bool} {l : FiringHistory}
    (h : ls.find? p = some l) :
    ∃ pre post, ls = pre ++ l :: post ∧ ls.eraseP p = pre ++ post := by
  obtain ⟨hl, pre, post, rfl, hpre⟩ := List.find?_eq_some_iff_append.mp h
  refine ⟨pre, post, rfl, ?_⟩
  rw [List.eraseP_append_right _ (by simpa using hpre), List.eraseP_cons_of_pos hl]

theorem tell_woke {ls : FiringHistories} {h : Handle} (hls : ∃ l ∈ ls.resting, l.status = .asleep h) :
    ∃ l pre post, l.status = .asleep h ∧ ls.resting = pre ++ l :: post ∧
      ls.tell (.woke h) = ⟨{ l with status := .underWay } :: ls.underWay, pre ++ post⟩ := by
  obtain ⟨q, hq, hstatus⟩ := hls
  cases hfind : ls.resting.find? (·.status = .asleep h) with
  | none => exact absurd hstatus (by simpa using List.find?_eq_none.mp hfind q hq)
  | some l =>
    obtain ⟨pre, post, hrest, herase⟩ := exists_eraseP_of_find? hfind
    refine ⟨l, pre, post, by simpa using List.find?_some hfind, hrest, ?_⟩
    rw [tell, hfind]
    dsimp only
    rw [herase]

theorem onsets_tell (ls : FiringHistories) (d : RuleEvent) :
    (ls.tell d).onsets.Perm (d.onset?.toList ++ ls.onsets) := by
  cases d with
  | fired o => exact .refl _
  | woke h =>
    unfold tell
    dsimp only
    split
    · rename_i l hfind
      obtain ⟨pre, post, hrest, herase⟩ := exists_eraseP_of_find? hfind
      have hmiddle : (ls.underWay ++ pre ++ l :: post).Perm (l :: (ls.underWay ++ pre ++ post)) :=
        List.perm_middle
      rw [onsets, onsets, herase, hrest, ← List.append_assoc]
      dsimp only
      rw [List.cons_append, ← List.append_assoc]
      exact (hmiddle.map FiringHistory.onset).symm
    · exact .refl _
  | stopped s ending =>
    unfold tell
    dsimp only
    split
    · rename_i l outer hunder
      rw [onsets, onsets, hunder]
      exact List.perm_middle.map FiringHistory.onset
    · exact .refl _
  | switched ref enabled => simp [tell, onsets, RuleEvent.onset?, Function.comp_def]
  | removed scope => simp [tell, onsets, RuleEvent.onset?, Function.comp_def]

theorem onsets_tellAll (ls : FiringHistories) (ds : List RuleEvent) :
    (ls.tellAll ds).onsets.Perm (WorldTriggers.onsets ds ++ ls.onsets) := by
  induction ds generalizing ls with
  | nil => exact .refl _
  | cons d ds ih =>
    have hcons : WorldTriggers.onsets (d :: ds) = d.onset?.toList ++ WorldTriggers.onsets ds := by
      cases d <;> rfl
    rw [hcons, tellAll_cons, List.append_assoc]
    exact (ih _).trans (((ls.onsets_tell d).append_left _).trans (List.perm_append_comm_assoc ..))

theorem onsets_of_underWay {ls : FiringHistories} (h : ls.underWay = []) :
    ls.onsets = ls.resting.map FiringHistory.onset := by
  rw [onsets, h]
  rfl

end FiringHistories

theorem onsets_firingHistoriesOf (ds : List RuleEvent) :
    (firingHistoriesOf ds).onsets.Perm (onsets ds) := by
  have hperm := FiringHistories.onsets_tellAll ⟨[], []⟩ ds
  rwa [show FiringHistories.onsets ⟨[], []⟩ = [] from rfl, List.append_nil] at hperm

namespace Engine

variable {e e' : Engine} {ls : List FiringHistory} {l : FiringHistory}

structure Awaits (e : Engine) (ls : List FiringHistory) : Prop where
  pending : ∀ l ∈ ls, ∀ h, l.status = .asleep h →
    ∃ due, l.due? = some due ∧ e.putOff? h = some (⟨l.firing, l.acted.length⟩, due)
  known : ∀ h, (e.putOff? h).isSome → ∃ l ∈ ls, l.status = .asleep h
  distinct : ls.Pairwise fun l l' => ∀ h, l.status = .asleep h → l'.status ≠ .asleep h

namespace Awaits

theorem congr (h : Awaits e ls) (ha : Awaiting e e') : Awaits e' ls :=
  ⟨fun l hl k hk => by rw [ha k]; exact h.pending l hl k hk,
    fun k hk => h.known k (by rwa [ha k] at hk), h.distinct⟩

theorem retain {p : RuleRef → Bool} (h : Awaits e ls) (hr : Retains e p e') :
    Awaits e' (ls.map (FiringHistory.retain p)) where
  pending l hl k hk := by
    obtain ⟨q, hq, rfl⟩ := List.mem_map.mp hl
    obtain ⟨hk, hp, heq⟩ := FiringHistory.of_asleep_retain hk
    obtain ⟨due, hdue, hput⟩ := h.pending q hq k hk
    refine ⟨due, by rw [heq, hdue], ?_⟩
    rw [hr k, hput, heq, Option.filter_some, if_pos hp]
  known k hk := by
    rw [hr k] at hk
    obtain ⟨x, hx⟩ := Option.isSome_iff_exists.mp hk
    obtain ⟨hput, hp⟩ := Option.filter_eq_some_iff.mp hx
    obtain ⟨l, hl, hstatus⟩ := h.known k (by rw [hput]; rfl)
    obtain ⟨due, -, hput'⟩ := h.pending l hl k hstatus
    obtain rfl := Option.some.inj (hput.symm.trans hput')
    exact ⟨l, List.mem_map.mpr ⟨l, hl, FiringHistory.retain_of_asleep hp⟩, hstatus⟩
  distinct := by
    refine List.pairwise_map.mpr (h.distinct.imp fun {l l'} hne k hk hk' => ?_)
    exact hne k (FiringHistory.of_asleep_retain hk).1 (FiringHistory.of_asleep_retain hk').1

theorem settle (h : Awaits e ls) (hl : ∀ k, l.status ≠ .asleep k) : Awaits e (l :: ls) where
  pending q hq k hk := by
    rcases List.mem_cons.mp hq with rfl | hq
    · exact absurd hk (hl k)
    · exact h.pending q hq k hk
  known k hk := by
    obtain ⟨q, hq, hstatus⟩ := h.known k hk
    exact ⟨q, List.mem_cons_of_mem _ hq, hstatus⟩
  distinct := List.pairwise_cons.mpr ⟨fun _ _ k hk => absurd hk (hl k), h.distinct⟩

theorem sleep {k : Handle} {due : Instant} (h : Awaits e ls) (hnew : e.putOff? k = none)
    (hput : ∀ j, e'.putOff? j =
      if j = k then some (⟨l.firing, l.acted.length⟩, due) else e.putOff? j)
    (hl : l.status = .asleep k) (hdue : l.due? = some due) : Awaits e' (l :: ls) := by
  have hfresh (q : FiringHistory) (hq : q ∈ ls) : q.status ≠ .asleep k := by
    intro hk
    obtain ⟨_, -, hsome⟩ := h.pending q hq k hk
    rw [hnew] at hsome
    cases hsome
  refine ⟨fun q hq j hj => ?_, fun j hj => ?_, List.pairwise_cons.mpr ⟨fun q hq j hj => ?_, h.distinct⟩⟩
  · rcases List.mem_cons.mp hq with rfl | hq
    · obtain rfl : k = j := FiringStatus.asleep.inj (hl.symm.trans hj)
      exact ⟨due, hdue, by rw [hput, if_pos rfl]⟩
    · rw [hput, if_neg (by rintro rfl; exact hfresh q hq hj)]
      exact h.pending q hq j hj
  · rw [hput] at hj
    split at hj
    · subst j
      exact ⟨l, List.mem_cons_self, hl⟩
    · obtain ⟨q, hq, hstatus⟩ := h.known j hj
      exact ⟨q, List.mem_cons_of_mem _ hq, hstatus⟩
  · obtain rfl : k = j := FiringStatus.asleep.inj (hl.symm.trans hj)
    exact hfresh q hq

theorem wake {k : Handle} {pre post : List FiringHistory} (h : Awaits e (pre ++ l :: post))
    (hl : l.status = .asleep k) (hput : ∀ j, e'.putOff? j = if j = k then none else e.putOff? j) :
    Awaits e' (pre ++ post) := by
  have hperm : (pre ++ l :: post).Perm (l :: (pre ++ post)) := List.perm_middle
  -- No two firings sleep on one handle, so that the others do not miss it.
  have hdistinct := hperm.pairwise_iff
    (fun {a b} hab j hb ha => hab j ha hb) |>.mp h.distinct
  obtain ⟨hother, hdistinct⟩ := List.pairwise_cons.mp hdistinct
  refine ⟨fun q hq j hj => ?_, fun j hj => ?_, hdistinct⟩
  · rw [hput, if_neg (by rintro rfl; exact hother q hq j hl hj)]
    exact h.pending q (hperm.mem_iff.mpr (List.mem_cons_of_mem _ hq)) j hj
  · rw [hput] at hj
    split at hj
    · cases hj
    · rename_i hne
      obtain ⟨q, hq, hstatus⟩ := h.known j hj
      rcases List.mem_cons.mp (hperm.mem_iff.mp hq) with rfl | hq
      · exact absurd (FiringStatus.asleep.inj (hl.symm.trans hstatus)).symm hne
      · exact ⟨q, hq, hstatus⟩

end Awaits

end Engine

end WorldTriggers
