import Mathlib
import WorldTriggers.Proofs.Catalog

namespace WorldTriggers

namespace Decimal

/-- The nearest whole number; of two that are equally near, the even one. -/
structure Rounds (q : ℚ) (n : ℤ) : Prop where
  near : |(n : ℚ) - q| ≤ 1 / 2
  even : |(n : ℚ) - q| = 1 / 2 → Even n

section Rounding

variable {q : ℚ} {n m : ℤ}

theorem Rounds.le_of_le (h : Rounds q n) (hq : q ≤ m + 1 / 2) (hm : q = m + 1 / 2 → Even m) :
    n ≤ m := by
  obtain ⟨-, hn⟩ := abs_le.mp h.near
  by_contra hlt
  have hle : (m : ℚ) + 1 ≤ n := by exact_mod_cast (by omega : m + 1 ≤ n)
  have hmid : q = m + 1 / 2 := by linarith
  -- Now both `m` and its neighbour `n` are half a unit away, and both are even.
  obtain ⟨a, ha⟩ := h.even (by rw [abs_eq (by norm_num)]; left; linarith)
  obtain ⟨b, hb⟩ := hm hmid
  have : (n : ℚ) ≤ m + 1 := by linarith
  have : n ≤ m + 1 := by exact_mod_cast this
  omega

theorem Rounds.le_even_iff (h : Rounds q n) (hm : Even m) : n ≤ m ↔ q ≤ m + 1 / 2 := by
  constructor
  · intro hle
    have : (n : ℚ) ≤ m := by exact_mod_cast hle
    linarith [(abs_le.mp h.near).1]
  · exact fun hq => h.le_of_le hq fun _ => hm

theorem Rounds.le (h : Rounds q n) (h' : Rounds q m) : n ≤ m := by
  apply h.le_of_le
  · linarith [(abs_le.mp h'.near).1]
  · intro hq
    apply h'.even
    rw [abs_eq (by norm_num)]
    right
    linarith

theorem Rounds.unique (h : Rounds q n) (h' : Rounds q m) : n = m := le_antisymm (h.le h') (h'.le h)

theorem Rounds.pos_iff (h : Rounds q n) : 0 < n ↔ 1 / 2 < q := by
  rw [← not_le, h.le_even_iff (by decide), ← not_le]
  simp

theorem rounds_roundDiv {num den : Nat} (hden : 0 < den) :
    Rounds ((num : ℚ) / den) (roundDiv num den) := by
  have hd : (0 : ℚ) < den := by exact_mod_cast hden
  have hq : (num : ℚ) / den = (num / den : ℕ) + (num % den : ℕ) / (den : ℚ) := by
    have hnum : (num : ℚ) = den * (num / den : ℕ) + (num % den : ℕ) := by
      exact_mod_cast (Nat.div_add_mod num den).symm
    rw [hnum]
    field_simp
  have hpart : 2 * ((num % den : ℕ) / (den : ℚ)) = (2 * (num % den) : ℕ) / (den : ℚ) := by
    push_cast
    ring
  have hnonneg : (0 : ℚ) ≤ (num % den : ℕ) / (den : ℚ) := by positivity
  have hlt : ((num % den : ℕ) : ℚ) / den < 1 := by
    rw [div_lt_one hd]
    exact_mod_cast Nat.mod_lt num hden
  rw [hq]
  generalize ((num % den : ℕ) : ℚ) / den = part at *
  have hlow : |(((num / den : ℕ) : ℤ) : ℚ) - ((num / den : ℕ) + part)| = part := by
    rw [abs_sub_comm, Int.cast_natCast, add_sub_cancel_left, abs_of_nonneg hnonneg]
  have hhigh : |(((num / den + 1 : ℕ) : ℤ) : ℚ) - ((num / den : ℕ) + part)| = 1 - part := by
    rw [Int.cast_natCast, Nat.cast_add, Nat.cast_one, add_sub_add_left_eq_sub,
      abs_of_nonneg (by linarith)]
  unfold roundDiv
  dsimp only
  split
  · rename_i h
    have : 2 * part < 1 := by
      rw [hpart, div_lt_one hd]
      exact_mod_cast h
    exact ⟨by linarith, fun h => by linarith⟩
  split
  · rename_i h
    have : 1 < 2 * part := by
      rw [hpart, one_lt_div hd]
      exact_mod_cast h
    exact ⟨by linarith, fun h => by linarith⟩
  have : 2 * part = 1 := by
    rw [hpart, (by omega : 2 * (num % den) = den), div_self hd.ne']
  split
  · rename_i h
    exact ⟨by linarith, fun _ => by exact_mod_cast Nat.even_iff.mpr h⟩
  · rename_i h
    refine ⟨by linarith, fun _ => ?_⟩
    have hodd : Even (num / den + 1) := Nat.even_iff.mpr (by omega)
    exact_mod_cast hodd

end Rounding

def Binary.value (b : Binary) : ℚ :=
  (if b.negative then -1 else 1) * b.significand * 2 ^ b.exponent

theorem Binary.ratio_div (b : Binary) :
    (b.ratio.1 : ℚ) / b.ratio.2 = b.significand * 2 ^ b.exponent := by
  unfold ratio
  split
  · rename_i e he
    rw [he]
    simp [Nat.shiftLeft_eq]
  · rename_i e he
    rw [he]
    simp [Nat.shiftLeft_eq, zpow_negSucc, div_eq_mul_inv]

theorem Binary.ratio_pos (b : Binary) : 0 < b.ratio.2 := by
  unfold ratio
  split <;> simp [Nat.shiftLeft_eq]

section Floats

open Float.Model UnpackedFloat

def Binary.ofUnpacked? : UnpackedFloat → Option Binary
  | .infinity _ => none
  | .notANumber => none
  | .zero s => some ⟨s == .negative, 0, -1074⟩
  | .finite s m e _ => some ⟨s == .negative, m, e⟩

section Fields

variable (v : BitVec 64)

theorem toNat_unpackExponent :
    (@unpackExponent Format.binary64 v).toNat = (v.toNat >>> 52) % 2048 := by
  simp [unpackExponent, BitVec.extractLsb]

theorem toNat_unpackMantissa :
    (@unpackMantissa Format.binary64 v).toNat = v.toNat % (1 <<< 52) := by
  simp [unpackMantissa, BitVec.extractLsb]

theorem ofBitVec_unpackSign :
    (Sign.ofBitVec (@unpackSign Format.binary64 v) == .negative) =
      decide (1 <<< 63 ≤ v.toNat) := by
  have hv := v.isLt
  have hsign : @unpackSign Format.binary64 v = 0#1 ↔ ¬1 <<< 63 ≤ v.toNat := by
    rw [← BitVec.toNat_inj]
    simp [unpackSign, BitVec.extractLsb, Nat.shiftRight_eq_div_pow, Nat.shiftLeft_eq]
    omega
  by_cases h : 1 <<< 63 ≤ v.toNat
  · rw [Sign.ofBitVec, if_neg (by rw [hsign]; simpa using h), decide_eq_true h]
    rfl
  · rw [Sign.ofBitVec, if_pos (hsign.mpr h), decide_eq_false h]
    rfl

end Fields

theorem Binary.ofFloat?_eq (x : Float) : ofFloat? x = ofUnpacked? x.toModel.unpack := by
  have hbits : x.toBits.toNat = x.toModel.toBits.toBitVec.toNat := rfl
  unfold Float.Model.unpack UnpackedFloat.unpack ofFloat?
  rw [hbits]
  generalize x.toModel.toBits.toBitVec = v
  have hexp := toNat_unpackExponent v
  have hman := toNat_unpackMantissa v
  have hsign := ofBitVec_unpackSign v
  have hones : @unpackExponent Format.binary64 v = -1#_ ↔ (v.toNat >>> 52) % 2048 = 2047 := by
    rw [← BitVec.toNat_inj, hexp]
    rfl
  have hzeros : @unpackExponent Format.binary64 v = 0#_ ↔ (v.toNat >>> 52) % 2048 = 0 := by
    rw [← BitVec.toNat_inj, hexp]
    rfl
  have hnone : @unpackMantissa Format.binary64 v = 0#_ ↔ v.toNat % (1 <<< 52) = 0 := by
    rw [← BitVec.toNat_inj, hman]
    rfl
  dsimp only
  by_cases hinf : (v.toNat >>> 52) % 2048 = 2047
  · rw [if_pos hinf, if_pos (hones.mpr hinf)]
    split <;> rfl
  · rw [if_neg hinf, if_neg (hones.not.mpr hinf)]
    by_cases hsub : (v.toNat >>> 52) % 2048 = 0
    · rw [if_pos hsub, if_pos (hzeros.mpr hsub)]
      split
      · rename_i h
        rw [hnone.mp h, ofUnpacked?, hsign]
      · rw [ofUnpacked?, hsign, hman, hexp, hsub]
        rfl
    · rw [if_neg hsub, if_neg (hzeros.not.mpr hsub), ofUnpacked?, hsign, hexp]
      congr 2
      -- The leading bit of a normal significand is not stored.
      rw [BitVec.toNat_append, ← Nat.shiftLeft_add_eq_or_of_lt (BitVec.isLt _), hman]
      exact Nat.add_comm _ _

theorem Binary.isSome_of_isFinite {x : Float} (h : x.isFinite = true) : ∃ b, ofFloat? x = some b := by
  have hf : x.toModel.unpack.isFinite = true := h
  rw [ofFloat?_eq]
  cases hu : x.toModel.unpack with
  | infinity s => rw [hu] at hf; cases hf
  | notANumber => rw [hu] at hf; cases hf
  | zero s => exact ⟨_, rfl⟩
  | finite s m e hm => exact ⟨_, rfl⟩

theorem Binary.value_pos {x : Float} (hx : 0 < x) {b : Binary} (hb : ofFloat? x = some b) :
    b.negative = false ∧ 0 < b.value := by
  have hlt : UnpackedFloat.lt (.zero .positive) x.toModel.unpack = true := of_decide_eq_true hx
  rw [ofFloat?_eq] at hb
  cases hu : x.toModel.unpack with
  | infinity s => rw [hu] at hb; cases hb
  | notANumber => rw [hu] at hb; cases hb
  | zero s => rw [hu] at hlt; cases s <;> cases hlt
  | finite s m e hm =>
    rw [hu] at hlt hb
    cases hb
    cases s with
    | negative => cases hlt
    | positive =>
      refine ⟨rfl, ?_⟩
      have hm' : (0 : ℚ) < m := by exact_mod_cast hm
      rw [value, if_neg (by rintro ⟨⟩), one_mul]
      positivity

end Floats

end Decimal

namespace Span

open Decimal

def nanoseconds? (x : Float) : Option ℚ := (Binary.ofFloat? x).map fun b => b.value * 1000000000

/-- A positive number of seconds lasts as long as it says, as far as nanoseconds go and spans reach. -/
def Honours (x : Float) (span? : Option Span) : Prop :=
  ∃ q, nanoseconds? x = some q ∧ 0 < q ∧
    (∀ d : ℤ, span? = some d ↔ Rounds q d ∧ d ≤ longest) ∧
    ((∃ d : ℤ, span? = some d ∧ 0 < d) ↔ 1 / 2 < q ∧ q ≤ (longest : ℤ) + 1 / 2)

theorem even_longest : Even longest := by decide

theorem rounds_roundSeconds {b : Binary} (h : b.negative = false) :
    Rounds (b.value * 1000000000) (roundSeconds b) := by
  have hround : Rounds ((b.ratio.1 * 1000000000 : ℕ) / (b.ratio.2 : ℚ)) (roundSeconds b) :=
    rounds_roundDiv b.ratio_pos
  rw [Nat.cast_mul, mul_div_right_comm, b.ratio_div] at hround
  rw [Binary.value, h, if_neg (by decide), one_mul]
  exact_mod_cast hround

theorem ofSeconds?_eq_some_iff {x : Float} {b : Binary} (hb : Binary.ofFloat? x = some b)
    (h : b.negative = false) (d : ℤ) :
    ofSeconds? x = some d ↔ Rounds (b.value * 1000000000) d ∧ d ≤ longest := by
  have hround := rounds_roundSeconds h
  simp only [ofSeconds?, hb, h, Bool.false_and]
  constructor
  · intro hd
    split at hd
    · cases hd
    · split at hd
      · cases hd
        exact ⟨hround, ‹_›⟩
      · cases hd
  · rintro ⟨hd, hle⟩
    obtain rfl := hround.unique hd
    rw [if_neg (by decide), if_pos hle]

theorem honours_ofSeconds? {x : Float} (hx : 0 < x) {b : Binary} (hb : Binary.ofFloat? x = some b) :
    Honours x (ofSeconds? x) := by
  obtain ⟨hneg, hpos⟩ := Binary.value_pos hx hb
  have hround := rounds_roundSeconds hneg
  refine ⟨b.value * 1000000000, by rw [nanoseconds?, hb, Option.map_some], by positivity,
    ofSeconds?_eq_some_iff hb hneg, ?_⟩
  rw [← hround.pos_iff, ← hround.le_even_iff even_longest]
  constructor
  · rintro ⟨d, hd, hd'⟩
    obtain ⟨hd, hle⟩ := (ofSeconds?_eq_some_iff hb hneg d).mp hd
    rw [hround.unique hd]
    exact ⟨hd', hle⟩
  · rintro ⟨hd', hle⟩
    exact ⟨_, (ofSeconds?_eq_some_iff hb hneg _).mpr ⟨hround, hle⟩, hd'⟩

theorem honours_ofPositiveSeconds? {x : Float} (hx : 0 < x) (hs : isSeconds x = true) :
    Honours x (ofPositiveSeconds? x) := by
  obtain ⟨b, hb⟩ := Binary.isSome_of_isFinite (Bool.and_eq_true_iff.mp hs).1
  rw [ofPositiveSeconds?, if_pos hx]
  exact honours_ofSeconds? hx hb

end Span

namespace Rule

theorem checkDelays_eq_ok_iff {i : Nat} {actions : List Action} :
    checkDelays i actions = .ok () ↔ ∀ a ∈ actions, isSeconds a.delay = true := by
  induction actions generalizing i with
  | nil => simp [checkDelays]
  | cons a actions ih =>
    rw [checkDelays]
    split
    · simp [*]
    · simp [*]

theorem isSeconds_of_checkSeconds {field : String} {x : Float}
    (h : checkSeconds field x = .ok ()) : isSeconds x = true := by
  by_contra hx
  rw [checkSeconds, if_neg hx] at h
  cases h

theorem honours_of_timerPlan? {r : Rule} {plan : TimerPlan} (h : r.timerPlan? = some plan) :
    ∃ x, r.timerInterval = some x ∧ 0 < x ∧ Span.Honours x (some plan.interval) := by
  unfold timerPlan? at h
  split at h
  · cases h
  obtain ⟨x, hx, h⟩ := Option.bind_eq_some_iff.mp h
  obtain ⟨interval, hinterval, h⟩ := Option.bind_eq_some_iff.mp h
  obtain ⟨initial, -, h⟩ := Option.bind_eq_some_iff.mp h
  cases h
  refine ⟨x, hx, ?_⟩
  unfold Span.ofPositiveSeconds? at hinterval
  split at hinterval
  · rename_i hpos
    refine ⟨hpos, ?_⟩
    rw [← hinterval]
    cases hb : Decimal.Binary.ofFloat? x with
    | none =>
      rw [Span.ofSeconds?, hb] at hinterval
      cases hinterval
    | some b => exact Span.honours_ofSeconds? hpos hb
  · cases hinterval

/-- Every positive duration of a valid rule is honoured up to half a nanosecond and the longest span. -/
theorem durations_of_validate {r : Rule} (h : r.validate = .ok ()) :
    (0 < r.cooldown → Span.Honours r.cooldown r.cooldownSpan?) ∧
      (∀ a ∈ r.actions, 0 < a.delay → Span.Honours a.delay a.wait?) ∧
      (r.event = .timer → ∃ x plan, r.timerInterval = some x ∧ 0 < x ∧ r.timerPlan? = some plan ∧
        Span.Honours x (some plan.interval)) := by
  obtain ⟨hcooldown, hdelays, -⟩ := checks_of_validate h
  refine ⟨?_, ?_, ?_⟩
  · intro hx
    exact Span.honours_ofPositiveSeconds? hx (isSeconds_of_checkSeconds hcooldown)
  · intro a ha hx
    exact Span.honours_ofPositiveSeconds? hx (checkDelays_eq_ok_iff.mp hdelays a ha)
  · intro ht
    obtain ⟨plan, hplan⟩ := Option.isSome_iff_exists.mp (timerPlan?_isSome_of_validate h ht)
    obtain ⟨x, hx, hpos, hspan⟩ := honours_of_timerPlan? hplan
    exact ⟨x, plan, hx, hpos, hplan, hspan⟩

def timed (event : EventKind) (cooldown delay : Float) (interval : Option Float) : Rule where
  id := "gong"
  event := event
  conditions := []
  actions := [⟨"send_message", .empty, delay⟩]
  cooldown := cooldown
  maxFires := -1
  enabled := true
  permanent := false
  commandPattern := none
  timerInterval := interval
  timerInitialDelay := 0

theorem durations_of_validate_gong :
    let r := timed .timer 0.5 5 (some 60)
    Span.Honours r.cooldown r.cooldownSpan? ∧ (∀ a ∈ r.actions, Span.Honours a.delay a.wait?) ∧
      (∃ x plan, r.timerInterval = some x ∧ 0 < x ∧ r.timerPlan? = some plan ∧
        Span.Honours x (some plan.interval)) ∧
      r.cooldownSpan? = some 500000000 ∧ r.actions.map (·.wait?) = [some 5000000000] ∧
      r.timerPlan? = some ⟨0, 60000000000⟩ := by
  intro r
  have hr : r.validate.isOk = true := by decide +kernel
  have hvalid : r.validate = .ok () := by
    cases h : r.validate with
    | ok u => rfl
    | error f => rw [h] at hr; cases hr
  obtain ⟨hcooldown, hdelays, htimer⟩ := durations_of_validate hvalid
  have hcool : 0 < r.cooldown := by decide +kernel
  have hdelay : ∀ a ∈ r.actions, 0 < a.delay := by decide +kernel
  exact ⟨hcooldown hcool, fun a ha => hdelays a ha (hdelay a ha), htimer rfl, by decide +kernel⟩

theorem durations_lost :
    let faint := timed .timer 1e-10 1e-10 (some 1e-10)
    let vast := timed .enter 1e17 1e17 none
    (faint.validate.isOk = true ∧ (0 : Float) < 1e-10 ∧ faint.cooldownSpan? = some 0 ∧
      faint.actions.map (·.wait?) = [some 0] ∧ faint.timerPlan? = some ⟨0, 0⟩) ∧
      vast.validate.isOk = true ∧ (0 : Float) < 1e17 ∧ vast.cooldownSpan? = none ∧
      vast.actions.map (·.wait?) = [none] := by
  decide +kernel

end Rule

end WorldTriggers
