import WorldTriggers.Condition.Builtin
import WorldTriggers.Proofs.Decimal.Exact
import WorldTriggers.Proofs.Decimal.Whole

namespace WorldTriggers

open Decimal

namespace Json

section Values

mutual

def isProper : Json → Bool
  | .int n => minInt ≤ n && n ≤ maxInt
  | .float x => x.isFinite
  | .array items => properItems items
  | .object fields => properFields fields
  | _ => true

def properItems : List Json → Bool
  | [] => true
  | v :: rest => isProper v && properItems rest

def properFields : List (String × Json) → Bool
  | [] => true
  | (_, v) :: rest => isProper v && properFields rest

end

mutual

def unsigned : Json → Json
  | .float x => .float (if x == 0 then 0 else x)
  | .array items => .array (unsignedItems items)
  | .object fields => .object (unsignedFields fields)
  | v => v

def unsignedItems : List Json → List Json
  | [] => []
  | v :: rest => unsigned v :: unsignedItems rest

def unsignedFields : List (String × Json) → List (String × Json)
  | [] => []
  | (key, v) :: rest => (key, unsigned v) :: unsignedFields rest

end

end Values

section Structure

theorem beq_iff_unsigned {x y : Float} (hx : x.isFinite = true) (hy : y.isFinite = true) :
    (x == y) = true ↔ (if x == 0 then 0 else x) = if y == 0 then 0 else y := by
  obtain ⟨b, hb⟩ := Binary.isSome_of_isFinite hx
  obtain ⟨c, hc⟩ := Binary.isSome_of_isFinite hy
  have hzero : Binary.ofFloat? 0 = some ⟨false, 0, -1074⟩ := rfl
  constructor
  · intro h
    obtain ⟨-, -, rfl | ⟨rfl, rfl⟩ | ⟨rfl, rfl⟩⟩ := Float.beq_iff_ne_nan_and_eq.mp h <;> rfl
  · intro h
    rw [beq_iff_value hb hc]
    by_cases hx0 : (x == 0) = true <;> by_cases hy0 : (y == 0) = true
    · rw [(beq_iff_value hb hzero).mp hx0, (beq_iff_value hc hzero).mp hy0]
    · rw [if_pos hx0, if_neg hy0] at h
      subst y
      exact absurd rfl hy0
    · rw [if_neg hx0, if_pos hy0] at h
      subst x
      exact absurd rfl hx0
    · rw [if_neg hx0, if_neg hy0] at h
      subst y
      rw [Option.some.inj (hb.symm.trans hc)]

mutual

theorem same_iff {v u : Json} (hv : v.isProper = true) (hu : u.isProper = true) :
    v.same u = true ↔ v.unsigned = u.unsigned := by
  cases v <;> cases u <;> simp [same, unsigned]
  · simp [isProper] at hv hu
    exact beq_iff_unsigned hv hu
  · simp [isProper] at hv hu
    exact sameItems_iff hv hu
  · simp [isProper] at hv hu
    exact sameFields_iff hv hu

theorem sameItems_iff {vs us : List Json} (hv : properItems vs = true) (hu : properItems us = true) :
    sameItems vs us = true ↔ unsignedItems vs = unsignedItems us := by
  cases vs <;> cases us <;> simp [sameItems, unsignedItems]
  simp [properItems] at hv hu
  rw [same_iff hv.1 hu.1, sameItems_iff hv.2 hu.2]

theorem sameFields_iff {vs us : List (String × Json)} (hv : properFields vs = true)
    (hu : properFields us = true) :
    sameFields vs us = true ↔ unsignedFields vs = unsignedFields us := by
  cases vs <;> cases us <;> simp [sameFields, unsignedFields]
  simp [properFields] at hv hu
  rw [same_iff hv.1 hu.1, sameFields_iff hv.2 hu.2]

end

end Structure

section Numbers

def value? : Json → Option ℚ
  | .int n => some n
  | .float x => (Binary.ofFloat? x).map Binary.value
  | _ => none

def rounded? : Json → Option ℚ
  | .int n => some (nearestInt n)
  | v => v.value?

/-- Two values are the same: one number, whether written whole or not, or otherwise the same piece by piece. -/
def Agree (v u : Json) : Prop :=
  match v.value?, u.value? with
  | some a, some b => a = b
  | _, _ => v.unsigned = u.unsigned

/-- Two different numbers become one floating point number. -/
def RoundTogether (v u : Json) : Prop := v.value? ≠ u.value? ∧ ∃ q, v.rounded? = some q ∧ u.rounded? = some q

theorem natAbs_le_of_isProper {n : Int} (h : (Json.int n).isProper = true) : n.natAbs ≤ 2 ^ 64 := by
  obtain ⟨hlow, hhigh⟩ : minInt ≤ n ∧ n ≤ maxInt := by simpa [isProper] using h
  have hmin : minInt = -2 ^ 63 := rfl
  have hmax : maxInt = 2 ^ 64 - 1 := rfl
  omega

theorem rounded?_of_number? {v : Json} (hv : v.isProper = true) {x : Float} (hx : v.number? = some x) :
    ∃ b, Binary.ofFloat? x = some b ∧ v.rounded? = some b.value := by
  cases v with
  | int n =>
    cases hx
    obtain ⟨b, hb, hvalue⟩ := value_ofInt (natAbs_le_of_isProper hv)
    exact ⟨b, hb, by rw [rounded?, hvalue]⟩
  | float y =>
    cases hx
    obtain ⟨b, hb⟩ := Binary.isSome_of_isFinite hv
    exact ⟨b, hb, by simp [rounded?, value?, hb]⟩
  | _ => cases hx

theorem value?_of_number? {v : Json} (h : v.number? = none) : v.value? = none := by
  cases v <;> first | rfl | cases h

theorem value?_eq_some {v : Json} (hv : v.isProper = true) {x : Float} (hx : v.number? = some x) :
    ∃ q, v.value? = some q := by
  cases v with
  | int n => exact ⟨n, rfl⟩
  | float y =>
    obtain ⟨b, hb⟩ := Binary.isSome_of_isFinite hv
    exact ⟨b.value, by rw [value?, hb, Option.map_some]⟩
  | _ => cases hx

theorem rounded?_eq_none {v : Json} (h : v.number? = none) : v.rounded? = none := by
  cases v <;> first | rfl | cases h

theorem nearestInt_eq_self {n : Int} {m : Nat} {e : Int} (hm : m < 2 ^ 53)
    (h : (n.natAbs : ℚ) = m * 2 ^ e) : nearestInt n = n := by
  have hself := nearest_eq_self hm h
  cases n with
  | ofNat n => exact congrArg Int.ofNat hself
  | negSucc n => exact congrArg (fun m : Nat => -(m : ℤ)) hself

theorem nearestInt_of_value {n : Int} {b : Binary} (hb : b.Canonical) (h : b.value = n) :
    nearestInt n = n := by
  apply nearestInt_eq_self hb.bits (e := b.exponent)
  have habs : |b.value| = b.significand * 2 ^ b.exponent := by
    rw [Binary.value, mul_assoc, abs_mul, abs_of_nonneg (by positivity : (0 : ℚ) ≤ _ * _)]
    split <;> simp
  rw [← habs, h, ← Int.cast_abs, Int.abs_eq_natAbs, Int.cast_natCast]

theorem rounded?_of_value? {v u : Json} {q : ℚ} (hv : v.value? = some q) (hu : u.value? = some q) :
    v.rounded? = u.rounded? := by
  have hfloat (n : ℤ) (x : Float) (hn : (n : ℚ) = q) (hx : (Json.float x).value? = some q) :
      (Json.int n).rounded? = (Json.float x).rounded? := by
    obtain ⟨b, hb, hvalue⟩ := Option.map_eq_some_iff.mp hx
    have hself := nearestInt_of_value (Binary.canonical_of_ofFloat? hb) (hvalue.trans hn.symm)
    rw [rounded?, hself, hn]
    exact hx.symm
  cases v with
  | int n =>
    have hn : (n : ℚ) = q := Option.some.inj hv
    cases u with
    | int m => rw [rounded?, rounded?, (by exact_mod_cast hn.trans (Option.some.inj hu).symm : n = m)]
    | float x => exact hfloat n x hn hu
    | _ => cases hu
  | float x =>
    cases u with
    | int m => exact (hfloat m x (Option.some.inj hu) hv).symm
    | float y => exact hv.trans hu.symm
    | _ => cases hu
  | _ => cases hv

theorem rounded?_eq_value? {v : Json} (h : ∀ n, v = .int n → n.natAbs ≤ 2 ^ 53) :
    v.rounded? = v.value? := by
  cases v with
  | int n =>
    rw [rounded?, value?]
    rcases (h n rfl).lt_or_eq with hlt | heq
    · rw [nearestInt_eq_self hlt (e := 0) (by simp)]
    · rw [nearestInt_eq_self (m := 1) (e := 53) (by norm_num) (by rw [heq]; norm_num)]
  | _ => rfl

theorem RoundTogether.beyond {v u : Json} (h : RoundTogether v u) :
    ∃ n, (v = .int n ∨ u = .int n) ∧ 2 ^ 53 < n.natAbs := by
  by_contra hnone
  push Not at hnone
  obtain ⟨hne, q, hv, hu⟩ := h
  rw [rounded?_eq_value? fun n hn => hnone n (.inl hn)] at hv
  rw [rounded?_eq_value? fun n hn => hnone n (.inr hn)] at hu
  exact hne (hv.trans hu.symm)

theorem unsigned_ne_of_number? {v u : Json} {x : Float} (hv : v.number? = some x)
    (hu : u.number? = none) : v.unsigned ≠ u.unsigned := by
  cases v <;> cases u <;> simp_all [number?, unsigned]

theorem agree_iff_of_number? {v u : Json} (h : v.number? = none ∨ u.number? = none) :
    Agree v u ↔ v.unsigned = u.unsigned := by
  unfold Agree
  rcases h with h | h
  · rw [value?_of_number? h]
  · rw [value?_of_number? h]
    cases v.value? <;> rfl

theorem not_roundTogether_of_number? {v u : Json} (h : v.number? = none ∨ u.number? = none) :
    ¬RoundTogether v u := by
  rintro ⟨-, q, hv, hu⟩
  rcases h with h | h
  · cases (rounded?_eq_none h).symm.trans hv
  · cases (rounded?_eq_none h).symm.trans hu

theorem rounded_eq_iff {v u : Json} {p q a b : ℚ} (hv : v.value? = some p) (hu : u.value? = some q)
    (ha : v.rounded? = some a) (hb : u.rounded? = some b) : a = b ↔ Agree v u ∨ RoundTogether v u := by
  have hagree : Agree v u ↔ p = q := by rw [Agree, hv, hu]
  rw [hagree]
  constructor
  · rintro rfl
    by_cases hpq : p = q
    · exact .inl hpq
    · exact .inr ⟨by rw [hv, hu]; simpa using hpq, a, ha, hb⟩
  · rintro (rfl | ⟨-, r, ha', hb'⟩)
    · exact Option.some.inj (ha.symm.trans ((rounded?_of_value? hv hu).trans hb))
    · exact Option.some.inj ((ha.symm.trans ha').trans (hb'.symm.trans hb))

end Numbers

end Json

section Tests

variable {v u : Json}

theorem flagMatches_iff (hv : v.isProper = true) (hu : u.isProper = true) :
    flagMatches (some u) v = true ↔ Json.Agree v u ∨ Json.RoundTogether v u := by
  dsimp only [flagMatches]
  cases hux : u.number? with
  | none =>
    dsimp only
    rw [Json.same_iff hu hv, Json.agree_iff_of_number? (.inr hux), eq_comm,
      or_iff_left (Json.not_roundTogether_of_number? (.inr hux))]
  | some x =>
    cases hvy : v.number? with
    | none =>
      have hne := Json.unsigned_ne_of_number? hux hvy
      rw [Json.agree_iff_of_number? (.inl hvy), or_iff_left (Json.not_roundTogether_of_number? (.inl hvy))]
      simpa using hne.symm
    | some y =>
      obtain ⟨b, hb, hub⟩ := Json.rounded?_of_number? hu hux
      obtain ⟨c, hc, hvc⟩ := Json.rounded?_of_number? hv hvy
      obtain ⟨p, hp⟩ := Json.value?_eq_some hv hvy
      obtain ⟨q, hq⟩ := Json.value?_eq_some hu hux
      dsimp only
      rw [Comparison.holds_eq, beq_iff_value hb hc, eq_comm, Json.rounded_eq_iff hp hq hvc hub]

theorem flagMatches_none (v : Json) : flagMatches none v = true ↔ v = .bool false ∨ v = .null := by
  cases v with
  | bool b => cases b <;> simp [flagMatches]
  | _ => simp [flagMatches]

end Tests

end WorldTriggers
