import WorldTriggers.Condition.Comparison
import WorldTriggers.Proofs.Seconds

namespace WorldTriggers

namespace Decimal

open Float.Model UnpackedFloat

structure Binary.Canonical (b : Binary) : Prop where
  bits : b.significand < 2 ^ 53
  leading : 2 ^ 52 ≤ b.significand ∨ b.exponent = -1074
  least : -1074 ≤ b.exponent

section Reading

theorem Binary.canonical_of_ofFloat? {x : Float} {b : Binary} (h : ofFloat? x = some b) : b.Canonical := by
  have hfraction : x.toBits.toNat % 1 <<< 52 < 2 ^ 52 := Nat.mod_lt _ (by decide)
  unfold ofFloat? at h
  dsimp only at h
  split at h
  · cases h
  split at h
  · cases h
    exact ⟨by dsimp only; omega, .inr rfl, le_rfl⟩
  · cases h
    exact ⟨by dsimp only; omega, .inl (by dsimp only; omega), by dsimp only; omega⟩

theorem sign_inj {s s' : Sign} (h : (s == .negative) = (s' == .negative)) : s = s' := by
  cases s <;> cases s' <;> first | rfl | cases h

theorem Binary.ofUnpacked?_eq_some {u : UnpackedFloat} {b : Binary} (h : ofUnpacked? u = some b) :
    (∃ s, u = .zero s ∧ b = ⟨s == .negative, 0, -1074⟩) ∨
      ∃ s m e hm, u = .finite s m e hm ∧ b = ⟨s == .negative, m, e⟩ := by
  cases u with
  | infinity s => cases h
  | notANumber => cases h
  | zero s =>
    cases h
    exact .inl ⟨s, rfl, rfl⟩
  | finite s m e hm =>
    cases h
    exact .inr ⟨s, m, e, hm, rfl, rfl⟩

theorem Binary.ofUnpacked?_inj {u u' : UnpackedFloat} {b : Binary} (h : ofUnpacked? u = some b)
    (h' : ofUnpacked? u' = some b) : u = u' := by
  rcases ofUnpacked?_eq_some h with ⟨s, rfl, rfl⟩ | ⟨s, m, e, hm, rfl, rfl⟩ <;>
    rcases ofUnpacked?_eq_some h' with ⟨s', rfl, hb⟩ | ⟨s', m', e', hm', rfl, hb⟩ <;>
    obtain ⟨hs, hm, he⟩ := Binary.mk.inj hb <;> obtain rfl := sign_inj hs
  · rfl
  · omega
  · omega
  · subst hm he
    rfl

theorem Binary.ofFloat?_inj {x y : Float} {b : Binary} (hx : ofFloat? x = some b)
    (hy : ofFloat? y = some b) : x = y := by
  rw [ofFloat?_eq] at hx hy
  have hbits := (unpack_inj_of_valid x.toModel.valid y.toModel.valid).mp (ofUnpacked?_inj hx hy)
  exact Float.toBits_inj.mp (UInt64.toBitVec_inj.mp hbits)

end Reading

section Values

variable {b c : Binary}

theorem Binary.Canonical.eq_of_le (hb : b.Canonical) (hc : c.Canonical) (hle : b.exponent ≤ c.exponent)
    (h : (b.significand : ℚ) * 2 ^ b.exponent = c.significand * 2 ^ c.exponent) :
    b.significand = c.significand ∧ b.exponent = c.exponent := by
  obtain ⟨d, hd⟩ := Int.le.dest hle
  rw [← hd, zpow_add₀ (by norm_num), zpow_natCast, mul_comm (2 ^ b.exponent), ← mul_assoc] at h
  have hs : b.significand = c.significand * 2 ^ d := by
    exact_mod_cast mul_right_cancel₀ (by positivity) h
  cases d with
  | zero => exact ⟨by simpa using hs, by simpa using hd⟩
  | succ d =>
    -- The larger exponent is not the smallest one, so that its significand has all 53 bits.
    have hfull : 2 ^ 52 ≤ c.significand := hc.leading.resolve_right (by have := hb.least; omega)
    have hbits := hb.bits
    have := Nat.one_le_two_pow (n := d)
    rw [hs, pow_succ] at hbits
    nlinarith

theorem Binary.Canonical.unique (hb : b.Canonical) (hc : c.Canonical)
    (h : (b.significand : ℚ) * 2 ^ b.exponent = c.significand * 2 ^ c.exponent) :
    b.significand = c.significand ∧ b.exponent = c.exponent := by
  rcases le_total b.exponent c.exponent with hle | hle
  · exact hb.eq_of_le hc hle h
  · obtain ⟨hs, he⟩ := hc.eq_of_le hb hle h.symm
    exact ⟨hs.symm, he.symm⟩

theorem Binary.value_eq_zero_iff : b.value = 0 ↔ b.significand = 0 := by
  unfold value
  split <;> simp [zpow_ne_zero]

theorem Binary.Canonical.eq_of_value (hb : b.Canonical) (hc : c.Canonical) (hpos : 0 < b.significand)
    (h : b.value = c.value) : b = c := by
  have hpos' : 0 < c.significand := by
    rw [Nat.pos_iff_ne_zero, Ne, ← value_eq_zero_iff, ← h, value_eq_zero_iff]
    omega
  have hmag : (0 : ℚ) < b.significand * 2 ^ b.exponent := by positivity
  have hmag' : (0 : ℚ) < c.significand * 2 ^ c.exponent := by positivity
  have hunique := hb.unique hc
  obtain ⟨s, m, e⟩ := b
  obtain ⟨s', m', e'⟩ := c
  simp only [value] at h hmag hmag' hunique
  cases s <;> cases s' <;> simp at h
  · obtain ⟨rfl, rfl⟩ := hunique h
    rfl
  · linarith
  · linarith
  · obtain ⟨rfl, rfl⟩ := hunique h
    rfl

theorem eq_zero_of_value {x : Float} (hb : Binary.ofFloat? x = some b) (h : b.value = 0) :
    x = 0 ∨ x = -0 := by
  have hcanon := Binary.canonical_of_ofFloat? hb
  rw [Binary.value_eq_zero_iff] at h
  have he := hcanon.leading.resolve_left (by omega)
  obtain ⟨s, m, e⟩ := b
  cases h
  cases he
  cases s with
  | false => exact .inl (Binary.ofFloat?_inj hb rfl)
  | true => exact .inr (Binary.ofFloat?_inj hb rfl)

theorem beq_iff_value {x y : Float} (hb : Binary.ofFloat? x = some b) (hc : Binary.ofFloat? y = some c) :
    (x == y) = true ↔ b.value = c.value := by
  have hzero : Binary.ofFloat? 0 = some ⟨false, 0, -1074⟩ := rfl
  have hzero' : Binary.ofFloat? (-0) = some ⟨true, 0, -1074⟩ := rfl
  have hnan : Binary.ofFloat? Float.nan = none := rfl
  constructor
  · intro h
    obtain ⟨-, -, rfl | ⟨rfl, rfl⟩ | ⟨rfl, rfl⟩⟩ := Float.beq_iff_ne_nan_and_eq.mp h
    · rw [Option.some.inj (hb.symm.trans hc)]
    · cases hzero.symm.trans hb
      cases hzero'.symm.trans hc
      simp [Binary.value]
    · cases hzero'.symm.trans hb
      cases hzero.symm.trans hc
      simp [Binary.value]
  · intro h
    rw [Float.beq_iff_ne_nan_and_eq]
    refine ⟨fun hx => ?_, fun hy => ?_, ?_⟩
    · rw [hx, hnan] at hb
      cases hb
    · rw [hy, hnan] at hc
      cases hc
    by_cases hv : b.value = 0
    · have hx := eq_zero_of_value hb hv
      have hy := eq_zero_of_value hc (h ▸ hv)
      rcases hx with hx | hx <;> rcases hy with hy | hy <;> simp [hx, hy]
    · rw [Binary.value_eq_zero_iff] at hv
      have hb' := Binary.canonical_of_ofFloat? hb
      obtain rfl := hb'.eq_of_value (Binary.canonical_of_ofFloat? hc) (by omega) h
      exact .inl (Binary.ofFloat?_inj hb hc)

end Values

end Decimal

theorem Comparison.holds_eq (x y : Float) : Comparison.eq.holds x y = (x == y) := by
  unfold holds order?
  by_cases hlt : x < y
  · have hne : (x == y) = false := by
      have hcompare : x.toModel.unpack.lt y.toModel.unpack = true := of_decide_eq_true hlt
      replace hcompare : x.toModel.unpack.compare y.toModel.unpack = some .lt := eq_of_beq hcompare
      change (x.toModel.unpack.compare y.toModel.unpack == some .eq) = false
      rw [hcompare]
      rfl
    rw [if_pos hlt, hne]
    rfl
  · rw [if_neg hlt]
    cases hxy : x == y with
    | true => rfl
    | false =>
      by_cases hgt : y < x
      · rw [if_neg (by decide), if_pos hgt]
        rfl
      · rw [if_neg (by decide), if_neg hgt]

end WorldTriggers
