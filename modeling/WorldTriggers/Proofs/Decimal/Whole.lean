import WorldTriggers.Proofs.Seconds

namespace WorldTriggers.Decimal

open Float.Model UnpackedFloat

section Shifting

/-- The number that a significand stands for, as far as its two further bits tell: the first one lost in a
shift, and whether any other was set. -/
def StandsFor (x : ExtendedMantissa) (q : ℚ) : Prop :=
  match x.roundBit, x.stickyBit with
  | false, false => q = x.mantissa
  | false, true => x.mantissa < q ∧ q < x.mantissa + 1 / 2
  | true, false => q = x.mantissa + 1 / 2
  | true, true => x.mantissa + 1 / 2 < q ∧ q < x.mantissa + 1

variable {x : ExtendedMantissa} {q : ℚ}

theorem StandsFor.shiftRightOne (h : StandsFor x q) : StandsFor x.shiftRightOne (q / 2) := by
  obtain ⟨m, r, s⟩ := x
  have hm : (m : ℚ) = 2 * (m / 2 : ℕ) + (m % 2 : ℕ) := by exact_mod_cast (Nat.div_add_mod m 2).symm
  generalize hhalf : m / 2 = half at hm
  rcases Nat.mod_two_eq_zero_or_one m with hbit | hbit <;>
    rw [hbit] at hm <;> cases r <;> cases s <;>
    simp [StandsFor, ExtendedMantissa.shiftRightOne, hbit, hm, hhalf] at h ⊢
  all_goals (first | linarith | (constructor <;> linarith))

theorem StandsFor.shiftRight (h : StandsFor x q) (k : Nat) : StandsFor (x >>> k) (q / 2 ^ k) := by
  change StandsFor (k.repeat ExtendedMantissa.shiftRightOne x) _
  induction k with
  | zero => simpa [Nat.repeat] using h
  | succ k ih =>
    rw [pow_succ, ← div_div]
    exact ih.shiftRightOne

theorem rounds_of_abs_lt {n : ℤ} (h : |(n : ℚ) - q| < 1 / 2) : Rounds q n :=
  ⟨h.le, fun heq => absurd heq h.ne⟩

theorem rounds_half (m : Nat) : Rounds ((m : ℚ) + 1 / 2) ((m + m % 2 : ℕ) : ℤ) := by
  refine ⟨?_, fun _ => ?_⟩
  · rcases Nat.mod_two_eq_zero_or_one m with h | h <;> rw [h, abs_le] <;> push_cast <;>
      constructor <;> linarith
  · exact_mod_cast Nat.even_iff.mpr (by omega : (m + m % 2) % 2 = 0)

theorem StandsFor.rounds (h : StandsFor x q) : Rounds q x.roundedMantissa := by
  obtain ⟨m, r, s⟩ := x
  cases r <;> cases s
  · obtain rfl : q = m := h
    exact rounds_of_abs_lt (by simp [ExtendedMantissa.roundedMantissa, ExtendedMantissa.accuracy,
      Accuracy.roundToNearestEven])
  · obtain ⟨hlow, hhigh⟩ : m < q ∧ q < m + 1 / 2 := h
    apply rounds_of_abs_lt
    change |((m : ℤ) : ℚ) - q| < 1 / 2
    rw [abs_lt, Int.cast_natCast]
    constructor <;> linarith
  · obtain rfl : q = m + 1 / 2 := h
    exact rounds_half m
  · obtain ⟨hlow, hhigh⟩ : m + 1 / 2 < q ∧ q < m + 1 := h
    apply rounds_of_abs_lt
    change |(((m + 1 : ℕ) : ℤ) : ℚ) - q| < 1 / 2
    rw [abs_lt]
    push_cast
    constructor <;> linarith

end Shifting

section Packing

theorem log2_of_full {m : Nat} (hlow : 2 ^ 52 ≤ m) (hhigh : m < 2 ^ 53) : m.log2 = 52 :=
  (Nat.log2_eq_iff (by omega)).mpr ⟨hlow, hhigh⟩

theorem unpack_pack {s : Sign} {m : Nat} {e : Int} {hm : 0 < m} (hlow : 2 ^ 52 ≤ m) (hhigh : m < 2 ^ 53)
    (he : -1074 ≤ e) (he' : e ≤ 971) :
    (Float.Model.pack (.finite s m e hm)).unpack = .finite s m e hm := by
  have hlog := log2_of_full hlow hhigh
  let field : BitVec 11 := BitVec.ofNat 11 (e + 1023 + 52).toNat
  have hfield : field.toNat = (e + 1075).toNat := by
    rw [BitVec.toNat_ofNat]
    omega
  have hones : field ≠ -1#11 := by
    rw [Ne, ← BitVec.toNat_inj, hfield]
    change ¬(e + 1075).toNat = 2047
    omega
  have hzeros : field ≠ 0#11 := by
    rw [Ne, ← BitVec.toNat_inj, hfield]
    change ¬(e + 1075).toNat = 0
    omega
  have hpack : UnpackedFloat.pack .binary64 (.finite s m e hm) =
      packComponents .binary64 s field (BitVec.ofNat 52 m) := by
    unfold UnpackedFloat.pack
    dsimp only
    rw [if_neg, if_pos (by rw [hlog]; rfl)]
    · rfl
    · change ¬2048 ≤ (e + 1023 + 52).toNat + 1
      omega
  change UnpackedFloat.unpack .binary64 (UnpackedFloat.pack .binary64 (.finite s m e hm)) = _
  rw [hpack, UnpackedFloat.unpack]
  simp only [unpackExponent_packComponents, unpackMantissa_packComponents, unpackSign_packComponents,
    Sign.ofBitVec_toBitVec]
  rw [if_neg hones, if_neg hzeros, finite.injEq]
  refine ⟨rfl, ?_, ?_⟩
  · rw [BitVec.toNat_append, ← Nat.shiftLeft_add_eq_or_of_lt (BitVec.isLt _), BitVec.toNat_ofNat]
    change 2 ^ 52 + m % 2 ^ 52 = m
    omega
  · rw [hfield]
    change ((e + 1075).toNat : ℤ) - 1075 = e
    omega

def IsNormal (s : Sign) (q : ℚ) (u : UnpackedFloat) : Prop :=
  ∃ m e h, u = .finite s m e h ∧ 2 ^ 52 ≤ m ∧ m < 2 ^ 53 ∧ -1074 ≤ e ∧ e ≤ 971 ∧
    (m : ℚ) * 2 ^ e = q

theorem IsNormal.unpack_pack {s : Sign} {q : ℚ} {u : UnpackedFloat} (h : IsNormal s q u) :
    (Float.Model.pack u).unpack = u := by
  obtain ⟨m, e, hm, rfl, hlow, hhigh, he, he', -⟩ := h
  exact Decimal.unpack_pack hlow hhigh he he'

theorem IsNormal.neg {q : ℚ} {u : UnpackedFloat} (h : IsNormal .positive q u) :
    IsNormal .negative q u.neg := by
  obtain ⟨m, e, hm, rfl, h⟩ := h
  exact ⟨m, e, hm, rfl, h⟩

theorem IsNormal.value {s : Sign} {q : ℚ} {u : UnpackedFloat} (h : IsNormal s q u) :
    ∃ b, Binary.ofUnpacked? u = some b ∧ b.value = (if s == .negative then -1 else 1) * q := by
  obtain ⟨m, e, hm, rfl, -, -, -, -, rfl⟩ := h
  refine ⟨_, rfl, ?_⟩
  rw [Binary.value, mul_assoc]

end Packing

section Rounding

theorem shiftToTargetExponent_eq {m k : Nat} {e : Int} (hm : m.log2 = 52 + k) (he : -1074 ≤ e + k) :
    shiftToTargetExponent .binary64 m e .exact = (ExtendedMantissa.mk m false false >>> k, e + k) := by
  have htarget : Format.binary64.targetExponent (totalExponent m e) = e + k := by
    unfold Format.targetExponent totalExponent
    rw [hm]
    change max (((52 + k : ℕ) : ℤ) + 1 + e - 53) (-1074) = e + k
    omega
  unfold shiftToTargetExponent
  rw [htarget, shiftToExponent, (by omega : (e + k - e).toNat = k)]
  rfl

theorem two_pow_le_div {m k : Nat} (hm : m.log2 = 52 + k) :
    (2 : ℚ) ^ 52 ≤ m / 2 ^ k ∧ (m : ℚ) / 2 ^ k < 2 ^ 53 := by
  have hne : m ≠ 0 := by
    rintro rfl
    simp at hm
    omega
  obtain ⟨hlow, hhigh⟩ := (Nat.log2_eq_iff hne).mp hm
  rw [le_div_iff₀ (by positivity), div_lt_iff₀ (by positivity), ← pow_add, ← pow_add]
  exact ⟨by exact_mod_cast hlow, by rw [(by omega : 53 + k = 52 + k + 1)]; exact_mod_cast hhigh⟩

theorem shiftToTargetExponent_again {m : Nat} {e : Int} (hlow : 2 ^ 52 ≤ m) (hhigh : m ≤ 2 ^ 53)
    (he : -1074 ≤ e) (he' : e ≤ 970) : ∃ x e', shiftToTargetExponent .binary64 m e .exact = (x, e') ∧
      2 ^ 52 ≤ x.mantissa ∧ x.mantissa < 2 ^ 53 ∧ -1074 ≤ e' ∧ e' ≤ 971 ∧
      (x.mantissa : ℚ) * 2 ^ e' = m * 2 ^ e := by
  rcases hhigh.lt_or_eq with hlt | rfl
  · have hlog : m.log2 = 52 + 0 := log2_of_full hlow hlt
    refine ⟨⟨m, false, false⟩, e, ?_, hlow, hlt, he, by omega, rfl⟩
    rw [shiftToTargetExponent_eq hlog (by omega), Nat.cast_zero, add_zero]
    rfl
  · have hlog : (2 ^ 53).log2 = 52 + 1 := Nat.log2_two_pow
    refine ⟨_, _, shiftToTargetExponent_eq hlog (by omega), ?_⟩
    change 2 ^ 52 ≤ 2 ^ 53 / 2 ∧ 2 ^ 53 / 2 < 2 ^ 53 ∧ -1074 ≤ e + 1 ∧ e + 1 ≤ 971 ∧
      ((2 ^ 53 / 2 : ℕ) : ℚ) * 2 ^ (e + 1) = (2 ^ 53 : ℕ) * 2 ^ e
    refine ⟨by norm_num, by norm_num, by omega, by omega, ?_⟩
    rw [zpow_add_one₀ (by norm_num)]
    norm_num
    ring

theorem roundWithAccuracy_eq {s : Sign} {m k : Nat} {e : Int} (hm : m.log2 = 52 + k)
    (he : -1074 ≤ e + k) (he' : e + k ≤ 970) :
    ∃ r : Nat, Rounds (m / 2 ^ k) r ∧
      IsNormal s ((r : ℚ) * 2 ^ (e + k)) (roundWithAccuracy .binary64 s m e .exact) := by
  have hstands : StandsFor (ExtendedMantissa.mk m false false >>> k) ((m : ℚ) / 2 ^ k) :=
    StandsFor.shiftRight (x := ⟨m, false, false⟩) (q := m) rfl k
  have hround := hstands.rounds
  unfold roundWithAccuracy
  rw [shiftToTargetExponent_eq hm he]
  dsimp only
  generalize (ExtendedMantissa.mk m false false >>> k).roundedMantissa = r at hround
  refine ⟨r, hround, ?_⟩
  obtain ⟨hlow, hhigh⟩ := two_pow_le_div hm
  obtain ⟨hnear, hnear'⟩ := abs_le.mp hround.near
  rw [Int.cast_natCast] at hnear hnear'
  have hle : 2 ^ 52 < r + 1 := by
    have : ((2 ^ 52 : ℕ) : ℚ) < (r + 1 : ℕ) := by push_cast; linarith
    exact_mod_cast this
  have hge : r < 2 ^ 53 + 1 := by
    have : (r : ℚ) < (2 ^ 53 + 1 : ℕ) := by push_cast; linarith
    exact_mod_cast this
  obtain ⟨x, e', hx, hrest⟩ :=
    shiftToTargetExponent_again (Nat.lt_add_one_iff.mp hle) (Nat.lt_add_one_iff.mp hge) he he'
  rw [hx]
  dsimp only
  rw [dif_neg (by omega)]
  exact ⟨x.mantissa, e', by omega, rfl, hrest⟩

theorem log2_mul_two_pow {n : Nat} (hn : 0 < n) (k : Nat) : (n * 2 ^ k).log2 = n.log2 + k := by
  rw [Nat.log2_eq_iff (by positivity), add_right_comm, pow_add, pow_add]
  exact ⟨Nat.mul_le_mul_right _ (Nat.log2_self_le hn.ne'),
    Nat.mul_lt_mul_of_pos_right Nat.lt_log2_self (by positivity)⟩

theorem normal_of_scaled {s : Sign} {m k : Nat} {e : Int} (hlow : 2 ^ 52 ≤ m) (hhigh : m < 2 ^ 53)
    (he : -1074 ≤ e + k) (he' : e + k ≤ 970) :
    IsNormal s ((m : ℚ) * 2 ^ (e + k)) (roundWithAccuracy .binary64 s (m * 2 ^ k) e .exact) := by
  have hlog : (m * 2 ^ k).log2 = 52 + k := by
    rw [log2_mul_two_pow (by omega), log2_of_full hlow hhigh]
  obtain ⟨r, hround, hnormal⟩ := roundWithAccuracy_eq (s := s) hlog he he'
  rw [Nat.cast_mul, Nat.cast_pow, Nat.cast_ofNat, mul_div_cancel_right₀ _ (by positivity)] at hround
  obtain rfl : r = m := by exact_mod_cast hround.unique (rounds_of_abs_lt (n := (m : ℤ)) (by simp))
  exact hnormal

end Rounding

section Whole

def nearest (n : Nat) : Nat := roundDiv n (2 ^ (n.log2 - 52)) * 2 ^ (n.log2 - 52)

theorem nearest_of_lt {n : Nat} (h : n < 2 ^ 53) : nearest n = n := by
  have hlog : n.log2 - 52 = 0 := by
    rcases Nat.eq_zero_or_pos n with rfl | hpos
    · rfl
    · have := (Nat.log2_lt hpos.ne').mpr h
      omega
  rw [nearest, hlog]
  simp [roundDiv, Nat.mod_one]

theorem normal_ofUInt64 {n : UInt64} (hpos : 0 < n.toNat) (h : n.toNat < 2 ^ 53) :
    IsNormal .positive n.toNat (UnpackedFloat.ofUInt64 .binary64 n) := by
  have hcompare : compare (n.toNat : ℤ) 0 = .gt := Int.compare_eq_gt.mpr (by omega)
  have hlog : n.toNat.log2 < 53 := (Nat.log2_lt hpos.ne').mpr h
  have htarget : Format.binary64.targetExponent (totalExponent n.toNat 0) = n.toNat.log2 - 52 := by
    unfold Format.targetExponent totalExponent
    change max ((n.toNat.log2 : ℤ) + 1 + 0 - 53) (-1074) = n.toNat.log2 - 52
    omega
  have hshift : (0 - ((n.toNat.log2 : ℤ) - 52)).toNat = 52 - n.toNat.log2 := by omega
  have hscaled := log2_mul_two_pow hpos (52 - n.toNat.log2)
  rw [Nat.add_sub_cancel' (by omega), Nat.log2_eq_iff (by positivity)] at hscaled
  have hnormal := normal_of_scaled (s := .positive) (k := 0) (e := 0 - (52 - n.toNat.log2 : ℕ))
    hscaled.1 hscaled.2 (by omega) (by omega)
  simp only [UnpackedFloat.ofUInt64, UnpackedFloat.ofNat, UnpackedFloat.ofInt, UnpackedFloat.normalize,
    hcompare, Int.toNat_natCast, UnpackedFloat.round, htarget, decreaseExponent, hshift, Nat.shiftLeft_eq]
  convert hnormal using 1
  · rw [Nat.cast_mul, Nat.cast_pow, mul_assoc, Nat.cast_ofNat, ← zpow_natCast,
      ← zpow_add₀ (by norm_num)]
    simp
  · rw [pow_zero, mul_one]

theorem toModel_ofNat_of_lt {n : Nat} (h : n < 2 ^ 53) :
    (Float.ofNat n).toModel = Float.Model.pack (UnpackedFloat.mul .binary64
      (Float.Model.pack (UnpackedFloat.ofUInt64 .binary64 n.toUInt64)).unpack
      (.finite .positive (2 ^ 52) (-52) (by norm_num))) := by
  have hone : (Float.ofBits 4607182418800017408).toModel.unpack =
    .finite .positive (2 ^ 52) (-52) (by norm_num) := rfl
  rw [← hone]
  change (Float.ofScientific n false 0).toModel = _
  unfold Float.ofScientific
  rw [dif_pos ⟨h, by omega⟩]
  rfl

theorem toModel_ofNat_of_le {n : Nat} (h : 2 ^ 53 ≤ n) :
    (Float.ofNat n).toModel =
      Float.Model.pack (roundWithAccuracy .binary64 .positive (n * 2 ^ 53) (-53) .exact) := by
  have hunder : ¬(0 : ℤ) < -(2 ^ Format.binary64.exponentBits + n.log2) := by
    change ¬(0 : ℤ) < -(2 ^ 11 + n.log2)
    omega
  change (Float.ofScientific n false 0).toModel = _
  unfold Float.ofScientific
  rw [dif_neg (by omega)]
  change Float.Model.pack (UnpackedFloat.ofScientific .binary64 n 0) = _
  unfold UnpackedFloat.ofScientific
  rw [dif_neg (by omega), if_neg (by decide), if_neg hunder, if_pos le_rfl]
  simp only [UnpackedFloat.mul, Int.toNat_zero, pow_zero, mul_one, add_zero, Nat.shiftLeft_eq]
  rfl

theorem exponent_lt {m n : Nat} {e : Int} (hm : 2 ^ 52 ≤ m) (hn : n < 2 ^ 53)
    (h : (m : ℚ) * 2 ^ e = n) : e < 1 := by
  have hlt : (2 : ℚ) ^ 52 * 2 ^ e < 2 ^ 52 * 2 ^ (1 : ℤ) := by
    calc (2 : ℚ) ^ 52 * 2 ^ e ≤ m * 2 ^ e := by gcongr; exact_mod_cast hm
      _ = n := h
      _ < 2 ^ 52 * 2 ^ (1 : ℤ) := by norm_num; exact_mod_cast hn
  exact (zpow_lt_zpow_iff_right₀ (by norm_num)).mp (lt_of_mul_lt_mul_left hlt (by positivity))

theorem normal_ofNat_of_lt {n : Nat} (hpos : 0 < n) (h : n < 2 ^ 53) :
    IsNormal .positive n (Float.ofNat n).toModel.unpack := by
  have hn : n.toUInt64.toNat = n := Nat.mod_eq_of_lt (by omega)
  have hexact := normal_ofUInt64 (n := n.toUInt64) (by omega) (by omega)
  rw [toModel_ofNat_of_lt h, hexact.unpack_pack]
  obtain ⟨m, e, hm, hu, hlow, hhigh, he, -, hq⟩ := hexact
  rw [hn] at hq
  have hsmall := exponent_lt hlow h hq
  have hnormal := normal_of_scaled (s := .positive) (k := 52) (e := e + -52) hlow hhigh (by omega)
    (by omega)
  rw [Nat.cast_ofNat, neg_add_cancel_right, hq] at hnormal
  rw [hu]
  change IsNormal _ _ (Float.Model.pack
    (roundWithAccuracy .binary64 .positive (m * 2 ^ 52) (e + -52) .exact)).unpack
  rw [hnormal.unpack_pack]
  exact hnormal

theorem normal_ofNat_of_le {n : Nat} (hlow : 2 ^ 53 ≤ n) (hhigh : n ≤ 2 ^ 64) :
    IsNormal .positive (nearest n) (Float.ofNat n).toModel.unpack := by
  have hpos : 0 < n := by omega
  have hlog : 53 ≤ n.log2 := (Nat.le_log2 hpos.ne').mpr hlow
  have hlog' : n.log2 < 65 := (Nat.log2_lt hpos.ne').mpr (by omega)
  obtain ⟨r, hround, hnormal⟩ := roundWithAccuracy_eq (s := .positive) (m := n * 2 ^ 53)
    (k := n.log2 + 1) (e := -53) (by rw [log2_mul_two_pow hpos]; omega) (by omega) (by omega)
  rw [toModel_ofNat_of_le hlow, hnormal.unpack_pack]
  have hunit : 2 ^ (n.log2 + 1) = 2 ^ (n.log2 - 52) * (2 : ℚ) ^ 53 := by
    rw [← pow_add]
    congr 1
    omega
  rw [Nat.cast_mul, Nat.cast_pow, Nat.cast_ofNat, hunit, mul_div_mul_right _ _ (by norm_num)] at hround
  have hr : r = roundDiv n (2 ^ (n.log2 - 52)) := by
    have hdiv := @rounds_roundDiv n (2 ^ (n.log2 - 52)) (by positivity)
    rw [Nat.cast_pow, Nat.cast_ofNat] at hdiv
    exact_mod_cast hround.unique hdiv
  convert hnormal using 1
  rw [nearest, hr, Nat.cast_mul, Nat.cast_pow, Nat.cast_ofNat, ← zpow_natCast]
  congr 2
  omega

theorem normal_ofNat {n : Nat} (hpos : 0 < n) (h : n ≤ 2 ^ 64) :
    IsNormal .positive (nearest n) (Float.ofNat n).toModel.unpack := by
  by_cases hlt : n < 2 ^ 53
  · rw [nearest_of_lt hlt]
    exact normal_ofNat_of_lt hpos hlt
  · exact normal_ofNat_of_le (by omega) h

def nearestInt : Int → Int
  | .ofNat n => nearest n
  | .negSucc n => -nearest (n + 1)

theorem value_ofInt {n : Int} (h : n.natAbs ≤ 2 ^ 64) :
    ∃ b, Binary.ofFloat? (Float.ofInt n) = some b ∧ b.value = nearestInt n := by
  cases n with
  | ofNat n =>
    rcases Nat.eq_zero_or_pos n with rfl | hpos
    · exact ⟨⟨false, 0, -1074⟩, rfl, by simp [Binary.value, nearestInt, nearest, roundDiv]⟩
    · obtain ⟨b, hb, hvalue⟩ := (normal_ofNat hpos h).value
      refine ⟨b, (Binary.ofFloat?_eq _).trans hb, ?_⟩
      rw [hvalue, if_neg (by decide), one_mul, nearestInt, Int.cast_natCast]
  | negSucc n =>
    have hneg := (normal_ofNat n.succ_pos h).neg
    have hfloat : (Float.ofInt (.negSucc n)).toModel =
      Float.Model.pack (Float.ofNat (n + 1)).toModel.unpack.neg := rfl
    obtain ⟨b, hb, hvalue⟩ := hneg.value
    refine ⟨b, ?_, ?_⟩
    · rw [Binary.ofFloat?_eq, hfloat, hneg.unpack_pack, hb]
    · rw [hvalue, if_pos (by decide), neg_one_mul, nearestInt, Int.cast_neg, Int.cast_natCast]

theorem roundDiv_mul {num den : Nat} (hden : 0 < den) : roundDiv (num * den) den = num := by
  simp [roundDiv, hden]

theorem nearest_eq_self {n m : Nat} {e : Int} (hm : m < 2 ^ 53) (h : (n : ℚ) = m * 2 ^ e) :
    nearest n = n := by
  by_cases hlt : n < 2 ^ 53
  · exact nearest_of_lt hlt
  have hpos : 0 < n := by omega
  have hlog : 53 ≤ n.log2 := (Nat.le_log2 hpos.ne').mpr (by omega)
  obtain ⟨d, hd⟩ : ∃ d : Nat, e = (n.log2 - 52 : ℕ) + d := by
    have hlt : (2 : ℚ) ^ (n.log2 : ℤ) < 2 ^ (53 + e) := by
      calc (2 : ℚ) ^ (n.log2 : ℤ) ≤ n := by rw [zpow_natCast]; exact_mod_cast Nat.log2_self_le hpos.ne'
        _ = m * 2 ^ e := h
        _ < 2 ^ 53 * 2 ^ e := by gcongr; exact_mod_cast hm
        _ = 2 ^ (53 + e) := by rw [zpow_add₀ (by norm_num)]; norm_num
    have := (zpow_lt_zpow_iff_right₀ (by norm_num)).mp hlt
    exact ⟨(e - (n.log2 - 52 : ℕ)).toNat, by omega⟩
  have hn : n = m * 2 ^ d * 2 ^ (n.log2 - 52) := by
    rw [hd, zpow_add₀ (by norm_num), zpow_natCast, zpow_natCast, mul_comm (2 ^ _ : ℚ), ← mul_assoc] at h
    exact_mod_cast h
  have hunit : 0 < 2 ^ (n.log2 - 52) := by positivity
  rw [nearest]
  generalize 2 ^ (n.log2 - 52) = unit at hn hunit
  rw [hn, roundDiv_mul hunit]

end Whole

end WorldTriggers.Decimal
