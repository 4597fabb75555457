import Mathlib.Data.List.TakeWhile
import Mathlib.Tactic
import WorldTriggers.Time.Timestamp

namespace WorldTriggers.Timestamp

variable {t : Timestamp} {a now c : Int}

def IsTime (t : Timestamp) : Prop := t.nanos < 2000000000

/-- The nanoseconds from the start of 1970 to a timestamp, those of a leap second included. -/
def reading (t : Timestamp) : Int := t.second * 1000000000 + t.nanos

theorem elapsed_eq (h : t.isLeap = false) (now : Int) : t.elapsed now = now - t.reading := by
  unfold elapsed reading Span.second
  simp [h]

theorem sub_reading_le_elapsed (t : Timestamp) (now : Int) : now - t.reading ≤ t.elapsed now := by
  unfold elapsed reading Span.second
  dsimp only
  split <;> omega

theorem reading_ofInstant (a : Int) : (ofInstant a).reading = a := by
  unfold reading ofInstant Span.second
  dsimp only
  omega

theorem add_le_of_le_elapsed_ofInstant (h : c ≤ (ofInstant a).elapsed now) : a + c ≤ now := by
  rw [elapsed_ofInstant] at h
  omega

theorem latest_cases (a b : Timestamp) :
    a.latest b = a ∧ (b.second < a.second ∨ b.second = a.second ∧ b.nanos < a.nanos) ∨
      a.latest b = b ∧ (a.second < b.second ∨ a.second = b.second ∧ a.nanos ≤ b.nanos) := by
  unfold latest
  split
  · rename_i h
    simp only [Bool.or_eq_true, Bool.and_eq_true, decide_eq_true_eq] at h
    exact .inl ⟨rfl, h⟩
  · rename_i h
    simp only [Bool.or_eq_true, Bool.and_eq_true, decide_eq_true_eq, not_or, not_and] at h
    exact .inr ⟨rfl, by omega⟩

theorem reading_le_of_latest (hleap : t.isLeap = false) (h : t.latest (ofInstant a) = ofInstant a) :
    t.reading ≤ a := by
  have hinstant : (ofInstant a).second * 1000000000 + ((ofInstant a).nanos : Int) = a :=
    reading_ofInstant a
  have hnanos : t.nanos < 1000000000 := by simpa [isLeap] using hleap
  unfold reading
  rcases latest_cases t (ofInstant a) with ⟨heq, -⟩ | ⟨-, hle⟩
  · rw [← heq, h]
    exact le_of_eq hinstant
  · omega

theorem le_of_le_elapsed (h : c ≤ t.elapsed now) :
    t.reading + c ≤ now + if t.isLeap then 1000000000 else 0 := by
  cases hleap : t.isLeap with
  | false =>
    rw [elapsed_eq hleap] at h
    simp only [Bool.false_eq_true, if_false]
    omega
  | true =>
    unfold elapsed Span.second at h
    unfold reading
    simp only [hleap, Bool.true_and, if_true] at h ⊢
    split at h <;> omega

theorem add_lt_of_le_elapsed (h : c ≤ ((ofInstant a).latest t).elapsed now) :
    a + c < now + 1000000000 ∧ ((t.isLeap = true → t.second ≠ a / Span.second) → a + c ≤ now) := by
  have hinstant : (ofInstant a).second * 1000000000 + ((ofInstant a).nanos : Int) = a :=
    reading_ofInstant a
  have hnanos : (ofInstant a).nanos < 1000000000 := by simpa [isLeap] using isLeap_ofInstant a
  rcases latest_cases (ofInstant a) t with ⟨heq, -⟩ | ⟨heq, hle⟩
  · rw [heq] at h
    have hle := add_le_of_le_elapsed_ofInstant h
    omega
  · rw [heq] at h
    have hread := le_of_le_elapsed h
    unfold reading at hread
    cases hleap : t.isLeap with
    | false =>
      simp only [hleap, Bool.false_eq_true, if_false] at hread
      omega
    | true =>
      have hlong : 1000000000 ≤ t.nanos := by simpa [isLeap] using hleap
      simp only [hleap, if_true] at hread
      refine ⟨by omega, fun hne => ?_⟩
      have hsecond : t.second ≠ (ofInstant a).second := hne rfl
      omega

theorem le_of_le_elapsed_latest (ht : t.IsTime) (h : c ≤ ((ofInstant a).latest t).elapsed now) :
    t.reading + c ≤ now + if t.isLeap then 1000000000 else 0 := by
  have hinstant : (ofInstant a).second * 1000000000 + ((ofInstant a).nanos : Int) = a :=
    reading_ofInstant a
  rcases latest_cases (ofInstant a) t with ⟨heq, hlt⟩ | ⟨heq, -⟩
  · rw [heq] at h
    have hle := add_le_of_le_elapsed_ofInstant h
    unfold IsTime at ht
    unfold reading
    cases hleap : t.isLeap with
    | false =>
      have hshort : t.nanos < 1000000000 := by simpa [isLeap] using hleap
      simp only [Bool.false_eq_true, if_false]
      omega
    | true =>
      have hnanos : (ofInstant a).nanos < 1000000000 := by simpa [isLeap] using isLeap_ofInstant a
      have hlong : 1000000000 ≤ t.nanos := by simpa [isLeap] using hleap
      simp only [if_true]
      omega
  · rw [heq] at h
    exact le_of_le_elapsed h

section Read

theorem foldl_digits_lt (ds : List Char) (hds : ∀ d ∈ ds, d.isDigit = true) (n : Nat) :
    ds.foldl (fun n d => 10 * n + Decimal.digitValue d) n < (n + 1) * 10 ^ ds.length := by
  induction ds generalizing n with
  | nil => simp
  | cons d ds ih =>
    obtain ⟨hd, hrest⟩ := List.forall_mem_cons.mp hds
    have hdigit : Decimal.digitValue d ≤ 9 := by
      have hle : d.val ≤ 57 := by
        simp only [Char.isDigit, Bool.and_eq_true, decide_eq_true_eq] at hd
        exact hd.2
      have hnat : d.toNat ≤ 57 := hle
      unfold Decimal.digitValue
      have hzero : '0'.toNat = 48 := rfl
      omega
    refine (ih hrest _).trans_le ?_
    rw [List.length_cons, pow_succ', ← mul_assoc]
    refine Nat.mul_le_mul_right _ ?_
    dsimp only
    omega

theorem readFraction?_lt {cs rest : List Char} {n : Nat} (h : readFraction? cs = some (n, rest)) :
    n < 1000000000 := by
  unfold readFraction? at h
  split at h
  · rename_i digits
    dsimp only at h
    split at h
    · cases h
    · obtain ⟨rfl, -⟩ := Prod.mk.inj (Option.some.inj h)
      have hkept : ∀ d ∈ (Decimal.splitDigits digits).1.take 9, d.isDigit = true :=
        fun d hd => (List.mem_takeWhile_imp (List.mem_of_mem_take hd))
      have hlength : ((Decimal.splitDigits digits).1.take 9).length ≤ 9 := List.length_take_le _ _
      have hlt := foldl_digits_lt _ hkept 0
      rw [zero_add, one_mul] at hlt
      calc _ < 10 ^ ((Decimal.splitDigits digits).1.take 9).length *
              10 ^ (9 - ((Decimal.splitDigits digits).1.take 9).length) :=
            Nat.mul_lt_mul_of_pos_right hlt (by positivity)
        _ = 1000000000 := by rw [← pow_add, Nat.add_sub_cancel' hlength]; rfl
  · cases h
    omega

theorem isTime_of_read? {s : String} (h : read? s = some t) : t.IsTime := by
  unfold read? at h
  obtain ⟨⟨year, cs₁⟩, -, h⟩ := Option.bind_eq_some_iff.mp h
  obtain ⟨cs₂, -, h⟩ := Option.bind_eq_some_iff.mp h
  obtain ⟨⟨month, cs₃⟩, -, h⟩ := Option.bind_eq_some_iff.mp h
  obtain ⟨cs₄, -, h⟩ := Option.bind_eq_some_iff.mp h
  obtain ⟨⟨day, cs₅⟩, -, h⟩ := Option.bind_eq_some_iff.mp h
  dsimp only at h
  split at h
  · split at h
    · obtain ⟨cs₆, -, h⟩ := Option.bind_eq_some_iff.mp h
      obtain ⟨⟨hour, cs₇⟩, -, h⟩ := Option.bind_eq_some_iff.mp h
      obtain ⟨cs₈, -, h⟩ := Option.bind_eq_some_iff.mp h
      obtain ⟨⟨minute, cs₉⟩, -, h⟩ := Option.bind_eq_some_iff.mp h
      obtain ⟨cs₁₀, -, h⟩ := Option.bind_eq_some_iff.mp h
      obtain ⟨⟨second, cs₁₁⟩, -, h⟩ := Option.bind_eq_some_iff.mp h
      obtain ⟨⟨nanos, cs₁₂⟩, hfraction, h⟩ := Option.bind_eq_some_iff.mp h
      obtain ⟨⟨offset, cs₁₃⟩, -, h⟩ := Option.bind_eq_some_iff.mp h
      have hnanos := readFraction?_lt hfraction
      dsimp only at h
      unfold IsTime
      -- Second 60 is read as a long second 59.
      split at h <;> split at h <;> cases h
      · exact (by omega : nanos + 1000000000 < 2000000000)
      · exact (by omega : nanos < 2000000000)
    · cases h
  · cases h

end Read

end WorldTriggers.Timestamp
