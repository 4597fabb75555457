import Mathlib.Data.List.TakeWhile
import Mathlib.Tactic
import WorldTriggers.Time.Timestamp

namespace WorldTriggers.Timestamp

section Calendar

/-- The centuries, the years of four, the years and the days that a day of a period is made of. Only a
last day of a year of four has more than 365 days before it in its year. -/
structure Parts (d c q y r : Int) : Prop where
  day : d = 36524 * c + 1461 * q + 365 * y + r
  century : 0 ≤ c ∧ c ≤ 3
  quad : 0 ≤ q ∧ q ≤ 24
  year : 0 ≤ y ∧ y ≤ 3
  rest : 0 ≤ r ∧ r ≤ 365
  last : r = 365 → y = 3 ∧ (q = 24 → c = 3)

theorem exists_parts {d : Int} (hlow : 0 ≤ d) (hhigh : d < 146097) : ∃ c q y r, Parts d c q y r := by
  obtain ⟨c, hc⟩ : ∃ c, c = min (d / 36524) 3 := ⟨_, rfl⟩
  obtain ⟨e, he⟩ : ∃ e, e = d - 36524 * c := ⟨_, rfl⟩
  have hcentury : 0 ≤ e ∧ e ≤ 36524 ∧ (c ≠ 3 → e < 36524) := by omega
  obtain ⟨q, hq⟩ : ∃ q, q = e / 1461 := ⟨_, rfl⟩
  obtain ⟨f, hf⟩ : ∃ f, f = e - 1461 * q := ⟨_, rfl⟩
  have hquad : 0 ≤ f ∧ f ≤ 1460 := by omega
  obtain ⟨y, hy⟩ : ∃ y, y = min (f / 365) 3 := ⟨_, rfl⟩
  exact ⟨c, q, y, f - 365 * y, by omega, by omega, by omega, by omega, by omega, by omega⟩

def marchMonth (r : Int) : Int := (5 * r + 2) / 153

theorem marchMonth_mem {r : Int} (hr : 0 ≤ r ∧ r ≤ 365) : 0 ≤ marchMonth r ∧ marchMonth r ≤ 11 := by
  unfold marchMonth
  omega

def monthOf (m : Int) : Int := if m < 10 then m + 3 else m - 9

namespace Parts

variable {d c q y r : Int}

theorem yearOfEra (h : Parts d c q y r) :
    (d - d / 1460 + d / 36524 - d / 146096) / 365 = 100 * c + 4 * q + y := by
  obtain ⟨hd, hc, hq, hy, hr, hlast⟩ := h
  have hcenturies : d / 36524 - d / 146096 = c := by
    rcases (by omega : d = 146096 ∧ c = 3 ∨ 1461 * q + 365 * y + r < 36524) with ⟨rfl, rfl⟩ | hrest
    · rfl
    · have hera : d / 146096 = 0 := by omega
      have hcentury : d / 36524 = c := by omega
      omega
  have hquads : d / 1460 = 25 * c + q ∨ d / 1460 = 25 * c + q + 1 := by omega
  omega

theorem dayOfYear (h : Parts d c q y r) :
    d - (365 * (100 * c + 4 * q + y) + (100 * c + 4 * q + y) / 4 - (100 * c + 4 * q + y) / 100) = r := by
  obtain ⟨hd, hc, hq, hy, -, -⟩ := h
  have hquads : (100 * c + 4 * q + y) / 4 = 25 * c + q := by omega
  have hcenturies : (100 * c + 4 * q + y) / 100 = c := by omega
  omega

theorem dateOfDay_eq (h : Parts d c q y r) {n era : Int} (hera : era = (n + 719468).fdiv 146097)
    (hd : d = n + 719468 - era * 146097) :
    dateOfDay n = (100 * c + 4 * q + y + era * 400 + (if monthOf (marchMonth r) ≤ 2 then 1 else 0),
      monthOf (marchMonth r), r - (153 * marchMonth r + 2) / 5 + 1) := by
  unfold dateOfDay
  dsimp only
  rw [← hera, ← hd, h.yearOfEra, h.dayOfYear]
  rfl

theorem dayNumber_eq (h : Parts d c q y r) (era : Int) :
    dayNumber (100 * c + 4 * q + y + era * 400 + (if monthOf (marchMonth r) ≤ 2 then 1 else 0))
      (monthOf (marchMonth r)) (r - (153 * marchMonth r + 2) / 5 + 1) = era * 146097 + d - 719468 := by
  have hday := h.dayOfYear
  obtain ⟨-, hc, hq, hy, hr, -⟩ := h
  obtain ⟨hlow, hhigh⟩ := marchMonth_mem hr
  generalize marchMonth r = m at hlow hhigh ⊢
  generalize hY : 100 * c + 4 * q + y = Y at hday ⊢
  have hera : (Y + era * 400).fdiv 400 = era := by
    rw [Int.fdiv_eq_ediv_of_nonneg _ (by omega)]
    omega
  have hyear : (if monthOf m ≤ 2 then Y + era * 400 + (if monthOf m ≤ 2 then 1 else 0) - 1
      else Y + era * 400 + (if monthOf m ≤ 2 then 1 else 0)) = Y + era * 400 := by
    split <;> omega
  have hmonth : (if monthOf m > 2 then monthOf m - 3 else monthOf m + 9) = m := by
    unfold monthOf
    split <;> split <;> omega
  unfold dayNumber
  dsimp only
  rw [hyear, hera, hmonth, (by omega : Y + era * 400 - era * 400 = Y)]
  omega

theorem isLeapYear_of_last (h : Parts d c q y 365) (era : Int) :
    isLeapYear (100 * c + 4 * q + y + era * 400 + 1) = true := by
  obtain ⟨-, hc, hq, -, -, hlast⟩ := h
  obtain ⟨rfl, hcentury⟩ := hlast rfl
  unfold isLeapYear
  simp only [Bool.and_eq_true, Bool.or_eq_true, decide_eq_true_eq]
  refine ⟨by omega, ?_⟩
  by_cases hq : q = 24
  · exact .inr (by omega)
  · exact .inl (by omega)

theorem day_mem_month (h : Parts d c q y r) (era : Int) :
    1 ≤ r - (153 * marchMonth r + 2) / 5 + 1 ∧ r - (153 * marchMonth r + 2) / 5 + 1 ≤
      monthLength (100 * c + 4 * q + y + era * 400 + (if monthOf (marchMonth r) ≤ 2 then 1 else 0))
        (monthOf (marchMonth r)) := by
  obtain ⟨hlow, hhigh⟩ := marchMonth_mem h.rest
  have hm : 153 * marchMonth r ≤ 5 * r + 2 ∧ 5 * r + 2 < 153 * marchMonth r + 153 := by
    unfold marchMonth
    omega
  refine ⟨by omega, ?_⟩
  generalize marchMonth r = m at hlow hhigh hm ⊢
  have hr := h.rest
  by_cases hfebruary : m = 11
  · subst hfebruary
    change r - 337 + 1 ≤ (if isLeapYear (100 * c + 4 * q + y + era * 400 + 1) then 29 else 28)
    by_cases hlast : r = 365
    · subst hlast
      rw [isLeapYear_of_last h era]
      decide
    · split <;> omega
  · clear h
    unfold monthLength monthOf
    interval_cases m <;> simp <;> omega

end Parts

theorem dateOfDay_spec (n : Int) : ∃ year month day : Int, dateOfDay n = (year, month, day) ∧
    dayNumber year month day = n ∧ (1 ≤ month ∧ month ≤ 12) ∧
    (1 ≤ day ∧ day ≤ monthLength year month) := by
  obtain ⟨era, hera⟩ : ∃ era, era = (n + 719468).fdiv 146097 := ⟨_, rfl⟩
  obtain ⟨d, hd⟩ : ∃ d, d = n + 719468 - era * 146097 := ⟨_, rfl⟩
  have hrange : 0 ≤ d ∧ d < 146097 := by
    rw [Int.fdiv_eq_ediv_of_nonneg _ (by omega)] at hera
    omega
  obtain ⟨c, q, y, r, hparts⟩ := exists_parts hrange.1 hrange.2
  refine ⟨_, _, _, hparts.dateOfDay_eq hera hd, ?_, ?_, hparts.day_mem_month era⟩
  · rw [hparts.dayNumber_eq]
    omega
  · have hm := marchMonth_mem hparts.rest
    unfold monthOf
    split <;> omega

end Calendar

section Digits

open Decimal

theorem isBlank_of_isDigit {c : Char} (h : c.isDigit = true) : Text.isBlank c = false := by
  obtain ⟨hlow, hhigh⟩ : 48 ≤ c.toNat ∧ c.toNat ≤ 57 := by
    simpa [Char.isDigit, UInt32.le_iff_toNat_le] using h
  simp [Text.isBlank, Text.inRanges, Text.blankRanges]
  omega

variable {width n : Nat}

theorem padded_toList (width n : Nat) : (padded width n).toList =
    List.replicate (width - (Nat.toDigits 10 n).length) '0' ++ Nat.toDigits 10 n := by
  rw [padded, String.toList_ofList]

theorem isDigit_of_mem_padded {c : Char} (h : c ∈ (padded width n).toList) : c.isDigit = true := by
  rw [padded_toList] at h
  rcases List.mem_append.mp h with h | h
  · rw [List.eq_of_mem_replicate h]
    rfl
  · exact Nat.isDigit_of_mem_toDigits (by decide) (by decide) h

theorem length_padded (hn : n < 10 ^ width) (hwidth : 0 < width) :
    (padded width n).toList.length = width := by
  have hle := (Nat.length_toDigits_le_iff (by decide) hwidth).mpr hn
  rw [padded_toList, List.length_append, List.length_replicate, Nat.sub_add_cancel hle]

theorem natOfDigits_replicate (n : Nat) (cs : List Char) :
    natOfDigits (List.replicate n '0' ++ cs) = natOfDigits cs := by
  induction n with
  | zero => rfl
  | succ n ih => exact ih

theorem natOfDigits_padded (width n : Nat) : natOfDigits (padded width n).toList = n := by
  rw [padded_toList, natOfDigits_replicate]
  exact Nat.ofDigitChars_toDigits (by decide) (by decide)

theorem padded_ne_nil (width n : Nat) : (padded width n).toList ≠ [] := by
  rw [padded_toList]
  exact List.append_ne_nil_of_right_ne_nil _ Nat.toDigits_ne_nil

theorem padded_append_ne {c : Char} (hc : c.isDigit = false) (width n : Nat) (cs rest : List Char) :
    (padded width n).toList ++ rest ≠ c :: cs := by
  intro h
  obtain ⟨ds, hds, -⟩ :=
    (List.append_eq_cons_iff.mp h).resolve_left fun he => padded_ne_nil width n he.1
  have hdigit : c.isDigit = true := isDigit_of_mem_padded (by rw [hds]; exact List.mem_cons_self)
  simp [hc] at hdigit

theorem dropWhile_isBlank_padded (width n : Nat) (rest : List Char) :
    ((padded width n).toList ++ rest).dropWhile Text.isBlank = (padded width n).toList ++ rest := by
  cases hp : (padded width n).toList with
  | nil => exact absurd hp (padded_ne_nil width n)
  | cons c cs =>
    have hdigit : c.isDigit = true := isDigit_of_mem_padded (by rw [hp]; exact List.mem_cons_self)
    rw [List.cons_append, List.dropWhile_cons_of_neg (by simp [isBlank_of_isDigit hdigit])]

theorem readNumber?_padded (hn : n < 10 ^ width) (hwidth : 0 < width) (rest : List Char) :
    readNumber? width ((padded width n).toList ++ rest) = some ((n : Int), rest) := by
  have hlength := length_padded hn hwidth
  have hdigits : (padded width n).toList.takeWhile Char.isDigit = (padded width n).toList :=
    List.takeWhile_eq_self_iff.mpr fun _ => isDigit_of_mem_padded
  have hne := List.isEmpty_eq_false_iff.mpr (padded_ne_nil width n)
  unfold readNumber?
  simp only [dropWhile_isBlank_padded, List.take_left' hlength, hdigits, hne, natOfDigits_padded,
    List.drop_left]
  rfl

theorem splitDigits_padded {c : Char} (hc : c.isDigit = false) (width n : Nat) (rest : List Char) :
    splitDigits ((padded width n).toList ++ c :: rest) = ((padded width n).toList, c :: rest) := by
  have hdigits : ∀ c ∈ (padded width n).toList, c.isDigit = true := fun _ => isDigit_of_mem_padded
  have hneg : ¬c.isDigit = true := by simp [hc]
  unfold splitDigits
  rw [List.takeWhile_append_of_pos hdigits, List.dropWhile_append_of_pos hdigits,
    List.takeWhile_cons_of_neg hneg, List.dropWhile_cons_of_neg hneg, List.append_nil]

theorem signed_padded (sign : Int) (n : Nat) (rest : List Char) :
    readYear?.signed sign ((padded 4 n).toList ++ '-' :: rest) = some (sign * n, '-' :: rest) := by
  have hne := List.isEmpty_eq_false_iff.mpr (padded_ne_nil 4 n)
  unfold readYear?.signed
  rw [splitDigits_padded rfl]
  dsimp only
  rw [hne, natOfDigits_padded, if_neg Bool.false_ne_true]

theorem readYear?_yearText (year : Int) (rest : List Char) :
    readYear? ((yearText year).toList ++ '-' :: rest) = some (year, '-' :: rest) := by
  unfold yearText
  split
  · rename_i h
    obtain ⟨hlow, hhigh⟩ : 0 ≤ year ∧ year ≤ 9999 := by simpa using h
    unfold readYear?
    rw [dropWhile_isBlank_padded]
    dsimp only
    split
    · rename_i heq
      exact absurd heq (padded_append_ne rfl _ _ _ _)
    · rename_i heq
      exact absurd heq (padded_append_ne rfl _ _ _ _)
    · rw [readNumber?_padded (by omega) (by decide), Int.toNat_of_nonneg hlow]
  · split
    · rw [String.toList_append]
      refine (signed_padded (-1) year.natAbs rest).trans ?_
      rw [(by omega : -1 * (year.natAbs : Int) = year)]
    · rw [String.toList_append]
      refine (signed_padded 1 year.natAbs rest).trans ?_
      rw [(by omega : 1 * (year.natAbs : Int) = year)]

theorem readFraction?_padded (hn : n < 10 ^ width) (hwidth : 0 < width) (hle : width ≤ 9) :
    readFraction? (("." ++ padded width n).toList ++ ['Z']) = some (n * 10 ^ (9 - width), ['Z']) := by
  have hne := List.isEmpty_eq_false_iff.mpr (padded_ne_nil width n)
  have hlength := length_padded hn hwidth
  have htake : (padded width n).toList.take 9 = (padded width n).toList :=
    List.take_of_length_le (by omega)
  rw [String.toList_append]
  change readFraction? ('.' :: ((padded width n).toList ++ ['Z'])) = _
  simp only [readFraction?, splitDigits_padded (c := 'Z') rfl, hne, htake, hlength,
    natOfDigits_padded]
  rfl

theorem readFraction?_fractionText {nanos : Nat} (h : nanos < 1000000000) :
    readFraction? ((fractionText nanos).toList ++ ['Z']) = some (nanos, ['Z']) := by
  unfold fractionText
  split
  · subst nanos
    rfl
  · split
    · rw [readFraction?_padded (by omega) (by decide) (by decide),
        (by omega : nanos / 1000000 * 10 ^ (9 - 3) = nanos)]
    · split
      · rw [readFraction?_padded (by omega) (by decide) (by decide),
          (by omega : nanos / 1000 * 10 ^ (9 - 6) = nanos)]
      · rw [readFraction?_padded (by omega) (by decide) (by decide),
          (by omega : nanos * 10 ^ (9 - 9) = nanos)]

theorem readMark?_self {c : Char} (hc : Text.isBlank c = false) (rest : List Char) :
    readMark? c (c :: rest) = some rest := by
  unfold readMark?
  rw [List.dropWhile_cons_of_neg (by simp [hc])]
  exact if_pos rfl

end Digits

section Text

structure IsValid (t : Timestamp) : Prop where
  nanos : t.nanos < 2000000000
  leap : t.isLeap = true → t.second % 60 = 59
  year : firstYear ≤ (dateOfDay (t.second / dayLength)).1 ∧
    (dateOfDay (t.second / dayLength)).1 ≤ lastYear

theorem toList_render {t : Timestamp} {year month day : Int}
    (h : dateOfDay (t.second / dayLength) = (year, month, day)) :
    t.render.toList = (yearText year).toList ++ '-' :: ((padded 2 month.toNat).toList ++
      '-' :: ((padded 2 day.toNat).toList ++
      'T' :: ((padded 2 ((t.second % dayLength).toNat / 3600)).toList ++
      ':' :: ((padded 2 ((t.second % dayLength).toNat / 60 % 60)).toList ++
      ':' :: ((padded 2 ((t.second % dayLength).toNat % 60 + if t.isLeap then 1 else 0)).toList ++
        ((fractionText (t.nanos % 1000000000)).toList ++ ['Z'])))))) := by
  unfold render
  simp [h, String.toList_append]

theorem read?_eq {s : String} {year : Int} {month day hour minute second nanos : Nat}
    (hs : s.toList = (yearText year).toList ++ '-' :: ((padded 2 month).toList ++
      '-' :: ((padded 2 day).toList ++ 'T' :: ((padded 2 hour).toList ++
      ':' :: ((padded 2 minute).toList ++ ':' :: ((padded 2 second).toList ++
        ((fractionText nanos).toList ++ ['Z']))))))) (hyear : firstYear ≤ year ∧ year ≤ lastYear)
    (hmonth : (1 : Int) ≤ month ∧ (month : Int) ≤ 12)
    (hday : (1 : Int) ≤ day ∧ (day : Int) ≤ monthLength year month)
    (htime : (hour : Int) ≤ 23 ∧ (minute : Int) ≤ 59 ∧ (second : Int) ≤ 60)
    (hnanos : nanos < 1000000000) {t : Timestamp}
    (ht : t.second = dayNumber year month day * dayLength + hour * 3600 + minute * 60 +
      if (second : Int) = 60 then 59 else (second : Int))
    (hlong : t.nanos = if (second : Int) = 60 then nanos + 1000000000 else nanos)
    (hutc : (dateOfDay (t.second / dayLength)).1 = year) : read? s = some t := by
  have hlength : monthLength year month ≤ 31 := by
    unfold monthLength
    split <;> split <;> omega
  have hnumber {n : Nat} (hn : (n : Int) < 100) (rest : List Char) :
      readNumber? 2 ((padded 2 n).toList ++ rest) = some ((n : Int), rest) :=
    readNumber?_padded (by omega) (by decide) rest
  unfold read?
  rw [hs]
  refine Option.bind_eq_some_iff.mpr ⟨_, readYear?_yearText _ _, ?_⟩
  refine Option.bind_eq_some_iff.mpr ⟨_, readMark?_self rfl _, ?_⟩
  refine Option.bind_eq_some_iff.mpr ⟨_, hnumber (by omega) _, ?_⟩
  refine Option.bind_eq_some_iff.mpr ⟨_, readMark?_self rfl _, ?_⟩
  refine Option.bind_eq_some_iff.mpr ⟨_, hnumber (by omega) _, ?_⟩
  refine (if_pos (by decide)).trans (Option.bind_eq_some_iff.mpr ⟨_, rfl, ?_⟩)
  refine Option.bind_eq_some_iff.mpr ⟨_, hnumber (by omega) _, ?_⟩
  refine Option.bind_eq_some_iff.mpr ⟨_, readMark?_self rfl _, ?_⟩
  refine Option.bind_eq_some_iff.mpr ⟨_, hnumber (by omega) _, ?_⟩
  refine Option.bind_eq_some_iff.mpr ⟨_, readMark?_self rfl _, ?_⟩
  refine Option.bind_eq_some_iff.mpr ⟨_, hnumber (by omega) _, ?_⟩
  refine Option.bind_eq_some_iff.mpr ⟨_, readFraction?_fractionText hnanos, ?_⟩
  refine Option.bind_eq_some_iff.mpr ⟨(0, []), rfl, ?_⟩
  have hsplit : (if (second : Int) = 60 then ((59 : Int), nanos + 1000000000)
      else ((second : Int), nanos)) =
      (if (second : Int) = 60 then 59 else (second : Int), t.nanos) := by
    rw [hlong]
    split <;> rfl
  dsimp only
  rw [hsplit]
  dsimp only
  rw [sub_zero, ← ht, hutc, if_pos (by simp [hyear, hmonth, hday, htime])]

theorem read?_render {t : Timestamp} (h : t.IsValid) : read? t.render = some t := by
  obtain ⟨year, month, day, hdate, hnumber, hmonth, hday⟩ := dateOfDay_spec (t.second / dayLength)
  have hyear := h.year
  rw [hdate] at hyear
  have hmonth' : (month.toNat : Int) = month := Int.toNat_of_nonneg (by omega)
  have hday' : (day.toNat : Int) = day := Int.toNat_of_nonneg (by omega)
  have htime : ((t.second % dayLength).toNat : Int) = t.second % dayLength :=
    Int.toNat_of_nonneg (Int.emod_nonneg _ (by decide))
  have hlt : t.second % dayLength < dayLength := Int.emod_lt_of_pos _ (by decide)
  have hparts := Int.ediv_mul_add_emod t.second dayLength
  generalize hn : (t.second % dayLength).toNat = n at htime
  unfold dayLength at hlt hparts htime
  -- A leap second is written as second 60, which is read as a long second 59.
  have hminute (hleap : t.isLeap = true) : n % 60 = 59 := by
    have hlast := h.leap hleap
    omega
  have hsecond : (((n % 60 + if t.isLeap then 1 else 0 : Nat) : Int) = 60) ↔ t.isLeap = true := by
    cases hleap : t.isLeap with
    | true => simp [hminute hleap]
    | false =>
      simp only [Bool.false_eq_true, if_false, iff_false]
      omega
  have hlong : t.isLeap = true ↔ 1000000000 ≤ t.nanos := by simp [isLeap]
  have hnanos := h.nanos
  refine read?_eq (toList_render hdate) hyear (by rwa [hmonth']) (by rwa [hmonth', hday']) ?_
    (Nat.mod_lt _ (by decide)) ?_ ?_ (by rw [hdate])
  · rw [hn]
    refine ⟨by omega, by omega, ?_⟩
    split <;> omega
  · simp only [hn, hsecond, hmonth', hday', hnumber]
    unfold dayLength
    split
    · rename_i hleap
      have hlast := hminute hleap
      omega
    · omega
  · simp only [hn, hsecond]
    split
    · rename_i hleap
      have hle := hlong.mp hleap
      omega
    · rename_i hleap
      have hle := mt hlong.mpr hleap
      omega

end Text

end WorldTriggers.Timestamp
