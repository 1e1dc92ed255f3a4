import DeliveryCharts.Decimal.Binary64
import DeliveryCharts.Proofs.Text.Numeral

/-!
The range of finite numbers. A whole number becomes infinity from halfway between the largest finite
number and the next power of two, and an integer is read in decimal as what is next to it.
-/

namespace DeliveryCharts.Decimal

namespace Binary64

variable {m n num den scale : Nat}

theorem twoPow_52 : twoPow 52 = 4503599627370496 := rfl

theorem twoPow_53 : twoPow 53 = 9007199254740992 := rfl

theorem twoPow_63 : twoPow 63 = 9223372036854775808 := rfl

theorem twoPow_add (m n : Nat) : twoPow (m + n) = twoPow m * twoPow n := Nat.pow_add 2 m n

theorem twoPow_pos (n : Nat) : 0 < twoPow n := Nat.two_pow_pos n

theorem twoPow_succ (n : Nat) : twoPow (n + 1) = 2 * twoPow n := Nat.pow_succ'

theorem exponentField_withSign (negative : Bool) (h : m < twoPow 63) :
    (withSign negative m).exponentField = m / twoPow 52 := by
  rw [twoPow_63] at h
  have hbits : (withSign negative m).bits.toNat = if negative then m + twoPow 63 else m := by
    rw [withSign, UInt64.toNat_ofNat', twoPow_63, Nat.mod_eq_of_lt]
    split <;> omega
  rw [exponentField, hbits, twoPow_52, twoPow_63]
  split <;> omega

theorem isFinite_withSign (negative : Bool) (h : m < 2047 * twoPow 52) :
    (withSign negative m).isFinite = true := by
  rw [twoPow_52] at h
  rw [isFinite, exponentField_withSign negative (by rw [twoPow_63]; omega), twoPow_52, bne_iff_ne]
  omega

theorem isFinite_infinity (negative : Bool) : (infinity negative).isFinite = false := by
  rw [isFinite, infinity, exponentField_withSign negative (by decide)]
  rfl

/-- The whole number nearest to a quotient, of two the even one. -/
def nearest (num den : Nat) : Nat :=
  if 2 * (num % den) > den ∨ (2 * (num % den) = den ∧ num / den % 2 = 1) then num / den + 1
  else num / den

theorem isFinite_roundAt (hlow : twoPow 52 ≤ nearest num den) (hhigh : nearest num den ≤ twoPow 53)
    (negative : Bool) :
    (roundAt negative num den scale).isFinite = true ↔
      (if nearest num den = twoPow 53 then scale + 1 else scale) < 2046 := by
  have hround : roundAt negative num den scale =
      (let scale := if nearest num den = twoPow 53 then scale + 1 else scale
       let q := if nearest num den = twoPow 53 then twoPow 52 else nearest num den
       if q < twoPow 52 then withSign negative q
       else if scale ≥ 2046 then infinity negative
       else withSign negative ((scale + 1) * twoPow 52 + (q - twoPow 52))) := rfl
  rw [hround]
  generalize nearest num den = q at hlow hhigh
  have hq : (if q = twoPow 53 then twoPow 52 else q) < 2 * twoPow 52 := by
    rw [twoPow_52, twoPow_53] at *
    split <;> omega
  have hnot : ¬ (if q = twoPow 53 then twoPow 52 else q) < twoPow 52 := by
    split <;> omega
  generalize (if q = twoPow 53 then scale + 1 else scale) = scale'
  generalize (if q = twoPow 53 then twoPow 52 else q) = q' at hq hnot
  dsimp only
  rw [if_neg hnot]
  by_cases hscale : scale' ≥ 2046
  · rw [if_pos hscale, isFinite_infinity]
    simpa using hscale
  · rw [if_neg hscale]
    refine iff_of_true (isFinite_withSign negative ?_) (Nat.lt_of_not_le hscale)
    rw [twoPow_52] at *
    omega

theorem le_nearest (num den : Nat) : num / den ≤ nearest num den := by
  rw [nearest]
  split <;> omega

theorem nearest_le (num den : Nat) : nearest num den ≤ num / den + 1 := by
  rw [nearest]
  split <;> omega

theorem nearest_one (num : Nat) : nearest num 1 = num := by
  simp [nearest, Nat.mod_one]

/-- From here on, whole numbers are rounded to infinity. -/
def overflow : Nat := twoPow 1024 - twoPow 970

/-- At the last scale, a whole number is rounded up to the next power of two. -/
theorem nearest_eq_iff (h : n < twoPow 1024) :
    nearest n (twoPow 971) = twoPow 53 ↔ overflow ≤ n := by
  have htop : twoPow 1024 = twoPow 53 * twoPow 971 := twoPow_add 53 971
  have hhalf : twoPow 971 = 2 * twoPow 970 := twoPow_succ 970
  have hpos := twoPow_pos 970
  have hdiv := Nat.div_add_mod n (twoPow 971)
  have hmod := Nat.mod_lt n (twoPow_pos 971)
  have hquot : n / twoPow 971 < twoPow 53 :=
    Nat.div_lt_of_lt_mul (by rw [Nat.mul_comm, ← htop]; exact h)
  rw [nearest, overflow]
  rw [twoPow_53] at *
  generalize n / twoPow 971 = q at *
  generalize n % twoPow 971 = r at *
  generalize twoPow 1024 = top at *
  generalize twoPow 971 = unit at *
  generalize twoPow 970 = half at *
  subst hhalf htop
  by_cases hq : q = 9007199254740991
  · subst hq
    split <;> omega
  · have hle : half * q ≤ half * 9007199254740990 := Nat.mul_le_mul_left _ (by omega)
    rw [Nat.mul_assoc] at hdiv
    split <;> omega

/-- A whole number is rounded at the scale of its first 53 bits. -/
theorem ofQuotient_one (negative : Bool) (h : n ≠ 0) :
    ofQuotient negative n 1 =
      if 52 ≤ n.log2 then roundAt negative n (twoPow (n.log2 - 52)) (n.log2 + 1022)
      else roundAt negative (n * twoPow (52 - n.log2)) 1 (n.log2 + 1022) := by
  have hlog : Nat.log2 1 = 0 := by decide
  have hle : ¬ n < twoPow n.log2 := Nat.not_lt.mpr (Nat.log2_self_le h)
  have hscale : ((n.log2 : Int) - 52 + 1074).toNat = n.log2 + 1022 := by omega
  rw [ofQuotient, if_neg h]
  simp only [hlog, Int.natCast_zero, Int.sub_zero, Int.toNat_natCast, hle, if_false, hscale,
    ge_iff_le, Int.natCast_nonneg, if_true, Nat.one_mul]
  by_cases hlarge : 52 ≤ n.log2
  · have hshift : (((n.log2 + 1022 : Nat) : Int) - 1074).toNat = n.log2 - 52 := by omega
    rw [if_pos hlarge, if_pos (by omega), hshift]
  · have hshift : (-(((n.log2 + 1022 : Nat) : Int) - 1074)).toNat = 52 - n.log2 := by omega
    rw [if_neg hlarge, if_neg (by omega), hshift]

theorem twoPow_le {m n : Nat} (h : m ≤ n) : twoPow m ≤ twoPow n :=
  Nat.pow_le_pow_right (by decide) h

theorem twoPow_1023_le : twoPow 1023 ≤ overflow := by
  have htop : twoPow 1024 = 2 * twoPow 1023 := twoPow_succ 1023
  have hle : twoPow 970 ≤ twoPow 1023 := twoPow_le (by decide)
  rw [overflow]
  omega

section Scale

variable {j k : Nat} (negative : Bool) (hlow : twoPow k ≤ n) (hhigh : n < twoPow (k + 1))
include hlow hhigh

/-- A whole number of more than 53 bits may be rounded up to a power of two, at the last scale to
infinity. -/
theorem isFinite_roundAt_large (hk : k = 52 + j) :
    (roundAt negative n (twoPow j) (k + 1022)).isFinite = true ↔ n < overflow := by
  subst hk
  have hquot : twoPow 52 ≤ n / twoPow j :=
    (Nat.le_div_iff_mul_le (twoPow_pos j)).mpr (twoPow_add 52 j ▸ hlow)
  have hquot' : n / twoPow j < twoPow 53 := by
    refine Nat.div_lt_of_lt_mul ?_
    rw [Nat.mul_comm, ← twoPow_add, show 53 + j = 52 + j + 1 by omega]
    exact hhigh
  have hnear := le_nearest n (twoPow j)
  have hnear' := nearest_le n (twoPow j)
  rw [isFinite_roundAt (by omega) (by omega)]
  rcases Nat.lt_trichotomy j 971 with hj | rfl | hj
  · have hlt := Nat.lt_of_lt_of_le hhigh (twoPow_le (show 52 + j + 1 ≤ 1023 by omega))
    refine iff_of_true ?_ (Nat.lt_of_lt_of_le hlt twoPow_1023_le)
    split <;> omega
  · have hnearest := nearest_eq_iff hhigh
    split
    · rename_i heq
      exact iff_of_false (by omega) (Nat.not_lt.mpr (hnearest.mp heq))
    · rename_i hne
      exact iff_of_true (by omega) (Nat.lt_of_not_le fun hle ↦ hne (hnearest.mpr hle))
  · have hle := Nat.le_trans (twoPow_le (show 1024 ≤ 52 + j by omega)) hlow
    refine iff_of_false ?_ (Nat.not_lt.mpr (Nat.le_trans (Nat.sub_le _ _) hle))
    split <;> omega

theorem isFinite_roundAt_small (hk : 52 = k + j) :
    (roundAt negative (n * twoPow j) 1 (k + 1022)).isFinite = true ↔ n < overflow := by
  have hmul : twoPow 52 ≤ n * twoPow j := by
    rw [hk, twoPow_add]
    exact Nat.mul_le_mul_right _ hlow
  have hmul' : n * twoPow j < twoPow 53 := by
    rw [show 53 = k + 1 + j by omega, twoPow_add]
    exact Nat.mul_lt_mul_of_pos_right hhigh (twoPow_pos j)
  have hlt := Nat.lt_of_lt_of_le hhigh (twoPow_le (show k + 1 ≤ 1023 by omega))
  rw [isFinite_roundAt (by rwa [nearest_one]) (by rw [nearest_one]; exact Nat.le_of_lt hmul')]
  refine iff_of_true ?_ (Nat.lt_of_lt_of_le hlt twoPow_1023_le)
  split <;> omega

end Scale

/-- The whole numbers with a finite number next to them. -/
theorem isFinite_ofQuotient (negative : Bool) (n : Nat) :
    (ofQuotient negative n 1).isFinite = true ↔ n < overflow := by
  by_cases h : n = 0
  · subst h
    refine iff_of_true ?_ (Nat.lt_of_lt_of_le (twoPow_pos 1023) twoPow_1023_le)
    rw [ofQuotient, if_pos rfl]
    exact isFinite_withSign negative (by decide)
  have hlow : twoPow n.log2 ≤ n := Nat.log2_self_le h
  have hhigh : n < twoPow (n.log2 + 1) := Nat.lt_log2_self
  rw [ofQuotient_one negative h]
  split
  · exact isFinite_roundAt_large negative hlow hhigh (by omega)
  · exact isFinite_roundAt_small negative hlow hhigh (by omega)

theorem isFinite_ofDecimal (negative : Bool) (n : Nat) :
    (ofDecimal negative n 0).isFinite = true ↔ n < overflow := by
  rw [← isFinite_ofQuotient negative, ofDecimal]
  by_cases h : n = 0
  · subst h
    rfl
  · have hten : tenPow (0 : Int).toNat = 1 := rfl
    rw [if_neg h, if_neg (by decide), if_neg (by omega), if_pos (by decide), hten, Nat.mul_one]

end Binary64

variable {cs : List Char}

theorem readDecimal?_signs {r : List Char} (h : r.head? = some '+' ∨ r.head? = some '-') :
    readDecimal? ('+' :: r) = none := by
  rcases h with h | h <;> obtain ⟨t, rfl⟩ := List.head?_eq_some_iff.mp h <;> rfl

theorem readDecimal?_plus {r : List Char} (h : ¬ (r.head? = some '+' ∨ r.head? = some '-')) :
    readDecimal? ('+' :: r) = readDecimal? r := by
  rw [readDecimal?.eq_2, readDecimal?.eq_3 r]
  · rintro t rfl
    exact h (.inr rfl)
  · rintro t rfl
    exact h (.inl rfl)

theorem readDecimal?_digits {ds : List Char} (hne : ds ≠ [])
    (hd : ∀ c ∈ ds, Text.isDigit c = true) :
    readDecimal? ds = some (.ofDecimal false (Text.value ds) 0) ∧
      readDecimal? ('-' :: ds) = some (.ofDecimal true (Text.value ds) 0) := by
  have htake : ds.takeWhile (fun c ↦ '0' ≤ c && c ≤ '9') = ds := by
    have happend : (ds ++ []).takeWhile Text.isDigit = ds ++ [] := List.takeWhile_append_of_pos hd
    rwa [List.append_nil] at happend
  have hdrop : ds.dropWhile (fun c ↦ '0' ≤ c && c ≤ '9') = [] := by
    have happend : (ds ++ []).dropWhile Text.isDigit = [] := List.dropWhile_append_of_pos hd
    rwa [List.append_nil] at happend
  have hempty : (ds.isEmpty && ([] : List Char).isEmpty) = false := by simp [hne]
  constructor
  · rw [readDecimal?.eq_3 ds, htake, hdrop]
    · dsimp only
      rw [hempty, List.append_nil]
      rfl
    · rintro r rfl
      exact absurd (hd '-' List.mem_cons_self) (by decide)
    · rintro r rfl
      exact absurd (hd '+' List.mem_cons_self) (by decide)
  · rw [readDecimal?.eq_1, htake, hdrop]
    dsimp only
    rw [hempty, List.append_nil]
    rfl

/-- An integer in decimal is also a number in decimal. -/
theorem readDecimal?_of_readInt? {z : Int} (h : Text.readInt? 10 cs = some z) :
    ∃ negative, readDecimal? cs = some (.ofDecimal negative z.natAbs 0) := by
  by_cases hminus : ∃ r, cs = '-' :: r
  · obtain ⟨ds, rfl⟩ := hminus
    rw [Text.readInt?] at h
    cases hn : Text.readUnsigned? 10 ds with
    | none => simp [hn] at h
    | some n =>
      obtain rfl : -(n : Int) = z := by simpa [hn] using h
      obtain ⟨hne, hd, rfl⟩ := Text.readUnsigned?_eq_some_iff.mp hn
      rw [Int.natAbs_neg, Int.natAbs_natCast]
      exact ⟨true, (readDecimal?_digits hne hd).2⟩
  · rw [Text.readInt?.eq_2 _ _ fun r hr ↦ hminus ⟨r, hr⟩] at h
    cases hn : Text.readNat? 10 cs with
    | none => simp [hn] at h
    | some n =>
      obtain rfl : (n : Int) = z := by simpa [hn] using h
      rw [Int.natAbs_natCast]
      refine ⟨false, ?_⟩
      cases Text.readNat?_eq_some_iff.mp hn with
      | digits hne hd => exact (readDecimal?_digits hne hd).1
      | @plus ds hne hd =>
        rw [readDecimal?_plus, (readDecimal?_digits hne hd).1]
        rintro (hhead | hhead) <;> obtain ⟨r, rfl⟩ := List.head?_eq_some_iff.mp hhead
        · exact absurd (hd '+' List.mem_cons_self) (by decide)
        · exact absurd (hd '-' List.mem_cons_self) (by decide)

end DeliveryCharts.Decimal
