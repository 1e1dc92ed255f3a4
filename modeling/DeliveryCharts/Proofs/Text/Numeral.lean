import DeliveryCharts.Text.Numeral

/-!
The decimal digits of a number: at least one, none of them a leading zero, and they read back as the
number. A numeral may also have zeros in front and a plus sign; what is read as a natural number is
what a numeral denotes.
-/

namespace DeliveryCharts.Text

/-- What holds of the characters of a list is checked one by one. The statement is decided through
all characters there are otherwise. -/
theorem forall_mem_of_all {p : Char → Prop} [DecidablePred p] {cs : List Char}
    (h : cs.all (p ·) = true) : ∀ ch ∈ cs, p ch :=
  fun ch hch ↦ of_decide_eq_true (List.all_eq_true.mp h ch hch)

variable {radix : Nat}

private theorem go_append (fuel n : Nat) (acc : List Char) :
    digits.go radix fuel acc n = digits.go radix fuel [] n ++ acc := by
  induction fuel generalizing acc n with
  | zero => rfl
  | succ fuel ih =>
    rw [digits.go, digits.go]
    split
    · rfl
    · rw [ih, ih _ [_]]
      simp

private theorem go_fuel (hr : 2 ≤ radix) {fuel fuel' n : Nat} (h : n ≤ fuel) (h' : n ≤ fuel')
    (acc : List Char) : digits.go radix fuel acc n = digits.go radix fuel' acc n := by
  induction fuel generalizing fuel' n acc with
  | zero =>
    obtain rfl : n = 0 := by omega
    cases fuel' with
    | zero => rfl
    | succ fuel' => simp [digits.go, show 0 < radix by omega]
  | succ fuel ih =>
    cases fuel' with
    | zero =>
      obtain rfl : n = 0 := by omega
      simp [digits.go, show 0 < radix by omega]
    | succ fuel' =>
      rw [digits.go, digits.go]
      split
      · rfl
      · have hlt : n / radix < n := Nat.div_lt_self (by omega) (by omega)
        exact ih (by omega) (by omega) _

/-- The last digit behind those of the number without it. -/
theorem digits_eq (hr : 2 ≤ radix) (n : Nat) :
    digits radix n =
      if n < radix then [digitChar n]
      else digits radix (n / radix) ++ [digitChar (n % radix)] := by
  rw [digits]
  cases n with
  | zero => simp [digits.go, show 0 < radix by omega, Nat.mod_eq_of_lt]
  | succ n =>
    rw [digits.go]
    split
    · rfl
    · have hlt : (n + 1) / radix < n + 1 := Nat.div_lt_self (by omega) (by omega)
      rw [go_append, digits, go_fuel hr (by omega) (Nat.le_refl _)]

theorem digits_ne_nil (radix n : Nat) : digits radix n ≠ [] := by
  rw [digits]
  cases n with
  | zero => simp [digits.go]
  | succ n =>
    rw [digits.go]
    split
    · simp
    · rw [go_append]
      simp

theorem ofNat_ne (n : Nat) : ofNat n ≠ "" := by
  intro h
  have hd : decimal n = [] := by simpa [ofNat] using congrArg String.toList h
  exact digits_ne_nil 10 n hd

/-! Decimal digits. -/

theorem decimal_eq (n : Nat) :
    decimal n = if n < 10 then [digitChar n] else decimal (n / 10) ++ [digitChar (n % 10)] :=
  digits_eq (by omega) n

theorem isDigit_digitChar {d : Nat} (h : d < 10) : isDigit (digitChar d) = true := by
  have hall : ∀ d < 10, isDigit (digitChar d) = true := by decide
  exact hall d h

theorem toNat_digitChar {d : Nat} (h : d < 10) : (digitChar d).toNat = 48 + d := by
  have hall : ∀ d < 10, (digitChar d).toNat = 48 + d := by decide
  exact hall d h

theorem isDigit_of_mem_decimal (n : Nat) : ∀ c ∈ decimal n, isDigit c = true := by
  induction n using Nat.strongRecOn with
  | ind n ih =>
    rw [decimal_eq]
    split
    · rename_i h
      simpa using isDigit_digitChar h
    · simp only [List.forall_mem_append, List.forall_mem_singleton]
      exact ⟨ih (n / 10) (by omega), isDigit_digitChar (by omega)⟩

theorem foldl_decimal (n : Nat) :
    (decimal n).foldl (fun m c ↦ m * 10 + (c.toNat - 48)) 0 = n := by
  induction n using Nat.strongRecOn with
  | ind n ih =>
    rw [decimal_eq]
    split
    · rename_i h
      simp [toNat_digitChar h]
    · rw [List.foldl_append, ih (n / 10) (by omega)]
      have hdigit := toNat_digitChar (Nat.mod_lt n (by omega : 10 > 0))
      simp only [List.foldl_cons, List.foldl_nil, hdigit]
      omega

theorem head?_decimal_ne {n : Nat} (h : 0 < n) : (decimal n).head? ≠ some '0' := by
  induction n using Nat.strongRecOn with
  | ind n ih =>
    rw [decimal_eq]
    split
    · rename_i hlt
      have hall : ∀ d < 10, 0 < d → [digitChar d].head? ≠ some '0' := by decide
      exact hall n hlt h
    · have hne : decimal (n / 10) ≠ [] := digits_ne_nil _ _
      have ih := ih (n / 10) (by omega) (by omega)
      cases hd : decimal (n / 10) with
      | nil => exact absurd hd hne
      | cons c cs =>
        rw [hd] at ih
        exact ih

/-- A number of several digits does not start with zero. -/
theorem decimal_ne_zero_cons (n : Nat) (c : Char) (cs : List Char) :
    decimal n ≠ '0' :: c :: cs := by
  intro h
  rcases Nat.eq_zero_or_pos n with rfl | hn
  · exact absurd h (by simp [decimal_eq])
  · exact head?_decimal_ne hn (by rw [h]; rfl)

/-! Numerals and how they are read. -/

/-- The number that decimal digits denote. -/
def value (ds : List Char) : Nat := ds.foldl (fun m c ↦ m * 10 + (c.toNat - 48)) 0

/-- At least one decimal digit, perhaps behind a plus sign. -/
inductive Numeral : List Char → Nat → Prop
  | digits {ds : List Char} (hne : ds ≠ []) (hd : ∀ c ∈ ds, isDigit c = true) :
      Numeral ds (value ds)
  | plus {ds : List Char} (hne : ds ≠ []) (hd : ∀ c ∈ ds, isDigit c = true) :
      Numeral ('+' :: ds) (value ds)

theorem isDigit_iff {c : Char} : isDigit c = true ↔ 48 ≤ c.toNat ∧ c.toNat ≤ 57 := by
  rw [isDigit, Bool.and_eq_true, decide_eq_true_eq, decide_eq_true_eq]
  exact Iff.rfl

theorem digit?_eq_some_iff {c : Char} {d : Nat} :
    digit? 10 c = some d ↔ isDigit c = true ∧ d = c.toNat - 48 := by
  have hdigit : ('0' ≤ c ∧ c ≤ '9') ↔ isDigit c = true := isDigit_iff.symm
  simp only [digit?, hdigit, Option.filter_eq_some_iff, decide_eq_true_eq]
  split
  · rename_i hc
    have hle := isDigit_iff.mp hc
    constructor
    · rintro ⟨hd, -⟩
      exact ⟨hc, (Option.some.inj hd).symm⟩
    · rintro ⟨-, rfl⟩
      exact ⟨rfl, by omega⟩
  · rename_i hc
    constructor
    · rintro ⟨hd, hlt⟩
      -- a letter stands for ten or more
      split at hd
      · rename_i hlower
        have hle : 97 ≤ c.toNat := hlower.1
        cases hd
        omega
      · split at hd
        · rename_i hupper
          have hle : 65 ≤ c.toNat := hupper.1
          cases hd
          omega
        · cases hd
    · rintro ⟨h, -⟩
      exact absurd h hc

theorem readDigits?_eq_some_iff {cs : List Char} {m n : Nat} :
    readDigits? 10 m cs = some n ↔
      (∀ c ∈ cs, isDigit c = true) ∧ cs.foldl (fun m c ↦ m * 10 + (c.toNat - 48)) m = n := by
  induction cs generalizing m with
  | nil => simp [readDigits?]
  | cons c cs ih =>
    simp only [readDigits?, Option.bind_eq_some_iff, digit?_eq_some_iff, ih, List.forall_mem_cons,
      List.foldl_cons]
    constructor
    · rintro ⟨d, ⟨hc, rfl⟩, hcs, hn⟩
      exact ⟨⟨hc, hcs⟩, hn⟩
    · rintro ⟨⟨hc, hcs⟩, hn⟩
      exact ⟨_, ⟨hc, rfl⟩, hcs, hn⟩

theorem readUnsigned?_eq_some_iff {cs : List Char} {n : Nat} :
    readUnsigned? 10 cs = some n ↔
      cs ≠ [] ∧ (∀ c ∈ cs, isDigit c = true) ∧ value cs = n := by
  rw [readUnsigned?]
  cases cs with
  | nil => simp
  | cons c cs =>
    rw [if_neg (by simp), readDigits?_eq_some_iff]
    simp [value]

theorem readNat?_eq_some_iff {cs : List Char} {n : Nat} :
    readNat? 10 cs = some n ↔ Numeral cs n := by
  constructor
  · intro h
    rw [readNat?.eq_def] at h
    split at h
    · obtain ⟨hne, hd, rfl⟩ := readUnsigned?_eq_some_iff.mp h
      exact .plus hne hd
    · obtain ⟨hne, hd, rfl⟩ := readUnsigned?_eq_some_iff.mp h
      exact .digits hne hd
  · intro h
    cases h with
    | plus hne hd => exact readUnsigned?_eq_some_iff.mpr ⟨hne, hd, rfl⟩
    | digits hne hd =>
      rw [readNat?.eq_def]
      split
      · exact absurd (hd '+' List.mem_cons_self) (by decide)
      · exact readUnsigned?_eq_some_iff.mpr ⟨hne, hd, rfl⟩

theorem numeral_decimal (n : Nat) : Numeral (decimal n) n := by
  have hvalue : value (decimal n) = n := foldl_decimal n
  have h : Numeral (decimal n) (value (decimal n)) :=
    .digits (digits_ne_nil 10 n) (isDigit_of_mem_decimal n)
  rwa [hvalue] at h

theorem isDigit_or_hyphen_of_mem_decimalInt {z : Int} {c : Char} (h : c ∈ decimalInt z) :
    isDigit c = true ∨ c = '-' := by
  cases z with
  | ofNat n => exact .inl (isDigit_of_mem_decimal n c h)
  | negSucc n =>
    rcases List.mem_cons.mp h with rfl | h
    · exact .inr rfl
    · exact .inl (isDigit_of_mem_decimal (n + 1) c h)

theorem decimalInt_ne_nil (z : Int) : decimalInt z ≠ [] := by
  cases z with
  | ofNat n => exact digits_ne_nil 10 n
  | negSucc n => simp [decimalInt]

theorem ofInt_ne_of_mem {s : String} {c : Char} (hc : c ∈ s.toList)
    (h : isDigit c = false) (hhyphen : c ≠ '-') (z : Int) : ofInt z ≠ s := by
  rintro rfl
  rw [ofInt, String.toList_ofList] at hc
  rcases isDigit_or_hyphen_of_mem_decimalInt hc with hdigit | rfl
  · rw [h] at hdigit
    cases hdigit
  · exact hhyphen rfl

theorem readInt?_decimalInt (z : Int) : readInt? 10 (decimalInt z) = some z := by
  cases z with
  | ofNat n =>
    have hread := readNat?_eq_some_iff.mpr (numeral_decimal n)
    change readInt? 10 (decimal n) = some (n : Int)
    rw [readInt?.eq_def]
    split
    · rename_i cs hcs
      have hdigit := isDigit_of_mem_decimal n '-' (by simp [hcs])
      exact absurd hdigit (by decide)
    · rw [hread]
      rfl
  | negSucc n =>
    have hread : readUnsigned? 10 (decimal (n + 1)) = some (n + 1) :=
      readUnsigned?_eq_some_iff.mpr
        ⟨digits_ne_nil 10 (n + 1), isDigit_of_mem_decimal (n + 1), foldl_decimal (n + 1)⟩
    rw [decimalInt, readInt?, hread]
    rfl

theorem ofInt_inj {y z : Int} : ofInt y = ofInt z ↔ y = z := by
  constructor
  · intro h
    have hchars : decimalInt y = decimalInt z := by
      simpa [ofInt] using congrArg String.toList h
    have hread := readInt?_decimalInt y
    rw [hchars, readInt?_decimalInt] at hread
    exact (Option.some.inj hread).symm
  · rintro rfl
    rfl

theorem Numeral.unique {cs : List Char} {m n : Nat} (h : Numeral cs m) (h' : Numeral cs n) :
    m = n :=
  Option.some.inj ((readNat?_eq_some_iff.mpr h).symm.trans (readNat?_eq_some_iff.mpr h'))

end DeliveryCharts.Text
