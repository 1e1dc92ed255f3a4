import DeliveryCharts.Proofs.Decimal.Range
import DeliveryCharts.Proofs.Json.Tree
import DeliveryCharts.Yaml.Value

/-!
Numbers as plain scalars write them. An integer may be marked with its radix, but may not have zeros
in front; any other number is a finite number in decimal, or one of the words for infinity and for
no number.
-/

namespace DeliveryCharts.Yaml

open Decimal (Binary64 readDecimal?_plus readDecimal?_signs)

variable {cs : List Char}

/-- An integer behind the mark of its radix, perhaps with a sign in front. -/
def readSignedMarked? : List Char → Option Int
  | '-' :: r => (readMarked? r).map fun n : Nat ↦ -(n : Int)
  | '+' :: r => (readMarked? r).map Int.ofNat
  | r => (readMarked? r).map Int.ofNat

theorem sign_cases (cs : List Char) :
    (∃ r, cs = '-' :: r) ∨ (∃ r, cs = '+' :: r) ∨
      (∀ r, cs = '-' :: r → False) ∧ ∀ r, cs = '+' :: r → False := by
  by_cases hminus : ∃ r, cs = '-' :: r
  · exact .inl hminus
  · by_cases hplus : ∃ r, cs = '+' :: r
    · exact .inr (.inl hplus)
    · exact .inr (.inr ⟨fun r hr ↦ hminus ⟨r, hr⟩, fun r hr ↦ hplus ⟨r, hr⟩⟩)

theorem readInteger?_eq (cs : List Char) :
    readInteger? cs =
      match readSignedMarked? cs with
      | some z => some z
      | none => if hasLeadingZero cs then none else Text.readInt? 10 cs := by
  rcases sign_cases cs with ⟨r, rfl⟩ | ⟨r, rfl⟩ | ⟨hminus, hplus⟩
  · rw [readInteger?.eq_1, readSignedMarked?, Text.readInt?]
    cases readMarked? r with
    | some n => rfl
    | none => cases hasLeadingZero ('-' :: r) <;> cases Text.readUnsigned? 10 r <;> rfl
  · rw [readInteger?.eq_2, readSignedMarked?, Text.readInt?.eq_2, Text.readNat?]
    · cases readMarked? r with
      | some n => rfl
      | none => cases hasLeadingZero ('+' :: r) <;> cases Text.readUnsigned? 10 r <;> rfl
    · simp
  · rw [readInteger?.eq_3, readSignedMarked?.eq_3, Text.readInt?.eq_2, Text.readNat?.eq_2]
    · cases readMarked? cs with
      | some n => rfl
      | none => cases hasLeadingZero cs <;> cases Text.readUnsigned? 10 cs <;> rfl
    all_goals assumption

/-- A finite number in decimal. -/
def readFinite? (cs : List Char) : Option Binary64 :=
  (Decimal.readDecimal? cs).filter Binary64.isFinite

theorem hasLeadingZero_spec (h : hasLeadingZero cs = true) :
    ∃ d r, (d :: r).all Text.isDigit = true ∧
      (cs = '-' :: '0' :: d :: r ∨ cs = '+' :: '0' :: d :: r ∨ cs = '0' :: d :: r) := by
  unfold hasLeadingZero at h
  split at h
  · dsimp only at h
    split at h
    · exact ⟨_, _, h, .inl rfl⟩
    · cases h
  · dsimp only at h
    split at h
    · exact ⟨_, _, h, .inr (.inl rfl)⟩
    · cases h
  · dsimp only at h
    split at h
    · exact ⟨_, _, h, .inr (.inr rfl)⟩
    · cases h

/-- Zeros in front of more digits are read as an integer, just not by YAML. -/
theorem exists_readInt?_of_hasLeadingZero (h : hasLeadingZero cs = true) :
    ∃ z, Text.readInt? 10 cs = some z := by
  obtain ⟨d, r, hdigits, hcs⟩ := hasLeadingZero_spec h
  have hread : ∃ n, Text.readUnsigned? 10 ('0' :: d :: r) = some n := by
    refine ⟨_, Text.readUnsigned?_eq_some_iff.mpr ⟨by simp, ?_, rfl⟩⟩
    exact List.forall_mem_cons.mpr ⟨rfl, List.all_eq_true.mp hdigits⟩
  obtain ⟨n, hn⟩ := hread
  rcases hcs with rfl | rfl | rfl
  · exact ⟨-n, by rw [Text.readInt?, hn]; rfl⟩
  · exact ⟨n, by rw [Text.readInt?.eq_2 _ _ (by simp), Text.readNat?, hn]; rfl⟩
  · exact ⟨n, by rw [Text.readInt?.eq_2 _ _ (by simp), Text.readNat?.eq_2 _ _ (by simp), hn]; rfl⟩

/-- Infinity and what is no number. -/
def limitWords : List String :=
  [".inf", ".Inf", ".INF", "+.inf", "+.Inf", "+.INF", "-.inf", "-.Inf", "-.INF", ".nan", ".NaN",
    ".NAN"]

/-- But for the words, a real number is a finite number in decimal. -/
theorem real?_eq (h : String.ofList cs ∉ limitWords) :
    real? cs = (readFinite? cs).map fun x ↦ .num (.float x) := by
  have hfinite (x : Binary64) : (if x.isFinite then some (Json.num (.float x)) else none) =
      ((some x).filter Binary64.isFinite).map fun x ↦ .num (.float x) := by
    cases hx : x.isFinite <;> simp [Option.filter, hx]
  have hplain : ∀ w ∈ ["-.inf", "-.Inf", "-.INF", ".nan", ".NaN", ".NAN"], w ∈ limitWords := by
    decide
  by_cases hplus : ∃ r, cs = '+' :: r
  · obtain ⟨r, rfl⟩ := hplus
    have hword : ¬ (String.ofList r ∈ [".inf", ".Inf", ".INF"] ∨
        String.ofList ('+' :: r) ∈ ["-.inf", "-.Inf", "-.INF", ".nan", ".NaN", ".NAN"]) := by
      have hsigned : ∀ w ∈ [".inf", ".Inf", ".INF"],
          String.ofList ('+' :: w.toList) ∈ limitWords := by
        decide
      rintro (hw | hw)
      · exact h (by simpa using hsigned _ hw)
      · exact h (hplain _ hw)
    rw [real?.eq_1, if_neg hword, readFinite?]
    by_cases hsigns : r.head? = some '+' ∨ r.head? = some '-'
    · rw [if_pos ⟨rfl, hsigns⟩, readDecimal?_signs hsigns]
      rfl
    · rw [if_neg fun hs ↦ hsigns hs.2, readDecimal?_plus hsigns]
      cases Decimal.readDecimal? r with
      | none => rfl
      | some x => exact hfinite x
  · have hword : ¬ (String.ofList cs ∈ [".inf", ".Inf", ".INF"] ∨
        String.ofList cs ∈ ["-.inf", "-.Inf", "-.INF", ".nan", ".NaN", ".NAN"]) := by
      have hunsigned : ∀ w ∈ [".inf", ".Inf", ".INF"], w ∈ limitWords := by decide
      rintro (hw | hw)
      · exact h (hunsigned _ hw)
      · exact h (hplain _ hw)
    have hhead : cs.head? ≠ some '+' := fun he ↦ hplus (List.head?_eq_some_iff.mp he)
    rw [real?.eq_2 _ fun r hr ↦ hplus ⟨r, hr⟩, if_neg hword, if_neg fun hs ↦ hhead hs.1,
      readFinite?]
    cases Decimal.readDecimal? cs with
    | none => rfl
    | some x => exact hfinite x

/-- A number as a plain scalar writes it, but for infinity. -/
def number? (cs : List Char) : Except Fault (Option Number) :=
  (integer? cs).map fun
    | some z => some (.int z)
    | none => if hasLeadingZero cs then none else (readFinite? cs).map .float

/-- Integers that YAML reads, or refuses because they are too large. -/
def IsWithin (bits : Nat) (z : Int) : Prop := Width.signed bits z ∨ Width.unsigned bits z

theorem IsWithin.more {z : Int} (h : IsWithin 64 z) : IsWithin 128 z := by
  have hsigned : twoPow (64 - 1) ≤ twoPow (128 - 1) := by decide
  have hunsigned : twoPow 64 ≤ twoPow 128 := by decide
  simp only [IsWithin, Width.signed, Width.unsigned, Bool.and_eq_true, decide_eq_true_eq] at h ⊢
  omega

theorem integer?_of_none (h : readInteger? cs = none) : integer? cs = .ok none := by
  rw [integer?, h]

theorem integer?_of_within {z : Int} (h : readInteger? cs = some z) (hz : IsWithin 64 z) :
    integer? cs = .ok (some z) := by
  rw [integer?, h]
  exact if_pos (Bool.or_eq_true_iff.mpr hz)

theorem integer?_of_beyond {z : Int} (h : readInteger? cs = some z) (hz : ¬ IsWithin 64 z) :
    integer? cs = if Width.signed 128 z || Width.unsigned 128 z then .error .outOfRange
      else .ok none := by
  rw [integer?, h]
  exact if_neg fun h64 ↦ hz (Bool.or_eq_true_iff.mp h64)

theorem integer?_of_not_within {z : Int} (h : readInteger? cs = some z) (hz : ¬ IsWithin 128 z) :
    integer? cs = .ok none := by
  rw [integer?_of_beyond h fun h64 ↦ hz h64.more]
  exact if_neg fun h128 ↦ hz (Bool.or_eq_true_iff.mp h128)

/-- Where an integer is read or refused, no other number and no text is taken. -/
theorem number?_of_within {z : Int} (h : readInteger? cs = some z) (hz : IsWithin 128 z)
    {o : Option Number} (ho : o ≠ some (.int z)) : number? cs ≠ .ok o := by
  intro heq
  rw [number?] at heq
  by_cases h64 : IsWithin 64 z
  · rw [integer?_of_within h h64] at heq
    exact ho (Except.ok.inj heq).symm
  · rw [integer?_of_beyond h h64, if_pos (Bool.or_eq_true_iff.mpr hz)] at heq
    cases heq

theorem number?_of_ok_none (h : integer? cs = .ok none) (hzero : hasLeadingZero cs = false) :
    number? cs = .ok ((readFinite? cs).map .float) := by
  rw [number?, h]
  show Except.ok (if hasLeadingZero cs then none else _) = _
  rw [hzero]
  rfl

theorem readMarked?_spec {n : Nat} (h : readMarked? cs = some n) :
    ∃ mark ∈ ['x', 'o', 'b'], ∃ r, cs = '0' :: mark :: r := by
  unfold readMarked? at h
  split at h
  · exact ⟨'x', by decide, _, rfl⟩
  · exact ⟨'o', by decide, _, rfl⟩
  · exact ⟨'b', by decide, _, rfl⟩
  · cases h

theorem readSignedMarked?_spec {z : Int} (h : readSignedMarked? cs = some z) :
    ∃ sign ∈ [[], ['-'], ['+']], ∃ mark ∈ ['x', 'o', 'b'], ∃ r, cs = sign ++ '0' :: mark :: r := by
  have hspec {r : List Char} {f : Nat → Int} (h : (readMarked? r).map f = some z) :
      ∃ mark ∈ ['x', 'o', 'b'], ∃ t, r = '0' :: mark :: t := by
    obtain ⟨n, hn, -⟩ := Option.map_eq_some_iff.mp h
    exact readMarked?_spec hn
  rcases sign_cases cs with ⟨r, rfl⟩ | ⟨r, rfl⟩ | ⟨hminus, hplus⟩
  · obtain ⟨mark, hmark, t, rfl⟩ := hspec h
    exact ⟨['-'], by decide, mark, hmark, t, rfl⟩
  · obtain ⟨mark, hmark, t, rfl⟩ := hspec h
    exact ⟨['+'], by decide, mark, hmark, t, rfl⟩
  · rw [readSignedMarked?.eq_3 _ hminus hplus] at h
    obtain ⟨mark, hmark, t, rfl⟩ := hspec h
    exact ⟨[], by decide, mark, hmark, t, rfl⟩

/-- What is marked is no number in decimal. -/
theorem marked_spec {z : Int} (h : readSignedMarked? cs = some z) :
    Text.readInt? 10 cs = none ∧ readFinite? cs = none ∧ hasLeadingZero cs = false := by
  obtain ⟨sign, hsign, mark, hmark, r, rfl⟩ := readSignedMarked?_spec h
  simp only [List.mem_cons, List.not_mem_nil, or_false] at hsign hmark
  rcases hsign with rfl | rfl | rfl <;> rcases hmark with rfl | rfl | rfl <;>
    exact ⟨rfl, rfl, rfl⟩

/-! The digits of an integer. -/

theorem hasLeadingZero_decimalInt (z : Int) : hasLeadingZero (Text.decimalInt z) = false := by
  refine Bool.eq_false_iff.mpr fun h ↦ ?_
  obtain ⟨d, r, -, hcs⟩ := hasLeadingZero_spec h
  cases z with
  | ofNat n =>
    have hdigit : ∀ ch ∈ Text.decimalInt (.ofNat n), Text.isDigit ch = true :=
      Text.isDigit_of_mem_decimal n
    obtain hcs | hcs | hcs := hcs
    · exact absurd (hdigit '-' (by rw [hcs]; exact List.mem_cons_self)) (by decide)
    · exact absurd (hdigit '+' (by rw [hcs]; exact List.mem_cons_self)) (by decide)
    · exact Text.decimal_ne_zero_cons n d r hcs
  | negSucc n =>
    obtain hcs | hcs | hcs := hcs
    · exact Text.decimal_ne_zero_cons (n + 1) d r (List.cons.inj hcs).2
    · cases hcs
    · cases hcs

theorem readInteger?_decimalInt (z : Int) : readInteger? (Text.decimalInt z) = some z := by
  have hmarked : readSignedMarked? (Text.decimalInt z) = none := by
    refine Option.eq_none_iff_forall_ne_some.mpr fun y hy ↦ ?_
    obtain ⟨sign, -, mark, hmark, r, hcs⟩ := readSignedMarked?_spec hy
    have hmem : mark ∈ Text.decimalInt z := by simp [hcs]
    have hall : ∀ mark ∈ ['x', 'o', 'b'], Text.isDigit mark = false ∧ mark ≠ '-' :=
      Text.forall_mem_of_all (by decide)
    obtain hdigit | hhyphen := Text.isDigit_or_hyphen_of_mem_decimalInt hmem
    · rw [(hall mark hmark).1] at hdigit
      cases hdigit
    · exact (hall mark hmark).2 hhyphen
  rw [readInteger?_eq, hmarked, hasLeadingZero_decimalInt, Text.readInt?_decimalInt]
  rfl

theorem plainValue_ofInt {z : Int} (h : (Number.int z).Fits) :
    plainValue (Text.ofInt z) = .ok (.ofInt z) := by
  have hne : ∀ w ∈ ["", "null", "Null", "NULL", "~", "true", "True", "TRUE", "false", "False",
      "FALSE"], Text.ofInt z ≠ w := by
    have hall : ∀ w ∈ ["null", "Null", "NULL", "~", "true", "True", "TRUE", "false", "False",
        "FALSE"], w.toList.any (fun ch ↦ !Text.isDigit ch && ch != '-') = true := by decide
    intro w hw
    obtain rfl | hw := List.mem_cons.mp hw
    · exact fun he ↦ Text.decimalInt_ne_nil z (String.ofList_injective he)
    · obtain ⟨ch, hch, hother⟩ := List.any_eq_true.mp (hall w hw)
      obtain ⟨hdigit, hhyphen⟩ := Bool.and_eq_true_iff.mp hother
      exact Text.ofInt_ne_of_mem hch (by simpa using hdigit) (by simpa using hhyphen) z
  have hnot {ws : List String} (hws : ∀ w ∈ ws, w ∈ ["", "null", "Null", "NULL", "~", "true", "True",
      "TRUE", "false", "False", "FALSE"]) : Text.ofInt z ∉ ws := fun hmem ↦ hne _ (hws _ hmem) rfl
  have hempty : (Text.ofInt z).isEmpty = false := by
    simpa using hne "" (by decide)
  have hnull : isNullWord (Text.ofInt z) = false := decide_eq_false (hnot (by decide))
  have hbool : boolWord? (Text.ofInt z) = none := by
    rw [boolWord?, if_neg (hnot (by decide)), if_neg (hnot (by decide))]
  have hinteger : integer? (Text.ofInt z).toList = .ok (some z) := by
    rw [Text.ofInt, String.toList_ofList]
    exact integer?_of_within (readInteger?_decimalInt z) h
  simp only [plainValue, hempty, hnull, hbool, hinteger, Bool.or_self, Bool.false_eq_true, if_false]
  rfl

end DeliveryCharts.Yaml
