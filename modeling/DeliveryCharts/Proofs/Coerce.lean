import DeliveryCharts.Proofs.Record
import DeliveryCharts.Proofs.Text.Blank

/-!
Integers in weakly typed fields. Within 64 bits with a sign, a number and its decimal text give the
same integer. Beyond, the text is refused, but the number is taken for the largest of these
integers. As a boolean, the text has to be that of 0 or 1, but any number other than 0 is true.
-/

namespace DeliveryCharts.Coerce

open Json (Fault)

theorem clamp_of_not_signed {z : Int} (hz : (Number.int z).Fits) (h : ¬ Width.signed 64 z) :
    Width.clamp 64 z = (twoPow 63 : Int) - 1 := by
  have hunsigned := hz.resolve_left h
  simp only [Width.unsigned, Bool.and_eq_true, decide_eq_true_eq] at hunsigned
  have hlow : ¬ z < -(twoPow (64 - 1) : Int) := by omega
  have hhigh : ¬ z < (twoPow (64 - 1) : Int) := by
    intro hlt
    exact h (by simpa [Width.signed] using ⟨by omega, hlt⟩)
  rw [Width.clamp, if_neg hlow, if_neg hhigh]

/-! What stands in the field, as an integer and as a boolean. -/

theorem scalarInt?_text (z : Int) :
    scalarInt? (.str (Text.ofInt z)) = if Width.signed 64 z then some z else none := by
  simp only [scalarInt?, readInt64?, Text.ofInt, String.toList_ofList, Text.trimChars_decimalInt,
    Text.readInt?_decimalInt, Option.filter_some]

theorem asciiLower_decimalInt (z : Int) :
    Text.asciiLower (Text.decimalInt z) = Text.decimalInt z := by
  have hkeep : ∀ c ∈ Text.decimalInt z,
      (if 'A' ≤ c ∧ c ≤ 'Z' then Char.ofNat (c.toNat + 32) else c) = id c := by
    intro c hc
    apply if_neg
    rintro ⟨hlow, -⟩
    rcases Text.isDigit_or_hyphen_of_mem_decimalInt hc with h | rfl
    · have hdigit := Text.isDigit_iff.mp h
      have hle : 65 ≤ c.toNat := hlow
      omega
    · revert hlow
      decide
  simpa [Text.asciiLower] using List.map_congr_left hkeep

theorem scalarBool?_text (z : Int) : scalarBool? (.str (Text.ofInt z)) =
    if z = 1 then some true else if z = 0 then some false else none := by
  have hword : String.ofList (Text.asciiLower (Text.trimChars (Text.ofInt z).toList)) =
      Text.ofInt z := by
    rw [Text.ofInt, String.toList_ofList, Text.trimChars_decimalInt, asciiLower_decimalInt]
  have htrue := Text.ofInt_ne_of_mem (s := "true") (c := 't') (by decide) (by decide) (by decide) z
  have hfalse := Text.ofInt_ne_of_mem (s := "false") (c := 'f') (by decide) (by decide)
    (by decide) z
  have hempty : Text.ofInt z ≠ "" := by
    intro h
    have hnil : Text.decimalInt z = [] := by simpa [Text.ofInt] using congrArg String.toList h
    exact Text.decimalInt_ne_nil z hnil
  have hone : Text.ofInt z = "1" ↔ z = 1 := Text.ofInt_inj (z := 1)
  have hzero : Text.ofInt z = "0" ↔ z = 0 := Text.ofInt_inj (z := 0)
  simp only [scalarBool?, readBool?, hword, htrue, hfalse, hempty, hone, hzero, false_or, or_false]

/-! What the fields make of it. -/

/-- The number `z` and its decimal text are accepted alike, and only as what stands for `z`. -/
structure Faithful {β : Type} (coerce : Json → Except Fault β) (stands : β → Prop) (z : Int) :
    Prop where
  lossless : ∀ b, coerce (.ofInt z) = .ok b → stands b
  alike : ∀ b, coerce (.ofInt z) = .ok b ↔ coerce (.str (Text.ofInt z)) = .ok b

/-- A field that reads a scalar is as faithful as the reading of the scalar. -/
theorem faithful_iff {α β : Type} {coerce : Json → Except Fault β} {stands : β → Prop} {z : Int}
    {scalar? : Json → Option α} {give : α → β} (wanted : String)
    (hgive : Function.Injective give)
    (h : ∀ v, v = .ofInt z ∨ v = .str (Text.ofInt z) →
      coerce v = (orFault wanted v (scalar? v)).map give) :
    Faithful coerce stands z ↔
      (∀ a, scalar? (.ofInt z) = some a → stands (give a)) ∧
      scalar? (.ofInt z) = scalar? (.str (Text.ofInt z)) := by
  have hok : ∀ v, v = .ofInt z ∨ v = .str (Text.ofInt z) → ∀ b,
      coerce v = .ok b ↔ ∃ a, scalar? v = some a ∧ give a = b := by
    intro v hv b
    simp only [h v hv, Except.map_eq_ok_iff, orFault_eq_ok_iff]
  have hnumber := hok _ (.inl rfl)
  have htext := hok _ (.inr rfl)
  constructor
  · rintro ⟨hlossless, halike⟩
    refine ⟨fun a ha ↦ hlossless _ ((hnumber _).mpr ⟨a, ha, rfl⟩), Option.ext fun a ↦ ?_⟩
    have ha := halike (give a)
    simpa only [hnumber, htext, hgive.eq_iff, exists_eq_right] using ha
  · rintro ⟨hlossless, halike⟩
    refine ⟨fun b hb ↦ ?_, fun b ↦ by rw [hnumber, htext, halike]⟩
    obtain ⟨a, ha, rfl⟩ := (hnumber b).mp hb
    exact hlossless a ha

/-- The boolean is the bit `z`. -/
def IsBit (z : Int) (b : Bool) : Prop := z = if b then 1 else 0

variable {z : Int}

theorem int_faithful_iff {β : Type} {coerce : Json → Except Fault β} (give : Int → β)
    (wanted : String) (hgive : Function.Injective give)
    (h : ∀ v, v = .ofInt z ∨ v = .str (Text.ofInt z) →
      coerce v = (orFault wanted v (scalarInt? v)).map give) :
    Faithful coerce (· = give z) z ↔ Width.signed 64 z := by
  have hnumber : scalarInt? (.ofInt z) = some (Width.clamp 64 z) := rfl
  rw [faithful_iff wanted hgive h, hnumber, scalarInt?_text]
  by_cases hs : Width.signed 64 z
  · simp [hs, Width.clamp_of_signed hs]
  · simp [hs]

theorem bool_faithful_iff {β : Type} {coerce : Json → Except Fault β} {stands : β → Prop}
    (give : Bool → β) (wanted : String) (hgive : Function.Injective give)
    (hstands : ∀ b, stands (give b) ↔ IsBit z b)
    (h : ∀ v, v = .ofInt z ∨ v = .str (Text.ofInt z) →
      coerce v = (orFault wanted v (scalarBool? v)).map give) :
    Faithful coerce stands z ↔ (Width.signed 64 z → z = 0 ∨ z = 1) := by
  have hnumber : scalarBool? (.ofInt z) = if Width.signed 64 z then some (z != 0) else none := rfl
  rw [faithful_iff wanted hgive h, hnumber, scalarBool?_text]
  by_cases h0 : z = 0
  · subst z
    simp [hstands, IsBit, show Width.signed 64 0 = true by decide]
  by_cases h1 : z = 1
  · subst z
    simp [hstands, IsBit, show Width.signed 64 1 = true by decide]
  cases hs : Width.signed 64 z <;> simp [h0, h1]

theorem isBlankText_ofInt (z : Int) : isBlankText (.str (Text.ofInt z)) = false := by
  rw [isBlankText, Text.ofInt, String.toList_ofList]
  cases hz : Text.decimalInt z with
  | nil => exact absurd hz (Text.decimalInt_ne_nil z)
  | cons c cs => simp [Text.isBlank_of_mem_decimalInt (z := z) (c := c) (by simp [hz])]

theorem intList_singleton (v : Json) : intList (.arr [v]) =
    (orFault "an integer list item" v (scalarInt? v)).map ([·]) := by
  cases hv : scalarInt? v <;> simp [intList, orFault, hv, Except.map, bind, Except.bind, pure,
    Except.pure]

/-- For an integer of 64 bits, with or without a sign: as an integer, the number and its decimal
text are taken alike and for `z` itself exactly where `z` fits with a sign; as a boolean, where `z`
is 0 or 1, or does not fit with a sign and is refused. -/
theorem integers_faithful_iff (z : Int) (hz : (Number.int z).Fits) :
    ((Faithful int (· = z) z ↔ Width.signed 64 z) ∧
      (Faithful optInt (· = some z) z ↔ Width.signed 64 z) ∧
      (Faithful intList (· = [z]) z ↔ Width.signed 64 z) ∧
      (Faithful (fun v ↦ intList (.arr [v])) (· = [z]) z ↔ Width.signed 64 z)) ∧
    ((Faithful boolean (IsBit z) z ↔ (Width.signed 64 z → z = 0 ∨ z = 1)) ∧
      (Faithful optBool (fun o ↦ ∃ b, o = some b ∧ IsBit z b) z ↔
        (Width.signed 64 z → z = 0 ∨ z = 1))) ∧
    int (.ofInt z) = .ok (if Width.signed 64 z then z else (twoPow 63 : Int) - 1) ∧
    (Width.signed 64 z → boolean (.ofInt z) = .ok (z != 0)) := by
  refine ⟨⟨?_, ?_, ?_, ?_⟩, ⟨?_, ?_⟩, ?_, ?_⟩
  · refine int_faithful_iff id "an integer" Function.injective_id ?_
    rintro v (rfl | rfl) <;> simp [int, Json.ofInt, Json.isNull]
  · refine int_faithful_iff some "an integer" (fun _ _ ↦ Option.some.inj) ?_
    rintro v (rfl | rfl)
    · rfl
    · simp [optInt, Json.isNull, isBlankText_ofInt]
  · refine int_faithful_iff ([·]) "an integer list" (fun _ _ ↦ List.singleton_inj.mp) ?_
    rintro v (rfl | rfl) <;> rfl
  · exact int_faithful_iff ([·]) "an integer list item"
      (fun _ _ ↦ List.singleton_inj.mp) fun v _ ↦ intList_singleton v
  · refine bool_faithful_iff id "a boolean" Function.injective_id (fun _ ↦ Iff.rfl) ?_
    rintro v -
    simp [boolean]
  · refine bool_faithful_iff some "a boolean" (fun _ _ ↦ Option.some.inj) (by simp) ?_
    rintro v (rfl | rfl) <;> rfl
  · have hint : int (.ofInt z) = .ok (Width.clamp 64 z) := rfl
    rw [hint]
    split
    · rename_i hs
      rw [Width.clamp_of_signed hs]
    · rename_i hs
      rw [clamp_of_not_signed hz hs]
  · intro hs
    simp [boolean, scalarBool?, Json.ofInt, hs, orFault]

theorem integers_faithful_iff_limits :
    ((Number.int 9223372036854775807).Fits ∧
      Faithful int (· = 9223372036854775807) 9223372036854775807 ∧
      int (.ofInt 9223372036854775807) = .ok 9223372036854775807) ∧
    ((Number.int 9223372036854775808).Fits ∧
      ¬ Faithful int (· = 9223372036854775808) 9223372036854775808) ∧
    ((Number.int 1).Fits ∧ Faithful boolean (IsBit 1) 1 ∧ boolean (.ofInt 1) = .ok true) ∧
    ((Number.int 2).Fits ∧ ¬ Faithful boolean (IsBit 2) 2) := by
  have hlast : (Number.int 9223372036854775807).Fits := .inl (by decide)
  have hnext : (Number.int 9223372036854775808).Fits := .inr (by decide)
  have hone : (Number.int 1).Fits := .inl (by decide)
  have htwo : (Number.int 2).Fits := .inl (by decide)
  refine ⟨⟨hlast, ?_, ?_⟩, ⟨hnext, ?_⟩, ⟨hone, ?_, ?_⟩, htwo, ?_⟩
  · exact (integers_faithful_iff _ hlast).1.1.mpr (by decide)
  · exact (integers_faithful_iff _ hlast).2.2.1
  · exact fun h ↦ absurd ((integers_faithful_iff _ hnext).1.1.mp h) (by decide)
  · exact (integers_faithful_iff _ hone).2.1.1.mpr (by decide)
  · exact (integers_faithful_iff _ hone).2.2.2 (by decide)
  · exact fun h ↦ absurd ((integers_faithful_iff _ htwo).2.1.1.mp h (by decide)) (by decide)

/-- The largest integer of 64 bits is taken for another one, which its text is not. Two is true, and
its text is no boolean. -/
theorem integers_lost :
    (int (.ofInt 18446744073709551615) = .ok 9223372036854775807 ∧
      int (.str "18446744073709551615") =
        .error (.notCoercible "an integer" (.str "18446744073709551615"))) ∧
    (boolean (.ofInt 2) = .ok true ∧
      boolean (.str "2") = .error (.notCoercible "a boolean" (.str "2"))) := by
  decide

end DeliveryCharts.Coerce
