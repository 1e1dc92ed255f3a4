import DeliveryCharts.Proofs.Record
import DeliveryCharts.Proofs.Yaml.Entry
import DeliveryCharts.Proofs.Yaml.Numbers
import DeliveryCharts.Values.Arguments

/-!
The types of arguments. The command line reads a value as YAML reads a plain scalar, but for the
words and the numerals that are listed here.
-/

namespace DeliveryCharts.Values

open Decimal (Binary64 readDecimal?_of_readInt?)
open Yaml

variable {cs : List Char}

/-- A numeral that is one for YAML only, or for the command line only, or for both but another. -/
inductive NumeralApart (cs : List Char) : Prop
  | marked {z : Int} (h : readSignedMarked? cs = some z) (hz : IsWithin 128 z)
  | zeros {z : Int} (h : Text.readInt? 10 cs = some z) (hzero : hasLeadingZero cs = true)
      (hz : z.natAbs < Binary64.overflow)
  | wide {z : Int} (h : Text.readInt? 10 cs = some z) (hzero : hasLeadingZero cs = false)
      (hz : ¬ Width.signed 64 z) (hz' : IsWithin 128 z)

theorem readNumber?_of_signed {z : Int} (h : Text.readInt? 10 cs = some z)
    (hz : Width.signed 64 z) : readNumber? cs = some (.int z) := by
  rw [readNumber?, Coerce.readInt64?, h, Option.filter_some_pos hz]

theorem readNumber?_of_not_signed (h : ∀ z ∈ Text.readInt? 10 cs, ¬ Width.signed 64 z) :
    readNumber? cs = (readFinite? cs).map .float := by
  rw [readNumber?, Coerce.readInt64?, Option.filter_eq_none_iff.mpr h]
  rfl

theorem signed_bound {z : Int} (h : Width.signed 64 z) : z.natAbs < Binary64.overflow := by
  have hle : twoPow 64 ≤ Binary64.overflow :=
    Nat.le_trans (Binary64.twoPow_le (by decide)) Binary64.twoPow_1023_le
  have h64 : twoPow 64 = 18446744073709551616 := rfl
  have hz := Width.signed_iff.mp h
  omega

/-- The command line takes an integer for a number unless it is beyond all finite ones. -/
theorem readNumber?_eq_none_iff {z : Int} (h : Text.readInt? 10 cs = some z) :
    readNumber? cs = none ↔ Binary64.overflow ≤ z.natAbs := by
  by_cases hsigned : Width.signed 64 z
  · rw [readNumber?_of_signed h hsigned]
    exact iff_of_false nofun (Nat.not_le.mpr (signed_bound hsigned))
  · obtain ⟨negative, hx⟩ := readDecimal?_of_readInt? h
    rw [readNumber?_of_not_signed (by simpa [h] using hsigned), readFinite?, hx,
      Option.map_eq_none_iff, Option.filter_some, ← Nat.not_lt,
      ← Binary64.isFinite_ofDecimal negative]
    cases (Binary64.ofDecimal negative z.natAbs 0).isFinite <;> simp

theorem number?_eq_iff_of_marked {z : Int} (h : readSignedMarked? cs = some z) :
    number? cs = .ok (readNumber? cs) ↔ ¬ NumeralApart cs := by
  obtain ⟨hint, hfinite, hzero⟩ := marked_spec h
  have hread : readInteger? cs = some z := by rw [readInteger?_eq, h]
  have hnone : readNumber? cs = none := by
    rw [readNumber?_of_not_signed (by simp [hint]), hfinite]
    rfl
  rw [hnone]
  by_cases hz : IsWithin 128 z
  · exact iff_of_false (number?_of_within hread hz nofun) fun hapart ↦ hapart (.marked h hz)
  · refine iff_of_true ?_ fun hapart ↦ ?_
    · rw [number?_of_ok_none (integer?_of_not_within hread hz) hzero, hfinite]
      rfl
    · cases hapart with
      | marked h' hz' =>
        obtain rfl := Option.some.inj (h.symm.trans h')
        exact hz hz'
      | zeros h' => simp [hint] at h'
      | wide h' => simp [hint] at h'

theorem number?_eq_iff_of_zeros (h : readSignedMarked? cs = none)
    (hzero : hasLeadingZero cs = true) : number? cs = .ok (readNumber? cs) ↔ ¬ NumeralApart cs := by
  have hread : readInteger? cs = none := by rw [readInteger?_eq, h, hzero]; rfl
  have hnumber : number? cs = .ok none := by
    rw [number?, integer?_of_none hread, hzero]
    rfl
  rw [hnumber]
  constructor
  · intro hnone hapart
    cases hapart with
    | marked h' => simp [h] at h'
    | zeros hint _ hz =>
      exact Nat.not_le.mpr hz ((readNumber?_eq_none_iff hint).mp (Except.ok.inj hnone).symm)
    | wide _ hzero' => simp [hzero] at hzero'
  · intro hapart
    obtain ⟨z, hint⟩ := exists_readInt?_of_hasLeadingZero hzero
    rw [(readNumber?_eq_none_iff hint).mpr]
    exact Nat.le_of_not_lt fun hz ↦ hapart (.zeros hint hzero hz)

theorem number?_eq_iff_of_decimal (h : readSignedMarked? cs = none)
    (hzero : hasLeadingZero cs = false) :
    number? cs = .ok (readNumber? cs) ↔ ¬ NumeralApart cs := by
  have hread : readInteger? cs = Text.readInt? 10 cs := by rw [readInteger?_eq, h, hzero]; rfl
  have hapart : NumeralApart cs ↔
      ∃ z, Text.readInt? 10 cs = some z ∧ ¬ Width.signed 64 z ∧ IsWithin 128 z := by
    constructor
    · rintro (h' | ⟨-, hzero', -⟩ | ⟨hz, -, hz', hz''⟩)
      · simp [h] at h'
      · simp [hzero] at hzero'
      · exact ⟨_, hz, hz', hz''⟩
    · rintro ⟨z, hz, hz', hz''⟩
      exact .wide hz hzero hz' hz''
  rw [hapart]
  cases hint : Text.readInt? 10 cs with
  | none =>
    rw [hint] at hread
    refine iff_of_true ?_ (by simp)
    rw [number?_of_ok_none (integer?_of_none hread) hzero,
      readNumber?_of_not_signed (by simp [hint])]
  | some z =>
    rw [hint] at hread
    by_cases hsigned : Width.signed 64 z
    · refine iff_of_true ?_ (by simp [hsigned])
      rw [number?, integer?_of_within hread (.inl hsigned), readNumber?_of_signed hint hsigned]
      rfl
    · rw [readNumber?_of_not_signed (by simpa [hint] using hsigned)]
      by_cases hz : IsWithin 128 z
      · refine iff_of_false (number?_of_within hread hz ?_) (by simpa [hsigned] using hz)
        cases readFinite? cs <;> simp
      · refine iff_of_true ?_ (by simpa [hsigned] using hz)
        rw [number?_of_ok_none (integer?_of_not_within hread hz) hzero]

/-- Where the two readings of a numeral are the same. -/
theorem number?_eq_iff : number? cs = .ok (readNumber? cs) ↔ ¬ NumeralApart cs := by
  cases h : readSignedMarked? cs with
  | some z => exact number?_eq_iff_of_marked h
  | none =>
    cases hzero : hasLeadingZero cs with
    | true => exact number?_eq_iff_of_zeros h hzero
    | false => exact number?_eq_iff_of_decimal h hzero

/-! Words. -/

/-- Words that are texts on the command line, and for YAML null, a boolean or no finite number. -/
def yamlWords : List String :=
  ["~", "Null", "NULL", "True", "TRUE", "False", "FALSE"] ++ limitWords

/-- The command line and YAML read a text in different ways. -/
def ReadApart (s : String) : Prop := s ∈ yamlWords ∨ NumeralApart s.toList

variable {s : String}

theorem readArgument_eq (hword : s ∉ ["true", "false", "null"]) (hlist : s.toList.head? ≠ some '[')
    (hobj : s.toList.head? ≠ some '\x7b') :
    readArgument s = (readNumber? s.toList).elim (.str s) .num := by
  simp only [List.mem_cons, List.not_mem_nil, or_false, not_or] at hword
  obtain ⟨htrue, hfalse, hnull⟩ := hword
  rw [readArgument, if_neg htrue, if_neg hfalse, if_neg hnull]
  cases readNumber? s.toList with
  | none => exact if_neg (not_or.mpr ⟨hlist, hobj⟩)
  | some n => rfl

theorem plainValue_eq (hne : s ≠ "") (hword : s ∉ ["true", "false", "null"])
    (hyaml : s ∉ yamlWords) :
    plainValue s = (number? s.toList).map fun o ↦ o.elim (.str s) .num := by
  have hnot {ws : List String} (hws : ∀ w ∈ ws, w ∈ ["true", "false", "null"] ++ yamlWords) :
      s ∉ ws := fun hs ↦ (List.mem_append.mp (hws s hs)).elim hword hyaml
  have hempty : (s.isEmpty || isNullWord s) = false := by
    rw [isNullWord, decide_eq_false (hnot (by decide)), Bool.or_false]
    simpa using hne
  have hbool : boolWord? s = none := by
    rw [boolWord?, if_neg (hnot (by decide)), if_neg (hnot (by decide))]
  have hlimit : String.ofList s.toList ∉ limitWords := by
    rw [String.ofList_toList]
    exact fun h ↦ hyaml (List.mem_append_right _ h)
  simp only [plainValue, hempty, hbool, Bool.false_eq_true, if_false, real?_eq hlimit, number?]
  cases integer? s.toList with
  | error e => rfl
  | ok o =>
    cases o with
    | some z => rfl
    | none =>
      cases hasLeadingZero s.toList with
      | true => rfl
      | false => cases readFinite? s.toList <;> rfl

theorem plainValue_ne_of_mem (h : s ∈ yamlWords) : plainValue s ≠ .ok (readArgument s) := by
  have hall : ∀ s ∈ yamlWords, plainValue s ≠ .ok (readArgument s) := by decide +kernel
  exact hall s h

theorem plainValue_of_word (h : s ∈ ["true", "false", "null"]) :
    plainValue s = .ok (readArgument s) ∧ ¬ ReadApart s := by
  have hall : ∀ s ∈ ["true", "false", "null"], plainValue s = .ok (readArgument s) ∧
      s ∉ yamlWords ∧ readSignedMarked? s.toList = none ∧ hasLeadingZero s.toList = false ∧
      Text.readInt? 10 s.toList = none := by
    decide +kernel
  obtain ⟨heq, hyaml, hmarked, hzero, hint⟩ := hall s h
  refine ⟨heq, ?_⟩
  rintro (hmem | ⟨hz, -⟩ | ⟨hz, -⟩ | ⟨hz, -⟩)
  · exact hyaml hmem
  · simp [hmarked] at hz
  · simp [hint] at hz
  · simp [hint] at hz

/-- A text is read in one way on the command line and as a plain scalar, but for the exceptions. -/
theorem plainValue_eq_iff (hne : s ≠ "") (hlist : s.toList.head? ≠ some '[')
    (hobj : s.toList.head? ≠ some '\x7b') :
    plainValue s = .ok (readArgument s) ↔ ¬ ReadApart s := by
  by_cases hyaml : s ∈ yamlWords
  · exact iff_of_false (plainValue_ne_of_mem hyaml) fun h ↦ h (.inl hyaml)
  · by_cases hword : s ∈ ["true", "false", "null"]
    · exact iff_of_true (plainValue_of_word hword).1 (plainValue_of_word hword).2
    · have hapart : ReadApart s ↔ NumeralApart s.toList := or_iff_right hyaml
      rw [hapart, ← number?_eq_iff, plainValue_eq hne hword hyaml, readArgument_eq hword hlist hobj]
      have hinj {o o' : Option Number} (h : o.elim (Json.str s) .num = o'.elim (.str s) .num) :
          o = o' := by
        cases o <;> cases o' <;> simp_all
      cases number? s.toList with
      | error e => exact iff_of_false nofun nofun
      | ok o =>
        constructor
        · exact fun h ↦ congrArg _ (hinj (Except.ok.inj h))
        · intro h
          rw [Except.ok.inj h]
          rfl

theorem ofArguments_key (s : String) :
    ofArguments ["k=" ++ s] = .ok ⟨.obj [("k", readArgument s)]⟩ := by
  have hsplit : Text.splitOnce? ['='] ("k=" ++ s).toList = some (['k'], s.toList) := by
    rw [String.toList_append]
    rfl
  have hset : setArgument empty ("k=" ++ s) = .ok ⟨.obj [("k", readArgument s)]⟩ := by
    rw [setArgument, hsplit]
    dsimp only
    rw [String.ofList_toList]
    rfl
  rw [ofArguments, List.foldlM_cons, hset]
  rfl

theorem ofYaml_key (h : PlainLine s.toList) :
    ofYaml ("k: " ++ s) = (Error.ofYaml (plainValue s)).map fun v ↦ ⟨.obj [("k", v)]⟩ := by
  have htext : "k: " ++ s = String.ofList ('k' :: ':' :: ' ' :: s.toList) := by
    rw [← String.ofList_toList (s := "k: " ++ s), String.toList_append]
    rfl
  rw [ofYaml, htext, h.parse_eq, String.ofList_toList]
  cases plainValue s <;> rfl

/-- An argument gives the value that YAML reads, but for the exceptions. -/
theorem argument_typed_as_yaml (h : PlainLine s.toList) :
    ofArguments ["k=" ++ s] = ofYaml ("k: " ++ s) ↔ ¬ ReadApart s := by
  have hne : s ≠ "" := by
    rintro rfl
    exact h.words.ne_nil rfl
  have hlist := h.head_ne (d := '[') (by decide) (by decide)
  have hobj := h.head_ne (d := '\x7b') (by decide) (by decide)
  rw [← plainValue_eq_iff hne hlist hobj, ofArguments_key, ofYaml_key h]
  cases plainValue s with
  | error e => exact iff_of_false nofun nofun
  | ok v =>
    constructor
    · intro heq
      have hv : (⟨.obj [("k", readArgument s)]⟩ : Values) = ⟨.obj [("k", v)]⟩ := Except.ok.inj heq
      simpa using hv.symm
    · intro heq
      rw [Except.ok.inj heq]
      rfl

theorem argument_typed_as_yaml_words :
    PlainLine "web:8080 rc#2".toList ∧ ¬ ReadApart "web:8080 rc#2" ∧
      ofArguments ["k=" ++ "web:8080 rc#2"] = ofYaml ("k: " ++ "web:8080 rc#2") := by
  have hplain : PlainLine "web:8080 rc#2".toList := by
    refine ⟨by simp [isAllowed], ?_, ?_⟩
    · have hfirst : IsWord "web:8080".toList :=
        ⟨by simp, by simp [isGap, isSpaceOrTab, isBreak], by simp⟩
      have hsecond : IsWord "rc#2".toList :=
        ⟨by simp, by simp [isGap, isSpaceOrTab, isBreak], by simp⟩
      show Words ("web:8080".toList ++ [' '] ++ "rc#2".toList)
      exact .more hfirst (by simp) (by simp [isSpaceOrTab]) (.word hsecond) (by simp)
    · rintro ch r ⟨⟩ hmem
      exact absurd hmem (by decide)
  have hread : ¬ ReadApart "web:8080 rc#2" := by
    rintro (h | ⟨h, -⟩ | ⟨h, -⟩ | ⟨h, -⟩)
    · exact absurd h (by decide)
    all_goals cases h
  exact ⟨hplain, hread, (argument_typed_as_yaml hplain).mpr hread⟩

/-- Zeros in front are part of the text for YAML, and of a number on the command line. -/
theorem argument_typed_apart :
    PlainLine "007".toList ∧ ofArguments ["k=007"] = .ok ⟨.obj [("k", .ofInt 7)]⟩ ∧
      ofYaml "k: 007" = .ok ⟨.obj [("k", .str "007")]⟩ := by
  have hword : IsWord "007".toList := ⟨by simp, by simp [isGap, isSpaceOrTab, isBreak], by simp⟩
  refine ⟨⟨by simp [isAllowed], .word hword, ?_⟩, by decide +kernel, by decide +kernel⟩
  rintro ch r ⟨⟩ hmem
  exact absurd hmem (by decide)

end DeliveryCharts.Values
