import DeliveryCharts.Proofs.Stage.Prefix
import DeliveryCharts.Proofs.Stage.WellFormed
import DeliveryCharts.Proofs.Text.Blank

/-!
References to stages. A numeral within 64 bits is a stage number, and its value alone decides what
it points at; all else, a longer numeral too, is a `refId`. Where each `refId` that can be taken for
a number is the number of its stage, both ways to name a stage agree.
-/

namespace DeliveryCharts.Stage

open Members
open Record (field)
open Text (Numeral Denotes)

theorem stageNumber?_eq_some_iff {cs : List Char} {n : Nat} :
    stageNumber? cs = some n ↔ Numeral cs n ∧ n < twoPow 64 := by
  rw [stageNumber?, Option.filter_eq_some_iff, Text.readNat?_eq_some_iff, decide_eq_true_eq]

theorem stageNumber?_eq_none {cs : List Char} {n : Nat} (h : Numeral cs n)
    (hn : twoPow 64 ≤ n) : stageNumber? cs = none := by
  cases hm : stageNumber? cs with
  | none => rfl
  | some m =>
    obtain ⟨hm, hlt⟩ := stageNumber?_eq_some_iff.mp hm
    have hmn := h.unique hm
    omega

theorem trim_toList (s : String) : (Text.trim s).toList = Text.trimChars s.toList := by
  simp [Text.trim]

/-- A stage has this `refId`. -/
def NamedAt (stages : List Members) (j : Nat) (refId : String) : Prop :=
  ∃ stage, stages[j]? = some stage ∧ stage.get? "refId" = some (.str refId)

/-- A `refId` that is a numeral within 64 bits is the number of its stage in decimal. -/
def NumbersOwn (stages : List Members) : Prop :=
  ∀ j refId n, NamedAt stages j refId → Numeral refId.toList n → n < twoPow 64 →
    refId = Text.ofNat (j + 1)

section Lookup

variable {stages : List Members} {reference : String} {j : Nat}

theorem designates_of_named (h : NumbersOwn stages)
    (hj : NamedAt stages j (Text.trim reference)) : Designates stages reference j := by
  rw [Designates]
  cases hn : stageNumber? (Text.trimChars reference.toList) with
  | none => exact hj
  | some n =>
    -- The number is tried first, and it is the one of the stage that has this `refId`.
    obtain ⟨hn, hlt⟩ := stageNumber?_eq_some_iff.mp hn
    rw [← trim_toList] at hn
    have hown := h j _ n hj hn hlt
    rw [hown, Text.ofNat, String.toList_ofList] at hn
    exact hn.unique (Text.numeral_decimal (j + 1))

theorem Designates.named_or_numeral (h : Designates stages reference j) :
    NamedAt stages j (Text.trim reference) ∨ Numeral (Text.trim reference).toList (j + 1) := by
  rw [Designates] at h
  split at h
  · rename_i n hn
    subst n
    rw [trim_toList]
    exact .inr (stageNumber?_eq_some_iff.mp hn).1
  · exact .inl h

end Lookup

section Run

variable {r : Registry} {application pipeline : String} {raws done : List Members}

/-- Where no stage is given a `refId`, each goes by its number. -/
theorem Resolved.numbersOwn {total : Nat} {seen : List String}
    (h : Resolved r application pipeline total raws done seen)
    (hraws : ∀ raw ∈ raws, field raw "refId" "" Coerce.string = .ok "") : NumbersOwn done := by
  rintro j refId n ⟨stage, hstage, hrefId⟩ - -
  have hlt : j < raws.length := by
    rw [← h.length_eq]
    exact (List.getElem?_eq_some_iff.mp hstage).1
  have hraw := List.getElem?_eq_getElem hlt
  obtain ⟨s, hgoes, hs⟩ := (h.keeps j _ stage hraw hstage).refId
  have hnumber : GoesBy j raws[j] (Text.ofNat (j + 1)) :=
    ⟨"", hraws _ (List.getElem_mem hlt), rfl⟩
  cases hrefId.symm.trans hs
  exact hgoes.unique hnumber

/-- Behind the resolved stages of a prefix, where each `refId` that can be taken for a number is that
of its stage, the `refId` of a stage points at it. What points at a stage is its `refId` or a numeral
for its number. -/
theorem refIds_agree_with_numbers (rest : List Members)
    (h : resolve r application pipeline raws = .ok done) :
    (NumbersOwn done → ∀ name reference j, NamedAt done j (Text.trim reference) →
      (⟨application, pipeline, done.length, done, (raws ++ rest).length⟩ : Context).positionOf
        name reference = .ok j) ∧
    (∀ name reference j,
      (⟨application, pipeline, done.length, done, (raws ++ rest).length⟩ : Context).positionOf
        name reference = .ok j →
      j < done.length ∧ (NamedAt done j (Text.trim reference) ∨
        Numeral (Text.trim reference).toList (j + 1))) ∧
    ((∀ raw ∈ raws, field raw "refId" "" Coerce.string = .ok "") → NumbersOwn done) := by
  obtain ⟨seen, hresolved⟩ := resolve_eq_ok_iff.mp h
  have hbehind := hresolved.withTotal (t := (raws ++ rest).length) (by simp)
  have htotal : done.length ≤ (raws ++ rest).length := by
    rw [hbehind.length_eq]
    simp
  refine ⟨?_, ?_, hresolved.numbersOwn⟩
  · intro hown name reference j hj
    have hlt : j < done.length := by
      obtain ⟨stage, hstage, -⟩ := hj
      exact (List.getElem?_eq_some_iff.mp hstage).1
    exact (hbehind.positionOf_eq_ok_iff htotal).mpr ⟨hlt, designates_of_named hown hj⟩
  · intro name reference j hj
    obtain ⟨hlt, hdesignates⟩ := (hbehind.positionOf_eq_ok_iff htotal).mp hj
    exact ⟨hlt, hdesignates.named_or_numeral⟩

end Run

section Witness

def pause : Members := [("refId", .null), ("type", .str "wait")]

def pausedAt (refId : String) : Members :=
  [("completeOtherBranchesThenFail", .bool false), ("continuePipeline", .bool false),
    ("failPipeline", .bool true), ("name", .str ""), ("refId", .str refId),
    ("requisiteStageRefIds", .arr []), ("skipWaitText", .str ""), ("type", .str "wait"),
    ("waitTime", .ofInt 0)]

theorem numbersOwn_web : NumbersOwn [webBaked, pausedAt "2"] := by
  rintro j refId n ⟨stage, hstage, hrefId⟩ hn -
  match j, hstage with
  | 0, hstage =>
    cases hstage
    have hb : webBaked.get? "refId" = some (.str "b") := by decide
    cases hb.symm.trans hrefId
    have hread : Text.readNat? 10 "b".toList = none := by decide
    rw [Text.readNat?_eq_some_iff.mpr hn] at hread
    cases hread
  | 1, hstage =>
    cases hstage
    have htwo : (pausedAt "2").get? "refId" = some (.str (Text.ofNat 2)) := by decide
    cases htwo.symm.trans hrefId
    rfl
  | j + 2, hstage => cases hstage

theorem refIds_agree_with_numbers_web :
    resolve .builtin "shop" "release" [webBake, pause] = .ok [webBaked, pausedAt "2"] ∧
    (NumbersOwn [webBaked, pausedAt "2"] ∧
      NamedAt [webBaked, pausedAt "2"] 0 (Text.trim " b ") ∧
      (⟨"shop", "release", 2, [webBaked, pausedAt "2"], 3⟩ : Context).positionOf "Deploy" " b " =
        .ok 0) ∧
    ((⟨"shop", "release", 2, [webBaked, pausedAt "2"], 3⟩ : Context).positionOf "Deploy" "+02" =
        .ok 1 ∧ 1 < 2 ∧
      (NamedAt [webBaked, pausedAt "2"] 1 (Text.trim "+02") ∨
        Numeral (Text.trim "+02").toList 2)) ∧
    resolve .builtin "shop" "release" [pause, pause] = .ok [pausedAt "1", pausedAt "2"] ∧
    NumbersOwn [pausedAt "1", pausedAt "2"] := by
  have hweb : resolve .builtin "shop" "release" [webBake, pause] =
      .ok [webBaked, pausedAt "2"] := by decide +kernel
  have hpauses : resolve .builtin "shop" "release" [pause, pause] =
      .ok [pausedAt "1", pausedAt "2"] := by decide +kernel
  have hnamed : NamedAt [webBaked, pausedAt "2"] 0 (Text.trim " b ") :=
    ⟨webBaked, rfl, by decide +kernel⟩
  have hsecond : (⟨"shop", "release", 2, [webBaked, pausedAt "2"], 3⟩ : Context).positionOf
      "Deploy" "+02" = .ok 1 := by decide +kernel
  obtain ⟨byRefId, points, -⟩ := refIds_agree_with_numbers [webDeploy] hweb
  refine ⟨hweb, ⟨numbersOwn_web, hnamed, byRefId numbersOwn_web "Deploy" " b " 0 hnamed⟩,
    ⟨hsecond, points "Deploy" "+02" 1 hsecond⟩, hpauses, ?_⟩
  exact (refIds_agree_with_numbers [] hpauses).2.2 (by decide +kernel)

end Witness

namespace Context

variable {ctx : Context} {name reference : String}

/-- What is no stage number is looked up among the `refId`s. -/
theorem named_of_positionOf (hn : stageNumber? (Text.trimChars reference.toList) = none) {j : Nat}
    (h : ctx.positionOf name reference = .ok j) :
    NamedAt ctx.resolved j (Text.trim reference) := by
  simp only [positionOf, hn] at h
  split at h
  · rename_i i hi
    cases h
    obtain ⟨hlt, hj, -⟩ := List.findIdx?_eq_some_iff_getElem.mp hi
    exact ⟨_, List.getElem?_eq_getElem hlt, hasRefId_iff.mp hj⟩
  · cases h

theorem positionOf_unnamed (hn : stageNumber? (Text.trimChars reference.toList) = none)
    (h : ∀ j, ¬ NamedAt ctx.resolved j (Text.trim reference)) :
    ctx.positionOf name reference = .error (.invalidReference name (Text.trim reference)) := by
  have hfind : ctx.resolved.findIdx? (hasRefId (Text.trim reference)) = none := by
    apply List.findIdx?_eq_none_iff.mpr
    intro stage hstage
    obtain ⟨j, hj⟩ := List.getElem?_of_mem hstage
    have hother : ¬ hasRefId (Text.trim reference) stage = true := fun hs ↦
      h j ⟨stage, hj, hasRefId_iff.mp hs⟩
    simpa using hother
  have htrim : String.ofList (Text.trimChars reference.toList) = Text.trim reference := rfl
  simp only [positionOf, hn, htrim, hfind]

/-- A numeral within 64 bits is classified by its value alone. One beyond is no stage number: it
points at the stage with this `refId`, if there is one. -/
theorem numerals_classified (ctx : Context) (hindex : ctx.index < ctx.total)
    (name reference : String) (m : Nat) (h : Denotes reference m) :
    (m < twoPow 64 →
      (1 ≤ m → m ≤ ctx.index → ctx.positionOf name reference = .ok (m - 1)) ∧
      (ctx.index < m → m ≤ ctx.total →
        ctx.positionOf name reference = .error (.forwardReference name m)) ∧
      (m = 0 ∨ ctx.total < m →
        ctx.positionOf name reference = .error (.outOfRange name m ctx.total))) ∧
    (twoPow 64 ≤ m →
      (∀ j, ctx.positionOf name reference = .ok j →
        NamedAt ctx.resolved j (Text.trim reference)) ∧
      ((∀ j, ¬ NamedAt ctx.resolved j (Text.trim reference)) →
        ctx.positionOf name reference =
          .error (.invalidReference name (Text.trim reference)))) := by
  constructor
  · intro hm
    have hnumber := stageNumber?_eq_some_iff.mpr ⟨h.numeral, hm⟩
    simp only [positionOf, hnumber]
    refine ⟨?_, ?_, ?_⟩
    · intro hpos hle
      rw [if_neg (by omega), if_neg (by omega)]
    · intro hlt hle
      rw [if_neg (by omega), if_pos (by omega)]
    · intro hout
      rw [if_pos hout]
  · intro hm
    have hnone := stageNumber?_eq_none h.numeral hm
    exact ⟨fun j ↦ named_of_positionOf hnone, positionOf_unnamed hnone⟩

section Witness

theorem numerals_classified_padded :
    (Denotes " 007 " 7 ∧ 7 < twoPow 64 ∧
      (⟨"shop", "release", 7, [], 9⟩ : Context).positionOf "Deploy" " 007 " = .ok 6) ∧
    (⟨"shop", "release", 6, [], 9⟩ : Context).positionOf "Deploy" " 007 " =
      .error (.forwardReference "Deploy" 7) ∧
    (⟨"shop", "release", 1, [webBaked], 2⟩ : Context).positionOf "Deploy" " 007 " =
      .error (.outOfRange "Deploy" 7 2) := by
  have hseven : Denotes " 007 " 7 := by
    refine ⟨[' '], ['0', '0', '7'], [' '], by decide, ?_, ?_, ?_⟩
    · simp [Text.isBlank]
    · simp [Text.isBlank]
    · exact Text.readNat?_eq_some_iff.mp (by decide)
  have hfits : 7 < twoPow 64 := by decide
  refine ⟨⟨hseven, hfits, ?_⟩, ?_, ?_⟩
  · exact ((numerals_classified ⟨"shop", "release", 7, [], 9⟩ (by decide) "Deploy" " 007 " 7
      hseven).1 hfits).1 (by decide) (by decide)
  · exact ((numerals_classified ⟨"shop", "release", 6, [], 9⟩ (by decide) "Deploy" " 007 " 7
      hseven).1 hfits).2.1 (by decide) (by decide)
  · exact ((numerals_classified ⟨"shop", "release", 1, [webBaked], 2⟩ (by decide) "Deploy" " 007 "
      7 hseven).1 hfits).2.2 (.inr (by decide))

/-- The first number beyond 64 bits is out of the range of every pipeline, and is not reported so:
it may even point at a stage, by its `refId`. -/
theorem wide_numeral_is_name :
    Denotes "18446744073709551616" (twoPow 64) ∧
    resolve .builtin "shop" "release" [webBake] = .ok [webBaked] ∧
    (⟨"shop", "release", 1, [webBaked], 2⟩ : Context).positionOf "Deploy" "18446744073709551616" =
      .error (.invalidReference "Deploy" "18446744073709551616") ∧
    (⟨"shop", "release", 1, [webBaked.insert "refId" (.str "18446744073709551616")], 2⟩ :
      Context).positionOf "Deploy" "18446744073709551616" = .ok 0 := by
  have hwide : Denotes "18446744073709551616" (twoPow 64) := by
    refine ⟨[], "18446744073709551616".toList, [], by simp, by simp, by simp, ?_⟩
    exact Text.readNat?_eq_some_iff.mp (by decide)
  exact ⟨hwide, by decide +kernel, by decide +kernel, by decide +kernel⟩

end Witness

end Context

end DeliveryCharts.Stage
