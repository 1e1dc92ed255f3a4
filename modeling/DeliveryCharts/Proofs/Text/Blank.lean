import DeliveryCharts.Proofs.Text.Numeral
import DeliveryCharts.Text.Blank
import Mathlib.Data.List.TakeWhile

/-!
Trimming takes the blanks around a text and nothing else, so a numeral with blanks around it is read
as the numeral.
-/

namespace DeliveryCharts.Text

theorem trimStartChars_append {before : List Char} (h : ∀ c ∈ before, isBlank c = true)
    (cs : List Char) : trimStartChars (before ++ cs) = trimStartChars cs :=
  List.dropWhile_append_of_pos h

theorem trimEndChars_append {after : List Char} (h : ∀ c ∈ after, isBlank c = true)
    (cs : List Char) : trimEndChars (cs ++ after) = trimEndChars cs := by
  have hafter : ∀ c ∈ after.reverse, isBlank c = true := fun c hc ↦ h c (List.mem_reverse.mp hc)
  rw [trimEndChars, List.reverse_append, List.dropWhile_append_of_pos hafter, trimEndChars]

theorem trimStartChars_cons {c : Char} (h : isBlank c = false) (cs : List Char) :
    trimStartChars (c :: cs) = c :: cs :=
  List.dropWhile_cons_of_neg (by simp [h])

theorem trimEndChars_concat {c : Char} (h : isBlank c = false) (cs : List Char) :
    trimEndChars (cs ++ [c]) = cs ++ [c] := by
  rw [trimEndChars, List.reverse_concat, List.dropWhile_cons_of_neg (by simp [h]),
    List.reverse_cons, List.reverse_reverse]

/-- A text with a character that is not blank is not empty without its blanks. -/
theorem isEmpty_trim {text : String} (h : ∃ ch ∈ text.toList, isBlank ch = false) :
    (trim text).isEmpty = false := by
  obtain ⟨ch, hch, hshown⟩ := h
  refine Bool.eq_false_iff.mpr fun hempty ↦ ?_
  have hnil : trimChars text.toList = [] := by
    have htrim := String.isEmpty_iff.mp hempty
    rwa [trim, String.ofList_eq_empty_iff] at htrim
  have hblank : ∀ c ∈ trimStartChars text.toList, isBlank c = true := by
    rw [trimChars, trimEndChars, List.reverse_eq_nil_iff, List.dropWhile_eq_nil_iff] at hnil
    simpa using hnil
  cases hstart : trimStartChars text.toList with
  | nil =>
    rw [trimStartChars, List.dropWhile_eq_nil_iff] at hstart
    rw [hstart ch hch] at hshown
    cases hshown
  | cons c cs =>
    have hhead := List.head?_dropWhile_not isBlank text.toList
    rw [← trimStartChars, hstart] at hhead
    replace hhead : isBlank c = false := hhead
    rw [hblank c (by rw [hstart]; exact List.mem_cons_self)] at hhead
    cases hhead

theorem isBlank_of_getLast?_trimEndChars {c : Char} {cs : List Char}
    (h : (trimEndChars cs).getLast? = some c) : isBlank c = false := by
  rw [trimEndChars, List.getLast?_reverse] at h
  have hhead := List.head?_dropWhile_not isBlank cs.reverse
  rw [h] at hhead
  simpa using hhead

theorem trimChars_between {before cs after : List Char} (hbefore : ∀ c ∈ before, isBlank c = true)
    (hafter : ∀ c ∈ after, isBlank c = true) (hne : cs ≠ [])
    (hhead : ∀ c ∈ cs.head?, isBlank c = false) (hlast : ∀ c ∈ cs.getLast?, isBlank c = false) :
    trimChars (before ++ cs ++ after) = cs := by
  have hstart : trimStartChars (cs ++ after) = cs ++ after := by
    cases cs with
    | nil => exact absurd rfl hne
    | cons c cs => exact trimStartChars_cons (hhead c rfl) _
  have hend : trimEndChars cs = cs := by
    rcases List.eq_nil_or_concat cs with hnil | ⟨cs', c, rfl⟩
    · exact absurd hnil hne
    · rw [List.concat_eq_append]
      exact trimEndChars_concat (hlast c (by simp)) cs'
  rw [trimChars, List.append_assoc, trimStartChars_append hbefore, hstart,
    trimEndChars_append hafter, hend]

/-- Blanks around a text without blanks. -/
theorem trimChars_around {before cs after : List Char} (hbefore : ∀ c ∈ before, isBlank c = true)
    (hafter : ∀ c ∈ after, isBlank c = true) (h : ∀ c ∈ cs, isBlank c = false) :
    trimChars (before ++ cs ++ after) = cs := by
  by_cases hne : cs = []
  · have hstart : trimStartChars after = [] := List.dropWhile_eq_nil_iff.mpr hafter
    rw [hne, List.append_nil, trimChars, trimStartChars_append hbefore, hstart]
    rfl
  · exact trimChars_between hbefore hafter hne (fun c hc ↦ h c (List.mem_of_mem_head? hc))
      fun c hc ↦ h c (List.mem_of_getLast? hc)

theorem trimChars_of_forall {cs : List Char} (h : ∀ c ∈ cs, isBlank c = false) :
    trimChars cs = cs := by
  have htrim : trimChars ([] ++ cs ++ []) = cs := trimChars_around (by simp) (by simp) h
  simpa using htrim

/-- A numeral with blanks around it. -/
def Denotes (text : String) (n : Nat) : Prop :=
  ∃ before cs after, text.toList = before ++ cs ++ after ∧ (∀ c ∈ before, isBlank c = true) ∧
    (∀ c ∈ after, isBlank c = true) ∧ Numeral cs n

theorem isBlank_of_isDigit {c : Char} (h : isDigit c = true) : isBlank c = false := by
  have hc := isDigit_iff.mp h
  simp only [isBlank, Bool.or_eq_false_iff, Bool.and_eq_false_iff, decide_eq_false_iff_not,
    beq_eq_false_iff_ne]
  omega

theorem Numeral.isBlank_eq_false {cs : List Char} {n : Nat} (h : Numeral cs n) :
    ∀ c ∈ cs, isBlank c = false := by
  cases h with
  | digits _ hd =>
    intro c hc
    exact isBlank_of_isDigit (hd c hc)
  | plus _ hd =>
    intro c hc
    rcases List.mem_cons.mp hc with rfl | hc
    · decide
    · exact isBlank_of_isDigit (hd c hc)

theorem isBlank_of_mem_decimalInt {z : Int} {c : Char} (h : c ∈ decimalInt z) :
    isBlank c = false := by
  rcases isDigit_or_hyphen_of_mem_decimalInt h with h | rfl
  · exact isBlank_of_isDigit h
  · decide

theorem trimChars_decimalInt (z : Int) : trimChars (decimalInt z) = decimalInt z :=
  trimChars_of_forall fun _ ↦ isBlank_of_mem_decimalInt

theorem Denotes.numeral {text : String} {n : Nat} (h : Denotes text n) :
    Numeral (trimChars text.toList) n := by
  obtain ⟨before, cs, after, htext, hbefore, hafter, hn⟩ := h
  rw [htext, trimChars_around hbefore hafter hn.isBlank_eq_false]
  exact hn

end DeliveryCharts.Text
