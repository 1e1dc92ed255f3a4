import DeliveryCharts.Proofs.Text.Base64
import DeliveryCharts.Proofs.Text.Blank
import DeliveryCharts.Template.Filter.Manifest

/-!
Encoding and decoding are inverse: what is decoded to a text is its encoding with blanks around it.
-/

namespace DeliveryCharts.Template.Filter

open Text (isBlank utf8String)
open Text.Base64 (Canonical char)

variable {s t : String}

theorem toList_b64encode (s : String) :
    (b64encode s).toList = (Text.Base64.encode (utf8String s)).map char :=
  String.toList_ofList

theorem utf8String_b64encode (s : String) :
    utf8String (b64encode s) = Text.Base64.encode (utf8String s) := by
  rw [utf8String, toList_b64encode, Text.Base64.utf8_encode]

theorem b64decode_eq_ok_iff : b64decode t = .ok s ↔ b64encode s = Text.trim t := by
  have hread : b64decode t = .ok s ↔
      Text.Base64.decode (utf8String (Text.trim t)) = .ok (utf8String s) := by
    rw [b64decode]
    cases Text.Base64.decode (utf8String (Text.trim t)) with
    | error f => simp
    | ok bytes =>
      have hbytes : Text.decode bytes = .ok s.toList ↔ bytes = utf8String s := Text.decode_eq_ok_iff
      rw [Except.ok.injEq, ← hbytes]
      cases hdecode : Text.decode bytes with
      | error d => simp [hdecode]
      | ok cs =>
        simp only [hdecode, Except.ok.injEq]
        exact ⟨fun h ↦ h ▸ String.toList_ofList.symm, fun h ↦ h ▸ String.ofList_toList⟩
  rw [hread, Text.Base64.decode_eq_ok_iff, ← utf8String_b64encode]
  constructor
  · intro h
    exact String.toList_injective (Text.utf8_injective h.symm)
  · intro h
    rw [h]

theorem trim_b64encode {before after : String} (hbefore : ∀ c ∈ before.toList, isBlank c = true)
    (hafter : ∀ c ∈ after.toList, isBlank c = true) (s : String) :
    Text.trim (before ++ b64encode s ++ after) = b64encode s := by
  have hshown : ∀ c ∈ (b64encode s).toList, isBlank c = false := by
    rw [toList_b64encode]
    exact fun c hc ↦ (Text.Base64.shown_of_mem_encode hc).2
  rw [Text.trim, String.toList_append, String.toList_append,
    Text.trimChars_around hbefore hafter hshown, String.ofList_toList]

/-- A text is decoded exactly if it is a canonical form of a text, with blanks around it, and the
encoding of the result is the text without the blanks. -/
theorem b64decode_inverse :
    (∀ s before after : String, (∀ c ∈ before.toList, isBlank c = true) →
      (∀ c ∈ after.toList, isBlank c = true) →
        b64decode (before ++ b64encode s ++ after) = .ok s) ∧
    (∀ s t : String, b64decode t = .ok s → b64encode s = Text.trim t) ∧
    ∀ s t : String, b64decode t = .ok s ↔ Canonical (utf8String s) (Text.trim t).toList := by
  refine ⟨fun s before after hbefore hafter ↦ ?_, fun s t ↦ b64decode_eq_ok_iff.mp, fun s t ↦ ?_⟩
  · exact b64decode_eq_ok_iff.mpr (trim_b64encode hbefore hafter s).symm
  · rw [b64decode_eq_ok_iff, Text.Base64.canonical_iff, ← toList_b64encode, String.toList_inj,
      eq_comm]

/-- Two bytes and one of them, with a line feed before and a blank behind. -/
theorem b64decode_inverse_twoBytes :
    b64decode ("\n" ++ b64encode "é" ++ " ") = .ok "é" ∧ b64encode "é" = "w6k=" ∧
      b64encode "é" = Text.trim "\nw6k= " :=
  ⟨b64decode_inverse.1 "é" "\n" " " (List.all_eq_true.mp (by decide +kernel))
    (List.all_eq_true.mp (by decide +kernel)), by decide +kernel,
    b64decode_inverse.2.1 "é" "\nw6k= " (by decide +kernel)⟩

end DeliveryCharts.Template.Filter
