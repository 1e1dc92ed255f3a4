import DeliveryCharts.Proofs.Json.Reading
import DeliveryCharts.Proofs.Json.Tree
import DeliveryCharts.Proofs.Record
import DeliveryCharts.Template.Value

/-!
Trees as template values, and back.
-/

namespace DeliveryCharts.Template.Value

variable {v : Json} {vs : List Json} {ms : List (String × Json)}

theorem toItems_ofItems (h : ∀ v ∈ vs, toJson (ofJson v) = .ok v) : toItems (ofItems vs) = .ok vs := by
  induction vs with
  | nil => rfl
  | cons v vs ih =>
    obtain ⟨hv, hvs⟩ := List.forall_mem_cons.mp h
    rw [ofItems, toItems, hv, ih hvs]
    rfl

theorem toMembers_ofMembers (h : ∀ m ∈ ms, toJson (ofJson m.2) = .ok m.2) (members : Members) :
    toMembers members (ofMembers ms) = .ok (ms.foldl (fun ms m ↦ ms.insert m.1 m.2) members) := by
  induction ms generalizing members with
  | nil => rfl
  | cons m ms ih =>
    obtain ⟨hm, hms⟩ := List.forall_mem_cons.mp h
    rw [ofMembers, toMembers, hm]
    exact ih hms (members.insert m.1 m.2)

/-- A tree of integers is not changed by becoming a template value. -/
theorem toJson_ofJson {n : Nat} (hv : v.Within n) (hint : v.isIntegral = true) :
    toJson (ofJson v) = .ok v := by
  induction hv with
  | null | bool | str => rfl
  | @num n x hfits =>
    cases x with
    | int z =>
      have hz : isJsonInt z = true := Bool.or_eq_true_iff.mpr hfits
      rw [ofJson, toJson, hz]
      rfl
    | float x => cases hint
  | @arr n vs _ ih =>
    have hvs := toItems_ofItems fun v hv ↦ ih v hv (Json.isIntegral_arr.mp hint v hv)
    rw [ofJson, toJson, hvs]
    rfl
  | @obj n ms hsorted _ ih =>
    have hms := toMembers_ofMembers (fun m hm ↦ ih m hm (Json.isIntegral_obj.mp hint m hm)) []
    rw [ofJson, toJson, hms]
    show Except.ok (Json.obj (Members.ofList ms)) = _
    rw [hsorted.ofList_eq]

end DeliveryCharts.Template.Value
