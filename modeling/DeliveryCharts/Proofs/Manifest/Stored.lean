import DeliveryCharts.Proofs.Json.Shape
import DeliveryCharts.Proofs.Manifest.Specs

/-!
Specs as the platform stores them: the canonical text of a spec is read back as the spec.
-/

namespace DeliveryCharts.Manifest

open Json (Fault Shape)
open Json.Shape

theorem admits_leaf {α : Type} {read : Json → Except Fault α} {v : Json} {a : α}
    (h : read v = .ok a) : (leaf read).Admits v := by
  refine .whole ?_
  rw [h]
  rfl

namespace Application

theorem admits (a : Application) : shape.Admits (.ofMembers a.encode) := by
  have hstring (s : String) : (leaf Coerce.string).Admits (.str s) := admits_leaf rfl
  have hstrings (ss : List String) : (leaf Coerce.stringList).Admits (Record.strings ss) :=
    admits_leaf (Coerce.stringList_strings ss)
  have hpermissions : (record "Permissions" [
      (["EXECUTE", "execute"], leaf Coerce.stringList), (["READ", "read"], leaf Coerce.stringList),
      (["WRITE", "write"], leaf Coerce.stringList)]).Admits a.permissions.toJson :=
    admits_obj _ (by simp [Fits, nameOf, hstrings])
  refine admits_ofMembers _ ?_
  simp [encode, Fits, nameOf, hstring, hpermissions]

theorem isIntegral_toJson (a : Application) : a.toJson.isIntegral = true := by
  have hs (ss : List String) : (Record.strings ss).isIntegral = true :=
    Json.isIntegral_arr.mpr fun v hv ↦ by
      obtain ⟨s, -, rfl⟩ := List.mem_map.mp hv
      rfl
  have hp : a.permissions.toJson.isIntegral = true := by
    simp [Permissions.toJson, Json.isIntegral_obj, hs]
  rw [toJson, Json.isIntegral_obj]
  simp [encode, hp, Json.isIntegral]

theorem ofPlatform_canonicalText (a : Application) :
    ofPlatform (Text.utf8String a.toJson.canonicalText) = .ok a := by
  have hread := parse_canonicalText a.admits a.within_encode
    (Json.isIntegral_ofMembers a.isIntegral_toJson) (by decide)
  rw [ofPlatform, Except.mapError_eq_ok_iff]
  exact Except.bind_eq_ok_iff.mpr ⟨_, hread, a.decode_encode⟩

end Application

namespace Pipeline

variable {n : Nat} {p : Pipeline}

theorem admits (h : p.Normal n) : shape.Admits (.ofMembers p.encode) := by
  have hany (vs : List Json) : (Shape.list (.whole fun _ ↦ .ok ())).Admits (.arr vs) :=
    .list fun _ _ ↦ .whole rfl
  have hstages : (Shape.list .map).Admits (.arr (p.stages.map .obj)) := .list fun v hv ↦ by
    obtain ⟨ms, -, rfl⟩ := List.mem_map.mp hv
    exact .map ms
  have hstring (s : String) : (leaf Coerce.string).Admits (.str s) := admits_leaf rfl
  have hint : (leaf Coerce.int).Admits (.ofInt p.index) := admits_leaf (Coerce.int_ofInt h.index)
  have hflag : (leaf Coerce.boolean).Admits (.bool true) := admits_leaf rfl
  have hopt {o : Option String} (ho : o ≠ some "") (s : String) (hs : s ∈ o) :
      (leaf Coerce.optString).Admits (.str s) :=
    admits_leaf (Coerce.optString_str fun he ↦ ho (he ▸ hs))
  refine admits_ofMembers _ ?_
  simp only [encode, List.forall_mem_append, List.forall_mem_cons, List.not_mem_nil,
    false_implies, implies_true, and_true]
  refine ⟨⟨⟨⟨⟨⟨⟨⟨⟨⟨?_, ?_, ?_⟩, ?_⟩, ?_⟩, ?_⟩, ?_⟩, ?_⟩, ?_⟩, ?_⟩, ?_⟩, ?_⟩
  · simp [Fits, nameOf, hstring]
  · simp [Fits, nameOf, hstring]
  · simp [Fits, nameOf, hint]
  · exact fits_present fun d hd ↦ by simp [Fits, nameOf, hopt h.description d hd]
  · exact fits_flag (by simp [Fits, nameOf, hflag]) _
  · exact fits_flag (by simp [Fits, nameOf, hflag]) _
  · exact fits_flag (by simp [Fits, nameOf, hflag]) _
  · exact fits_present fun d hd ↦ by simp [Fits, nameOf, hopt h.spelEvaluator d hd]
  · exact fits_items (by simp [Fits, nameOf, hany])
  · exact fits_items (by simp [Fits, nameOf, hany])
  · exact fits_items (by simp [Fits, nameOf, hany])
  · simp [Fits, nameOf, hstages]

theorem toPlatform_toPlatform (p : Pipeline) : p.toPlatform.toPlatform = p.toPlatform := by
  have hstrip (stage : Members) :
      Stage.stripInputOnly (Stage.stripInputOnly stage) = Stage.stripInputOnly stage := by
    simp [Stage.stripInputOnly]
  simp [toPlatform, hstrip]

theorem Normal.toPlatform (h : p.Normal n) : p.toPlatform.Normal n := by
  refine h.setStages _ _ ?_
  obtain ⟨n, rfl, hs⟩ := h.stages.arr_inv
  refine .arr fun v hv ↦ ?_
  simp only [List.map_map, List.mem_map, Function.comp_apply] at hv hs
  obtain ⟨stage, hstage, rfl⟩ := hv
  obtain ⟨hsorted, n, rfl, hw⟩ := (hs _ ⟨stage, hstage, rfl⟩).obj_inv
  exact .obj (hsorted.filter _) (hw.filter _)

theorem isIntegral_toPlatform (h : p.toJson.isIntegral = true) :
    p.toPlatform.toJson.isIntegral = true := by
  rw [toJson, Json.isIntegral_obj, encode, List.forall_mem_append, List.forall_mem_singleton,
    Json.isIntegral_arr] at h ⊢
  obtain ⟨hfields, hstages⟩ := h
  refine ⟨hfields, fun v hv ↦ ?_⟩
  simp only [toPlatform, List.map_map, List.mem_map, Function.comp_apply] at hv hstages
  obtain ⟨stage, hstage, rfl⟩ := hv
  have hi := Json.isIntegral_obj.mp (hstages _ ⟨stage, hstage, rfl⟩)
  exact Json.isIntegral_obj.mpr fun m hm ↦ hi m (List.mem_filter.mp hm).1

theorem ofPlatform_canonicalText (h : p.Normal n) (hn : 1 ≤ n)
    (hn' : n + 1 < Json.Reader.maxDepth) (hi : p.toJson.isIntegral = true) :
    ofPlatform (Text.utf8String p.toPlatform.toJson.canonicalText) = .ok p.toPlatform := by
  have hp := h.toPlatform
  have hread := parse_canonicalText (admits hp) (within_encode hn hp)
    (Json.isIntegral_ofMembers (isIntegral_toPlatform hi)) hn'
  rw [ofPlatform, Except.mapError_eq_ok_iff, Except.map_eq_ok_iff]
  exact ⟨_, Except.bind_eq_ok_iff.mpr ⟨_, hread, decode_encode hp⟩, toPlatform_toPlatform p⟩

end Pipeline

end DeliveryCharts.Manifest
