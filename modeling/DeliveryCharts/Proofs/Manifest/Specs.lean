import DeliveryCharts.Manifest.Pipeline
import DeliveryCharts.Proofs.Stage.Resolution

/-!
The specs of applications and pipelines, written and read again.
-/

namespace DeliveryCharts.Manifest

open Json (Fault)
open Members
open Record (field_eq)

namespace Permissions

theorem ofJson_toJson (p : Permissions) : ofJson p.toJson = .ok p := by
  simp [ofJson, toJson, Record.read, decode, field_eq, Record.eitherField, Members.get?]
  rfl

theorem within_toJson (p : Permissions) : p.toJson.Within 2 := by
  have her : "EXECUTE" < "READ" := by decide
  have hew : "EXECUTE" < "WRITE" := by decide
  have hrw : "READ" < "WRITE" := by decide
  refine .obj ?_ (by simp)
  simp only [Sorted, List.pairwise_cons, List.forall_mem_cons, List.not_mem_nil, false_implies,
    implies_true, List.Pairwise.nil, and_true]
  exact ⟨⟨her, hew⟩, hrw⟩

end Permissions

namespace Application

theorem decode_encode (a : Application) : decode (ofList a.encode) = .ok a := by
  simp [decode, encode, field_eq, Permissions.ofJson_toJson]
  rfl

theorem within_encode (a : Application) : Members.Within 2 a.encode := by
  simp [encode, Permissions.within_toJson]

end Application

namespace Pipeline

/-- A pipeline as reading leaves it, with at most `n` levels in the values that it keeps. -/
structure Normal (n : Nat) (p : Pipeline) : Prop where
  index : Width.signed 64 p.index
  description : p.description ≠ some ""
  spelEvaluator : p.spelEvaluator ≠ some ""
  parameterConfig : (Json.arr p.parameterConfig).Within n
  notifications : (Json.arr p.notifications).Within n
  triggers : (Json.arr p.triggers).Within n
  stages : (Json.arr (p.stages.map .obj)).Within n

theorem normal_of_decode {n : Nat} {ms : Members} {p : Pipeline} (hn : 1 ≤ n)
    (hms : ms.Within n) (h : decode ms = .ok p) : p.Normal n := by
  simp only [decode, Except.bind_eq_ok_iff] at h
  obtain ⟨_, -, _, h₁, _, -, _, h₂, _, -, _, -, _, -, _, h₃, _, h₄, _, h₅, _, h₆, _, h₇, ⟨⟩⟩ := h
  exact ⟨Record.signed_of_int h₂, Record.ne_empty_of_optString h₁,
    Record.ne_empty_of_optString h₅, Record.within_of_nullableList hn hms h₄,
    Record.within_of_nullableList hn hms h₃, Record.within_of_nullableList hn hms h₇,
    Record.within_of_maps hn hms h₆⟩

theorem decode_encode {n : Nat} {p : Pipeline} (h : p.Normal n) :
    decode (ofList p.encode) = .ok p := by
  have hl (vs : List Json) : (if vs = [] then none else some (Json.arr vs)).elim (.ok [])
      (Record.nullableList .ok) = .ok vs := by
    have hvs : Record.nullableList .ok (.arr vs) = .ok vs := Except.mapM_ok vs
    by_cases h : vs = [] <;> simp [h, hvs]
  have hs : Record.nullableList Record.map (.arr (p.stages.map .obj)) = .ok p.stages :=
    Record.list_map fun _ _ ↦ rfl
  simp [decode, encode, field_eq, hl, hs, Record.elim_optString h.description,
    Record.elim_optString h.spelEvaluator, Coerce.int_ofInt h.index]
  rfl

theorem within_encode {n : Nat} {p : Pipeline} (hn : 1 ≤ n) (h : p.Normal n) :
    Members.Within n p.encode := by
  have hi (name : String) {vs : List Json} (hvs : (Json.arr vs).Within n) :
      Members.Within n (Record.items name id vs) := by
    obtain ⟨n, rfl⟩ := Nat.exists_eq_add_one_of_ne_zero (by omega : n ≠ 0)
    exact Record.within_items (Json.within_arr_iff.mp hvs)
  simp [encode, Json.within_ofInt h.index, hi _ h.parameterConfig, hi _ h.notifications,
    hi _ h.triggers, h.stages]

theorem Normal.setStages {n : Nat} {p : Pipeline} {stages : List Members} (h : p.Normal n)
    (application name : String) (hs : (Json.arr (stages.map .obj)).Within n) :
    { p with application, name, stages }.Normal n :=
  ⟨h.index, h.description, h.spelEvaluator, h.parameterConfig, h.notifications, h.triggers, hs⟩

end Pipeline

end DeliveryCharts.Manifest
