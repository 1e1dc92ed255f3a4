import DeliveryCharts.Proofs.Stage.Prefix

/-!
Members that no field claims. Which keys are claimed depends on the type of a stage: those of the
fields that all stages share and those of the fields of its type. Under all other keys a resolved
stage holds what its input holds.
-/

namespace DeliveryCharts.Stage

open Members

variable {σ : Type} {raw stage : Members}

/-- A stage of some type holds under each key that is no field of this type what its input holds
there, or nothing where its input holds nothing. -/
def PassesThrough (raw stage : Members) : Prop :=
  ∃ k : Kind, stage.get? "type" = some (.str k.typeName) ∧
    ∀ key, key ∉ sharedFields → key ∉ k.fields → stage.get? key = raw.get? key

theorem Codec.Lawful.get?_write_extra {c : Codec σ}
    {expand : σ → Header → Context → Except Error σ} (hc : c.Lawful expand) (s : Stage σ)
    (hs : ∀ m ∈ s.extra, c.claims m.1 = false) {key : String} (hshared : key ∉ sharedFields)
    (hkey : key ∉ c.fields) : (c.write s).get? key = (ofList s.extra).get? key := by
  simp only [sharedFields, List.mem_append, not_or] at hshared
  rw [hc.get?_write s hs, if_neg hshared.1.1, if_neg hshared.1.2, if_neg hshared.2, if_neg hkey]

section Step

variable {r : Registry} {ctx : Context} {seen : List String} {refId : String}

theorem Kind.get?_resolve_unclaimed {k : Kind} (hraw : raw.Sorted)
    (h : k.resolve raw refId ctx = .ok stage) {key : String} (hshared : key ∉ sharedFields)
    (hkey : key ∉ k.fields) : stage.get? key = raw.get? key := by
  obtain ⟨σ, c, expand, hc, hk, hfields⟩ := k.exists_lawful
  rw [hk] at h
  rw [← hfields] at hkey
  obtain ⟨header, p, o, s₀, s, -, -, -, -, -, rfl⟩ := resolveAs_eq_ok_iff.mp h
  have hfree : c.claims key = false := by simp [Codec.claims, hshared, hkey]
  have hextra : Sorted (raw.filter fun m ↦ !c.claims m.1) := hraw.filter _
  rw [hc.get?_write_extra _ (unclaimed_extra c raw) hshared hkey, hextra.ofList_eq,
    get?_filter fun key ↦ !c.claims key]
  simp [hfree]

theorem passesThrough_of_resolveStage (hraw : raw.Sorted)
    (h : resolveStage r ctx seen raw = .ok (stage, refId)) : PassesThrough raw stage := by
  obtain ⟨header, k, hh, -, -, hk, hout⟩ := resolveStage_eq_ok_iff.mp h
  refine ⟨k, ?_, ?_⟩
  · rw [(get?_type_resolve hh hout).1, typeName_of_find? hk]
  · intro key hshared hkey
    exact Kind.get?_resolve_unclaimed hraw hout hshared hkey

end Step

section Run

variable {r : Registry} {application pipeline : String} {total : Nat}
  {raws done : List Members} {seen : List String}

theorem Resolved.passesThrough (h : Resolved r application pipeline total raws done seen)
    (hraws : ∀ raw ∈ raws, raw.Sorted) {i : Nat} (hraw : raws[i]? = some raw)
    (hstage : done[i]? = some stage) : PassesThrough raw stage := by
  obtain ⟨ctx, seen', refId, -, hs⟩ := h.input_at hraw hstage
  exact passesThrough_of_resolveStage (hraws raw (List.mem_of_getElem? hraw)) hs

/-- Each stage of a resolved pipeline passes its unclaimed members through. Where a run fails, so do
the stages before the one that fails, and those from there on are left as they are. -/
theorem unclaimed_members_kept (r : Registry) (application pipeline : String)
    (stages : List Members) (hsorted : ∀ raw ∈ stages, raw.Sorted) :
    (∀ out, resolve r application pipeline stages = .ok out →
      out.length = stages.length ∧
      ∀ (i : Nat) (raw stage : Members), stages[i]? = some raw → out[i]? = some stage →
        PassesThrough raw stage) ∧
    ∀ e, (resolveAll r application pipeline stages).error = some e →
      ∃ k, FailsAt r application pipeline stages k e ∧
        ∀ (i : Nat) (raw stage : Members), stages[i]? = some raw →
          (resolveAll r application pipeline stages).stages[i]? = some stage →
            (i < k → PassesThrough raw stage) ∧ (k ≤ i → stage = raw) := by
  constructor
  · intro out hout
    obtain ⟨seen, h⟩ := resolve_eq_ok_iff.mp hout
    exact ⟨h.length_eq, fun i raw stage ↦ h.passesThrough hsorted⟩
  · intro e he
    obtain ⟨k, hk⟩ := exists_failsAt he
    obtain ⟨done, seen, hdone, hrun⟩ := hk.run
    have hlength : done.length = k := by
      obtain ⟨failing, -, -, hfailing, -, -⟩ := hk
      have hlt := (List.getElem?_eq_some_iff.mp hfailing).1
      rw [hdone.length_eq, List.length_take]
      omega
    refine ⟨k, hk, ?_⟩
    intro i raw stage hraw hstage
    -- The list is now the resolved stages, followed by the input from the failing stage on.
    rw [hrun] at hstage
    constructor
    · intro hlt
      rw [List.getElem?_append_left (by omega)] at hstage
      rw [← List.getElem?_take_of_lt hlt] at hraw
      apply hdone.passesThrough _ hraw hstage
      intro raw hmem
      exact hsorted raw (List.mem_of_mem_take hmem)
    · intro hle
      have hplace : k + (i - k) = i := by omega
      rw [List.getElem?_append_right (by omega), hlength, List.getElem?_drop, hplace, hraw]
        at hstage
      exact (Option.some.inj hstage).symm

section Witness

/-- Each stage has a key that is a field of the other one's type. -/
def keyedStages : List Members :=
  [[("location", .obj [("zone", .arr [.null, .obj [("id", .ofInt 1)]])]), ("name", .ofInt 7),
      ("skipWaitText", .null), ("type", .str "wait")],
    [("namespace", .str "staging"), ("type", .str "deleteManifest"), ("waitTime", .str "soon")]]

def keptStages : List Members :=
  [[("completeOtherBranchesThenFail", .bool false), ("continuePipeline", .bool false),
      ("failPipeline", .bool true),
      ("location", .obj [("zone", .arr [.null, .obj [("id", .ofInt 1)]])]), ("name", .str "7"),
      ("refId", .str "1"), ("requisiteStageRefIds", .arr []), ("skipWaitText", .str ""),
      ("type", .str "wait"), ("waitTime", .ofInt 0)],
    [("app", .str "shop"), ("completeOtherBranchesThenFail", .bool false),
      ("continuePipeline", .bool false), ("failPipeline", .bool true),
      ("location", .str "staging"), ("name", .str ""), ("refId", .str "2"),
      ("requisiteStageRefIds", .arr []), ("type", .str "deleteManifest"),
      ("waitTime", .str "soon")]]

def unknownStage : Members := [("type", .str "sleep")]

theorem unclaimed_members_kept_keyed :
    (∀ raw ∈ keyedStages ++ [unknownStage], raw.Sorted) ∧
    (resolve .builtin "shop" "release" keyedStages = .ok keptStages ∧
      keptStages.length = keyedStages.length ∧
      ∀ (i : Nat) (raw stage : Members), keyedStages[i]? = some raw → keptStages[i]? = some stage →
        PassesThrough raw stage) ∧
    (resolveAll .builtin "shop" "release" (keyedStages ++ [unknownStage])).error =
      some (.unknownStageType "release" 3 "sleep") ∧
    ∃ k, FailsAt .builtin "shop" "release" (keyedStages ++ [unknownStage]) k
        (.unknownStageType "release" 3 "sleep") ∧
      ∀ (i : Nat) (raw stage : Members), (keyedStages ++ [unknownStage])[i]? = some raw →
        (resolveAll .builtin "shop" "release" (keyedStages ++ [unknownStage])).stages[i]? =
          some stage → (i < k → PassesThrough raw stage) ∧ (k ≤ i → stage = raw) := by
  have hsorted : ∀ raw ∈ keyedStages ++ [unknownStage], raw.Sorted := by
    unfold Members.Sorted
    decide +kernel
  have hkeyed : ∀ raw ∈ keyedStages, raw.Sorted :=
    fun raw hraw ↦ hsorted raw (List.mem_append_left _ hraw)
  have hkept : resolve .builtin "shop" "release" keyedStages = .ok keptStages := by
    decide +kernel
  have hfails : (resolveAll .builtin "shop" "release" (keyedStages ++ [unknownStage])).error =
      some (.unknownStageType "release" 3 "sleep") := by decide +kernel
  refine ⟨hsorted, ⟨hkept, ?_⟩, hfails, ?_⟩
  · exact (unclaimed_members_kept .builtin "shop" "release" keyedStages hkeyed).1 _ hkept
  · exact (unclaimed_members_kept .builtin "shop" "release" (keyedStages ++ [unknownStage])
      hsorted).2 _ hfails

end Witness

end Run

end DeliveryCharts.Stage
