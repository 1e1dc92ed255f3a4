import DeliveryCharts.Proofs.Stage.Specs
import DeliveryCharts.Proofs.Text.Numeral

/-!
Runs of the resolution of a pipeline: each stage is resolved behind those before it. A run either
resolves all stages or stops at the first that fails, and a pipeline that has been resolved resolves
to itself.
-/

namespace DeliveryCharts.Stage

open Json (Fault)
open Members

/-- The keys that belong to the type of a stage. -/
def Kind.fields : Kind → List String
  | bake => Bake.codec.fields
  | delete => Delete.codec.fields
  | deploy => Deploy.codec.fields
  | jenkins => Jenkins.codec.fields
  | manualJudgment => ManualJudgment.codec.fields
  | nestedPipeline => NestedPipeline.codec.fields
  | runJob => RunJob.codec.fields
  | wait => Wait.codec.fields

theorem Kind.exists_lawful (k : Kind) :
    ∃ (σ : Type) (c : Codec σ) (expand : σ → Header → Context → Except Error σ),
      c.Lawful expand ∧ k.resolve = resolveAs c expand ∧ c.fields = k.fields := by
  cases k with
  | bake => exact ⟨_, _, _, Bake.lawful, rfl, rfl⟩
  | delete => exact ⟨_, _, _, Delete.lawful, rfl, rfl⟩
  | deploy => exact ⟨_, _, _, Deploy.lawful, rfl, rfl⟩
  | jenkins => exact ⟨_, _, _, Jenkins.lawful, rfl, rfl⟩
  | manualJudgment => exact ⟨_, _, _, ManualJudgment.lawful, rfl, rfl⟩
  | nestedPipeline => exact ⟨_, _, _, NestedPipeline.lawful, rfl, rfl⟩
  | runJob => exact ⟨_, _, _, RunJob.lawful, rfl, rfl⟩
  | wait => exact ⟨_, _, _, Wait.lawful, rfl, rfl⟩

variable {r : Registry} {ctx : Context} {seen : List String} {raw stage : Members} {refId : String}

/-- The header of a resolved stage is that of its input, with the `refId` that it was given. -/
theorem Kind.get?_resolve {k : Kind} (h : k.resolve raw refId ctx = .ok stage) :
    ∃ header, Header.decode raw = .ok header ∧ ∀ key ∈ Header.fields,
      stage.get? key = (ofList { header with refId }.encode).get? key := by
  obtain ⟨σ, c, expand, hc, hk, -⟩ := k.exists_lawful
  rw [hk] at h
  obtain ⟨header, p, o, s₀, s, hh, -, -, -, -, rfl⟩ := resolveAs_eq_ok_iff.mp h
  exact ⟨header, hh, fun key ↦ hc.get?_write_header _ (unclaimed_extra c raw)⟩

theorem Kind.header_resolve {k : Kind} (h : k.resolve raw refId ctx = .ok stage) :
    ∃ header, Header.decode raw = .ok header ∧ Header.decode stage = .ok { header with refId } := by
  obtain ⟨header, hh, hget⟩ := Kind.get?_resolve h
  exact ⟨header, hh, (Header.decode_congr hget).trans (Header.decode_encode _)⟩

theorem Kind.resolve_again {k : Kind} (h : k.resolve raw refId ctx = .ok stage) :
    k.resolve stage refId ctx = .ok stage := by
  obtain ⟨σ, c, expand, hc, hk, -⟩ := k.exists_lawful
  rw [hk] at h ⊢
  exact hc.resolveAs_again h

theorem Kind.within_resolve {k : Kind} {n : Nat} (hn : 4 ≤ n) (hraw : raw.Within n)
    (h : k.resolve raw refId ctx = .ok stage) : stage.Sorted ∧ stage.Within n := by
  obtain ⟨σ, c, expand, hc, hk, -⟩ := k.exists_lawful
  rw [hk] at h
  obtain ⟨header, p, o, s₀, s, -, -, ho, hs₀, hs, rfl⟩ := resolveAs_eq_ok_iff.mp h
  refine ⟨sorted_ofList _, Members.Within.ofList ?_⟩
  simp only [within_append]
  exact ⟨⟨⟨⟨(Header.within_encode _).mono (by omega), (Policy.within_encode _).mono (by omega)⟩,
    (Options.within_encode (Options.normal_of_decode ho)).mono hn⟩, hc.within hn hraw hs₀ hs⟩,
    hraw.filter _⟩

theorem resolveStage_eq_ok_iff :
    resolveStage r ctx seen raw = .ok (stage, refId) ↔
      ∃ h k, Header.decode raw = .ok h ∧ refId = effectiveRefId h ctx.index ∧ refId ∉ seen ∧
        r.find? h.stageType = some k ∧ k.resolve raw refId ctx = .ok stage := by
  simp only [resolveStage, Context.lift, Except.bind_eq_ok_iff, Except.mapError_eq_ok_iff]
  constructor
  · rintro ⟨h, hh, hr⟩
    split at hr
    · cases hr
    · rename_i hseen
      split at hr
      · cases hr
      · rename_i k hk
        obtain ⟨out, hout, he⟩ := Except.bind_eq_ok_iff.mp hr
        cases he
        exact ⟨h, k, hh, rfl, by simpa using hseen, hk, hout⟩
  · rintro ⟨h, k, hh, rfl, hseen, hk, hout⟩
    refine ⟨h, hh, ?_⟩
    rw [if_neg (by simpa using hseen)]
    simp only [hk, hout]
    rfl

theorem effectiveRefId_ne (h : Header) (index : Nat) : effectiveRefId h index ≠ "" := by
  rw [effectiveRefId]
  split
  · exact Text.ofNat_ne _
  · rename_i hr
    simpa using hr

theorem effectiveRefId_again (h : Header) (index : Nat) :
    effectiveRefId { h with refId := effectiveRefId h index } index = effectiveRefId h index := by
  have hne := effectiveRefId_ne h index
  rw [effectiveRefId, if_neg (by simpa using hne)]

/-- A resolved stage resolves to itself at the same place. -/
theorem resolveStage_again (h : resolveStage r ctx seen raw = .ok (stage, refId)) :
    resolveStage r ctx seen stage = .ok (stage, refId) := by
  obtain ⟨header, k, hh, rfl, hseen, hk, hout⟩ := resolveStage_eq_ok_iff.mp h
  obtain ⟨header', hh', hstage⟩ := Kind.header_resolve hout
  cases hh.symm.trans hh'
  refine resolveStage_eq_ok_iff.mpr ⟨_, k, hstage, ?_, hseen, hk, Kind.resolve_again hout⟩
  exact (effectiveRefId_again header ctx.index).symm

/-- The stages `done` are `raws`, each resolved behind those before it; their `refId`s are
`seen`. -/
inductive Resolved (r : Registry) (application pipeline : String) (total : Nat) :
    List Members → List Members → List String → Prop
  | nil : Resolved r application pipeline total [] [] []
  | snoc {raws done : List Members} {seen : List String} {raw stage : Members} {refId : String}
      (h : Resolved r application pipeline total raws done seen)
      (hs : resolveStage r ⟨application, pipeline, done.length, done, total⟩ seen raw =
        .ok (stage, refId)) :
      Resolved r application pipeline total (raws ++ [raw]) (done ++ [stage]) (seen ++ [refId])

section Run

variable {application pipeline : String} {total : Nat} {raws done : List Members}

namespace Resolved

theorem length_eq (h : Resolved r application pipeline total raws done seen) :
    done.length = raws.length := by
  induction h with
  | nil => rfl
  | snoc h hs ih => simp [ih]

theorem again (h : Resolved r application pipeline total raws done seen) :
    Resolved r application pipeline total done done seen := by
  induction h with
  | nil => exact .nil
  | snoc h hs ih => exact .snoc ih (resolveStage_again hs)

theorem within {n : Nat} (hn : 4 ≤ n) (h : Resolved r application pipeline total raws done seen)
    (hraws : ∀ raw ∈ raws, raw.Within n) : ∀ stage ∈ done, stage.Sorted ∧ stage.Within n := by
  induction h with
  | nil => simp
  | snoc h hs ih =>
    obtain ⟨_, _, -, -, -, -, hout⟩ := resolveStage_eq_ok_iff.mp hs
    simp only [List.forall_mem_append, List.forall_mem_singleton] at hraws ⊢
    exact ⟨ih hraws.1, Kind.within_resolve hn hraws.2 hout⟩

/-- A stage was resolved behind those before it. -/
theorem stage_at (h : Resolved r application pipeline total raws done seen) {i : Nat}
    (hi : done[i]? = some stage) :
    ∃ raws' seen' raw refId, Resolved r application pipeline total raws' (done.take i) seen' ∧
      resolveStage r ⟨application, pipeline, (done.take i).length, done.take i, total⟩ seen' raw =
        .ok (stage, refId) := by
  induction h with
  | nil => cases hi
  | @snoc raws done seen raw stage' refId h hs ih =>
    rcases Nat.lt_trichotomy i done.length with hlt | rfl | hgt
    · rw [List.getElem?_append_left hlt] at hi
      rw [List.take_append_of_le_length (by omega)]
      exact ih hi
    · rw [List.getElem?_concat_length] at hi
      cases hi
      rw [List.take_left]
      exact ⟨raws, seen, raw, refId, h, hs⟩
    · rw [List.getElem?_eq_none (by simp; omega)] at hi
      cases hi

/-- The stage at a position was resolved from the one that stood there. -/
theorem input_at (h : Resolved r application pipeline total raws done seen) {i : Nat}
    (hraw : raws[i]? = some raw) (hstage : done[i]? = some stage) :
    ∃ ctx seen' refId, ctx.index = i ∧ resolveStage r ctx seen' raw = .ok (stage, refId) := by
  induction h with
  | nil => cases hraw
  | @snoc raws done seen raw' stage' refId h hs ih =>
    have hlength := h.length_eq
    rcases Nat.lt_trichotomy i done.length with hlt | rfl | hgt
    · rw [List.getElem?_append_left (by omega)] at hraw
      rw [List.getElem?_append_left hlt] at hstage
      exact ih hraw hstage
    · rw [List.getElem?_concat_length] at hstage
      rw [hlength, List.getElem?_concat_length] at hraw
      cases hraw
      cases hstage
      exact ⟨_, seen, refId, rfl, hs⟩
    · rw [List.getElem?_eq_none (by simp; omega)] at hstage
      cases hstage

/-- The run over all stages gets to where these are resolved. -/
theorem resolveFrom_append (h : Resolved r application pipeline total raws done seen)
    (rest : List Members) :
    resolveFrom r application pipeline total [] [] (raws ++ rest) =
      resolveFrom r application pipeline total done seen rest := by
  induction h generalizing rest with
  | nil => rfl
  | snoc h hs ih =>
    rw [List.append_assoc, ih, List.singleton_append, resolveFrom]
    simp only [hs]

end Resolved

/-- A run resolves all stages, or stops at the first that fails and leaves it and the rest. -/
theorem Resolved.run (h : Resolved r application pipeline total raws done seen)
    (rest : List Members) :
    (∃ out seen', Resolved r application pipeline total (raws ++ rest) out seen' ∧
      resolveFrom r application pipeline total done seen rest = ⟨out, none⟩) ∨
    ∃ first raw last done' seen' e, rest = first ++ raw :: last ∧
      Resolved r application pipeline total (raws ++ first) done' seen' ∧
      resolveStage r ⟨application, pipeline, done'.length, done', total⟩ seen' raw = .error e ∧
      resolveFrom r application pipeline total done seen rest =
        ⟨done' ++ raw :: last, some e⟩ := by
  induction rest generalizing raws done seen with
  | nil => exact .inl ⟨done, seen, by simpa using h, rfl⟩
  | cons raw rest ih =>
    cases hs : resolveStage r ⟨application, pipeline, done.length, done, total⟩ seen raw with
    | error e =>
      exact .inr ⟨[], raw, rest, done, seen, e, rfl, by simpa using h, hs, by
        simp only [resolveFrom, hs]⟩
    | ok out =>
      obtain ⟨stage, refId⟩ := out
      have hrun : resolveFrom r application pipeline total done seen (raw :: rest) =
          resolveFrom r application pipeline total (done ++ [stage]) (seen ++ [refId]) rest := by
        simp only [resolveFrom, hs]
      rw [hrun]
      rcases ih (h.snoc hs) with ⟨out, seen', hout, he⟩ |
        ⟨first, raw', last, done', seen', e, hrest, hd, hf, he⟩
      · exact .inl ⟨out, seen', by simpa using hout, he⟩
      · exact .inr ⟨raw :: first, raw', last, done', seen', e, by rw [hrest]; rfl,
          by simpa using hd, hf, he⟩

theorem resolve_eq_ok_iff {stages out : List Members} :
    resolve r application pipeline stages = .ok out ↔
      ∃ seen, Resolved r application pipeline stages.length stages out seen := by
  constructor
  · intro h
    rw [resolve, resolveAll] at h
    rcases Resolved.run .nil stages with ⟨out', seen, hout, he⟩ | ⟨_, _, _, _, _, _, _, _, _, he⟩
    · rw [he] at h
      cases h
      exact ⟨seen, hout⟩
    · rw [he] at h
      cases h
  · rintro ⟨seen, h⟩
    have hrun := h.resolveFrom_append []
    rw [List.append_nil] at hrun
    rw [resolve, resolveAll, hrun]
    rfl

theorem within_resolve {n : Nat} {stages out : List Members} (hn : 6 ≤ n)
    (hs : (Json.arr (stages.map .obj)).Within n)
    (h : resolve r application pipeline stages = .ok out) :
    (Json.arr (out.map .obj)).Within n := by
  obtain ⟨n, rfl⟩ := Nat.exists_eq_add_of_le' hn
  obtain ⟨seen, h⟩ := resolve_eq_ok_iff.mp h
  have hraws : ∀ raw ∈ stages, raw.Within (n + 4) := fun raw hraw ↦ by
    obtain ⟨-, k, hk, hw⟩ := (Json.within_arr_iff.mp hs _ (List.mem_map_of_mem hraw)).obj_inv
    exact hw.mono (by omega)
  have hout := h.within (by omega) hraws
  simp only [Json.within_arr_iff, List.forall_mem_map]
  exact fun stage hstage ↦ .obj (hout stage hstage).1 (hout stage hstage).2

theorem resolve_again {stages out : List Members}
    (h : resolve r application pipeline stages = .ok out) :
    resolve r application pipeline out = .ok out := by
  obtain ⟨seen, h⟩ := resolve_eq_ok_iff.mp h
  refine resolve_eq_ok_iff.mpr ⟨seen, ?_⟩
  rw [h.length_eq]
  exact h.again

end Run

end DeliveryCharts.Stage
