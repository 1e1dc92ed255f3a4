import DeliveryCharts.Proofs.Manifest.Recompilation
import DeliveryCharts.Proofs.Manifest.Stored
import DeliveryCharts.Proofs.Platform.Reconciliation

/-!
Applying converges. What was applied is stored in a form that compares equal to the set, so that
reconciling the set once more finds nothing to do.
-/

namespace DeliveryCharts.Platform

open Manifest (Compiled ManifestSet loadText specDepth)

/-- The copy that is saved of an object has the canonical text of the object. -/
def Survives (c : Compiled) : Prop :=
  storedText c (Text.utf8String c.canonicalText) = .ok c.canonicalText

theorem survives_of_normal {c : Compiled} (h : c.Normal specDepth)
    (hi : c.toJson.isIntegral = true) : Survives c := by
  cases c with
  | application m =>
    exact Except.map_eq_ok_iff.mpr ⟨_, m.spec.ofPlatform_canonicalText, rfl⟩
  | pipeline m =>
    have hspec : m.spec.toJson.isIntegral = true :=
      Json.isIntegral_obj.mp hi ("spec", m.spec.toJson) (by simp)
    exact Except.map_eq_ok_iff.mpr
      ⟨_, Manifest.Pipeline.ofPlatform_canonicalText h (by decide) (by decide) hspec, rfl⟩

/-- The platform has a copy of the object that compares equal to it. -/
def InLine (s : Objects) (c : Compiled) : Prop :=
  existingText s c = .ok (some c.canonicalText)

theorem inLine_iff {s : Objects} {c : Compiled} :
    InLine s c ↔ ∃ payload, s.get? (.ofCompiled c) = some payload ∧
      storedText c payload = .ok c.canonicalText := by
  rw [InLine, existingText]
  cases s.get? (.ofCompiled c) with
  | none => simp
  | some payload => simp [Except.mapError_eq_ok_iff, Except.map_eq_ok_iff]

theorem compare_eq_unchanged_iff {existing : Option String} {compiled : String} :
    compare existing compiled = .unchanged ↔ existing = some compiled := by
  cases existing with
  | none => simp [compare]
  | some old => simp [compare]

theorem ne_of_nodup {first last : List Compiled} {c : Compiled}
    (h : ((first ++ c :: last).map Object.ofCompiled).Nodup) :
    ∀ d ∈ last, Object.ofCompiled d ≠ .ofCompiled c := by
  intro d hd he
  rw [List.map_append, List.map_cons] at h
  have hnot := (List.nodup_cons.mp (List.nodup_append.mp h).2.1).1
  exact hnot (he ▸ List.mem_map_of_mem hd)

namespace Store

variable {o : Options} {c : Compiled} {cs : List Compiled} {s t : Store} {reports : List Report}

theorem inLine_of_on_reconcile (ho : o.dryRun = false) (hc : Survives c) {report : Report}
    (h : (client.reconcile o c).on s = (.ok report, t)) : InLine t.objects c := by
  obtain ⟨existing, he, rfl, ht⟩ := on_reconcile_eq_ok_iff.mp h
  split at ht
  · obtain ⟨-, rfl⟩ := ht
    have hget := Objects.get?_insert s.asked.objects (.ofCompiled c) (.ofCompiled c)
      (Text.utf8String c.canonicalText)
    rw [if_pos rfl] at hget
    exact inLine_iff.mpr ⟨_, hget, hc⟩
  · rename_i hsaved
    subst ht
    have hsame : existing = some c.canonicalText :=
      compare_eq_unchanged_iff.mp (by simpa [reportOf, ho] using hsaved)
    rw [hsame] at he
    exact he

/-- The last object with its identity is in line after the run. -/
theorem Reconciles.inLine {first last : List Compiled}
    (h : Reconciles o (first ++ c :: last) s reports t) (ho : o.dryRun = false) (hc : Survives c)
    (hlast : ∀ d ∈ last, Object.ofCompiled d ≠ .ofCompiled c) : InLine t.objects c := by
  induction first generalizing s reports with
  | nil =>
    -- The objects behind it have other identities, so its copy stays as it was left.
    obtain _ | ⟨h, hs⟩ := h
    have hget := hs.get?_eq fun d hd ↦ (hlast d hd).symm
    rw [InLine, existingText_congr hget]
    exact inLine_of_on_reconcile ho hc h
  | cons d first ih =>
    obtain _ | ⟨-, hs⟩ := h
    exact ih hs

/-- What is reported of an object that is in line. -/
def settledReport (c : Compiled) : Report := ⟨.ofCompiled c, .unchanged, none, false⟩

theorem on_reconcile_of_inLine (o : Options) (h : InLine s.objects c) :
    (client.reconcile o c).on s = (.ok (settledReport c), s.asked) := by
  refine on_reconcile_eq_ok_iff.mpr ⟨_, h, ?_, rfl⟩
  simp [settledReport, reportOf, compare, diffOf]

/-- Where all objects are in line, the platform is only asked for them. -/
theorem on_mapM_of_inLine (o : Options) (h : ∀ c ∈ cs, InLine s.objects c) :
    (cs.mapM (client.reconcile o)).on s =
      (.ok (cs.map settledReport), { s with gets := s.gets + cs.length }) := by
  induction cs generalizing s with
  | nil => rfl
  | cons c cs ih =>
    obtain ⟨hc, hcs⟩ := List.forall_mem_cons.mp h
    rw [List.mapM_cons, Request.on_bind, on_reconcile_of_inLine o hc]
    simp only [Request.on_bind]
    rw [ih (s := s.asked) hcs]
    simp only [Request.on_pure, asked, List.map_cons, List.length_cons, Nat.add_assoc,
      Nat.add_comm 1]

/-- Where applying a loaded set succeeds, the platform holds a copy of the last object with each
identity, and the canonical text of the copy is that of the object. If no two objects share an
identity, reconciling the set again finds all of them unchanged and only asks for them. -/
theorem apply_converges {r : Stage.Registry} {text : String} {set : ManifestSet}
    (hload : loadText r text = .ok set) (hint : ∀ c ∈ set.objects, c.toJson.isIntegral = true)
    {showDiff : Bool}
    (happly : (client.reconcileAll (.apply showDiff) set).on s = (.ok reports, t)) :
    (∀ first c last, set.objects = first ++ c :: last →
      (∀ d ∈ last, Object.ofCompiled d ≠ .ofCompiled c) →
        ∃ payload, t.objects.get? (.ofCompiled c) = some payload ∧
          storedText c payload = .ok c.canonicalText) ∧
    ((set.objects.map Object.ofCompiled).Nodup → ∀ o,
      (client.reconcileAll o set).on t =
        (.ok (set.objects.map fun c ↦ ⟨.ofCompiled c, .unchanged, none, false⟩),
          { t with gets := t.gets + set.objects.length })) := by
  have hrun := on_mapM_eq_ok_iff.mp happly
  have hsurvives : ∀ c ∈ set.objects, Survives c := fun c hc ↦
    survives_of_normal (Manifest.normal_of_loadText hload c hc) (hint c hc)
  have hinLine : ∀ first c last, set.objects = first ++ c :: last →
      (∀ d ∈ last, Object.ofCompiled d ≠ .ofCompiled c) → InLine t.objects c := by
    intro first c last hsplit hlast
    have hc := hsurvives c (hsplit ▸ List.mem_append_right first List.mem_cons_self)
    rw [hsplit] at hrun
    exact hrun.inLine rfl hc hlast
  refine ⟨fun first c last hsplit hlast ↦ inLine_iff.mp (hinLine first c last hsplit hlast),
    fun hd o ↦ on_mapM_of_inLine o fun c hc ↦ ?_⟩
  obtain ⟨first, last, hsplit⟩ := List.append_of_mem hc
  exact hinLine first c last hsplit (ne_of_nodup (hsplit ▸ hd))

section Witness

/-- The platform after the set was applied to an empty one. -/
def strictStore : Store := ((client.reconcileAll (.apply true) strictSet).on {}).2

theorem apply_converges_weakText :
    loadText .builtin weakText = .ok strictSet ∧
    ((client.reconcileAll (.apply true) strictSet).on {}).1 =
      .ok [⟨.application "shop", .new, none, true⟩,
        ⟨.pipeline "shop" "release", .new, none, true⟩] ∧
    (∀ c ∈ strictSet.objects, ∃ payload, strictStore.objects.get? (.ofCompiled c) = some payload ∧
      storedText c payload = .ok c.canonicalText) ∧
    (client.reconcileAll .plan strictSet).on strictStore =
      (.ok [⟨.application "shop", .unchanged, none, false⟩,
          ⟨.pipeline "shop" "release", .unchanged, none, false⟩],
        { strictStore with gets := strictStore.gets + 2 }) := by
  have hint : ∀ c ∈ strictSet.objects, c.toJson.isIntegral = true := by decide
  have hd : (strictSet.objects.map Object.ofCompiled).Nodup := by decide
  have happly : ((client.reconcileAll (.apply true) strictSet).on {}).1 =
      .ok [⟨.application "shop", .new, none, true⟩,
        ⟨.pipeline "shop" "release", .new, none, true⟩] := by decide
  obtain ⟨hstored, hagain⟩ := apply_converges loadText_weakText hint (Prod.ext happly rfl)
  refine ⟨loadText_weakText, happly, fun c hc ↦ ?_, hagain hd .plan⟩
  obtain ⟨first, last, hsplit⟩ := List.append_of_mem hc
  exact hstored first c last hsplit (ne_of_nodup (hsplit ▸ hd))

end Witness

end Store

end DeliveryCharts.Platform
