import DeliveryCharts.Proofs.Platform.Requests
import DeliveryCharts.Proofs.Record

/-!
Plans and what comes of them. A plan leaves the platform as it is, and it reports what applying the
same set from there would do.
-/

namespace DeliveryCharts.Platform

open Manifest (Compiled ManifestSet)

theorem existingText_congr {s t : Objects} {c : Compiled}
    (h : t.get? (.ofCompiled c) = s.get? (.ofCompiled c)) :
    existingText t c = existingText s c := by
  rw [existingText, existingText, h]

namespace Store

variable {o : Options} {c : Compiled} {cs : List Compiled} {s t u : Store}
  {reports : List Report}

theorem on_reconcile_of_dryRun (ho : o.dryRun = true) :
    (client.reconcile o c).on s = ((existingText s.objects c).map (reportOf o c), s.asked) := by
  rw [on_reconcile]
  cases existingText s.objects c with
  | error e => rfl
  | ok existing => simp [reportOf, ho, Except.map]

/-- A plan only asks. -/
theorem dryRun_frame (ho : o.dryRun = true) (cs : List Compiled) (s : Store) :
    ∃ n, ((cs.mapM (client.reconcile o)).on s).2 = { s with gets := s.gets + n } := by
  induction cs generalizing s with
  | nil => exact ⟨0, rfl⟩
  | cons c cs ih =>
    rw [List.mapM_cons, Request.on_bind, on_reconcile_of_dryRun ho]
    cases existingText s.objects c with
    | error e => exact ⟨1, rfl⟩
    | ok existing =>
      obtain ⟨n, hn⟩ := ih s.asked
      refine ⟨n + 1, ?_⟩
      have hasked : ({ s.asked with gets := s.asked.gets + n } : Store) =
          { s with gets := s.gets + (n + 1) } := by
        simp only [asked, Store.mk.injEq, true_and, and_true]
        omega
      rw [← hasked, ← hn]
      simp only [Except.map, Request.on_bind]
      obtain ⟨e | reports, t⟩ := (cs.mapM (client.reconcile o)).on s.asked <;> rfl

theorem Reconciles.mem_reports (h : Reconciles o cs s reports t) :
    ∀ r ∈ reports, ∃ c existing, r = reportOf o c existing := by
  induction h with
  | nil => simp
  | cons h hs ih =>
    obtain ⟨existing, -, hr, -⟩ := on_reconcile_eq_ok_iff.mp h
    exact List.forall_mem_cons.mpr ⟨⟨_, existing, hr⟩, ih⟩

/-- Where two platforms agree on the objects of a set, what one of them is asked to save does not
change what the other is asked for later. -/
theorem agree_of_on_reconcile {report : Report}
    (hd : ((c :: cs).map Object.ofCompiled).Nodup)
    (hagree : ∀ d ∈ c :: cs, t.objects.get? (.ofCompiled d) = s.objects.get? (.ofCompiled d))
    (h : (client.reconcile o c).on t = (.ok report, u)) :
    ∀ d ∈ cs, u.objects.get? (.ofCompiled d) = s.asked.objects.get? (.ofCompiled d) := by
  intro d hmem
  have hne : Object.ofCompiled d ≠ .ofCompiled c := fun he ↦
    (List.nodup_cons.mp hd).1 (he ▸ List.mem_map_of_mem hmem)
  rw [get?_of_on_reconcile h hne]
  exact hagree d (List.mem_cons_of_mem _ hmem)

/-- What was applied is planned in the same way. -/
theorem Reconciles.plan (h : Reconciles (.apply true) cs t reports u)
    (hd : (cs.map Object.ofCompiled).Nodup)
    (hagree : ∀ c ∈ cs, t.objects.get? (.ofCompiled c) = s.objects.get? (.ofCompiled c)) :
    ∃ v, Reconciles .plan cs s (reports.map fun r ↦ { r with saved := false }) v := by
  induction h generalizing s with
  | nil => exact ⟨s, .nil s⟩
  | @cons c cs t t' u report reports h hs ih =>
    obtain ⟨existing, he, rfl, -⟩ := on_reconcile_eq_ok_iff.mp h
    rw [existingText_congr (hagree c List.mem_cons_self)] at he
    have hplan : (client.reconcile .plan c).on s =
        (.ok { reportOf (.apply true) c existing with saved := false }, s.asked) := by
      rw [on_reconcile_of_dryRun rfl, he]
      rfl
    obtain ⟨v, hv⟩ := ih (List.nodup_cons.mp hd).2 (agree_of_on_reconcile hd hagree h)
    exact ⟨v, .cons hplan hv⟩

/-- Where a plan fails, applying the set fails there or before. -/
theorem FailsAt.apply {k : Nat} {e : Failure} (h : FailsAt .plan cs s k e u) (showDiff : Bool)
    (hd : (cs.map Object.ofCompiled).Nodup)
    (hagree : ∀ c ∈ cs, t.objects.get? (.ofCompiled c) = s.objects.get? (.ofCompiled c)) :
    ∃ k' e' t', k' ≤ k ∧ FailsAt (.apply showDiff) cs t k' e' t' := by
  induction h generalizing t with
  | @here c cs s u e h =>
    rw [on_reconcile_of_dryRun rfl] at h
    have he : existingText t.objects c = .error e := by
      rw [existingText_congr (hagree c List.mem_cons_self)]
      cases hs : existingText s.objects c with
      | error e' => rw [hs] at h; cases h; rfl
      | ok existing => rw [hs] at h; cases h
    exact ⟨0, e, t.asked, Nat.le_refl _, .here (by rw [on_reconcile, he])⟩
  | @later c cs s s' u report k e h hs ih =>
    rw [on_reconcile_of_dryRun rfl] at h
    obtain rfl : s.asked = s' := congrArg Prod.snd h
    cases happly : (client.reconcile (.apply showDiff) c).on t with
    | mk answer t' =>
      cases answer with
      | error e' => exact ⟨0, e', t', Nat.zero_le _, .here happly⟩
      | ok report' =>
        obtain ⟨k', e', t'', hk, hf⟩ :=
          ih (List.nodup_cons.mp hd).2 (agree_of_on_reconcile hd hagree happly)
        exact ⟨k' + 1, e', t'', Nat.succ_le_succ hk, .later happly hf⟩

/-- A plan leaves all objects as they are, whether it fails or not. What applying a set of different
objects reports, its plan reports as well, and where the plan fails, applying the set fails there or
before. -/
theorem plan_predicts_apply (s : Store) (set : ManifestSet)
    (hd : (set.objects.map Object.ofCompiled).Nodup) :
    (∀ o : Options, o.dryRun = true →
      ∃ n, ((client.reconcileAll o set).on s).2 = { s with gets := s.gets + n }) ∧
    (∀ reports t, (client.reconcileAll (.apply true) set).on s = (.ok reports, t) →
      (∃ u, (client.reconcileAll .plan set).on s =
        (.ok (reports.map fun r ↦ { r with saved := false }), u)) ∧
      ∀ r ∈ reports, r.saved = true ↔ r.outcome ≠ .unchanged) ∧
    (∀ o e t, (client.reconcileAll o set).on s = (.error e, t) ↔
      ∃ k, FailsAt o set.objects s k e t) ∧
    ∀ k e t, FailsAt .plan set.objects s k e t → ∀ showDiff,
      ∃ k' e' t', k' ≤ k ∧ FailsAt (.apply showDiff) set.objects s k' e' t' := by
  refine ⟨fun o ho ↦ dryRun_frame ho set.objects s, fun reports t h ↦ ?_,
    fun o e t ↦ on_mapM_eq_error_iff, fun k e t h showDiff ↦ h.apply showDiff hd fun _ _ ↦ rfl⟩
  have happly := on_mapM_eq_ok_iff.mp h
  obtain ⟨u, hu⟩ := happly.plan hd (s := s) fun _ _ ↦ rfl
  refine ⟨⟨u, on_mapM_eq_ok_iff.mpr hu⟩, fun r hr ↦ ?_⟩
  obtain ⟨c, existing, rfl⟩ := happly.mem_reports r hr
  simp [reportOf, Options.apply]

section Witness

def shop : Manifest.ApplicationManifest :=
  ⟨"spinnaker.adobe.com/alpha1", ⟨"Shop"⟩, { name := "shop" }⟩

def release : Manifest.PipelineManifest :=
  ⟨"spinnaker.adobe.com/alpha1", ⟨"release", "Shop"⟩, { application := "shop", name := "release" }⟩

def shopSet : ManifestSet := ⟨[shop], [release]⟩

/-- The copy of the pipeline cannot be read. -/
def damaged : Store := { objects := [(.pipeline "shop" "release", [0x78])] }

theorem plan_predicts_apply_shop :
    ((client.reconcileAll (.apply true) shopSet).on {}).1 =
      .ok [⟨.application "shop", .new, none, true⟩,
        ⟨.pipeline "shop" "release", .new, none, true⟩] ∧
    ((client.reconcileAll .plan shopSet).on {}).1 =
      .ok [⟨.application "shop", .new, none, false⟩,
        ⟨.pipeline "shop" "release", .new, none, false⟩] ∧
    ∃ k' e' t', k' ≤ 1 ∧ FailsAt (.apply false) shopSet.objects damaged k' e' t' := by
  have hd : (shopSet.objects.map Object.ofCompiled).Nodup := by decide
  have happly : ((client.reconcileAll (.apply true) shopSet).on {}).1 =
      .ok [⟨.application "shop", .new, none, true⟩,
        ⟨.pipeline "shop" "release", .new, none, true⟩] := by decide +kernel
  have happlication : (client.reconcile .plan (.application shop)).on damaged =
      (.ok ⟨.application "shop", .new, none, false⟩, damaged.asked) := by decide +kernel
  have hpipeline : (client.reconcile .plan (.pipeline release)).on damaged.asked =
      (.error (.core (.decode "existing pipeline" "expected value")), damaged.asked.asked) := by
    decide +kernel
  obtain ⟨-, hreports, -, -⟩ := plan_predicts_apply {} shopSet hd
  obtain ⟨-, -, -, hfails⟩ := plan_predicts_apply damaged shopSet hd
  obtain ⟨⟨u, hplan⟩, -⟩ := hreports _ _ (Prod.ext happly rfl)
  exact ⟨happly, congrArg Prod.fst hplan,
    hfails 1 _ _ (.later happlication (.here hpipeline)) false⟩

end Witness

end Store

end DeliveryCharts.Platform
