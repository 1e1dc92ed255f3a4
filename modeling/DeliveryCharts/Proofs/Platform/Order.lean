import DeliveryCharts.Proofs.Manifest.Compiled
import DeliveryCharts.Proofs.Platform.Reconciliation

/-!
The order of the documents of a set. Objects of one kind do not depend on each other, so that a set
is applied in any order with the same result; and a pipeline cannot be saved only where its
application is neither stored nor in the set.
-/

namespace DeliveryCharts

open Manifest (Compiled Kind ManifestSet)

namespace Manifest

namespace ManifestSet

theorem filterMap_application? (s : ManifestSet) :
    s.objects.filterMap Compiled.application? = s.applications := by
  simp [objects, List.filterMap_append, List.filterMap_map, Function.comp_def,
    Compiled.application?]

theorem filterMap_pipeline? (s : ManifestSet) :
    s.objects.filterMap Compiled.pipeline? = s.pipelines := by
  simp [objects, List.filterMap_append, List.filterMap_map, Function.comp_def, Compiled.pipeline?]

theorem perm_of_objects {A B : ManifestSet} (h : A.objects.Perm B.objects) :
    A.applications.Perm B.applications ∧ A.pipelines.Perm B.pipelines := by
  rw [← A.filterMap_application?, ← B.filterMap_application?, ← A.filterMap_pipeline?,
    ← B.filterMap_pipeline?]
  exact ⟨h.filterMap _, h.filterMap _⟩

end ManifestSet

end Manifest

namespace Platform

namespace Store

/-- Two platforms hold the same objects with the same JSON. -/
def SameObjects (s t : Store) : Prop :=
  ∀ object, s.objects.get? object = t.objects.get? object

variable {o o' : Options} {c d : Compiled} {cs ds : List Compiled} {s s' t t' : Store}
  {report : Report} {reports : List Report}

theorem SameObjects.trans {u : Store} (h : SameObjects s t) (h' : SameObjects t u) :
    SameObjects s u :=
  fun object ↦ (h object).trans (h' object)

theorem SameObjects.hasOwner_eq (h : SameObjects s t) (object : Object) :
    t.hasOwner object = s.hasOwner object := by
  cases object with
  | application => rfl
  | pipeline app name => simp only [hasOwner, Objects.contains, h (.application app)]

/-- What comes of an object depends on its copy and on the presence of its owner only. -/
theorem on_reconcile_local (ho : o'.dryRun = o.dryRun)
    (hget : s'.objects.get? (.ofCompiled c) = s.objects.get? (.ofCompiled c))
    (howner : s'.hasOwner (.ofCompiled c) = s.hasOwner (.ofCompiled c))
    (h : (client.reconcile o c).on s = (.ok report, t)) :
    ∃ report' t', (client.reconcile o' c).on s' = (.ok report', t') ∧
      t'.objects.get? (.ofCompiled c) = t.objects.get? (.ofCompiled c) := by
  obtain ⟨existing, he, rfl, ht⟩ := on_reconcile_eq_ok_iff.mp h
  rw [← existingText_congr hget] at he
  have hsaved : (reportOf o' c existing).saved = (reportOf o c existing).saved := by
    simp only [reportOf, ho]
  by_cases hs : (reportOf o c existing).saved = true
  · rw [if_pos hs] at ht
    obtain ⟨hown, rfl⟩ := ht
    refine ⟨_, s'.asked.saved c, on_reconcile_eq_ok_iff.mpr ⟨existing, he, rfl, ?_⟩, ?_⟩
    · rw [if_pos (hsaved.trans hs)]
      exact ⟨howner.trans hown, rfl⟩
    · simp only [saved, insert, Objects.get?_insert]
      simp
  · rw [if_neg hs] at ht
    subst ht
    refine ⟨_, s'.asked, on_reconcile_eq_ok_iff.mpr ⟨existing, he, rfl, ?_⟩, hget⟩
    rw [if_neg (hsaved ▸ hs)]

theorem on_reconcile_congr (ho : o'.dryRun = o.dryRun) (hs : SameObjects s s')
    (h : (client.reconcile o c).on s = (.ok report, t)) :
    ∃ report' t', (client.reconcile o' c).on s' = (.ok report', t') ∧ SameObjects t t' := by
  obtain ⟨report', t', h', hget⟩ :=
    on_reconcile_local ho (hs _).symm (hs.hasOwner_eq _) h
  refine ⟨report', t', h', fun object ↦ ?_⟩
  by_cases hobject : object = .ofCompiled c
  · rw [hobject, hget]
  · rw [get?_of_on_reconcile h hobject, get?_of_on_reconcile h' hobject, hs]

theorem Reconciles.congr (ho : o'.dryRun = o.dryRun) (hs : SameObjects s s')
    (h : Reconciles o cs s reports t) :
    ∃ reports' t', Reconciles o' cs s' reports' t' ∧ SameObjects t t' := by
  induction h generalizing s' with
  | nil => exact ⟨[], s', .nil s', hs⟩
  | cons h _ ih =>
    obtain ⟨_, _, h', hs'⟩ := on_reconcile_congr ho hs h
    obtain ⟨_, t', hrun, ht⟩ := ih hs'
    exact ⟨_, t', .cons h' hrun, ht⟩

/-- Saving an object does not give an owner to another one of its kind. -/
theorem hasOwner_of_on_reconcile (hk : c.kind = d.kind)
    (h : (client.reconcile o c).on s = (.ok report, t)) :
    t.hasOwner (.ofCompiled d) = s.hasOwner (.ofCompiled d) := by
  cases d with
  | application => rfl
  | pipeline m =>
    cases c with
    | application => cases hk
    | pipeline m' =>
      have hne : Object.application m.spec.application ≠ .ofCompiled (.pipeline m') := by
        simp [Object.ofCompiled]
      simp only [Object.ofCompiled, hasOwner, Objects.contains, get?_of_on_reconcile h hne]

variable {k : Kind}

/-- Of objects of one kind, each is left as if it were the only one. -/
theorem Reconciles.get?_of_mem (hk : ∀ c ∈ cs, c.kind = k) (hd : (cs.map Object.ofCompiled).Nodup)
    (h : Reconciles o cs s reports t) (hc : c ∈ cs) :
    ∃ report s', (client.reconcile o c).on s = (.ok report, s') ∧
      s'.objects.get? (.ofCompiled c) = t.objects.get? (.ofCompiled c) := by
  induction h with
  | nil => cases hc
  | @cons c' cs s t' t report reports h hs ih =>
    obtain ⟨hhead, htail⟩ := List.forall_mem_cons.mp hk
    obtain ⟨hnot, hd⟩ := List.nodup_cons.mp hd
    rcases List.mem_cons.mp hc with rfl | hc
    · refine ⟨report, t', h, (hs.get?_eq fun d hd he ↦ hnot ?_).symm⟩
      exact he ▸ List.mem_map_of_mem hd
    · have hne : Object.ofCompiled c ≠ .ofCompiled c' := fun he ↦
        hnot (he ▸ List.mem_map_of_mem hc)
      obtain ⟨_, _, h', hget⟩ := ih htail hd hc
      obtain ⟨report', s', hs', hget'⟩ := on_reconcile_local rfl
        (get?_of_on_reconcile h hne).symm
        (hasOwner_of_on_reconcile (hhead.trans (htail c hc).symm) h).symm h'
      exact ⟨report', s', hs', hget'.trans hget⟩

/-- Objects of one kind can be reconciled one after the other if each of them can. -/
theorem exists_reconciles (hk : ∀ c ∈ cs, c.kind = k) (hd : (cs.map Object.ofCompiled).Nodup)
    (h : ∀ c ∈ cs, ∃ report t, (client.reconcile o c).on s = (.ok report, t)) :
    ∃ reports t, Reconciles o cs s reports t := by
  induction cs generalizing s with
  | nil => exact ⟨[], s, .nil s⟩
  | cons c cs ih =>
    obtain ⟨hhead, htail⟩ := List.forall_mem_cons.mp hk
    obtain ⟨hnot, hd⟩ := List.nodup_cons.mp hd
    obtain ⟨⟨report, s', hc⟩, hcs⟩ := List.forall_mem_cons.mp h
    have hcs' : ∀ d ∈ cs, ∃ report t, (client.reconcile o d).on s' = (.ok report, t) := by
      intro d hmem
      have hne : Object.ofCompiled d ≠ .ofCompiled c := fun he ↦
        hnot (he ▸ List.mem_map_of_mem hmem)
      obtain ⟨_, _, hd'⟩ := hcs d hmem
      obtain ⟨report', t', h', -⟩ := on_reconcile_local rfl (get?_of_on_reconcile hc hne)
        (hasOwner_of_on_reconcile (hhead.trans (htail d hmem).symm) hc) hd'
      exact ⟨report', t', h'⟩
    obtain ⟨reports, t, hrun⟩ := ih htail hd hcs'
    exact ⟨report :: reports, t, .cons hc hrun⟩

theorem Reconciles.perm (hk : ∀ c ∈ cs, c.kind = k) (hd : (cs.map Object.ofCompiled).Nodup)
    (hp : cs.Perm ds) (h : Reconciles o cs s reports t) :
    ∃ reports' t', Reconciles o ds s reports' t' ∧ SameObjects t t' := by
  have hk' : ∀ c ∈ ds, c.kind = k := fun c hc ↦ hk c (hp.mem_iff.mpr hc)
  have hd' : (ds.map Object.ofCompiled).Nodup := (hp.map _).nodup_iff.mp hd
  obtain ⟨reports', t', h'⟩ := exists_reconciles hk' hd' fun c hc ↦
    let ⟨report, s', hs', _⟩ := h.get?_of_mem hk hd (hp.mem_iff.mpr hc)
    ⟨report, s', hs'⟩
  refine ⟨reports', t', h', fun object ↦ ?_⟩
  by_cases hobject : ∃ c ∈ cs, object = .ofCompiled c
  · obtain ⟨c, hc, rfl⟩ := hobject
    obtain ⟨_, _, hs, hget⟩ := h.get?_of_mem hk hd hc
    obtain ⟨_, _, hs', hget'⟩ := h'.get?_of_mem hk' hd' (hp.mem_iff.mp hc)
    cases hs.symm.trans hs'
    exact hget.symm.trans hget'
  · have hne : ∀ c ∈ cs, object ≠ .ofCompiled c := fun c hc he ↦ hobject ⟨c, hc, he⟩
    rw [h.get?_eq hne, h'.get?_eq fun c hc ↦ hne c (hp.mem_iff.mpr hc)]

/-- A set of different objects is reconciled in any order with the same result. -/
theorem Reconciles.perm_objects {A B : ManifestSet} (h : Reconciles o A.objects s reports t)
    (ho : o'.dryRun = o.dryRun) (hd : (A.objects.map Object.ofCompiled).Nodup)
    (hp : A.objects.Perm B.objects) :
    ∃ reports' t', Reconciles o' B.objects s reports' t' ∧ SameObjects t t' := by
  have hall := ManifestSet.perm_of_objects hp
  rw [ManifestSet.objects, List.map_append] at hd
  obtain ⟨hda, hdp, -⟩ := List.nodup_append.mp hd
  obtain ⟨_, _, u, rfl, happs, hpipelines⟩ := reconciles_append_iff.mp h
  obtain ⟨_, u', happs', hu⟩ := happs.perm (k := .application) (by simp [Compiled.kind]) hda
    (hall.1.map _)
  obtain ⟨_, v, hpipelines', hv⟩ := hpipelines.perm (k := .pipeline) (by simp [Compiled.kind]) hdp
    (hall.2.map _)
  obtain ⟨_, v', hpipelines'', hv'⟩ := hpipelines'.congr rfl hu
  obtain ⟨reports', t', hrun, ht⟩ := Reconciles.congr ho (fun _ ↦ rfl)
    (reconciles_append_iff.mpr ⟨_, _, u', rfl, happs', hpipelines''⟩)
  exact ⟨reports', t', hrun, (hv.trans hv').trans ht⟩

/-- What is stored stays stored. -/
theorem contains_of_on_reconcile (h : (client.reconcile o c).on s = (.ok report, t))
    {object : Object} (hs : s.objects.contains object = true) :
    t.objects.contains object = true := by
  obtain ⟨existing, -, -, ht⟩ := on_reconcile_eq_ok_iff.mp h
  split at ht
  · obtain ⟨-, rfl⟩ := ht
    simp only [Objects.contains, saved, insert, Objects.get?_insert]
    split
    · rfl
    · exact hs
  · subst ht
    exact hs

/-- An object that has been applied is stored, also where there was nothing to save. -/
theorem contains_ofCompiled (ho : o.dryRun = false)
    (h : (client.reconcile o c).on s = (.ok report, t)) :
    t.objects.contains (.ofCompiled c) = true := by
  obtain ⟨existing, he, rfl, ht⟩ := on_reconcile_eq_ok_iff.mp h
  split at ht
  · obtain ⟨-, rfl⟩ := ht
    simp [Objects.contains, saved, insert, Objects.get?_insert]
  · rename_i hsaved
    subst ht
    cases hget : s.objects.get? (.ofCompiled c) with
    | some payload => simp only [Objects.contains, asked, hget, Option.isSome_some]
    | none =>
      rw [existingText, hget] at he
      cases he
      simp [reportOf, ho, compare] at hsaved

theorem Reconciles.contains (h : Reconciles o cs s reports t) {object : Object}
    (hs : s.objects.contains object = true) : t.objects.contains object = true := by
  induction h with
  | nil => exact hs
  | cons h _ ih => exact ih (contains_of_on_reconcile h hs)

theorem Reconciles.contains_of_mem (ho : o.dryRun = false) (h : Reconciles o cs s reports t)
    (hc : c ∈ cs) : t.objects.contains (.ofCompiled c) = true := by
  induction h with
  | nil => cases hc
  | cons h hs ih =>
    rcases List.mem_cons.mp hc with rfl | hc
    · exact hs.contains (contains_ofCompiled ho h)
    · exact ih hc

/-- An application is missing only for a pipeline, and neither the platform nor the set has it. -/
theorem FailsAt.owner_missing {set : ManifestSet} {k : Nat} {object : Object}
    (h : FailsAt o set.objects s k (.applicationMissing object) t) :
    ∃ m ∈ set.pipelines, object = .ofCompiled (.pipeline m) ∧
      s.objects.contains (.application m.spec.application) = false ∧
      ∀ a ∈ set.applications, a.spec.name ≠ m.spec.application := by
  obtain ⟨c, reports, u, hc, hrun, he⟩ := h.split
  obtain ⟨-, herror | ⟨ho, howner, hobject⟩⟩ := on_reconcile_eq_error he
  · rw [existingText] at herror
    split at herror
    · cases herror
    · rw [Except.mapError_eq_error_iff] at herror
      obtain ⟨_, -, ⟨⟩⟩ := herror
  · cases hobject
    cases c with
    | application => cases howner
    | pipeline m =>
      rw [ManifestSet.objects] at hc hrun
      have hk : set.applications.length ≤ k := by
        refine Nat.le_of_not_lt fun hk ↦ ?_
        rw [List.getElem?_append_left (by simpa using hk), List.getElem?_map] at hc
        obtain ⟨_, -, ⟨⟩⟩ := Option.map_eq_some_iff.mp hc
      rw [List.getElem?_append_right (by simpa using hk), List.getElem?_map] at hc
      obtain ⟨m', hm, ⟨⟩⟩ := Option.map_eq_some_iff.mp hc
      have hmissing : u.objects.contains (.application m.spec.application) = false := howner
      refine ⟨m, List.mem_of_getElem? hm, rfl, ?_, fun a ha hname ↦ ?_⟩
      · cases hs : s.objects.contains (.application m.spec.application) with
        | false => rfl
        | true =>
          rw [hrun.contains hs] at hmissing
          cases hmissing
      · have hstored := hrun.contains_of_mem ho (c := .application a) (by
          rw [List.take_append, List.take_of_length_le (by simpa using hk)]
          exact List.mem_append_left _ (List.mem_map_of_mem ha))
        rw [Object.ofCompiled, hname, hmissing] at hstored
        cases hstored

/-- Two sets of the same different objects, in any order, are applied with the same success and
leave the same platform. An application is missing only where a pipeline of the set is owned by one
that neither the platform nor the set has. -/
theorem apply_order_irrelevant (s : Store) :
    (∀ A B : ManifestSet, A.objects.Perm B.objects → (A.objects.map Object.ofCompiled).Nodup →
      ∀ showDiff showDiff',
        ((∃ reports t, (client.reconcileAll (.apply showDiff) A).on s = (.ok reports, t)) ↔
          ∃ reports t, (client.reconcileAll (.apply showDiff') B).on s = (.ok reports, t)) ∧
        ∀ reports t reports' t',
          (client.reconcileAll (.apply showDiff) A).on s = (.ok reports, t) →
          (client.reconcileAll (.apply showDiff') B).on s = (.ok reports', t') →
            ∀ object, t.objects.get? object = t'.objects.get? object) ∧
    ∀ o set object t, (client.reconcileAll o set).on s = (.error (.applicationMissing object), t) →
      ∃ m ∈ set.pipelines, object = .pipeline m.spec.application m.spec.name ∧
        s.objects.contains (.application m.spec.application) = false ∧
        ∀ a ∈ set.applications, a.spec.name ≠ m.spec.application := by
  have hdry (showDiff showDiff' : Bool) :
      (Options.apply showDiff').dryRun = (Options.apply showDiff).dryRun := rfl
  refine ⟨fun A B hp hd showDiff showDiff' ↦ ⟨⟨?_, ?_⟩, ?_⟩, fun o set object t h ↦ ?_⟩
  · rintro ⟨reports, t, h⟩
    obtain ⟨reports', t', h', -⟩ :=
      (on_mapM_eq_ok_iff.mp h).perm_objects (hdry showDiff showDiff') hd hp
    exact ⟨reports', t', on_mapM_eq_ok_iff.mpr h'⟩
  · rintro ⟨reports, t, h⟩
    obtain ⟨reports', t', h', -⟩ := (on_mapM_eq_ok_iff.mp h).perm_objects
      (hdry showDiff' showDiff) ((hp.map _).nodup_iff.mp hd) hp.symm
    exact ⟨reports', t', on_mapM_eq_ok_iff.mpr h'⟩
  · intro reports t reports' t' h h'
    obtain ⟨_, u, hu, hsame⟩ :=
      (on_mapM_eq_ok_iff.mp h).perm_objects (hdry showDiff showDiff') hd hp
    cases (on_mapM_eq_ok_iff.mpr hu).symm.trans h'
    exact hsame
  · obtain ⟨k, hk⟩ := on_mapM_eq_error_iff.mp h
    exact hk.owner_missing

section Witness

def web : Manifest.ApplicationManifest :=
  ⟨"spinnaker.adobe.com/alpha1", ⟨"Web"⟩, { name := "web" }⟩

def canary : Manifest.PipelineManifest :=
  ⟨"spinnaker.adobe.com/alpha1", ⟨"canary", "Web"⟩, { application := "web", name := "canary" }⟩

def ordered : ManifestSet := ⟨[shop, web], [release, canary]⟩

def reordered : ManifestSet := ⟨[web, shop], [canary, release]⟩

/-- An older copy of one of the applications. -/
def older : Store := { objects := [(.application "web", Text.utf8String "\x7b\x7d")] }

theorem apply_order_irrelevant_ordered :
    ordered.objects.Perm reordered.objects ∧
    (∃ reports t, (client.reconcileAll (.apply true) reordered).on older = (.ok reports, t)) ∧
    (∀ object, ((client.reconcileAll (.apply false) ordered).on older).2.objects.get? object =
      ((client.reconcileAll (.apply true) reordered).on older).2.objects.get? object) ∧
    ((client.reconcileAll (.apply true) ⟨[web], [release]⟩).on older).1 =
      .error (.applicationMissing (.pipeline "shop" "release")) ∧
    ∃ m ∈ [release], Object.pipeline "shop" "release" =
      .pipeline m.spec.application m.spec.name ∧
      older.objects.contains (.application m.spec.application) = false ∧
      ∀ a ∈ [web], a.spec.name ≠ m.spec.application := by
  have hp : ordered.objects.Perm reordered.objects := by decide
  have hd : (ordered.objects.map Object.ofCompiled).Nodup := by decide
  have happly : ((client.reconcileAll (.apply false) ordered).on older).1 =
      .ok [⟨.application "shop", .new, none, true⟩, ⟨.application "web", .changed, none, true⟩,
        ⟨.pipeline "shop" "release", .new, none, true⟩,
        ⟨.pipeline "web" "canary", .new, none, true⟩] := by decide +kernel
  have hfails : ((client.reconcileAll (.apply true) ⟨[web], [release]⟩).on older).1 =
      .error (.applicationMissing (.pipeline "shop" "release")) := by decide +kernel
  obtain ⟨horder, hmissing⟩ := apply_order_irrelevant older
  obtain ⟨hiff, hsame⟩ := horder ordered reordered hp hd false true
  obtain ⟨reports, t, hrun⟩ := hiff.mp ⟨_, _, Prod.ext happly rfl⟩
  refine ⟨hp, ⟨reports, t, hrun⟩, fun object ↦ ?_, hfails,
    hmissing _ _ _ _ (Prod.ext hfails rfl)⟩
  rw [hrun]
  exact hsame _ _ _ _ (Prod.ext happly rfl) hrun object

end Witness

end Store

end Platform

end DeliveryCharts
