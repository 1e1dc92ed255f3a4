import DeliveryCharts.Proofs.Platform.Convergence

/-!
Runs that fail. The platform is left as a run over the objects before the one that failed leaves it.
-/

namespace DeliveryCharts

open Manifest (Compiled ManifestSet loadText)
open Text (utf8String)

namespace Manifest.ManifestSet

/-- The set of the first `k` objects. -/
def take (s : ManifestSet) (k : Nat) : ManifestSet :=
  ⟨s.applications.take k, s.pipelines.take (k - s.applications.length)⟩

theorem objects_take (s : ManifestSet) (k : Nat) : (s.take k).objects = s.objects.take k := by
  simp [take, objects, List.take_append]

end Manifest.ManifestSet

namespace Platform.Store

variable {o : Options} {c d : Compiled} {cs : List Compiled} {s t : Store} {report : Report}
  {reports : List Report} {object : Object}

theorem object_of_on_reconcile (h : (client.reconcile o c).on s = (.ok report, t)) :
    report.object = .ofCompiled c := by
  obtain ⟨_, -, rfl, -⟩ := on_reconcile_eq_ok_iff.mp h
  rfl

/-- An object that is saved is stored as its canonical text. -/
theorem get?_of_saved (h : (client.reconcile o c).on s = (.ok report, t))
    (hsaved : report.saved = true) :
    t.objects.get? (.ofCompiled c) = some (utf8String c.canonicalText) := by
  obtain ⟨_, -, -, ht⟩ := on_reconcile_eq_ok_iff.mp h
  rw [if_pos hsaved] at ht
  obtain ⟨-, rfl⟩ := ht
  exact (Objects.get?_insert _ _ _ _).trans (if_pos rfl)

/-- An object that is not saved leaves the platform as it is, which then has an equal copy. -/
theorem inLine_of_not_saved (ho : o.dryRun = false)
    (h : (client.reconcile o c).on s = (.ok report, t)) (hsaved : report.saved = false) :
    t.objects = s.objects ∧ InLine s.objects c := by
  obtain ⟨existing, he, rfl, ht⟩ := on_reconcile_eq_ok_iff.mp h
  rw [if_neg (by simp [hsaved])] at ht
  have hsame : existing = some c.canonicalText :=
    compare_eq_unchanged_iff.mp (by simpa [reportOf, ho] using hsaved)
  rw [hsame] at he
  exact ⟨ht ▸ rfl, he⟩

/-- Where no save concerns an identity, its copy stays, and equals every object with the identity. -/
theorem Reconciles.unsaved (ho : o.dryRun = false) (h : Reconciles o cs s reports t)
    (hsaved : ∀ r ∈ reports, r.object = object → r.saved = false) :
    t.objects.get? object = s.objects.get? object ∧
      ∀ c ∈ cs, .ofCompiled c = object → InLine s.objects c := by
  induction h with
  | nil => simp
  | @cons c cs s s' t report reports h _ ih =>
    obtain ⟨hhead, htail⟩ := List.forall_mem_cons.mp hsaved
    obtain ⟨hget, hcs⟩ := ih htail
    rw [object_of_on_reconcile h] at hhead
    by_cases hc : .ofCompiled c = object
    · obtain ⟨hs, hinLine⟩ := inLine_of_not_saved ho h (hhead hc)
      rw [hs] at hget hcs
      exact ⟨hget, List.forall_mem_cons.mpr ⟨fun _ ↦ hinLine, hcs⟩⟩
    · have hs := get?_of_on_reconcile h (Ne.symm hc)
      refine ⟨hget.trans hs, List.forall_mem_cons.mpr ⟨fun he ↦ absurd he hc, fun d hd he ↦ ?_⟩⟩
      have hinLine := hcs d hd he
      rwa [InLine, existingText_congr (he ▸ hs)] at hinLine

theorem Reconciles.dryRun_of_saved (h : Reconciles o cs s reports t) (hr : report ∈ reports)
    (hsaved : report.saved = true) : o.dryRun = false := by
  obtain ⟨c, existing, rfl⟩ := h.mem_reports report hr
  simp only [reportOf, Bool.and_eq_true, Bool.not_eq_true'] at hsaved
  exact hsaved.1

/-- An identity that was saved has the canonical text of the last object that was saved with it,
and the objects with it that come later compare equal to that. -/
theorem Reconciles.last_saved (h : Reconciles o cs s reports t)
    (hsaved : ∃ r ∈ reports, r.object = object ∧ r.saved = true) :
    ∃ first c last, cs = first ++ c :: last ∧ .ofCompiled c = object ∧
      t.objects.get? object = some (utf8String c.canonicalText) ∧
      ∀ d ∈ last, .ofCompiled d = object →
        storedText d (utf8String c.canonicalText) = .ok d.canonicalText := by
  induction h with
  | nil => simp at hsaved
  | @cons c cs s s' t report reports h hs ih =>
    -- A later object was saved with the identity, or this one is the last that was.
    by_cases htail : ∃ r ∈ reports, r.object = object ∧ r.saved = true
    · obtain ⟨first, d, last, rfl, hd⟩ := ih htail
      exact ⟨c :: first, d, last, rfl, hd⟩
    · obtain ⟨r, hr, hobject, hsave⟩ := hsaved
      obtain rfl : r = report := by
        rcases List.mem_cons.mp hr with rfl | hr
        · rfl
        · exact absurd ⟨r, hr, hobject, hsave⟩ htail
      have hc : .ofCompiled c = object := (object_of_on_reconcile h).symm.trans hobject
      have ho := (Reconciles.cons h hs).dryRun_of_saved hr hsave
      have hget := get?_of_saved h hsave
      have hunsaved : ∀ r ∈ reports, r.object = object → r.saved = false := fun r' hr' hobject' ↦
        Bool.eq_false_iff.mpr fun hsave' ↦ htail ⟨r', hr', hobject', hsave'⟩
      obtain ⟨hkept, hinLine⟩ := hs.unsaved ho hunsaved
      rw [hc] at hget
      refine ⟨[], c, cs, rfl, hc, hkept.trans hget, fun d hd he ↦ ?_⟩
      obtain ⟨payload, hpayload, htext⟩ := inLine_iff.mp (hinLine d hd he)
      rw [he, hget] at hpayload
      cases hpayload
      exact htext

/-- The kind of an object decides how its copy is read. -/
theorem storedText_congr (h : Object.ofCompiled d = .ofCompiled c) (payload : Text.Bytes) :
    storedText d payload = storedText c payload := by
  cases c with
  | application =>
    cases d with
    | application => rfl
    | pipeline => cases h
  | pipeline =>
    cases d with
    | application => cases h
    | pipeline => rfl

/-- Where the copies of the objects survive, an identity that was saved has the canonical text of
the last object with it, whether that one was saved or not. -/
theorem Reconciles.last_canonical {first last : List Compiled}
    (h : Reconciles o (first ++ c :: last) s reports t)
    (hsurvives : ∀ d ∈ first ++ c :: last, Survives d)
    (hlast : ∀ d ∈ last, Object.ofCompiled d ≠ .ofCompiled c)
    (hsaved : ∃ r ∈ reports, r.object = .ofCompiled c ∧ r.saved = true) :
    t.objects.get? (.ofCompiled c) = some (utf8String c.canonicalText) := by
  obtain ⟨r, hr, hobject, hsave⟩ := hsaved
  have hc : Survives c := hsurvives c (List.mem_append_right _ List.mem_cons_self)
  obtain ⟨payload, hpayload, htext⟩ :=
    inLine_iff.mp (h.inLine (h.dryRun_of_saved hr hsave) hc hlast)
  obtain ⟨before, d, after, hsplit, hd, hget, -⟩ := h.last_saved ⟨r, hr, hobject, hsave⟩
  have hsurvive : Survives d :=
    hsurvives d (hsplit ▸ List.mem_append_right before List.mem_cons_self)
  cases hpayload.symm.trans hget
  have heq := htext.symm.trans ((storedText_congr hd.symm _).trans hsurvive)
  rw [hget, Except.ok.inj heq]

/-- Where reconciling a loaded set fails at an object, the objects before it have been reconciled as
a set of their own, and the platform is as that left it. An identity that was saved has the
canonical text of the last object that was saved with it, to which the later ones compare equal; if
the numbers are integers, that is the text of the last object with it. -/
theorem failed_run_stops {r : Stage.Registry} {text : String} {set : ManifestSet}
    (hload : loadText r text = .ok set) {e : Failure}
    (hfail : (client.reconcileAll o set).on s = (.error e, t)) :
    ∃ k c reports u, set.objects[k]? = some c ∧
      (client.reconcileAll o (set.take k)).on s = (.ok reports, u) ∧
      (client.reconcile o c).on u = (.error e, t) ∧ t.objects = u.objects ∧
      (∀ object, (∀ d ∈ set.objects.take k, object ≠ .ofCompiled d) →
        t.objects.get? object = s.objects.get? object) ∧
      ∀ object, (∃ r ∈ reports, r.object = object ∧ r.saved = true) →
        (∃ first d last, set.objects.take k = first ++ d :: last ∧ .ofCompiled d = object ∧
          t.objects.get? object = some (utf8String d.canonicalText) ∧
          ∀ d' ∈ last, .ofCompiled d' = object →
            storedText d' (utf8String d.canonicalText) = .ok d'.canonicalText) ∧
        ((∀ d ∈ set.objects.take k, d.toJson.isIntegral = true) →
          ∀ first d last, set.objects.take k = first ++ d :: last → .ofCompiled d = object →
            (∀ d' ∈ last, .ofCompiled d' ≠ object) →
              t.objects.get? object = some (utf8String d.canonicalText)) := by
  obtain ⟨k, hk⟩ := on_mapM_eq_error_iff.mp hfail
  obtain ⟨c, reports, u, hc, hrun, he⟩ := hk.split
  obtain ⟨htu, -⟩ := on_reconcile_eq_error he
  have htake : (client.reconcileAll o (set.take k)).on s = (.ok reports, u) := by
    rw [Client.reconcileAll, ManifestSet.objects_take]
    exact on_mapM_eq_ok_iff.mpr hrun
  refine ⟨k, c, reports, u, hc, htake, he, htu, fun object hobject ↦ ?_, fun object hsaved ↦
    ⟨?_, fun hint first d last hsplit hd hlast ↦ ?_⟩⟩
  · rw [htu]
    exact hrun.get?_eq hobject
  · rw [htu]
    exact hrun.last_saved hsaved
  · subst hd
    have hsurvives : ∀ d' ∈ first ++ d :: last, Survives d' := fun d' hd' ↦ by
      rw [← hsplit] at hd'
      exact survives_of_normal
        (Manifest.normal_of_loadText hload d' (List.mem_of_mem_take hd')) (hint d' hd')
    rw [hsplit] at hrun
    rw [htu]
    exact hrun.last_canonical hsurvives hlast hsaved

section Witness

/-- What applying the set to a platform whose copy of the pipeline is damaged leaves. -/
def halfApplied : Store := ((client.reconcileAll (.apply false) strictSet).on damaged).2

theorem failed_run_stops_weakText :
    loadText .builtin weakText = .ok strictSet ∧
    ((client.reconcileAll (.apply false) strictSet).on damaged).1 =
      .error (.core (.decode "existing pipeline" "expected value")) ∧
    ∃ k c reports u, strictSet.objects[k]? = some c ∧
      (client.reconcileAll (.apply false) (strictSet.take k)).on damaged = (.ok reports, u) ∧
      (client.reconcile (.apply false) c).on u =
        (.error (.core (.decode "existing pipeline" "expected value")), halfApplied) ∧
      halfApplied.objects = u.objects := by
  have hfail : ((client.reconcileAll (.apply false) strictSet).on damaged).1 =
      .error (.core (.decode "existing pipeline" "expected value")) := by decide +kernel
  obtain ⟨k, c, reports, u, hc, hrun, he, hobjects, -⟩ :=
    failed_run_stops loadText_weakText (Prod.ext hfail rfl)
  exact ⟨loadText_weakText, hfail, k, c, reports, u, hc, hrun, he, hobjects⟩

end Witness

section Rounding

/-- Two pipelines with one identity, whose numbers compare equal where they come from JSON, and a
pipeline without its application. -/
def closeText : String :=
  "apiVersion: spinnaker.adobe.com/alpha1\nkind: Application\nmetadata:\n  name: shop\n---\n" ++
    "apiVersion: spinnaker.adobe.com/alpha1\nkind: Pipeline\nmetadata:\n  name: release\n" ++
    "  application: shop\nspec:\n  triggers:\n  - 0.38753340477276477\n---\n" ++
    "apiVersion: spinnaker.adobe.com/alpha1\nkind: Pipeline\nmetadata:\n  name: release\n" ++
    "  application: shop\nspec:\n  triggers:\n  - 0.3875334047727648\n---\n" ++
    "apiVersion: spinnaker.adobe.com/alpha1\nkind: Pipeline\nmetadata:\n  name: release\n" ++
    "  application: web\nspec:\n  triggers:\n  - 1\n"

/-- A pipeline whose only trigger is a number. -/
def triggeredBy (application : String) (number : Number) : Manifest.PipelineManifest :=
  ⟨"spinnaker.adobe.com/alpha1", ⟨"release", application⟩,
    { application, name := "release", triggers := [.num number] }⟩

def lower : Manifest.PipelineManifest := triggeredBy "shop" (.float ⟨4600652801107218892⟩)

def upper : Manifest.PipelineManifest := triggeredBy "shop" (.float ⟨4600652801107218893⟩)

def closeSet : ManifestSet :=
  ⟨[⟨"spinnaker.adobe.com/alpha1", ⟨"shop"⟩, { name := "shop" }⟩],
    [lower, upper, triggeredBy "web" (.int 1)]⟩

set_option maxRecDepth 4000 in
theorem loadText_closeText : loadText .builtin closeText = .ok closeSet := by
  have h : closeText.toList = _ :=
    toList_append_of (toList_append_of (toList_append_of (toList_append_of (toList_append_of
      (toList_append_of String.toList_ofList String.toList_ofList) String.toList_ofList)
      String.toList_ofList) String.toList_ofList) String.toList_ofList) String.toList_ofList
  have hl := String.length_toList (s := closeText)
  rw [h] at hl
  rw [loadText, Yaml.stream, Yaml.documents, h, ← hl]
  decide +kernel

/-- An identity that was saved need not have the text of the last object with it. -/
theorem last_object_not_stored :
    loadText .builtin closeText = .ok closeSet ∧
    ((client.reconcileAll (.apply false) closeSet).on {}).1 =
      .error (.applicationMissing (.pipeline "web" "release")) ∧
    closeSet.objects[2]? = some (.pipeline upper) ∧
    ((client.reconcileAll (.apply false) closeSet).on {}).2.objects.get?
      (.pipeline "shop" "release") = some (utf8String (Compiled.pipeline lower).canonicalText) ∧
    (Compiled.pipeline lower).canonicalText ≠ (Compiled.pipeline upper).canonicalText :=
  ⟨loadText_closeText, by decide +kernel⟩

end Rounding

end Platform.Store

end DeliveryCharts
