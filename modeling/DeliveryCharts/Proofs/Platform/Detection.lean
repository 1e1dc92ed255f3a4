import DeliveryCharts.Proofs.Manifest.Payload
import DeliveryCharts.Proofs.Platform.Convergence

/-!
Which copies of an object count as changed. The copy is compared as the spec that it decodes to, so
that what the platform adds to a copy makes no difference, and all that is in the spec does.
-/

namespace DeliveryCharts.Platform

open Json.Source (ofText)
open Manifest (Compiled Edit Edited Spec loadText specDepth)
open Text (Bytes received utf8String)

variable {o : Options} {c : Compiled} {s t : Store} {payload payload' : Bytes} {spec : Spec}

theorem storedText_eq (c : Compiled) (payload : Bytes) : storedText c payload =
    (Spec.ofPayload payload c.kind).map fun spec ↦ spec.toJson.canonicalText := by
  cases c with
  | application m =>
    rw [storedText, Compiled.kind, Spec.ofPayload]
    cases Manifest.Application.ofPlatform payload <;> rfl
  | pipeline m =>
    rw [storedText, Compiled.kind, Spec.ofPayload]
    cases Manifest.Pipeline.ofPlatform payload <;> rfl

theorem existingText_eq (hget : s.objects.get? (.ofCompiled c) = some payload)
    (hspec : Spec.ofPayload payload c.kind = .ok spec) :
    existingText s.objects c = .ok (some spec.toJson.canonicalText) := by
  simp only [existingText, hget, storedText_eq, hspec]
  rfl

/-- Where all numbers are integers, comparing the texts is comparing the specs. -/
theorem compare_spec (hc : c.Normal specDepth) (hspec : Spec.ofPayload payload c.kind = .ok spec)
    (hi : spec.toJson.isIntegral = true) (hi' : (Spec.ofCompiled c).toJson.isIntegral = true) :
    compare (some spec.toJson.canonicalText) c.canonicalText =
      if spec = .ofCompiled c then .unchanged else .changed := by
  have hkind : spec.kind = (Spec.ofCompiled c).kind :=
    (Spec.kind_of_ofPayload hspec).trans (Spec.kind_ofCompiled c).symm
  rw [compare, ← Spec.canonicalText_ofCompiled]
  refine ite_congr (propext ?_) (fun _ ↦ rfl) fun _ ↦ rfl
  exact Spec.canonicalText_inj (Spec.normal_of_ofPayload hspec) (by decide) (by decide) hi
    (Spec.normal_ofCompiled hc) (by decide) (by decide) hi' hkind

namespace Store

theorem hasOwner_insert (s : Store) (object : Object) (payload : Bytes) :
    (s.insert object payload).hasOwner object = s.hasOwner object := by
  cases object with
  | application app => rfl
  | pipeline app name =>
    have hget := Objects.get?_insert s.objects (.pipeline app name) (.application app) payload
    rw [if_neg (by simp)] at hget
    exact congrArg Option.isSome hget

/-- What reconciling an object answers depends on the text of its copy, and on whether it can be
saved. -/
theorem answer_congr (o : Options)
    (htext : existingText t.objects c = existingText s.objects c)
    (howner : t.hasOwner (.ofCompiled c) = s.hasOwner (.ofCompiled c)) :
    ((client.reconcile o c).on t).1 = ((client.reconcile o c).on s).1 := by
  rw [on_reconcile, on_reconcile, htext, howner]
  cases existingText s.objects c with
  | error e => rfl
  | ok existing =>
    simp only
    split
    · cases s.hasOwner (.ofCompiled c) <;> rfl
    · rfl

theorem reconcile_of_edited {v v' : Json.Source}
    (hget : s.objects.get? (.ofCompiled c) = some payload)
    (hspec : Spec.ofPayload payload c.kind = .ok spec)
    (hv : ofText (received payload) = some v) (hv' : ofText (received payload') = some v')
    (h : Edited c.kind v v') :
    Spec.ofPayload payload' c.kind = .ok spec ∧ ∀ o,
      ((client.reconcile o c).on (s.insert (.ofCompiled c) payload')).1 =
        ((client.reconcile o c).on s).1 := by
  have hsame : (Spec.ofPayload payload' c.kind).toOption =
      (Spec.ofPayload payload c.kind).toOption := by
    rw [Spec.ofPayload_eq, Spec.ofPayload_eq, hv, hv', Option.bind_some, Option.bind_some,
      Spec.ofSource?_edited h]
  rw [hspec] at hsame
  have hspec' := Except.toOption_eq_some_iff.mp hsame
  have hget' : (s.insert (.ofCompiled c) payload').objects.get? (.ofCompiled c) = some payload' :=
    (Objects.get?_insert s.objects (.ofCompiled c) (.ofCompiled c) payload').trans (if_pos rfl)
  refine ⟨hspec', fun o ↦ answer_congr o ?_ (s.hasOwner_insert _ _)⟩
  rw [existingText_eq hget' hspec', existingText_eq hget hspec]

/-- Nothing that an edit changes in the copy of an object makes a difference to what reconciling the
object answers. Where all numbers are integers, the object is unchanged if and only if the spec of
the copy is the one that was compiled, and is saved otherwise. -/
theorem changed_iff_spec_differs {r : Stage.Registry} {text : String} {set : Manifest.ManifestSet}
    (hload : loadText r text = .ok set) (hc : c ∈ set.objects)
    (hget : s.objects.get? (.ofCompiled c) = some payload)
    (hspec : Spec.ofPayload payload c.kind = .ok spec) :
    (∃ v, ofText (received payload) = some v ∧
      ∀ payload' v', ofText (received payload') = some v' → Edited c.kind v v' →
        Spec.ofPayload payload' c.kind = .ok spec ∧ ∀ o,
          ((client.reconcile o c).on (s.insert (.ofCompiled c) payload')).1 =
            ((client.reconcile o c).on s).1) ∧
    (∃ report, ((client.reconcile .plan c).on s).1 = .ok report) ∧
    (spec.toJson.isIntegral = true → (Spec.ofCompiled c).toJson.isIntegral = true →
      ∀ o report, ((client.reconcile o c).on s).1 = .ok report →
        report.outcome = (if spec = .ofCompiled c then .unchanged else .changed) ∧
        (report.saved = true ↔ o.dryRun = false ∧ spec ≠ .ofCompiled c)) := by
  have hexisting := existingText_eq hget hspec
  have hsource := Spec.ofPayload_eq payload c.kind
  rw [hspec] at hsource
  obtain ⟨v, hv, -⟩ := Option.bind_eq_some_iff.mp hsource.symm
  refine ⟨⟨v, hv, fun payload' v' hv' h ↦ reconcile_of_edited hget hspec hv hv' h⟩, ?_,
    fun hi hi' o report hreport ↦ ?_⟩
  · rw [on_reconcile_of_dryRun rfl, hexisting]
    exact ⟨_, rfl⟩
  · obtain ⟨existing, he, rfl, -⟩ := on_reconcile_eq_ok_iff.mp (Prod.ext hreport rfl)
    rw [hexisting] at he
    cases he
    have hcompare := compare_spec (Manifest.normal_of_loadText hload c hc) hspec hi hi'
    refine ⟨hcompare, ?_⟩
    rw [reportOf, hcompare]
    split <;> simp_all

section Witness

def armedText : String :=
  "apiVersion: spinnaker.adobe.com/alpha1\nkind: Application\nmetadata:\n  name: shop\n---\n" ++
    "apiVersion: spinnaker.adobe.com/alpha1\nkind: Pipeline\nmetadata:\n  name: release\n" ++
    "  application: shop\nspec:\n  triggers:\n  - a: 2\n"

def armed : Manifest.PipelineManifest :=
  ⟨"spinnaker.adobe.com/alpha1", ⟨"release", "shop"⟩,
    { application := "shop", name := "release", triggers := [.obj [("a", .ofInt 2)]] }⟩

def armedSet : Manifest.ManifestSet :=
  ⟨[⟨"spinnaker.adobe.com/alpha1", ⟨"shop"⟩, { name := "shop" }⟩], [armed]⟩

set_option maxRecDepth 4000 in
theorem loadText_armedText : loadText .builtin armedText = .ok armedSet := by
  have h : armedText.toList = _ :=
    toList_append_of (toList_append_of String.toList_ofList String.toList_ofList)
      String.toList_ofList
  have hl := String.length_toList (s := armedText)
  rw [h] at hl
  rw [loadText, Yaml.stream, Yaml.documents, h, ← hl]
  decide +kernel

/-- A copy of the pipeline: the members of its trigger, and what follows the triggers. -/
def copy (trigger more : String) : Bytes :=
  utf8String ("\x7b\"application\":\"shop\",\"name\":\"release\",\"triggers\":[\x7b" ++ trigger ++
    "\x7d]" ++ more ++ "\x7d")

/-- The same spec in another order, with an identifier and no list of stages. -/
def shownCopy : Bytes :=
  utf8String ("\x7b\"name\":\"release\",\"application\":\"shop\",\"id\":\"4\"," ++
    "\"triggers\":[\x7b\"a\":2\x7d],\"stages\":null\x7d")

def holding (payload : Bytes) : Store where
  objects := [(.application "shop", []), (.pipeline "shop" "release", payload)]

/-- What a plan answers for the pipeline where the platform has this copy. -/
def planned (payload : Bytes) : Except Failure Report :=
  ((client.reconcile .plan (.pipeline armed)).on (holding payload)).1

def spelled (key value : String) : Option String × Json.Source := (some key, .str (some value))

def triggered : Option String × Json.Source :=
  (some "triggers", .arr [.obj [(some "a", .num (some ⟨.int 2, .inl (by decide)⟩))]])

theorem edited_shownCopy : Edited .pipeline
    (.obj [spelled "application" "shop", spelled "name" "release", triggered])
    (.obj [spelled "name" "release", spelled "application" "shop", spelled "id" "4", triggered,
      (some "stages", .null)]) := by
  have hswap : Edit .pipeline
      (.obj [spelled "application" "shop", spelled "name" "release", triggered])
      (.obj [spelled "name" "release", spelled "application" "shop", triggered]) :=
    .swap (@Json.Source.Swap.here [] [triggered] _ _ _ _ (by decide))
  have hid : Edit .pipeline
      (.obj [spelled "name" "release", spelled "application" "shop", triggered])
      (.obj [spelled "name" "release", spelled "application" "shop", spelled "id" "4",
        triggered]) :=
    @Edit.undeclared _ [spelled "name" "release", spelled "application" "shop"] [triggered] _ _
      (by decide)
  have hstages : Edit .pipeline
      (.obj [spelled "name" "release", spelled "application" "shop", spelled "id" "4", triggered])
      (.obj [spelled "name" "release", spelled "application" "shop", spelled "id" "4", triggered,
        (some "stages", .null)]) :=
    @Edit.absent "stages" [spelled "name" "release", spelled "application" "shop",
      spelled "id" "4", triggered] [] _ (by decide) (by decide) (.inl rfl)
  exact .make (.make (.make (.refl _) hswap) hid) hstages

theorem changed_iff_spec_differs_armed :
    loadText .builtin armedText = .ok armedSet ∧
    Spec.ofPayload (copy "\"a\":2" "") .pipeline = .ok (.ofCompiled (.pipeline armed)) ∧
    (∃ report, planned (copy "\"a\":2" "") = .ok report ∧ report.outcome = .unchanged ∧
      report.saved = false) ∧
    ((client.reconcile .plan (.pipeline armed)).on
        ((holding (copy "\"a\":2" "")).insert (.pipeline "shop" "release") shownCopy)).1 =
      planned (copy "\"a\":2" "") := by
  have hspec : Spec.ofPayload (copy "\"a\":2" "") .pipeline =
      .ok (.ofCompiled (.pipeline armed)) := by
    decide +kernel
  obtain ⟨⟨v, hv, hedited⟩, ⟨report, hreport⟩, hequal⟩ :=
    changed_iff_spec_differs (c := .pipeline armed) (s := holding (copy "\"a\":2" ""))
      loadText_armedText (by decide) rfl hspec
  obtain ⟨houtcome, hsaved⟩ := hequal (by decide) (by decide) .plan report hreport
  refine ⟨loadText_armedText, hspec, ⟨report, hreport, ?_, ?_⟩, ?_⟩
  · rw [houtcome, if_pos rfl]
  · refine Bool.eq_false_iff.mpr fun h ↦ ?_
    exact (hsaved.mp h).2 rfl
  · have hv' : ofText (received (copy "\"a\":2" "")) =
        some (.obj [spelled "application" "shop", spelled "name" "release", triggered]) := by
      decide +kernel
    cases hv.symm.trans hv'
    exact (hedited shownCopy _ (by decide +kernel) edited_shownCopy).2 .plan

end Witness

section Limits

/-- Of two members with one key the later one counts, so that they may not change places, and what
is added to a copy has to be readable there. -/
theorem edits_that_count :
    loadText .builtin armedText = .ok armedSet ∧
    ((planned (copy "\"a\":1,\"a\":2" "")).map Report.outcome = .ok .unchanged ∧
      (planned (copy "\"a\":2,\"a\":1" "")).map Report.outcome = .ok .changed) ∧
    ((planned (copy "\"a\":2" ",\"stages\":[\x7b\x7d]")).map Report.outcome = .ok .changed ∧
      planned (copy "\"a\":2" ",\"stages\":[\x7b\"ifStageFails\":1e999\x7d]") =
        .error (.core (.decode "existing pipeline" "number out of range"))) ∧
    ((planned (copy "\"a\":2" "")).map Report.outcome = .ok .unchanged ∧
      planned (copy "\"a\":2" ",\"\\ud800\":0") =
        .error (.core (.decode "existing pipeline" "unexpected end of hex escape"))) := by
  refine ⟨loadText_armedText, ⟨?_, ?_⟩, ⟨?_, ?_⟩, ?_, ?_⟩ <;> decide +kernel

end Limits

end Store

end DeliveryCharts.Platform
