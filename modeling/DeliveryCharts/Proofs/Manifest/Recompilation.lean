import DeliveryCharts.Chart.Render
import DeliveryCharts.Proofs.Manifest.Compiled
import DeliveryCharts.Proofs.Yaml.Trees

/-!
Compiling what has been compiled. A set of objects is written as a stream of documents, and the
stream compiles to the same set.
-/

namespace DeliveryCharts

/-- The documents written for these trees, with a line of hyphens between neighbours, are read as
the trees, whose members then stand in the order of their keys. -/
def Yaml.ReadsBack (trees : List Json) : Prop :=
  trees ≠ [] → stream (Text.joinStrings "---\n" (trees.map render)) =
    trees.map fun t ↦ .ok t.canonical

theorem Yaml.stream_empty : stream "" = [.ok .null] := by decide +kernel

namespace Manifest

variable {r : Stage.Registry} {text : String} {s : ManifestSet}

/-- What holds of all that a tree of a document compiles to holds of the objects of a text. -/
theorem loadText_all {P : Compiled → Prop} (h : loadText r text = .ok s)
    (hP : ∀ tree : Json, tree.Within Yaml.maxDepth → ∀ position c,
      compileDocument r position tree = .ok (some c) → P c) : ∀ c ∈ s.objects, P c := by
  refine compileFrom_all h (by simp [ManifestSet.objects]) fun tree htree ↦ hP tree ?_
  obtain ⟨d, hd, he⟩ := List.mem_map.mp htree
  rw [Error.ofYaml, Except.mapError_eq_ok_iff] at he
  subst d
  exact Yaml.within_of_mem_stream hd

/-- The levels of the values that the spec of a loaded pipeline keeps. -/
def specDepth : Nat := Yaml.maxDepth - 2

theorem normal_of_loadText (h : loadText r text = .ok s) :
    ∀ c ∈ s.objects, c.Normal specDepth :=
  loadText_all h fun _ ht _ _ hc ↦ Compiled.normal_of_compile (by decide) ht hc

theorem loadText_empty : loadText r "" = .ok {} := by
  rw [loadText, Yaml.stream_empty]
  rfl

theorem loadText_toYaml (h : loadText r text = .ok s)
    (hs : Yaml.ReadsBack (s.objects.map Compiled.toJson)) : loadText r s.toYaml = .ok s := by
  have hagain := loadText_all (P := fun c ↦ ∀ position,
    compileDocument r position c.toJson.canonical = .ok (some c)) h fun tree ht _ _ hc ↦
      Compiled.compile_again (n := specDepth) (by decide)
        (Compiled.normal_of_compile (by decide) ht hc) hc
  have hset := s.foldl_add_objects
  by_cases hempty : s.objects = []
  · rw [hempty] at hset
    subst s
    exact loadText_empty
  · have hstream := hs (by simpa using hempty)
    have htrees : (Yaml.stream s.toYaml).map Error.ofYaml =
        s.objects.map fun c ↦ .ok c.toJson.canonical := by
      rw [ManifestSet.toYaml]
      simp only [List.map_map] at hstream
      exact hstream ▸ by simp [Error.ofYaml]
    rw [loadText, compileAll, htrees, compileFrom_written hagain, hset]

end Manifest

open Manifest

theorem Renderer.compile_eq_ok_iff {renderer : Renderer} {name text out : String} :
    renderer.compile name text = .ok out ↔
      ∃ s, loadText renderer.registry text = .ok s ∧ out = s.toYaml := by
  rw [compile]
  cases loadText renderer.registry text with
  | error e => simp
  | ok s => simp [eq_comm]

/-- A set that a text compiles to is written as a text that compiles to the same set, a pipeline
that has been resolved resolves to itself, and compiling its own output gives the output again. -/
theorem compile_fixed_point :
    (∀ r text s, loadText r text = .ok s → Yaml.ReadsBack (s.objects.map Compiled.toJson) →
      loadText r s.toYaml = .ok s) ∧
    (∀ r application pipeline stages out,
      Stage.resolve r application pipeline stages = .ok out →
        Stage.resolve r application pipeline out = .ok out) ∧
    ∀ (renderer : Renderer) name text out, renderer.compile name text = .ok out →
      (∀ s, loadText renderer.registry text = .ok s →
        Yaml.ReadsBack (s.objects.map Compiled.toJson)) →
      renderer.compile name out = .ok out := by
  refine ⟨fun r text s h hs ↦ loadText_toYaml h hs,
    fun r application pipeline stages out h ↦ Stage.resolve_again h,
    fun renderer name text out h hs ↦ ?_⟩
  obtain ⟨s, hload, rfl⟩ := Renderer.compile_eq_ok_iff.mp h
  exact Renderer.compile_eq_ok_iff.mpr ⟨s, loadText_toYaml hload (hs s hload), rfl⟩

section Witness

/-- With the characters of its pieces at hand, a text need not be decoded. -/
theorem toList_append_of {a b : String} {as bs : List Char} (ha : a.toList = as)
    (hb : b.toList = bs) : (a ++ b).toList = as ++ bs := by
  rw [String.toList_append, ha, hb]

/-- An application and a pipeline whose fields are weakly typed. -/
def weakText : String :=
  "apiVersion: spinnaker.adobe.com/alpha1\nkind: Application\nmetadata:\n  name: Shop\n" ++
    "spec:\n  email: 7\n---\n" ++
    "apiVersion: spinnaker.adobe.com/alpha1\nkind: Pipeline\nmetadata:\n  name: release\n" ++
    "  application: Shop\nspec:\n  disabled: 1\n  stages:\n  - type: wait\n" ++
    "    waitTime: '30'\n    owner: [a]\n"

def weakStage : Members :=
  [("owner", .arr [.str "a"]), ("type", .str "wait"), ("waitTime", .str "30")]

def strictStage : Members :=
  [("completeOtherBranchesThenFail", .bool false), ("continuePipeline", .bool false),
    ("failPipeline", .bool true), ("name", .str ""), ("owner", .arr [.str "a"]),
    ("refId", .str "1"), ("requisiteStageRefIds", .arr []), ("skipWaitText", .str ""),
    ("type", .str "wait"), ("waitTime", .ofInt 30)]

def strictSet : ManifestSet where
  applications := [⟨"spinnaker.adobe.com/alpha1", ⟨"Shop"⟩, { email := "7", name := "shop" }⟩]
  pipelines := [⟨"spinnaker.adobe.com/alpha1", ⟨"release", "Shop"⟩,
    { application := "shop", name := "release", disabled := true, stages := [strictStage] }⟩]

set_option maxRecDepth 4000 in
theorem loadText_weakText : loadText .builtin weakText = .ok strictSet := by
  have h : weakText.toList = _ :=
    toList_append_of (toList_append_of (toList_append_of (toList_append_of String.toList_ofList
      String.toList_ofList) String.toList_ofList) String.toList_ofList) String.toList_ofList
  have hl := String.length_toList (s := weakText)
  rw [h] at hl
  rw [loadText, Yaml.stream, Yaml.documents, h, ← hl]
  decide +kernel

theorem readsBack_strictSet : Yaml.ReadsBack (strictSet.objects.map Compiled.toJson) := by
  intro _
  rw [Yaml.stream, Yaml.documents, ← String.length_toList, Text.joinStrings,
    String.toList_ofList]
  simp only [List.map_map, Function.comp_def, Yaml.render, String.toList_ofList]
  decide +kernel

theorem compile_fixed_point_weakText :
    (loadText .builtin weakText = .ok strictSet ∧
      loadText .builtin strictSet.toYaml = .ok strictSet) ∧
    (Stage.resolve .builtin "shop" "release" [weakStage] = .ok [strictStage] ∧
      Stage.resolve .builtin "shop" "release" [strictStage] = .ok [strictStage]) ∧
    (({} : Renderer).compile "shop.yaml" weakText = .ok strictSet.toYaml ∧
      ({} : Renderer).compile "shop.yaml" strictSet.toYaml = .ok strictSet.toYaml) := by
  have hstage : Stage.resolve .builtin "shop" "release" [weakStage] = .ok [strictStage] := by
    decide +kernel
  have hcompile : ({} : Renderer).compile "shop.yaml" weakText = .ok strictSet.toYaml :=
    Renderer.compile_eq_ok_iff.mpr ⟨strictSet, loadText_weakText, rfl⟩
  obtain ⟨load, resolve, compile⟩ := compile_fixed_point
  refine ⟨⟨loadText_weakText, load _ _ _ loadText_weakText readsBack_strictSet⟩,
    ⟨hstage, resolve _ _ _ _ _ hstage⟩, ⟨hcompile, compile _ _ _ _ hcompile fun s hs ↦ ?_⟩⟩
  cases loadText_weakText.symm.trans hs
  exact readsBack_strictSet

end Witness

end DeliveryCharts
