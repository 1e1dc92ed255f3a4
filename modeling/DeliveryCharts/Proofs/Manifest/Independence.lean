import DeliveryCharts.Proofs.Manifest.Parts
import Mathlib.Data.List.Forall2

/-!
Documents of a stream are compiled one by one: what a document compiles to, or fails with, is the
same alone as in a stream. The first document that fails ends the run, and its number is all that
the stream adds to its error.
-/

namespace DeliveryCharts.Manifest

variable {r : Stage.Registry}

theorem Kind.ofName?_eq_some_iff {name : String} {k : Kind} :
    ofName? name = some k ↔ name = k.name := by
  constructor
  · intro h
    have hk := List.find?_some h
    exact (decide_eq_true_iff.mp hk).symm
  · rintro rfl
    exact ofName?_name k

theorem checkName_eq_ok_iff {k : Kind} {name : String} :
    checkName k name = .ok () ↔ minNameLength ≤ name.toList.length := by
  rw [checkName]
  split <;> simp <;> omega

/-- A mapping that declares a registered kind in its version, with these metadata and this spec. -/
def Declares (tree : Json) (k : Kind) (metadata spec : Members) : Prop :=
  ∃ ms, tree = .obj ms ∧ Envelope.decode ms = .ok ⟨k.apiVersion, k.name, metadata, spec⟩

/-- What a document compiles to: its names come from its metadata, whatever names its spec has. -/
inductive Compiles (r : Stage.Registry) (tree : Json) : Compiled → Prop
  | application {ms ss : Members} {metadata : ApplicationMetadata} {spec : Application}
      (h : Declares tree .application ms ss)
      (hm : ApplicationMetadata.decode ms = .ok metadata) (hs : Application.decode ss = .ok spec)
      (hn : minNameLength ≤ (Text.lower metadata.name).toList.length) :
      Compiles r tree (.application ⟨Kind.application.apiVersion, metadata,
        { spec with name := Text.lower metadata.name }⟩)
  | pipeline {ms ss : Members} {metadata : PipelineMetadata} {spec : Pipeline}
      {stages : List Members} (h : Declares tree .pipeline ms ss)
      (hm : PipelineMetadata.decode ms = .ok metadata) (hs : Pipeline.decode ss = .ok spec)
      (ha : Text.lower metadata.application ≠ "")
      (hn : minNameLength ≤ metadata.name.toList.length)
      (hr : Stage.resolve r (Text.lower metadata.application) metadata.name spec.stages =
        .ok stages) :
      Compiles r tree (.pipeline ⟨Kind.pipeline.apiVersion, metadata, { spec with
        name := metadata.name, application := Text.lower metadata.application, stages }⟩)

theorem compiles_iff {position : Nat} {tree : Json} {c : Compiled} :
    compileDocument r position tree = .ok (some c) ↔ Compiles r tree c := by
  rw [compileDocument_eq_ok_iff]
  constructor
  · rintro ⟨ms, e, rfl, he, hc⟩
    obtain ⟨hk, hm⟩ := routed_eq_ok_iff.mp hc
    obtain ⟨hname, hversion⟩ := Kind.validate_eq_ok_iff.mp hk
    rw [Kind.ofName?_eq_some_iff] at hname
    obtain ⟨version, kind, metadata, spec⟩ := e
    cases c with
    | application m =>
      cases hname
      cases hversion
      obtain ⟨_, _, hmetadata, hspec, hn, rfl⟩ := ApplicationManifest.compile_eq_ok_iff.mp hm
      exact .application ⟨ms, rfl, he⟩ hmetadata hspec (checkName_eq_ok_iff.mp hn)
    | pipeline m =>
      cases hname
      cases hversion
      obtain ⟨_, _, _, hmetadata, hspec, ha, hn, hr, rfl⟩ :=
        PipelineManifest.compile_eq_ok_iff.mp hm
      exact .pipeline ⟨ms, rfl, he⟩ hmetadata hspec ha (checkName_eq_ok_iff.mp hn) hr
  · intro h
    have hvalid (k : Kind) : Kind.validate k.name k.apiVersion = .ok k :=
      Kind.validate_eq_ok_iff.mpr ⟨Kind.ofName?_name k, rfl⟩
    cases h with
    | application h hm hs hn =>
      obtain ⟨ms, rfl, he⟩ := h
      refine ⟨ms, _, rfl, he, routed_eq_ok_iff.mpr ⟨hvalid .application, ?_⟩⟩
      exact ApplicationManifest.compile_eq_ok_iff.mpr
        ⟨_, _, hm, hs, checkName_eq_ok_iff.mpr hn, rfl⟩
    | pipeline h hm hs ha hn hr =>
      obtain ⟨ms, rfl, he⟩ := h
      refine ⟨ms, _, rfl, he, routed_eq_ok_iff.mpr ⟨hvalid .pipeline, ?_⟩⟩
      exact PipelineManifest.compile_eq_ok_iff.mpr
        ⟨_, _, _, hm, hs, ha, checkName_eq_ok_iff.mpr hn, hr, rfl⟩

/-- Why a document fails, by its number in the stream, from 1. -/
inductive FailsWith (r : Stage.Registry) : Except Yaml.Fault Json → (Nat → Error) → Prop
  | unreadable (fault : Yaml.Fault) : FailsWith r (.error fault) fun _ ↦ .yaml
  | shape {tree : Json} (hnull : tree ≠ .null) (hobj : ∀ ms, tree ≠ .obj ms) :
      FailsWith r (.ok tree) fun number ↦
        .decode s!"manifest document {number}" "expected a mapping"
  | envelope {ms : Members} {fault : Json.Fault} (h : Envelope.decode ms = .error fault) :
      FailsWith r (.ok (.obj ms)) fun number ↦
        .decode s!"manifest document {number}" fault.message
  | object {ms : Members} {e : Envelope} {error : Error} (h : Envelope.decode ms = .ok e)
      (hr : routed r e = .error error) : FailsWith r (.ok (.obj ms)) fun _ ↦ error

def compileRead (r : Stage.Registry) (docs : List (Except Yaml.Fault Json)) :
    Except Error ManifestSet :=
  compileAll r (docs.map Error.ofYaml)

section Failure

variable {d : Except Yaml.Fault Json} {report : Nat → Error}

theorem exists_failsWith {position : Nat} {tree : Json} {e : Error}
    (h : compileDocument r position tree = .error e) : ∃ report, FailsWith r (.ok tree) report := by
  cases tree with
  | null => cases h
  | obj ms =>
    simp only [compileDocument, Except.bind_eq_error_iff] at h
    rcases h with h | ⟨envelope, henvelope, h | ⟨c, -, h⟩⟩
    · obtain ⟨fault, hfault, -⟩ := Except.mapError_eq_error_iff.mp h
      exact ⟨_, .envelope hfault⟩
    · exact ⟨_, .object (decodeAs_eq_ok_iff.mp henvelope) h⟩
    · cases h
  | bool | num | str | arr => exact ⟨_, .shape (by simp) (by simp)⟩

/-- A document that fails does so wherever it stands, and ends the run there. -/
theorem FailsWith.compileFrom_eq (h : FailsWith r d report) (s : ManifestSet) (position : Nat)
    (rest : List (Except Error Json)) :
    compileFrom r s position (Error.ofYaml d :: rest) = .error (report (position + 1)) := by
  rw [compileFrom, Except.bind_eq_error_iff]
  cases h with
  | unreadable fault => exact .inl rfl
  | @shape tree hnull hobj =>
    refine .inr ⟨tree, rfl, ?_⟩
    rw [Except.bind_eq_error_iff]
    cases tree with
    | null => exact absurd rfl hnull
    | obj ms => exact absurd rfl (hobj ms)
    | bool | num | str | arr => exact .inl rfl
  | @envelope ms fault h =>
    refine .inr ⟨.obj ms, rfl, ?_⟩
    simp only [compileDocument, h]
    rfl
  | @object ms e error h hr =>
    refine .inr ⟨.obj ms, rfl, Except.bind_eq_error_iff.mpr (.inl ?_)⟩
    refine Except.bind_eq_error_iff.mpr (.inr ⟨e, decodeAs_eq_ok_iff.mpr h, ?_⟩)
    exact Except.bind_eq_error_iff.mpr (.inl hr)

theorem compiles_or_fails (r : Stage.Registry) (d : Except Yaml.Fault Json) :
    (∃ tree o, d = .ok tree ∧ compileDocument r 0 tree = .ok o) ∨
      ∃ report, FailsWith r d report := by
  cases d with
  | error fault => exact .inr ⟨_, .unreadable fault⟩
  | ok tree =>
    cases h : compileDocument r 0 tree with
    | ok o => exact .inl ⟨tree, o, rfl, h⟩
    | error e => exact .inr (exists_failsWith h)

theorem FailsWith.alone (h : FailsWith r d report) : compileRead r [d] = .error (report 1) :=
  h.compileFrom_eq {} 0 []

theorem compileRead_cons {docs : List (Except Yaml.Fault Json)} {s : ManifestSet} :
    compileRead r (d :: docs) = .ok s ↔
      ∃ tree o t, d = .ok tree ∧ compileDocument r 0 tree = .ok o ∧ compileRead r docs = .ok t ∧
        s = ({} : ManifestSet).add o ++ t := by
  rw [compileRead, List.map_cons, compileAll_cons]
  simp only [Error.ofYaml, Except.mapError_eq_ok_iff, compileRead]

theorem compileRead_singleton {s : ManifestSet} :
    compileRead r [d] = .ok s ↔
      ∃ tree o, d = .ok tree ∧ compileDocument r 0 tree = .ok o ∧ s = ({} : ManifestSet).add o := by
  rw [compileRead_cons]
  constructor
  · rintro ⟨tree, o, t, hd, ho, ht, rfl⟩
    cases ht
    exact ⟨tree, o, hd, ho, ManifestSet.append_empty _⟩
  · rintro ⟨tree, o, hd, ho, rfl⟩
    exact ⟨tree, o, {}, hd, ho, rfl, (ManifestSet.append_empty _).symm⟩

theorem compileRead_loads_iff (docs : List (Except Yaml.Fault Json)) :
    (∃ s, compileRead r docs = .ok s) ↔ ∀ d ∈ docs, ∃ s, compileRead r [d] = .ok s := by
  induction docs with
  | nil => exact ⟨fun _ d hd ↦ absurd hd List.not_mem_nil, fun _ ↦ ⟨{}, rfl⟩⟩
  | cons d docs ih =>
    rw [List.forall_mem_cons, ← ih]
    constructor
    · rintro ⟨s, hs⟩
      obtain ⟨tree, o, t, hd, ho, ht, -⟩ := compileRead_cons.mp hs
      exact ⟨⟨_, compileRead_singleton.mpr ⟨tree, o, hd, ho, rfl⟩⟩, t, ht⟩
    · rintro ⟨⟨_, halone⟩, t, ht⟩
      obtain ⟨tree, o, hd, ho, -⟩ := compileRead_singleton.mp halone
      exact ⟨_, compileRead_cons.mpr ⟨tree, o, t, hd, ho, ht, rfl⟩⟩

/-- Behind documents that compile, the one that fails reports its place. -/
theorem FailsWith.compileFrom_append (h : FailsWith r d report)
    {first : List (Except Yaml.Fault Json)} (hfirst : ∀ d' ∈ first, ∃ s, compileRead r [d'] = .ok s)
    (rest : List (Except Yaml.Fault Json)) (s : ManifestSet) (position : Nat) :
    compileFrom r s position ((first ++ d :: rest).map Error.ofYaml) =
      .error (report (position + first.length + 1)) := by
  induction first generalizing s position with
  | nil => exact h.compileFrom_eq s position _
  | cons d' first ih =>
    obtain ⟨⟨_, halone⟩, hrest⟩ := List.forall_mem_cons.mp hfirst
    obtain ⟨tree, o, rfl, ho, -⟩ := compileRead_singleton.mp halone
    rw [List.cons_append, List.map_cons, compileFrom]
    refine Except.bind_eq_error_iff.mpr (.inr ⟨tree, rfl, ?_⟩)
    refine Except.bind_eq_error_iff.mpr (.inr ⟨o, compileDocument_position ho position, ?_⟩)
    rw [ih hrest, List.length_cons]
    simp only [Nat.add_assoc, Nat.add_comm 1]

end Failure

/-- The objects by kind, each kind in the order of the list. -/
def ManifestSet.ofObjects (cs : List Compiled) : ManifestSet :=
  ⟨cs.filterMap Compiled.application?, cs.filterMap Compiled.pipeline?⟩

theorem ManifestSet.ofObjects_cons (c : Compiled) (cs : List Compiled) :
    ofObjects (c :: cs) = ({} : ManifestSet).add (some c) ++ ofObjects cs := by
  cases c <;> rfl

theorem compileRead_eq_ok_iff {docs : List (Except Yaml.Fault Json)} {s : ManifestSet} :
    compileRead r docs = .ok s ↔ ∃ (trees : List Json) (cs : List Compiled), docs = trees.map .ok ∧
      List.Forall₂ (Compiles r) (trees.filter (· ≠ .null)) cs ∧ s = .ofObjects cs := by
  induction docs generalizing s with
  | nil =>
    constructor
    · intro h
      cases h
      exact ⟨[], [], rfl, .nil, rfl⟩
    · rintro ⟨trees, cs, htrees, hcs, rfl⟩
      rw [List.map_eq_nil_iff.mp htrees.symm] at hcs
      cases hcs
      rfl
  | cons d docs ih =>
    simp only [compileRead_cons, ih]
    constructor
    · rintro ⟨tree, o, _, rfl, ho, ⟨trees, cs, rfl, hcs, rfl⟩, rfl⟩
      cases o with
      | none =>
        have hnull := compileDocument_eq_none_iff.mp ho
        subst tree
        exact ⟨.null :: trees, cs, rfl, by simpa using hcs, rfl⟩
      | some c =>
        refine ⟨tree :: trees, c :: cs, rfl, ?_, (ManifestSet.ofObjects_cons c cs).symm⟩
        have hne : tree ≠ .null := by
          rintro rfl
          cases ho
        rw [List.filter_cons_of_pos (by simpa using hne)]
        exact .cons (compiles_iff.mp ho) hcs
    · rintro ⟨trees, cs, htrees, hcs, rfl⟩
      cases trees with
      | nil => cases htrees
      | cons tree trees =>
        obtain ⟨rfl, rfl⟩ := List.cons.inj htrees
        by_cases hnull : tree = .null
        · subst tree
          exact ⟨.null, none, _, rfl, rfl, ⟨trees, cs, rfl, by simpa using hcs, rfl⟩, rfl⟩
        · rw [List.filter_cons_of_pos (by simpa using hnull)] at hcs
          cases hcs with
          | @cons _ c _ cs hc hcs =>
            exact ⟨tree, some c, _, rfl, compiles_iff.mpr hc, ⟨trees, cs, rfl, hcs, rfl⟩,
              ManifestSet.ofObjects_cons c cs⟩

/-- An application in the version of its kind, under the name of its metadata in lower case. -/
structure ApplicationManifest.Named (m : ApplicationManifest) : Prop where
  version : m.apiVersion = Kind.application.apiVersion
  name : m.spec.name = Text.lower m.metadata.name
  length : 3 ≤ m.spec.name.toList.length

/-- A pipeline in the version of its kind, under the names of its metadata, of which that of the
application is in lower case and not empty. -/
structure PipelineManifest.Named (m : PipelineManifest) : Prop where
  version : m.apiVersion = Kind.pipeline.apiVersion
  name : m.spec.name = m.metadata.name
  length : 3 ≤ m.spec.name.toList.length
  application : m.spec.application = Text.lower m.metadata.application
  owned : m.spec.application ≠ ""

def Compiled.Named : Compiled → Prop
  | application m => m.Named
  | pipeline m => m.Named

section Names

variable {cs : List Compiled}

theorem Compiles.named {tree : Json} {c : Compiled} (h : Compiles r tree c) : c.Named := by
  cases h with
  | application h hm hs hn => exact ⟨rfl, rfl, hn⟩
  | pipeline h hm hs ha hn hr => exact ⟨rfl, rfl, hn, rfl, ha⟩

theorem named_of_compiles {trees : List Json} (h : List.Forall₂ (Compiles r) trees cs) :
    ∀ c ∈ cs, c.Named := by
  induction h with
  | nil => exact nofun
  | cons hc _ ih => exact List.forall_mem_cons.mpr ⟨hc.named, ih⟩

theorem ManifestSet.mem_applications_ofObjects {m : ApplicationManifest}
    (h : m ∈ (ofObjects cs).applications) : .application m ∈ cs := by
  obtain ⟨c, hc, hm⟩ := List.mem_filterMap.mp h
  cases c with
  | application =>
    cases hm
    exact hc
  | pipeline => cases hm

theorem ManifestSet.mem_pipelines_ofObjects {m : PipelineManifest}
    (h : m ∈ (ofObjects cs).pipelines) : .pipeline m ∈ cs := by
  obtain ⟨c, hc, hm⟩ := List.mem_filterMap.mp h
  cases c with
  | application => cases hm
  | pipeline =>
    cases hm
    exact hc

end Names

/-- A stream loads where each of its documents loads alone. If one does not, the run fails as the
first of them does alone, but for the number of the document. The objects are those that the
documents which are not empty compile to, by kind and in their order, under the names of their
metadata. -/
theorem documents_independent (r : Stage.Registry) (docs : List (Except Yaml.Fault Json)) :
    (∀ text, Yaml.stream text = docs → loadText r text = compileRead r docs) ∧
    ((∃ e, compileRead r docs = .error e) ↔ ∃ d ∈ docs, ∃ e, compileRead r [d] = .error e) ∧
    (∀ first d rest e, docs = first ++ d :: rest →
      (∀ d' ∈ first, ∃ s, compileRead r [d'] = .ok s) → compileRead r [d] = .error e →
        ∃ report, FailsWith r d report ∧ e = report 1 ∧
          compileRead r docs = .error (report (first.length + 1))) ∧
    (∀ s, compileRead r docs = .ok s ↔
      ∃ (trees : List Json) (cs : List Compiled), docs = trees.map .ok ∧
        List.Forall₂ (Compiles r) (trees.filter (· ≠ .null)) cs ∧ s = .ofObjects cs) ∧
    ∀ s, compileRead r docs = .ok s →
      (∀ m ∈ s.applications, m.Named) ∧ ∀ m ∈ s.pipelines, m.Named := by
  refine ⟨?_, ?_, ?_, fun s ↦ compileRead_eq_ok_iff, ?_⟩
  · rintro text rfl
    rfl
  · simp only [Except.exists_error_iff, compileRead_loads_iff docs, not_forall, exists_prop]
  · rintro first d rest e rfl hfirst he
    rcases compiles_or_fails r d with ⟨tree, o, hd, ho⟩ | ⟨report, hreport⟩
    · cases he.symm.trans (compileRead_singleton.mpr ⟨tree, o, hd, ho, rfl⟩)
    · refine ⟨report, hreport, ?_, ?_⟩
      · cases he.symm.trans hreport.alone
        rfl
      · have hrun := hreport.compileFrom_append hfirst rest {} 0
        rwa [Nat.zero_add] at hrun
  · intro s hs
    obtain ⟨trees, cs, -, hcs, rfl⟩ := compileRead_eq_ok_iff.mp hs
    constructor
    · intro m hm
      exact named_of_compiles hcs _ (ManifestSet.mem_applications_ofObjects hm)
    · intro m hm
      exact named_of_compiles hcs _ (ManifestSet.mem_pipelines_ofObjects hm)

section Witness

/-- A list behind an empty document. -/
def listBehindBlank : List (Except Yaml.Fault Json) :=
  [.ok .null, .ok (.arr []), .ok (.str "shop")]

theorem documents_independent_weakText :
    (loadText .builtin weakText = compileRead .builtin (Yaml.stream weakText) ∧
      compileRead .builtin (Yaml.stream weakText) = .ok strictSet ∧
      (∃ (trees : List Json) (cs : List Compiled), Yaml.stream weakText = trees.map .ok ∧
        List.Forall₂ (Compiles .builtin) (trees.filter (· ≠ .null)) cs ∧
        strictSet = .ofObjects cs) ∧
      (∀ m ∈ strictSet.applications, m.Named) ∧ ∀ m ∈ strictSet.pipelines, m.Named) ∧
    compileRead .builtin [.ok (.arr [])] =
      .error (.decode "manifest document 1" "expected a mapping") ∧
    ∃ report, FailsWith .builtin (.ok (.arr [])) report ∧
      .decode "manifest document 1" "expected a mapping" = report 1 ∧
      compileRead .builtin listBehindBlank = .error (report 2) := by
  have hblank : ∃ s, compileRead .builtin [.ok .null] = .ok s := ⟨{}, by decide⟩
  have halone : compileRead .builtin [.ok (.arr [])] =
      .error (.decode "manifest document 1" "expected a mapping") := by decide
  obtain ⟨load, -, -, objects, named⟩ := documents_independent .builtin (Yaml.stream weakText)
  obtain ⟨-, -, report, -⟩ := documents_independent .builtin listBehindBlank
  have hload := load weakText rfl
  have hset := hload.symm.trans loadText_weakText
  refine ⟨⟨hload, hset, (objects _).mp hset, named _ hset⟩, halone, ?_⟩
  exact report [.ok .null] _ [.ok (.str "shop")] _ rfl (by simpa using hblank) halone

end Witness

end DeliveryCharts.Manifest
