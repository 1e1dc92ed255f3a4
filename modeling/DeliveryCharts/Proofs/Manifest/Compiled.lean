import DeliveryCharts.Manifest.Set
import DeliveryCharts.Proofs.Manifest.Specs

/-!
Compiled documents: what compiling makes of a document, and that the document which it writes
compiles to the same object.
-/

namespace DeliveryCharts.Manifest

open Members
open Record (field_eq)

variable {r : Stage.Registry} {e : Envelope}

theorem decodeAs_eq_ok_iff {α : Type} {context : String} {x : Except Json.Fault α} {a : α} :
    decodeAs context x = .ok a ↔ x = .ok a :=
  Except.mapError_eq_ok_iff

namespace Envelope

/-- The document of an envelope. -/
def members (e : Envelope) : Members :=
  ofList [("apiVersion", .str e.apiVersion), ("kind", .str e.kind), ("metadata", .obj e.metadata),
    ("spec", .obj e.spec)]

theorem decode_members (e : Envelope) : decode e.members = .ok e := by
  simp [decode, members, field_eq, Record.map]
  rfl

theorem within_spec {n : Nat} {ms : Members} (hms : ms.Within (n + 1)) (h : decode ms = .ok e) :
    e.spec.Within n := by
  simp only [decode, Except.bind_eq_ok_iff] at h
  obtain ⟨_, -, _, -, _, -, spec, hs, ⟨⟩⟩ := h
  obtain ⟨-, k, hk, hw⟩ := (Record.within_of_map (by omega) hms hs).obj_inv
  exact hw.mono (by omega)

end Envelope

namespace ApplicationManifest

theorem compile_eq_ok_iff {m : ApplicationManifest} :
    compile e = .ok m ↔ ∃ metadata spec, ApplicationMetadata.decode e.metadata = .ok metadata ∧
      Application.decode e.spec = .ok spec ∧
      checkName .application (Text.lower metadata.name) = .ok () ∧
      m = ⟨e.apiVersion, metadata, { spec with name := Text.lower metadata.name }⟩ := by
  simp only [compile, Except.bind_eq_ok_iff, decodeAs_eq_ok_iff]
  constructor
  · rintro ⟨metadata, hm, spec, hs, ⟨⟩, hc, ⟨⟩⟩
    exact ⟨metadata, spec, hm, hs, hc, rfl⟩
  · rintro ⟨metadata, spec, hm, hs, hc, rfl⟩
    exact ⟨metadata, hm, spec, hs, (), hc, rfl⟩

/-- The document that is written for an application, before it is routed. -/
def envelope (m : ApplicationManifest) : Envelope :=
  ⟨m.apiVersion, Kind.application.name, ofList [("name", .str m.metadata.name)],
    ofList m.spec.encode⟩

theorem canonical_toJson (m : ApplicationManifest) :
    m.toJson.canonical = .obj m.envelope.members := by
  have hspec : m.spec.toJson.canonical = .obj (ofList m.spec.encode) :=
    Json.canonical_obj m.spec.within_encode
  simp [toJson, Json.canonical, Json.canonicalMembers, hspec, envelope, Envelope.members]

theorem compile_envelope {m : ApplicationManifest} (h : compile e = .ok m) :
    compile m.envelope = .ok m := by
  obtain ⟨metadata, spec, -, -, hc, rfl⟩ := compile_eq_ok_iff.mp h
  have hmetadata : ApplicationMetadata.decode (ofList [("name", .str metadata.name)]) =
      .ok metadata :=
    Except.bind_eq_ok_iff.mpr ⟨_, Record.field_sole (Coerce.string_str _), rfl⟩
  exact compile_eq_ok_iff.mpr ⟨metadata, _, hmetadata, Application.decode_encode _, hc, rfl⟩

end ApplicationManifest

namespace PipelineManifest

theorem compile_eq_ok_iff {m : PipelineManifest} :
    compile r e = .ok m ↔ ∃ metadata spec stages,
      PipelineMetadata.decode e.metadata = .ok metadata ∧ Pipeline.decode e.spec = .ok spec ∧
      Text.lower metadata.application ≠ "" ∧ checkName .pipeline metadata.name = .ok () ∧
      Stage.resolve r (Text.lower metadata.application) metadata.name spec.stages = .ok stages ∧
      m = ⟨e.apiVersion, metadata, { spec with
        name := metadata.name, application := Text.lower metadata.application, stages }⟩ := by
  simp only [compile, Except.bind_eq_ok_iff, decodeAs_eq_ok_iff]
  constructor
  · rintro ⟨metadata, hm, spec, hs, ha⟩
    split at ha
    · obtain ⟨_, ⟨⟩, -⟩ := Except.bind_eq_ok_iff.mp ha
    · rename_i hne
      simp only [Except.bind_eq_ok_iff] at ha
      obtain ⟨⟨⟩, hc, stages, hr, ⟨⟩⟩ := ha
      exact ⟨metadata, spec, stages, hm, hs, by simpa using hne, hc, hr, rfl⟩
  · rintro ⟨metadata, spec, stages, hm, hs, hne, hc, hr, rfl⟩
    refine ⟨metadata, hm, spec, hs, ?_⟩
    rw [if_neg (by simpa using hne)]
    simp only [hc, hr]
    rfl

/-- The document that is written for a pipeline, before it is routed. -/
def envelope (m : PipelineManifest) : Envelope :=
  ⟨m.apiVersion, Kind.pipeline.name,
    ofList [("name", .str m.metadata.name), ("application", .str m.metadata.application)],
    ofList m.spec.encode⟩

theorem canonical_toJson {n : Nat} {m : PipelineManifest} (hn : 1 ≤ n) (h : m.spec.Normal n) :
    m.toJson.canonical = .obj m.envelope.members := by
  have hspec : m.spec.toJson.canonical = .obj (ofList m.spec.encode) :=
    Json.canonical_obj (Pipeline.within_encode hn h)
  simp [toJson, Json.canonical, Json.canonicalMembers, hspec, envelope, Envelope.members]

theorem normal_of_compile {n : Nat} {m : PipelineManifest} (hn : 6 ≤ n) (hspec : e.spec.Within n)
    (h : compile r e = .ok m) : m.spec.Normal n := by
  obtain ⟨metadata, spec, stages, -, hs, -, -, hr, rfl⟩ := compile_eq_ok_iff.mp h
  have hp := Pipeline.normal_of_decode (by omega) hspec hs
  exact hp.setStages _ _ (Stage.within_resolve hn hp.stages hr)

theorem compile_envelope {n : Nat} {m : PipelineManifest} (hm : m.spec.Normal n)
    (h : compile r e = .ok m) : compile r m.envelope = .ok m := by
  obtain ⟨metadata, spec, stages, -, -, hne, hc, hr, rfl⟩ := compile_eq_ok_iff.mp h
  refine compile_eq_ok_iff.mpr ⟨metadata, _, stages, ?_, Pipeline.decode_encode hm, hne, hc,
    Stage.resolve_again hr, rfl⟩
  simp [envelope, PipelineMetadata.decode, field_eq]
  rfl

end PipelineManifest

theorem Kind.validate_eq_ok_iff {name version : String} {k : Kind} :
    validate name version = .ok k ↔ ofName? name = some k ∧ k.apiVersion = version := by
  rw [validate]
  split
  · rename_i hn
    simp [hn]
  · rename_i l hl
    simp only [hl, Option.some.injEq]
    split
    · rename_i hv
      constructor
      · rintro ⟨⟩
        exact ⟨rfl, hv⟩
      · rintro ⟨rfl, -⟩
        rfl
    · rename_i hv
      constructor
      · rintro ⟨⟩
      · rintro ⟨rfl, h⟩
        exact absurd h hv

theorem routed_eq_ok_iff {c : Compiled} :
    routed r e = .ok c ↔ Kind.validate e.kind e.apiVersion = .ok c.kind ∧
      match c with
      | .application m => ApplicationManifest.compile e = .ok m
      | .pipeline m => PipelineManifest.compile r e = .ok m := by
  rw [routed, Except.bind_eq_ok_iff]
  constructor
  · rintro ⟨k, hk, hc⟩
    cases k with
    | application =>
      obtain ⟨m, hm, ⟨⟩⟩ := Except.bind_eq_ok_iff.mp hc
      exact ⟨hk, hm⟩
    | pipeline =>
      obtain ⟨m, hm, ⟨⟩⟩ := Except.bind_eq_ok_iff.mp hc
      exact ⟨hk, hm⟩
  · rintro ⟨hk, hm⟩
    cases c with
    | application m => exact ⟨_, hk, Except.bind_eq_ok_iff.mpr ⟨m, hm, rfl⟩⟩
    | pipeline m => exact ⟨_, hk, Except.bind_eq_ok_iff.mpr ⟨m, hm, rfl⟩⟩

theorem compileDocument_eq_ok_iff {position : Nat} {tree : Json} {c : Compiled} :
    compileDocument r position tree = .ok (some c) ↔
      ∃ ms e, tree = .obj ms ∧ Envelope.decode ms = .ok e ∧ routed r e = .ok c := by
  cases tree with
  | obj ms =>
    simp only [compileDocument, Except.bind_eq_ok_iff, decodeAs_eq_ok_iff]
    constructor
    · rintro ⟨e, he, c, hc, ⟨⟩⟩
      exact ⟨ms, e, rfl, he, hc⟩
    · rintro ⟨_, e, ⟨⟩, he, hc⟩
      exact ⟨e, he, c, hc, rfl⟩
  | null | bool | num | str | arr => simp [compileDocument]

theorem compileDocument_eq_none_iff {position : Nat} {tree : Json} :
    compileDocument r position tree = .ok none ↔ tree = .null := by
  constructor
  · intro h
    cases tree with
    | null => rfl
    | obj ms =>
      simp only [compileDocument, Except.bind_eq_ok_iff] at h
      obtain ⟨e, -, c, -, hc⟩ := h
      cases hc
    | bool | num | str | arr => cases h
  · rintro rfl
    rfl

namespace Compiled

def application? : Compiled → Option ApplicationManifest
  | application m => some m
  | pipeline _ => none

def pipeline? : Compiled → Option PipelineManifest
  | application _ => none
  | pipeline m => some m

/-- The spec of a pipeline is as reading leaves it. -/
def Normal (n : Nat) : Compiled → Prop
  | application _ => True
  | pipeline m => m.spec.Normal n

def envelope : Compiled → Envelope
  | application m => m.envelope
  | pipeline m => m.envelope

variable {n position : Nat} {tree : Json} {c : Compiled}

theorem canonical_toJson (hn : 1 ≤ n) (hc : c.Normal n) :
    c.toJson.canonical = .obj c.envelope.members := by
  cases c with
  | application m => exact m.canonical_toJson
  | pipeline m => exact PipelineManifest.canonical_toJson hn hc

theorem normal_of_compile (hn : 6 ≤ n) (ht : tree.Within (n + 2))
    (h : compileDocument r position tree = .ok (some c)) : c.Normal n := by
  obtain ⟨ms, e, rfl, he, hc⟩ := compileDocument_eq_ok_iff.mp h
  obtain ⟨-, k, hk, hms⟩ := ht.obj_inv
  cases c with
  | application m => trivial
  | pipeline m =>
    refine PipelineManifest.normal_of_compile hn ?_ (routed_eq_ok_iff.mp hc).2
    exact Envelope.within_spec (hms.mono (by omega)) he

theorem routed_envelope (hc : c.Normal n) (h : routed r e = .ok c) :
    routed r c.envelope = .ok c := by
  obtain ⟨hk, hm⟩ := routed_eq_ok_iff.mp h
  obtain ⟨-, hv⟩ := Kind.validate_eq_ok_iff.mp hk
  cases c with
  | application m =>
    refine routed_eq_ok_iff.mpr ⟨?_, ApplicationManifest.compile_envelope hm⟩
    obtain ⟨_, _, -, -, -, rfl⟩ := ApplicationManifest.compile_eq_ok_iff.mp hm
    exact Kind.validate_eq_ok_iff.mpr ⟨Kind.ofName?_name .application, hv⟩
  | pipeline m =>
    refine routed_eq_ok_iff.mpr ⟨?_, PipelineManifest.compile_envelope hc hm⟩
    obtain ⟨_, _, _, -, -, -, -, -, rfl⟩ := PipelineManifest.compile_eq_ok_iff.mp hm
    exact Kind.validate_eq_ok_iff.mpr ⟨Kind.ofName?_name .pipeline, hv⟩

/-- The document that is written for an object compiles to it, wherever it stands. -/
theorem compile_again (hn : 1 ≤ n) (hc : c.Normal n)
    (h : compileDocument r position tree = .ok (some c)) (position' : Nat) :
    compileDocument r position' c.toJson.canonical = .ok (some c) := by
  obtain ⟨ms, e, -, -, hr⟩ := compileDocument_eq_ok_iff.mp h
  rw [canonical_toJson hn hc]
  exact compileDocument_eq_ok_iff.mpr ⟨_, _, rfl, Envelope.decode_members _, routed_envelope hc hr⟩

end Compiled

namespace ManifestSet

theorem mem_objects_add {s : ManifestSet} {o : Option Compiled} {c : Compiled} :
    c ∈ (s.add o).objects ↔ c ∈ s.objects ∨ o = some c := by
  cases o with
  | none => simp [add]
  | some d => cases d <;> cases c <;> simp [add, objects, eq_comm]

theorem foldl_add_objects (s : ManifestSet) :
    s.objects.foldl (fun s c ↦ s.add (some c)) {} = s := by
  have happs (as : List ApplicationManifest) (s : ManifestSet) :
      (as.map Compiled.application).foldl (fun s c ↦ s.add (some c)) s =
        { s with applications := s.applications ++ as } := by
    induction as generalizing s with
    | nil => simp
    | cons a as ih =>
      rw [List.map_cons, List.foldl_cons, ih]
      simp [add]
  have hpipelines (ps : List PipelineManifest) (s : ManifestSet) :
      (ps.map Compiled.pipeline).foldl (fun s c ↦ s.add (some c)) s =
        { s with pipelines := s.pipelines ++ ps } := by
    induction ps generalizing s with
    | nil => simp
    | cons p ps ih =>
      rw [List.map_cons, List.foldl_cons, ih]
      simp [add]
  rw [objects, List.foldl_append, happs, hpipelines]
  simp

end ManifestSet

variable {s s' : ManifestSet} {position : Nat} {ds : List (Except Error Json)}

/-- What holds of the objects so far and of what each tree compiles to holds of all objects. -/
theorem compileFrom_all {P : Compiled → Prop} (h : compileFrom r s position ds = .ok s')
    (hs : ∀ c ∈ s.objects, P c)
    (hds : ∀ tree, .ok tree ∈ ds → ∀ position c,
      compileDocument r position tree = .ok (some c) → P c) : ∀ c ∈ s'.objects, P c := by
  induction ds generalizing s position with
  | nil =>
    cases h
    exact hs
  | cons d ds ih =>
    simp only [compileFrom, Except.bind_eq_ok_iff] at h
    obtain ⟨tree, rfl, o, ho, h⟩ := h
    refine ih h (fun c hc ↦ ?_) fun tree htree ↦ hds tree (List.mem_cons_of_mem _ htree)
    rcases ManifestSet.mem_objects_add.mp hc with hc | rfl
    · exact hs c hc
    · exact hds tree List.mem_cons_self position c ho

theorem compileFrom_written {cs : List Compiled}
    (hcs : ∀ c ∈ cs, ∀ position, compileDocument r position c.toJson.canonical = .ok (some c)) :
    compileFrom r s position (cs.map fun c ↦ .ok c.toJson.canonical) =
      .ok (cs.foldl (fun s c ↦ s.add (some c)) s) := by
  induction cs generalizing s position with
  | nil => rfl
  | cons c cs ih =>
    obtain ⟨hc, hcs⟩ := List.forall_mem_cons.mp hcs
    rw [List.map_cons, compileFrom]
    refine Except.bind_eq_ok_iff.mpr ⟨_, rfl, ?_⟩
    exact Except.bind_eq_ok_iff.mpr ⟨some c, hc position, ih hcs⟩

end DeliveryCharts.Manifest
