import DeliveryCharts.Manifest.Load
import DeliveryCharts.Proofs.Files.Tree
import DeliveryCharts.Proofs.Manifest.Parts

/-!
The set of a directory, whose files are read as one stream.
-/

namespace DeliveryCharts.Manifest

open ManifestSet

variable {r : Stage.Registry}

namespace ManifestSet

/-- The objects of all sets, set by set. -/
def concat (sets : List ManifestSet) : ManifestSet where
  applications := sets.flatMap ManifestSet.applications
  pipelines := sets.flatMap ManifestSet.pipelines

theorem concat_cons (s : ManifestSet) (sets : List ManifestSet) :
    concat (s :: sets) = s ++ concat sets := rfl

end ManifestSet

/-- The texts with a blank line and hyphens between neighbours. -/
def glue : String → List String → String
  | t, [] => t
  | t, t' :: ts => t ++ "\n" ++ "---\n" ++ glue t' ts

theorem glue_append (u t : String) (ts : List String) : glue (u ++ t) ts = u ++ glue t ts := by
  cases ts with
  | nil => rfl
  | cons t' ts => simp only [glue, String.append_assoc]

theorem joinTexts_empty (ts : List String) : joinTexts ("" :: ts) = joinTexts ts := rfl

theorem joinTexts_cons {t : String} (ht : t ≠ "") (ts : List String) :
    joinTexts (t :: ts) = glue t ts := by
  have hfold {u : String} (hu : u ≠ "") (ts : List String) :
      ts.foldl (fun stream text ↦
        if stream.isEmpty then text else stream ++ "\n---\n" ++ text) u = glue u ts := by
    induction ts generalizing u with
    | nil => rfl
    | cons t' ts ih =>
      have hfeed : "\n---\n" = "\n" ++ "---\n" := rfl
      have hne : u ++ "\n---\n" ++ t' ≠ "" := fun he ↦ hu
        (String.append_eq_empty_iff.mp (String.append_eq_empty_iff.mp he).1).1
      rw [List.foldl_cons, String.isEmpty_eq_false_iff.mpr hu, if_neg Bool.false_ne_true, ih hne,
        glue_append, hfeed, glue]
      simp only [String.append_assoc]
  exact hfold ht ts

theorem isAllowed_glue {t : String} {ts : List String} :
    (∀ ch ∈ (glue t ts).toList, Yaml.isAllowed ch = true) ↔
      ∀ u ∈ t :: ts, ∀ ch ∈ u.toList, Yaml.isAllowed ch = true := by
  have hfeed : ∀ ch ∈ "\n".toList, Yaml.isAllowed ch = true := List.all_eq_true.mp rfl
  have hhyphens : ∀ ch ∈ "---\n".toList, Yaml.isAllowed ch = true := List.all_eq_true.mp rfl
  induction ts generalizing t with
  | nil =>
    exact (List.forall_mem_singleton
      (p := fun u : String ↦ ∀ ch ∈ u.toList, Yaml.isAllowed ch = true)).symm
  | cons u ts ih =>
    simp only [glue, String.toList_append, List.forall_mem_append]
    rw [and_iff_left hfeed, and_iff_left hhyphens, List.forall_mem_cons]
    exact and_congr_right fun _ ↦ ih

/-- The documents are those of the texts, where a blank line behind a text does not matter. -/
theorem following_glue {t : String} {ts : List String}
    (hsettled : ∀ u ∈ (t :: ts).dropLast, Yaml.Settled u.toList)
    (o : Except Yaml.Fault Yaml.Directives) :
    Yaml.following o [(glue t ts).toList] = Yaml.following o ((t :: ts).map String.toList) := by
  induction ts generalizing t o with
  | nil => rfl
  | cons u ts ih =>
    obtain ⟨ht, hsettled⟩ := List.forall_mem_cons.mp hsettled
    have hchars : (glue t (u :: ts)).toList =
        (t.toList ++ ['\n']) ++ Yaml.joinedFrom [(Yaml.hyphens, (glue u ts).toList)] := by
      simp only [glue, String.toList_append, Yaml.joinedFrom, List.append_nil, List.append_assoc]
      rfl
    have hjoinable : Yaml.Joinable (t.toList ++ ['\n']) [(Yaml.hyphens, (glue u ts).toList)] :=
      ⟨List.getLast?_concat, trivial⟩
    rw [hchars, Yaml.following_joined hjoinable]
    cases o with
    | error e => rfl
    | ok d =>
      simp only [List.map_cons, List.map_nil] at ih ⊢
      rw [Yaml.following, Yaml.following, ht, ← ih hsettled]

/-- A file can be followed by others: the blank line behind it does not belong to what it holds. -/
def EndsAlone (r : Stage.Registry) (t : String) : Prop := loadText r (t ++ "\n") = loadText r t

/-- A file that ends its last line can be followed by others, unless a block keeps what follows. -/
theorem EndsAlone.of_feed {t : String} (hlast : t.toList.getLast? = some '\n')
    (hkeeps : ¬ Yaml.KeepsEnd t.toList) : EndsAlone r t :=
  loadText_feed hlast hkeeps

theorem head?_glue {t : String} (ht : t.toList.head? ≠ some '\uFEFF') (ts : List String) :
    (glue t ts).toList.head? ≠ some '\uFEFF' := by
  cases ts with
  | nil => exact ht
  | cons t' ts =>
    rw [glue, String.toList_append, String.toList_append, String.toList_append]
    cases h : t.toList with
    | nil => exact (by decide : some '\n' ≠ some '\uFEFF')
    | cons ch cs =>
      rw [h] at ht
      exact ht

theorem loadText_glue {f : String × ManifestSet} {fs : List (String × ManifestSet)}
    (hload : ∀ g ∈ f :: fs, loadText r g.1 = .ok g.2)
    (hends : ∀ g ∈ (f :: fs).dropLast, EndsAlone r g.1)
    (hmarks : ∀ g ∈ fs, g.1.toList.head? ≠ some '\uFEFF') :
    loadText r (glue f.1 (fs.map Prod.fst)) = .ok (concat ((f :: fs).map Prod.snd)) := by
  induction fs generalizing f with
  | nil =>
    rw [List.map_nil, glue, hload f List.mem_cons_self, List.map_cons, concat_cons]
    exact congrArg _ (append_empty f.2).symm
  | cons f' fs ih =>
    obtain ⟨hf, hload⟩ := List.forall_mem_cons.mp hload
    obtain ⟨hend, hends⟩ := List.forall_mem_cons.mp hends
    obtain ⟨hmark, hmarks⟩ := List.forall_mem_cons.mp hmarks
    have hlast : (f.1 ++ "\n").toList.getLast? = some '\n' := by
      rw [String.toList_append]
      exact List.getLast?_concat
    exact loadText_append (hend.trans hf) (ih hload hends hmarks) hlast (head?_glue hmark _)

theorem loadText_joinTexts {fs : List (String × ManifestSet)}
    (hload : ∀ f ∈ fs, loadText r f.1 = .ok f.2) (hends : ∀ f ∈ fs.dropLast, EndsAlone r f.1)
    (hmarks : ∀ f ∈ fs.tail, f.1.toList.head? ≠ some '\uFEFF') :
    loadText r (joinTexts (fs.map Prod.fst)) = .ok (concat (fs.map Prod.snd)) := by
  induction fs with
  | nil => exact loadText_empty
  | cons f fs ih =>
    by_cases hf : f.1 = ""
    · obtain ⟨hfirst, hrest⟩ := List.forall_mem_cons.mp hload
      have hset : f.2 = {} := by
        rw [hf, loadText_empty] at hfirst
        exact (Except.ok.inj hfirst).symm
      have hmore := ih hrest (fun g hg ↦ hends g ?_) fun g hg ↦ hmarks g (List.mem_of_mem_tail hg)
      · rw [List.map_cons, List.map_cons, hf, joinTexts_empty, hmore, concat_cons, hset,
          empty_append]
      · cases fs with
        | nil => cases hg
        | cons f' fs => exact List.mem_cons_of_mem f hg
    · rw [List.map_cons, joinTexts_cons hf]
      exact loadText_glue hload hends hmarks

open Files

variable {files : FileTree} {path : String}

/-- A file that is found in a directory is loaded by itself. -/
theorem loadPath_file {name : String} (hfiles : files.Proper) (hname : name ∈ files.filesIn path)
    (hyaml : isYamlName name = true) :
    loadPath r files (Path.join path name) =
      Error.ofFile (files.readText (Path.join path name)) >>= loadText r := by
  obtain ⟨hproper, content, hfind⟩ := (FileTree.filesIn_spec hfiles path).2 name hname
  have hdiscover : discover files (Path.join path name) = .ok [Path.join path name] := by
    rw [discover, FileTree.exists, FileTree.isFileAt, hfind, Path.fileName?_join path hproper]
    simp [Except.isOk, Except.toBool, hyaml]
  rw [loadPath, readManifests, hdiscover]
  dsimp only [bind, Except.bind]
  rw [List.mapM_cons, List.mapM_nil]
  cases Error.ofFile (files.readText (Path.join path name)) with
  | error e => rfl
  | ok t => rfl

theorem discover_directory (h : files.isDirectoryAt path = true) :
    discover files path = .ok (((files.filesIn path).filter isYamlName).map (Path.join path)) := by
  rw [FileTree.isDirectoryAt] at h
  rw [discover, FileTree.exists, FileTree.isFileAt]
  split at h
  · rename_i hfind
    rw [hfind]
    rfl
  · cases h

theorem readManifests_eq {paths : List String} {text : String → String}
    (hdiscover : discover files path = .ok paths)
    (htext : ∀ p ∈ paths, files.readText p = .ok (text p)) :
    readManifests files path = .ok (joinTexts (paths.map text)) := by
  rw [readManifests, hdiscover]
  refine Except.bind_eq_ok_iff.mpr ⟨paths, rfl, Except.bind_eq_ok_iff.mpr ⟨_, ?_, rfl⟩⟩
  exact Except.mapM_eq_map fun p hp ↦ by rw [htext p hp]; rfl

/-- Of a directory of texts those whose names are right are read. -/
theorem readManifests_folder {dir : String} {texts : List (String × String)}
    (hdir : Path.IsName dir) (hnames : ∀ t ∈ texts, Path.IsName t.1)
    (hsorted : texts.Pairwise fun a b ↦ a.1 < b.1) :
    readManifests (.folder dir texts) dir =
      .ok (joinTexts ((texts.filter fun t ↦ isYamlName t.1).map Prod.snd)) := by
  have hdirectory : (FileTree.folder dir texts).isDirectoryAt dir = true := by
    rw [FileTree.isDirectoryAt, FileTree.find_folder hdir]
  have hdiscover : discover (.folder dir texts) dir =
      .ok ((texts.filter fun t ↦ isYamlName t.1).map fun t ↦ Path.join dir t.1) := by
    rw [discover_directory hdirectory, FileTree.filesIn_folder hdir, List.filter_map, List.map_map]
    rfl
  rw [readManifests, hdiscover]
  refine Except.bind_eq_ok_iff.mpr ⟨_, rfl, Except.bind_eq_ok_iff.mpr ⟨_, ?_, rfl⟩⟩
  rw [List.mapM_map]
  refine Except.mapM_eq_map fun t ht ↦ ?_
  rw [Function.comp_apply,
    FileTree.readText_folder hdir hnames hsorted (List.mem_filter.mp ht).1]
  rfl

/-- The objects of a directory are those of its files, if no file but the last one holds more with a
blank line behind it, and none but the first starts with a byte order mark. -/
theorem loadPath_directory {paths : List String} {sets : String → ManifestSet}
    (hfiles : files.Proper) (hdirectory : files.isDirectoryAt path = true)
    (hdiscover : discover files path = .ok paths)
    (hload : ∀ p ∈ paths, loadPath r files p = .ok (sets p))
    (hends : ∀ p ∈ paths.dropLast, ∀ t, files.readText p = .ok t → EndsAlone r t)
    (hmarks : ∀ p ∈ paths.tail, ∀ t, files.readText p = .ok t → t.toList.head? ≠ some '\uFEFF') :
    loadPath r files path = .ok (concat (paths.map sets)) := by
  have hpaths := (discover_directory hdirectory).symm.trans hdiscover
  cases hpaths
  obtain ⟨text, htext⟩ : ∃ text : String → String,
      ∀ p ∈ ((files.filesIn path).filter isYamlName).map (Path.join path),
        files.readText p = .ok (text p) ∧ loadText r (text p) = .ok (sets p) := by
    refine ⟨fun p ↦ (files.readText p).toOption.getD "", fun p hp ↦ ?_⟩
    obtain ⟨name, hname, rfl⟩ := List.mem_map.mp hp
    obtain ⟨hmem, hyaml⟩ := List.mem_filter.mp hname
    have hset := hload _ hp
    rw [loadPath_file hfiles hmem hyaml] at hset
    obtain ⟨t, ht, hset⟩ := Except.bind_eq_ok_iff.mp hset
    rw [Error.ofFile, Except.mapError_eq_ok_iff] at ht
    dsimp only
    rw [ht]
    exact ⟨rfl, hset⟩
  generalize ((files.filesIn path).filter isYamlName).map (Path.join path) = paths at *
  have hread : readManifests files path = .ok (joinTexts (paths.map text)) :=
    readManifests_eq hdiscover fun p hp ↦ (htext p hp).1
  have hmap (as : List String) : (as.map fun p ↦ (text p, sets p)).map Prod.fst = as.map text ∧
      (as.map fun p ↦ (text p, sets p)).map Prod.snd = as.map sets := by
    rw [List.map_map, List.map_map]
    exact ⟨rfl, rfl⟩
  rw [loadPath, hread, ← (hmap paths).1, ← (hmap paths).2]
  refine loadText_joinTexts (fun f hf ↦ ?_) (fun f hf ↦ ?_) fun f hf ↦ ?_
  · obtain ⟨p, hp, rfl⟩ := List.mem_map.mp hf
    exact (htext p hp).2
  · rw [← List.map_dropLast] at hf
    obtain ⟨p, hp, rfl⟩ := List.mem_map.mp hf
    exact hends p hp _ (htext p ((List.dropLast_sublist _).subset hp)).1
  · rw [← List.map_tail] at hf
    obtain ⟨p, hp, rfl⟩ := List.mem_map.mp hf
    exact hmarks p hp _ (htext p (List.mem_of_mem_tail hp)).1

section Witness

def applicationText : String :=
  "apiVersion: spinnaker.adobe.com/alpha1\nkind: Application\nmetadata:\n  name: shop\n"

/-- An application whose address is a block that keeps its final breaks. -/
def keptText : String :=
  "apiVersion: spinnaker.adobe.com/alpha1\nkind: Application\nmetadata:\n  name: shop\n" ++
    "spec:\n  email: |+\n    ops\n"

def pipelineText : String :=
  "apiVersion: spinnaker.adobe.com/alpha1\nkind: Pipeline\nmetadata:\n  name: release\n" ++
    "  application: shop"

def applicationSet (email : String) : ManifestSet :=
  ⟨[⟨"spinnaker.adobe.com/alpha1", ⟨"shop"⟩, { name := "shop", email }⟩], []⟩

def pipelineSet : ManifestSet :=
  ⟨[], [⟨"spinnaker.adobe.com/alpha1", ⟨"release", "shop"⟩,
    { application := "shop", name := "release" }⟩]⟩

/-- A directory with an application before a pipeline. -/
def shopFiles (application : String) : FileTree :=
  .folder "shop" [("a.yaml", application), ("b.yaml", pipelineText)]

def shopSets (path : String) : ManifestSet :=
  if path = "shop/a.yaml" then applicationSet "" else pipelineSet

theorem isName_shopFiles : Path.IsName "shop" ∧ Path.IsName "a.yaml" ∧ Path.IsName "b.yaml" ∧
    "a.yaml" < "b.yaml" := by
  decide

theorem join_shopFiles : Path.join "shop" "a.yaml" = "shop/a.yaml" ∧
    Path.join "shop" "b.yaml" = "shop/b.yaml" := by
  decide

variable {t : String}

theorem shopFiles_proper : (shopFiles t).Proper := by
  obtain ⟨hdir, ha, hb, hlt⟩ := isName_shopFiles
  exact FileTree.proper_folder hdir (by simp [ha, hb]) (List.pairwise_pair.mpr hlt)

theorem filesIn_shopFiles : (shopFiles t).filesIn "shop" = ["a.yaml", "b.yaml"] := by
  rw [shopFiles, FileTree.filesIn_folder isName_shopFiles.1]
  rfl

theorem isDirectoryAt_shopFiles : (shopFiles t).isDirectoryAt "shop" = true := by
  rw [FileTree.isDirectoryAt, shopFiles, FileTree.find_folder isName_shopFiles.1]

theorem discover_shopFiles :
    discover (shopFiles t) "shop" = .ok ["shop/a.yaml", "shop/b.yaml"] := by
  rw [discover_directory isDirectoryAt_shopFiles, filesIn_shopFiles]
  decide

theorem readText_shopFiles :
    (shopFiles t).readText "shop/a.yaml" = .ok t ∧
      (shopFiles t).readText "shop/b.yaml" = .ok pipelineText := by
  obtain ⟨hdir, ha, hb, hlt⟩ := isName_shopFiles
  have hread : ∀ f ∈ [("a.yaml", t), ("b.yaml", pipelineText)],
      (shopFiles t).readText (Path.join "shop" f.1) = .ok f.2 := fun f hf ↦
    FileTree.readText_folder hdir (by simp [ha, hb]) (List.pairwise_pair.mpr hlt) hf
  rw [List.forall_mem_cons, List.forall_mem_singleton, join_shopFiles.1, join_shopFiles.2] at hread
  exact hread

theorem loadText_shopTexts :
    loadText .builtin applicationText = .ok (applicationSet "") ∧
      loadText .builtin keptText = .ok (applicationSet "ops\n") ∧
      loadText .builtin (keptText ++ "\n") = .ok (applicationSet "ops\n\n") ∧
      loadText .builtin pipelineText = .ok pipelineSet := by
  refine ⟨loadText_of_toList String.toList_ofList ?_ ?_,
    loadText_of_toList (toList_append_of String.toList_ofList String.toList_ofList) ?_ ?_,
    loadText_of_toList (toList_append_of (toList_append_of String.toList_ofList
      String.toList_ofList) String.toList_ofList) ?_ ?_,
    loadText_of_toList (toList_append_of String.toList_ofList String.toList_ofList) ?_ ?_⟩
  all_goals decide +kernel

theorem loadPath_shopFiles {set : ManifestSet} (h : loadText .builtin t = .ok set) :
    loadPath .builtin (shopFiles t) "shop/a.yaml" = .ok set ∧
      loadPath .builtin (shopFiles t) "shop/b.yaml" = .ok pipelineSet := by
  obtain ⟨ha, hb⟩ := readText_shopFiles (t := t)
  have hfile : ∀ name ∈ ["a.yaml", "b.yaml"],
      loadPath .builtin (shopFiles t) (Path.join "shop" name) =
        Error.ofFile ((shopFiles t).readText (Path.join "shop" name)) >>=
          loadText .builtin := fun name hname ↦
    loadPath_file shopFiles_proper (filesIn_shopFiles ▸ hname)
      ((by decide : ∀ name ∈ ["a.yaml", "b.yaml"], isYamlName name = true) name hname)
  rw [List.forall_mem_cons, List.forall_mem_singleton, join_shopFiles.1, join_shopFiles.2, ha,
    hb] at hfile
  exact ⟨hfile.1.trans h, hfile.2.trans loadText_shopTexts.2.2.2⟩

theorem loadPath_directory_shopFiles :
    loadPath .builtin (shopFiles applicationText) "shop" =
      .ok (concat [applicationSet "", pipelineSet]) := by
  obtain ⟨ha, hb⟩ := readText_shopFiles (t := applicationText)
  obtain ⟨hfirst, hsecond⟩ := loadPath_shopFiles loadText_shopTexts.1
  have hends : EndsAlone .builtin applicationText :=
    .of_feed (by decide)
      (Yaml.not_keepsEnd_of_not_mem (by decide) (by decide))
  have hload : ∀ p ∈ ["shop/a.yaml", "shop/b.yaml"],
      loadPath .builtin (shopFiles applicationText) p = .ok (shopSets p) :=
    List.forall_mem_cons.mpr ⟨hfirst, List.forall_mem_singleton.mpr hsecond⟩
  refine loadPath_directory shopFiles_proper isDirectoryAt_shopFiles discover_shopFiles hload ?_ ?_
  · refine List.forall_mem_singleton.mpr fun t ht ↦ ?_
    cases ha.symm.trans ht
    exact hends
  · refine List.forall_mem_singleton.mpr fun t ht ↦ ?_
    cases hb.symm.trans ht
    decide

set_option maxRecDepth 4000 in
/-- A block that keeps its final breaks gets one more from the file behind it. -/
theorem loadPath_directory_keptText :
    discover (shopFiles keptText) "shop" = .ok ["shop/a.yaml", "shop/b.yaml"] ∧
      loadPath .builtin (shopFiles keptText) "shop/a.yaml" = .ok (applicationSet "ops\n") ∧
      loadPath .builtin (shopFiles keptText) "shop/b.yaml" = .ok pipelineSet ∧
      loadPath .builtin (shopFiles keptText) "shop" =
        .ok (concat [applicationSet "ops\n\n", pipelineSet]) ∧
      concat [applicationSet "ops\n\n", pipelineSet] ≠
        concat [applicationSet "ops\n", pipelineSet] := by
  obtain ⟨-, hkept, hfeed, hpipeline⟩ := loadText_shopTexts
  obtain ⟨hfirst, hsecond⟩ := loadPath_shopFiles hkept
  have hread : readManifests (shopFiles keptText) "shop" =
      .ok (joinTexts [keptText, pipelineText]) := by
    obtain ⟨hdir, ha, hb, hlt⟩ := isName_shopFiles
    exact readManifests_folder hdir (by simp [ha, hb]) (List.pairwise_pair.mpr hlt)
  refine ⟨discover_shopFiles, hfirst, hsecond, ?_, by decide⟩
  have hlast : (keptText ++ "\n").toList.getLast? = some '\n' := by
    rw [String.toList_append]
    exact List.getLast?_concat
  have hmark : pipelineText.toList.head? ≠ some '\uFEFF' := by decide
  have happend := loadText_append hfeed hpipeline hlast hmark
  have hset : concat [applicationSet "ops\n\n", pipelineSet] =
      applicationSet "ops\n\n" ++ pipelineSet := by
    rw [concat_cons, concat_cons]
    exact congrArg _ (append_empty pipelineSet)
  rw [loadPath, hread, joinTexts_cons (by decide), glue, glue, hset]
  exact Except.bind_eq_ok_iff.mpr ⟨_, rfl, happend⟩

end Witness

end DeliveryCharts.Manifest
