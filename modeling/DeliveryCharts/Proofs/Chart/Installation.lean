import DeliveryCharts.Cli.Run
import DeliveryCharts.Proofs.Manifest.Directory
import DeliveryCharts.Proofs.Template.Literal

/-!
What a chart installs, against the stream that its rendering prints.
-/

namespace DeliveryCharts

open Files Manifest

variable {files : FileTree} {c : Chart} {values : Values} {full : Bool} {rc : RenderedChart}
  {r : Renderer} {s : ManifestSet} {dir : String}

namespace RenderedChart

/-- Each text has a file name of its own, in the order of the names, and ends its last line. -/
structure Orderly (rc : RenderedChart) : Prop where
  names : ∀ t ∈ rc.templates, Path.IsName t.name
  sorted : rc.templates.Pairwise fun a b ↦ a.name < b.name
  ended : ∀ t ∈ rc.templates, t.text.toList.getLast? = some '\n'

/-- The templates that are taken for manifests. -/
def manifests (rc : RenderedChart) : RenderedChart :=
  ⟨rc.templates.filter fun t ↦ isYamlName t.name⟩

/-- The templates as they are read from a directory. -/
def joined (rc : RenderedChart) : String := joinTexts (rc.templates.map TemplateFile.text)

theorem Orderly.manifests (h : rc.Orderly) : rc.manifests.Orderly where
  names t ht := h.names t (List.mem_filter.mp ht).1
  sorted := h.sorted.filter _
  ended t ht := h.ended t (List.mem_filter.mp ht).1

end RenderedChart

/-- A text that is rendered as it is. -/
structure Verbatim (text : String) : Prop where
  brace : '{' ∉ text.toList
  last : text.toList.getLast? = some '\n'
  shown : ∃ ch ∈ text.toList, Text.isBlank ch = false

theorem Verbatim.of_toList {text : String} {cs : List Char} (h : text.toList = cs)
    (hchars : '{' ∉ cs ∧ cs.getLast? = some '\n' ∧ cs.any (!Text.isBlank ·) = true) :
    Verbatim text := by
  subst h
  obtain ⟨hbrace, hlast, hshown⟩ := hchars
  exact ⟨hbrace, hlast, by simpa using hshown⟩

theorem Verbatim.ne_nil {text : String} (h : Verbatim text) : text.toList ≠ [] := by
  intro hnil
  have hlast := h.last
  rw [hnil] at hlast
  cases hlast

namespace Renderer

theorem renderFile_verbatim {text : String} (h : Verbatim text) (sources : List Template.Source)
    (names : List (String × Template.Value)) (name : String) :
    r.renderFile sources names false ⟨name, text⟩ ⟨name, [.text text 1], []⟩ =
      .ok (some ⟨name, text⟩) := by
  have hrun : r.run sources names ⟨name, text⟩ ⟨name, [.text text 1], []⟩ = .ok text := by
    rw [run, Template.render_text]
    rfl
  rw [renderFile, hrun]
  simp only [Bool.false_eq_true, if_false, bind, Except.bind, pure, Except.pure,
    Text.isEmpty_trim h.shown, endLine, if_pos h.last]

theorem getLast?_endLine (text : String) : (endLine text).toList.getLast? = some '\n' := by
  rw [endLine]
  split
  · assumption
  · rw [String.toList_append]
    exact List.getLast?_concat

theorem renderFile_eq_some {sources : List Template.Source}
    {names : List (String × Template.Value)} {file t : TemplateFile} {source : Template.Source}
    (h : r.renderFile sources names full file source = .ok (some t)) :
    t.name = file.name ∧ t.text.toList.getLast? = some '\n' := by
  have hkept {text : String} (h : (if (Text.trim text).isEmpty then pure none
      else pure (some ⟨file.name, endLine text⟩) : Except RenderFailure (Option TemplateFile)) =
        .ok (some t)) : t.name = file.name ∧ t.text.toList.getLast? = some '\n' := by
    split at h
    · cases h
    · cases h
      exact ⟨rfl, getLast?_endLine text⟩
  rw [renderFile, Except.bind_eq_ok_iff] at h
  obtain ⟨text, -, h⟩ := h
  cases full with
  | false =>
    simp only [Bool.false_eq_true, if_false, pure_bind] at h
    exact hkept h
  | true =>
    simp only [if_true, Except.bind_eq_ok_iff] at h
    obtain ⟨text', -, h⟩ := h
    exact hkept h

theorem names_readTemplates {read : List (TemplateFile × Template.Source)}
    (h : readTemplates files c = .ok read) :
    read.map (fun t ↦ t.1.name) = c.templates files := by
  rw [← List.map_id (c.templates files)]
  refine Except.map_mapM (fun name t ht ↦ ?_) h
  simp only [Except.bind_eq_ok_iff] at ht
  obtain ⟨text, -, source, -, ht⟩ := ht
  cases ht
  rfl

theorem renderChart_orderly (hfiles : files.Proper)
    (h : r.renderChart files c values full = .ok rc) : rc.Orderly := by
  simp only [renderChart, Except.bind_eq_ok_iff] at h
  obtain ⟨read, hread, rendered, hrendered, h⟩ := h
  cases h
  obtain ⟨hsorted, hnames⟩ := FileTree.filesIn_spec hfiles c.templatesPath
  have hfile : ((rendered.filterMap id).map TemplateFile.name).Sublist (c.templates files) := by
    rw [← names_readTemplates hread]
    exact (Except.sublist_mapM (fun p t h ↦ (renderFile_eq_some h).1) hrendered).trans
      (List.filter_sublist.map _)
  refine ⟨fun t ht ↦ ?_, ?_, fun t ht ↦ ?_⟩
  · exact (hnames _ (hfile.subset (List.mem_map_of_mem ht))).1
  · exact List.pairwise_map.mp (hsorted.sublist hfile)
  · obtain ⟨o, ho, rfl⟩ := List.mem_filterMap.mp ht
    obtain ⟨p, -, h⟩ := Except.mem_mapM hrendered ho
    exact (renderFile_eq_some h).2

end Renderer

namespace RenderedChart

/-- The names of the templates with their texts. -/
def texts (rc : RenderedChart) : List (String × String) :=
  rc.templates.map fun t ↦ (t.name, t.text)

theorem Orderly.names_texts (h : rc.Orderly) : ∀ t ∈ rc.texts, Path.IsName t.1 :=
  List.forall_mem_map.mpr h.names

theorem Orderly.sorted_texts (h : rc.Orderly) : rc.texts.Pairwise fun a b ↦ a.1 < b.1 :=
  List.pairwise_map.mpr h.sorted

theorem makeDirectories_empty (hdir : Path.IsName dir) :
    FileTree.empty.makeDirectories dir = .ok (.folder dir []) := by
  rw [FileTree.makeDirectories, Path.names_of_isName hdir]
  rfl

/-- Templates are written behind those that are there. -/
theorem foldlM_write (hdir : Path.IsName dir) {ts : List TemplateFile}
    {texts : List (String × String)} (paths : List String) (hnames : ∀ t ∈ ts, Path.IsName t.name)
    (hsorted : ts.Pairwise fun a b ↦ a.name < b.name)
    (hbefore : ∀ t ∈ ts, ∀ u ∈ texts, u.1 < t.name) :
    ∃ paths', ts.foldlM (fun (files, paths) t ↦ do
        let path := Path.join dir t.name
        return (← FileTree.write files path (Text.utf8String t.text), paths ++ [path]))
      (FileTree.folder dir texts, paths) =
        Except.ok (FileTree.folder dir (texts ++ ts.map fun t ↦ (t.name, t.text)), paths') := by
  induction ts generalizing texts paths with
  | nil => exact ⟨paths, by rw [List.map_nil, List.append_nil]; rfl⟩
  | cons t ts ih =>
    obtain ⟨hname, hnames⟩ := List.forall_mem_cons.mp hnames
    obtain ⟨hbefore, hbefore'⟩ := List.forall_mem_cons.mp hbefore
    obtain ⟨hlt, hsorted⟩ := List.pairwise_cons.mp hsorted
    have hwrite := FileTree.write_folder hdir (t := (t.name, t.text)) hname hbefore
    have hnext : ∀ t' ∈ ts, ∀ u ∈ texts ++ [(t.name, t.text)], u.1 < t'.name := by
      intro t' ht' u hu
      rcases List.mem_append.mp hu with hu | hu
      · exact hbefore' t' ht' u hu
      · rw [List.mem_singleton.mp hu]
        exact hlt t' ht'
    obtain ⟨paths', h⟩ := ih (paths ++ [Path.join dir t.name]) hnames hsorted hnext
    refine ⟨paths', ?_⟩
    rw [List.foldlM_cons, List.map_cons, List.append_cons, ← h]
    dsimp only
    rw [hwrite]
    rfl

/-- Writing into a directory of its own leaves the templates as files and nothing else. -/
theorem Orderly.write (h : rc.Orderly) (hdir : Path.IsName dir) :
    ∃ paths, rc.write .empty dir = .ok (.folder dir rc.texts, paths) := by
  have hbefore : ∀ t ∈ rc.templates, ∀ u ∈ ([] : List (String × String)), u.1 < t.name := by simp
  obtain ⟨paths, hfold⟩ := foldlM_write hdir [] h.names h.sorted hbefore
  refine ⟨paths, ?_⟩
  rw [RenderedChart.write, makeDirectories_empty hdir]
  exact hfold

end RenderedChart

theorem isName_workingDirectory : Path.IsName Cli.Run.workingDirectory := by
  decide

/-- The set of a chart is that of its manifests, put together as the files of a directory. -/
theorem renderedSet_eq_ok_iff (h : rc.Orderly) :
    Cli.Run.renderedSet rc = .ok s ↔
      loadText .builtin rc.manifests.joined = .ok s := by
  obtain ⟨paths, hwrite⟩ := h.write isName_workingDirectory
  rw [Cli.Run.renderedSet, hwrite]
  dsimp only
  have htexts : joinTexts ((rc.texts.filter fun t ↦ isYamlName t.1).map Prod.snd) =
      rc.manifests.joined := by
    rw [RenderedChart.texts, List.filter_map, List.map_map]
    rfl
  rw [Except.mapError_eq_ok_iff, loadPath,
    readManifests_folder isName_workingDirectory h.names_texts h.sorted_texts, htexts]
  exact Iff.rfl

namespace RenderedChart

/-- Hyphens and the name of a template. -/
def source (name : String) : Yaml.Joint :=
  if h : (" Source: ".toList ++ name.toList).any Yaml.isBreak = true then Yaml.hyphens
  else
    ⟨some (" Source: ".toList ++ name.toList), by
      rintro _ ⟨rfl⟩ ch hch
      exact Bool.eq_false_iff.mpr (List.any_eq_false.mp (Bool.eq_false_iff.mpr h) ch hch)⟩

theorem comments_source {name : String} (h : ∀ ch ∈ name.toList, Yaml.isBreak ch = false) :
    (source name).comments = "# Source: ".toList ++ name.toList ++ ['\n'] := by
  have hline : (" Source: ".toList ++ name.toList).any Yaml.isBreak = false := by
    rw [List.any_append, Bool.or_eq_false_iff, List.any_eq_false (l := name.toList)]
    exact ⟨rfl, fun ch hch ↦ Bool.eq_false_iff.mp (h ch hch)⟩
  rw [source, dif_neg (Bool.eq_false_iff.mp hline)]
  rfl

theorem toList_stream (h : ∀ t ∈ rc.templates, ∀ ch ∈ t.name.toList, Yaml.isBreak ch = false) :
    rc.stream.toList =
      Yaml.joinedFrom (rc.templates.map fun t ↦ (source t.name, t.text.toList)) := by
  obtain ⟨ts⟩ := rc
  induction ts with
  | nil => rfl
  | cons t ts ih =>
    obtain ⟨ht, h⟩ := List.forall_mem_cons.mp h
    have hstream : (⟨t :: ts⟩ : RenderedChart).stream =
        "---\n# Source: " ++ t.name ++ "\n" ++ t.text ++ (⟨ts⟩ : RenderedChart).stream := by
      rw [stream, List.map_cons, String.join_cons]
      rfl
    have hmarks : (source t.name).marks = "---\n# Source: ".toList ++ t.name.toList ++ ['\n'] := by
      rw [Yaml.Joint.marks, comments_source ht]
      rfl
    rw [hstream, List.map_cons, Yaml.joinedFrom, hmarks, ← ih h]
    simp only [String.toList_append, List.append_assoc]
    rfl

/-- It does not matter whether the templates have a blank line between them or their names, and
whether the first one has hyphens in front of it. -/
structure Separable (rc : RenderedChart) : Prop where
  names : ∀ t ∈ rc.templates, ∀ ch ∈ t.name.toList,
    Yaml.isAllowed ch = true ∧ Yaml.isBreak ch = false
  settled : ∀ t ∈ rc.templates.dropLast, Yaml.Settled t.text.toList
  mark : rc.joined.toList.head? ≠ some '\uFEFF'
  start : ¬ Yaml.StartsEnded rc.joined.toList

theorem isAllowed_stream (hnames : ∀ t ∈ rc.templates, ∀ ch ∈ t.name.toList,
      Yaml.isAllowed ch = true ∧ Yaml.isBreak ch = false) :
    (∀ ch ∈ rc.stream.toList, Yaml.isAllowed ch = true) ↔
      ∀ t ∈ rc.templates, ∀ ch ∈ t.text.toList, Yaml.isAllowed ch = true := by
  have hbreaks {t : TemplateFile} (ht : t ∈ rc.templates) :
      ∀ ch ∈ t.name.toList, Yaml.isBreak ch = false := fun ch hch ↦ (hnames t ht ch hch).2
  rw [toList_stream fun t ht ↦ hbreaks ht, isAllowed_joinedFrom, List.forall_mem_map]
  refine forall_congr' fun t ↦ forall_congr' fun ht ↦ and_iff_right ?_
  rw [comments_source (hbreaks ht)]
  simp only [List.forall_mem_append, List.forall_mem_singleton]
  exact ⟨⟨List.all_eq_true.mp rfl, fun ch hch ↦ (hnames t ht ch hch).1⟩, rfl⟩

theorem joinable {ts : List TemplateFile} {t : TemplateFile}
    (h : ∀ u ∈ t :: ts, u.text.toList.getLast? = some '\n') :
    Yaml.Joinable t.text.toList (ts.map fun u ↦ (source u.name, u.text.toList)) := by
  induction ts generalizing t with
  | nil => exact trivial
  | cons u ts ih =>
    obtain ⟨hlast, h⟩ := List.forall_mem_cons.mp h
    exact ⟨hlast, ih h⟩

/-- The templates give the same set from a directory and as a stream. -/
theorem loadText_stream {reg : Stage.Registry} (h : rc.Orderly) (hsep : rc.Separable) :
    loadText reg rc.joined = .ok s ↔ loadText reg rc.stream = .ok s := by
  obtain ⟨hnames, hsettled, hmark, hstart⟩ := hsep
  have hallowed := isAllowed_stream hnames
  have hstream := toList_stream fun t ht ch hch ↦ (hnames t ht ch hch).2
  obtain ⟨ts⟩ := rc
  cases ts with
  | nil => exact Iff.rfl
  | cons t ts =>
    have hjoined : (⟨t :: ts⟩ : RenderedChart).joined = glue t.text (ts.map TemplateFile.text) := by
      refine joinTexts_cons (fun he ↦ ?_) _
      have hlast := h.ended t List.mem_cons_self
      rw [he] at hlast
      cases hlast
    have hallowed : (∀ ch ∈ (⟨t :: ts⟩ : RenderedChart).joined.toList, Yaml.isAllowed ch = true) ↔
        ∀ ch ∈ (⟨t :: ts⟩ : RenderedChart).stream.toList, Yaml.isAllowed ch = true := by
      rw [hjoined, isAllowed_glue, ← List.map_cons, List.forall_mem_map, hallowed]
    have hfollowing : Yaml.following (.ok {}) [(⟨t :: ts⟩ : RenderedChart).joined.toList] =
        Yaml.following (.ok {}) ((t :: ts).map fun u ↦ u.text.toList) := by
      have hsettled : ∀ u ∈ (t.text :: ts.map TemplateFile.text).dropLast,
          Yaml.Settled u.toList := by
        rw [← List.map_cons, ← List.map_dropLast]
        exact List.forall_mem_map.mpr hsettled
      rw [hjoined, following_glue hsettled, ← List.map_cons, List.map_map]
      rfl
    have hdocuments (n : Nat) (hn : (⟨t :: ts⟩ : RenderedChart).stream.toList.length ≤ n) :
        Yaml.documentsFrom n true (.ofText (⟨t :: ts⟩ : RenderedChart).stream.toList) =
          Yaml.following (.ok {}) ((t :: ts).map fun u ↦ u.text.toList) := by
      rw [hstream] at hn ⊢
      rw [Yaml.ofText_joinedFrom, List.map_cons, Yaml.documentsFrom_marked (joinable h.ended) hn,
        List.map_map]
      rfl
    rw [loadText_eq_ok_iff_following hmark hstart, loadText_eq_ok_iff, hallowed, hfollowing,
      hdocuments _ (Nat.le_succ _)]

end RenderedChart

/-- A chart installs the set that its manifests hold as a stream. -/
theorem installs_printed (hfiles : files.Proper) (h : r.renderChart files c values full = .ok rc)
    (hsep : rc.manifests.Separable) (s : ManifestSet) :
    Cli.Run.renderedSet rc = .ok s ↔ loadText .builtin rc.manifests.stream = .ok s := by
  have hrc := r.renderChart_orderly hfiles h
  rw [renderedSet_eq_ok_iff hrc, RenderedChart.loadText_stream hrc.manifests hsep]

section Witness

def sampleChart : Chart := ⟨"chart", { name := "chart" }⟩

/-- A chart with these templates. -/
def chartFiles (texts : List (String × String)) : FileTree :=
  .directory [("chart", .folder "templates" texts)]

def rendering (texts : List (String × String)) : Except RenderFailure RenderedChart :=
  ({} : Renderer).renderChart (chartFiles texts) sampleChart .empty false

theorem chartFiles_proper {texts : List (String × String)} (hnames : ∀ t ∈ texts, Path.IsName t.1)
    (hsorted : texts.Pairwise fun a b ↦ a.1 < b.1) : (chartFiles texts).Proper := by
  have hdirs : Path.IsName "chart" ∧ Path.IsName "templates" := by decide
  exact .directory (List.forall_mem_singleton.mpr hdirs.1) (List.pairwise_singleton _ _)
    (List.forall_mem_singleton.mpr (FileTree.proper_folder hdirs.2 hnames hsorted))

/-- The templates of the chart as they are. -/
def plain (texts : List (String × String)) : RenderedChart := ⟨texts.map fun t ↦ ⟨t.1, t.2⟩⟩

theorem find_templates (texts : List (String × String)) :
    (chartFiles texts).find sampleChart.templatesPath =
      .ok (.directory (texts.map fun t ↦ (t.1, .file (Text.utf8String t.2)))) := by
  have hdirs : Path.IsName "chart" ∧ Path.IsName "templates" := by decide
  have hchart : (chartFiles texts).find "chart" = .ok (.folder "templates" texts) := by
    refine FileTree.find_eq_ok_iff.mpr
      ⟨hdirs.1.zero, hdirs.1.ne_empty, Path.isAbsolute_of_isName hdirs.1, ?_, fun _ ↦ rfl⟩
    rw [Path.names_of_isName hdirs.1]
    rfl
  exact FileTree.find_join hchart hdirs.2 rfl

theorem rendering_verbatim {texts : List (String × String)}
    (hnames : ∀ t ∈ texts, Path.IsName t.1 ∧ Chart.isHelper t.1 = false)
    (hsorted : texts.Pairwise fun a b ↦ a.1 < b.1) (htexts : ∀ t ∈ texts, Verbatim t.2) :
    rendering texts = .ok (plain texts) := by
  let read (t : String × String) : TemplateFile × Template.Source :=
    (⟨t.1, t.2⟩, ⟨t.1, [.text t.2 1], []⟩)
  have hfiles : sampleChart.templates (chartFiles texts) = texts.map Prod.fst := by
    rw [Chart.templates, FileTree.filesIn_eq (find_templates texts), List.filter_eq_self.mpr,
      List.map_map]
    · rfl
    · exact List.forall_mem_map.mpr fun t _ ↦ rfl
  have hread : Renderer.readTemplates (chartFiles texts) sampleChart = .ok (texts.map read) := by
    rw [Renderer.readTemplates, hfiles, List.mapM_map]
    refine Except.mapM_eq_map fun t ht ↦ ?_
    have htext : (chartFiles texts).readText (Path.join sampleChart.templatesPath t.1) =
        .ok t.2 :=
      FileTree.readText_of_find <| FileTree.find_join (find_templates texts) (hnames t ht).1 <|
        FileTree.lookup_of_mem (List.pairwise_map.mpr hsorted) (List.mem_map_of_mem ht)
    rw [Function.comp_apply, htext]
    show (do return (_, ← TemplateFile.read ⟨t.1, t.2⟩)) = _
    rw [TemplateFile.read,
      Template.read_of_not_mem t.1 (htexts t ht).ne_nil (htexts t ht).brace]
    rfl
  have hshown : (texts.map read).filter (fun t ↦ !Chart.isHelper t.1.name) = texts.map read := by
    refine List.filter_eq_self.mpr (List.forall_mem_map.mpr fun t ht ↦ ?_)
    simp [read, (hnames t ht).2]
  have hrendered (sources : List Template.Source) (names : List (String × Template.Value)) :
      (texts.map read).mapM (fun t ↦ ({} : Renderer).renderFile sources names false t.1 t.2) =
        .ok (texts.map fun t ↦ some ⟨t.1, t.2⟩) := by
    rw [List.mapM_map]
    exact Except.mapM_eq_map fun t ht ↦ Renderer.renderFile_verbatim (htexts t ht) sources names t.1
  rw [rendering, Renderer.renderChart, hread]
  simp only [bind, Except.bind, hshown, hrendered]
  have hkept : (texts.map fun t ↦ some (⟨t.1, t.2⟩ : TemplateFile)).filterMap id =
      texts.map fun t ↦ ⟨t.1, t.2⟩ := by
    rw [List.filterMap_map, ← List.filterMap_eq_map]
    rfl
  rw [hkept]
  rfl

/-- A manifest between a file that is none and an empty one. -/
def mixedTexts : List (String × String) :=
  [("notes.yml", "notes\n"), ("shop.yaml", applicationText), ("web.yaml", "# none\n")]

theorem installs_printed_mixedTexts :
    rendering mixedTexts = .ok (plain mixedTexts) ∧
      Cli.Run.renderedSet (plain mixedTexts) = .ok (applicationSet "") := by
  have hfiles : (chartFiles mixedTexts).Proper :=
    chartFiles_proper (by decide) (by decide)
  have hrendering : rendering mixedTexts = .ok (plain mixedTexts) := by
    refine rendering_verbatim (by decide) (by decide) ?_
    simp only [mixedTexts, List.forall_mem_cons, List.not_mem_nil, false_imp_iff, implies_true]
    refine ⟨?_, ?_, ?_, trivial⟩ <;> exact .of_toList String.toList_ofList (by decide)
  have hmanifests : (plain mixedTexts).manifests =
      plain [("shop.yaml", applicationText), ("web.yaml", "# none\n")] := by
    decide
  have hsettled : Yaml.Settled applicationText.toList :=
    Yaml.settled_of_not_keepsEnd (by decide)
      (Yaml.not_keepsEnd_of_not_mem (by decide) (by decide))
  have hnames : ∀ t ∈ (plain [("shop.yaml", applicationText), ("web.yaml", "# none\n")]).templates,
      ∀ ch ∈ t.name.toList, Yaml.isAllowed ch = true ∧ Yaml.isBreak ch = false := by
    simp [plain, Yaml.isAllowed, Yaml.isBreak]
  have hsep : (plain mixedTexts).manifests.Separable := by
    rw [hmanifests]
    exact ⟨hnames, List.forall_mem_singleton.mpr hsettled, by decide, by decide⟩
  have hload : loadText .builtin (plain mixedTexts).manifests.stream =
      .ok (applicationSet "") := by
    decide +kernel
  exact ⟨hrendering, (installs_printed hfiles hrendering hsep _).mpr hload⟩

/-- The templates are rendered as they are; one set is installed, another one is printed. -/
def Outcome (texts : List (String × String)) (installed printed : Option ManifestSet) : Prop :=
  rendering texts = .ok (plain texts) ∧
    (Cli.Run.renderedSet (plain texts)).toOption = installed ∧
    (loadText .builtin (plain texts).stream).toOption = printed

instance (texts : List (String × String)) (installed printed : Option ManifestSet) :
    Decidable (Outcome texts installed printed) :=
  inferInstanceAs (Decidable (_ ∧ _))

/-- What a chart installs is not what it prints where a template is no manifest by its name; where a
block keeps the blank line behind its file; where the first template starts with a byte order mark,
or ends a document before there is one; and where a name leaves the line of its comment or may not
stand in a stream. -/
theorem installs_other_than_printed :
    Outcome [("shop.yml", applicationText)] (some {}) (some (applicationSet "")) ∧
      Outcome [("a.yaml", keptText), ("b.yaml", "# b\n")] (some (applicationSet "ops\n\n"))
        (some (applicationSet "ops\n")) ∧
      Outcome [("a.yaml", "\uFEFF# a\n")] (some {}) none ∧
      Outcome [("a.yaml", "...\n")] none (some {}) ∧
      Outcome [("a\nb.yaml", "# a\n")] (some {}) none ∧
      Outcome [("a\x01b.yaml", "# a\n")] (some {}) none := by
  have happlication : rendering [("shop.yml", applicationText)] =
      .ok (plain [("shop.yml", applicationText)]) :=
    rendering_verbatim (by decide) (by decide)
      (List.forall_mem_singleton.mpr (.of_toList String.toList_ofList (by decide)))
  have hkept : rendering [("a.yaml", keptText), ("b.yaml", "# b\n")] =
      .ok (plain [("a.yaml", keptText), ("b.yaml", "# b\n")]) :=
    rendering_verbatim (by decide) (by decide) <| List.forall_mem_cons.mpr
      ⟨.of_toList (toList_append_of String.toList_ofList String.toList_ofList) (by decide),
        List.forall_mem_singleton.mpr (.of_toList String.toList_ofList (by decide))⟩
  refine ⟨⟨happlication, ?_, ?_⟩, ⟨hkept, ?_, ?_⟩, ?_, ?_, ?_, ?_⟩ <;> decide +kernel

end Witness

end DeliveryCharts
