import DeliveryCharts.Proofs.Chart.Installation
import DeliveryCharts.Proofs.Template.Commuting
import DeliveryCharts.Proofs.Template.Reporting
import Mathlib.Data.Nat.Pairing

/-!
The place of a fault that is reported: the line is that of the template where the fault arises, but
the name and the text are those of the template under render. Where a fault arises shows when each
line is marked with the place of its template.
-/

namespace DeliveryCharts

namespace Template

/-! Lines of a template. -/

def nudge (n i : Nat) : Nat := if i = n then n + 1 else i

/-- Something stands on the line: the template is another one with the line moved. -/
def Source.HasLine (n : Nat) (source : Source) : Prop := source.relabel (nudge n) ≠ source

theorem nudge_ne (n i : Nat) : nudge n i ≠ n := by
  rw [nudge]
  split <;> omega

theorem Source.relabel_congr {φ ψ : Nat → Nat} {source : Source} {n : Nat}
    (hn : ¬ source.HasLine n) (h : ∀ i, i ≠ n → φ i = ψ i) :
    source.relabel φ = source.relabel ψ := by
  rw [HasLine, not_not] at hn
  rw [← hn, relabel_relabel, relabel_relabel]
  exact congrArg (relabel · source) (funext fun i ↦ h _ (nudge_ne n i))

variable {sources : List Source} {strict : Bool} {names : List (String × Value)} {source : Source}
  {f : Fault}

/-- A rendering fails on a line of one of its templates. -/
theorem hasLine_of_render (hsource : source ∈ sources)
    (h : source.render sources strict names = .error f) {n : Nat} (hn : f.line = some n) :
    ∃ s ∈ sources, s.HasLine n := by
  by_contra hnone
  have hfixed (s : Source) (hs : s ∈ sources) : s.relabel (nudge n) = s := by
    by_contra hline
    exact hnone ⟨s, hs, hline⟩
  have hrun := source.render_relabel (nudge n) sources strict names
  rw [hfixed source hsource, List.map_congr_left hfixed, List.map_id', h] at hrun
  have hf : f = f.relabel (nudge n) := Except.error.inj hrun
  have hmoved : f.line = some (nudge n n) := by
    rw [hf, Fault.relabel, hn]
    rfl
  rw [hn] at hmoved
  exact nudge_ne n n (Option.some.inj hmoved).symm

/-! Where a fault arises. -/

/-- The templates, each line marked with the place of its template. -/
def marked (sources : List Source) : List Source :=
  sources.mapIdx fun j source ↦ source.relabel (Nat.pair j)

/-- The template that the rendering of template `k` fails in, and the line. -/
def origin? (sources : List Source) (strict : Bool) (names : List (String × Value)) (k : Nat) :
    Option (Nat × Nat) := do
  let source ← (marked sources)[k]?
  match source.render (marked sources) strict names with
  | .ok _ => none
  | .error f => f.line.map Nat.unpair

theorem relabel_unpair (j : Nat) (source : Source) :
    (source.relabel (Nat.pair j)).relabel (fun n ↦ n.unpair.2) = source := by
  have hid : (fun n ↦ n.unpair.2) ∘ Nat.pair j = id := by
    funext n
    simp
  rw [Source.relabel_relabel, hid, Source.relabel_id]

theorem map_relabel_marked (sources : List Source) :
    (marked sources).map (Source.relabel fun n ↦ n.unpair.2) = sources := by
  apply List.ext_getElem?
  intro j
  rw [List.getElem?_map, marked, List.getElem?_mapIdx]
  cases sources[j]? with
  | none => rfl
  | some source => exact congrArg some (relabel_unpair j source)

theorem marked_getElem? {k : Nat} (hk : sources[k]? = some source) :
    (marked sources)[k]? = some (source.relabel (Nat.pair k)) := by
  rw [marked, List.getElem?_mapIdx, hk]
  rfl

/-- The marked rendering fails as the rendering does. -/
theorem render_marked {k : Nat} (h : source.render sources strict names = .error f) :
    ∃ g, (source.relabel (Nat.pair k)).render (marked sources) strict names = .error g ∧
      g.line.map (fun n ↦ n.unpair.2) = f.line := by
  have hrun := (source.relabel (Nat.pair k)).render_relabel (fun n ↦ n.unpair.2) (marked sources)
    strict names
  rw [relabel_unpair, map_relabel_marked, h] at hrun
  obtain ⟨g, hg, hline⟩ := Except.mapError_eq_error_iff.mp hrun.symm
  exact ⟨g, hg, by rw [← hline, Fault.relabel]⟩

/-- A mark that is found on a line was put there. -/
theorem hasLine_of_marked {j n : Nat} {s : Source} (hs : s ∈ marked sources)
    (hn : s.HasLine n) (hj : n.unpair.1 = j) :
    ∃ source, sources[j]? = some source ∧ source.HasLine n.unpair.2 := by
  obtain ⟨i, hi⟩ := List.mem_iff_getElem?.mp hs
  rw [marked, List.getElem?_mapIdx] at hi
  obtain ⟨source, hsource, rfl⟩ := Option.map_eq_some_iff.mp hi
  have hij : i = j := by
    by_contra hne
    apply hn
    rw [Source.relabel_relabel]
    refine congrArg (Source.relabel · source) (funext fun m ↦ if_neg fun h ↦ hne ?_)
    rw [← hj, ← h, Nat.unpair_pair]
  subst hij
  refine ⟨source, hsource, ?_⟩
  by_contra hline
  apply hn
  rw [Source.relabel_relabel]
  refine Source.relabel_congr hline fun m hm ↦ if_neg fun h ↦ hm ?_
  rw [← h, Nat.unpair_pair]

theorem origin?_spec {k : Nat} (hk : sources[k]? = some source)
    (h : source.render sources strict names = .error f) :
    (origin? sources strict names k).map Prod.snd = f.line ∧
      ∀ j n, origin? sources strict names k = some (j, n) →
        ∃ s, sources[j]? = some s ∧ s.HasLine n := by
  obtain ⟨g, hg, hline⟩ := render_marked (k := k) h
  have horigin : origin? sources strict names k = g.line.map Nat.unpair := by
    rw [origin?, marked_getElem? hk]
    dsimp only [bind, Option.bind]
    rw [hg]
  refine ⟨?_, fun j n hjn ↦ ?_⟩
  · rw [horigin, ← hline, Option.map_map]
    rfl
  · rw [horigin] at hjn
    obtain ⟨m, hm, hpair⟩ := Option.map_eq_some_iff.mp hjn
    have hmem := List.mem_of_getElem? (marked_getElem? hk)
    obtain ⟨s, hs, hsm⟩ := hasLine_of_render hmem hg hm
    have hfound := hasLine_of_marked (j := j) hs hsm (by rw [hpair])
    rwa [hpair] at hfound

end Template

open Template (Fault Problem Source origin?)

variable {r : Renderer} {files : FileTree} {c : Chart} {values : Values} {full : Bool}
  {e : RenderFailure} {read : List (TemplateFile × Source)}

theorem RenderFailure.ofFault_eq_template {template source : String} {f : Fault} {p : Problem}
    (h : ofFault template source f = .template p) :
    p.kind = f.kind.problem ∧ p.template = template ∧
      p.span = f.line.bind (Template.lineSpan source.toList) ∧
      Problem.suggest f.kind.problem (Problem.lineOf source f) = .ok p.suggestion := by
  rw [ofFault_eq] at h
  cases hsuggest : Problem.suggest f.kind.problem (Problem.lineOf source f) with
  | error _ =>
    rw [hsuggest] at h
    cases h
  | ok suggestion =>
    rw [hsuggest] at h
    cases h
    exact ⟨rfl, rfl, rfl, rfl⟩

/-- What the templates of a chart are rendered with. -/
def Chart.names (c : Chart) (values : Values) : List (String × Template.Value) :=
  [("values", .ofJson values.tree), ("chart", .ofJson c.metadata.toJson)]

namespace Renderer

theorem renderFile_eq_error {sources : List Source} {names : List (String × Template.Value)}
    {file : TemplateFile} {source : Source}
    (h : r.renderFile sources names full file source = .error e) :
    (∃ name cause, e = .fullRender name cause) ∨
      ∃ f, source.render sources r.strict names = .error f ∧
        e = .ofFault file.name file.text f := by
  rw [renderFile, Except.bind_eq_error_iff] at h
  rcases h with h | ⟨text, -, h⟩
  · obtain ⟨f, hf, he⟩ := Except.mapError_eq_error_iff.mp h
    exact .inr ⟨f, hf, he.symm⟩
  · refine .inl ⟨file.name, ?_⟩
    cases full with
    | false =>
      simp only [Bool.false_eq_true, if_false, pure_bind] at h
      split at h <;> cases h
    | true =>
      simp only [if_true, Except.bind_eq_error_iff] at h
      rcases h with h | ⟨text', -, h⟩
      · rw [compile] at h
        split at h
        · cases h
        · cases h
          exact ⟨_, rfl⟩
      · split at h <;> cases h

theorem renderChart_eq_error (hread : readTemplates files c = .ok read)
    (h : r.renderChart files c values full = .error e) :
    (∃ name cause, e = .fullRender name cause) ∨
      ∃ (k : Nat) (file : TemplateFile) (source : Source) (f : Fault),
        read[k]? = some (file, source) ∧ Chart.isHelper file.name = false ∧
        source.render (read.map Prod.snd) r.strict (c.names values) = .error f ∧
        e = .ofFault file.name file.text f := by
  simp only [renderChart, hread, Except.bind_eq_error_iff, Except.ok.injEq, reduceCtorEq,
    false_or, exists_eq_left'] at h
  rcases h with h | ⟨_, -, h⟩
  · obtain ⟨⟨file, source⟩, ht, h⟩ := Except.exists_of_mapM_error h
    obtain ⟨hmem, hshown⟩ := List.mem_filter.mp ht
    obtain ⟨k, hk⟩ := List.mem_iff_getElem?.mp hmem
    refine (renderFile_eq_error h).imp_right ?_
    rintro ⟨f, hf, he⟩
    exact ⟨k, file, source, f, hk, by simpa using hshown, hf, he⟩
  · cases h

theorem eq_of_name_eq (hfiles : files.Proper) (hread : readTemplates files c = .ok read)
    {j k : Nat} {t u : TemplateFile × Source} (ht : read[j]? = some t) (hu : read[k]? = some u)
    (hname : t.1.name = u.1.name) : j = k := by
  have hnodup : (read.map fun t ↦ t.1.name).Nodup := by
    rw [names_readTemplates hread]
    refine (FileTree.filesIn_spec hfiles c.templatesPath).1.imp ?_
    rintro a b h rfl
    exact String.lt_irrefl a h
  have hj : (read.map fun t ↦ t.1.name)[j]? = some t.1.name := by rw [List.getElem?_map, ht]; rfl
  have hk : (read.map fun t ↦ t.1.name)[k]? = some u.1.name := by rw [List.getElem?_map, hu]; rfl
  refine (List.getElem?_inj (List.getElem?_eq_some_iff.mp hj).1 hnodup).mp ?_
  rw [hj, hk, hname]

/-- A fault is reported with the name and the text of the template under render, and with the line
where it arises. This is right just if it arises in that template. -/
theorem report_right_iff (hfiles : files.Proper) (hread : readTemplates files c = .ok read)
    (h : r.renderChart files c values full = .error e) :
    (∃ name cause, e = .fullRender name cause) ∨
      ∃ (k : Nat) (file : TemplateFile) (source : Source) (f : Fault),
        read[k]? = some (file, source) ∧ Chart.isHelper file.name = false ∧
        source.render (read.map Prod.snd) r.strict (c.names values) = .error f ∧
        e = .ofFault file.name file.text f ∧
        ∀ n, f.line = some n → ∃ j origin s, read[j]? = some (origin, s) ∧ s.HasLine n ∧
          origin? (read.map Prod.snd) r.strict (c.names values) k = some (j, n) ∧
          ∀ p, e = .template p →
            p.template = file.name ∧ p.span = Template.lineSpan file.text.toList n ∧
              Problem.suggest p.kind (Text.lines file.text.toList)[n - 1]? = .ok p.suggestion ∧
              (e = .ofFault origin.name origin.text f ↔ j = k) := by
  refine (renderChart_eq_error hread h).imp_right ?_
  rintro ⟨k, file, source, f, hk, hshown, hf, rfl⟩
  refine ⟨k, file, source, f, hk, hshown, hf, rfl, fun n hn ↦ ?_⟩
  have hsource : (read.map Prod.snd)[k]? = some source := by rw [List.getElem?_map, hk]; rfl
  obtain ⟨hline, hfound⟩ := Template.origin?_spec hsource hf
  rw [hn] at hline
  obtain ⟨⟨j, m⟩, horigin, rfl⟩ := Option.map_eq_some_iff.mp hline
  obtain ⟨s, hs, hsm⟩ := hfound j m horigin
  rw [List.getElem?_map] at hs
  obtain ⟨⟨origin, s'⟩, hj, rfl⟩ := Option.map_eq_some_iff.mp hs
  refine ⟨j, origin, s', hj, hsm, horigin, fun p hp ↦ ?_⟩
  obtain ⟨hkind, hname, hspan, hsuggest⟩ := RenderFailure.ofFault_eq_template hp
  rw [Problem.lineOf, hn] at hsuggest
  rw [hn] at hspan
  refine ⟨hname, hspan, by rw [hkind]; exact hsuggest, fun hsame ↦ ?_, ?_⟩
  · rw [hp] at hsame
    have hname' := (RenderFailure.ofFault_eq_template hsame.symm).2.1
    exact eq_of_name_eq hfiles hread hj hk (hname'.symm.trans hname)
  · rintro rfl
    rw [hk] at hj
    cases hj
    rfl

end Renderer

/-- The macro fails on its second line. -/
def tagHelpers : TemplateFile :=
  ⟨"_helpers.tpl", "\x7b% macro tag(v) %\x7d\n\x7b\x7b v | toyml \x7d\x7d\n\x7b% endmacro %\x7d\n"⟩

def tagCaller : TemplateFile :=
  ⟨"app.yaml", "\x7b% import \"_helpers.tpl\" as helpers %\x7d\nkind: note\n" ++
    "tag: \x7b\x7b helpers.tag(\"web\") \x7d\x7d\n"⟩

def tagFiles : FileTree :=
  chartFiles [(tagHelpers.name, tagHelpers.text), (tagCaller.name, tagCaller.text)]

/-- The second line of the caller says `kind: note`. -/
def tagReport : Problem where
  kind := .unknownFilter
  message := "unknown filter: filter toyml is unknown"
  template := tagCaller.name
  span := some ⟨39, 10⟩
  suggestion := none

theorem renderChart_tagFiles :
    ({} : Renderer).renderChart tagFiles sampleChart .empty false =
      .error (.template tagReport) := by
  decide +kernel

theorem readTemplates_tagFiles : ∃ read, Renderer.readTemplates tagFiles sampleChart = .ok read ∧
    read.map Prod.fst = [tagHelpers, tagCaller] ∧
    origin? (read.map Prod.snd) true (sampleChart.names .empty) 1 = some (0, 2) := by
  have hall : (Renderer.readTemplates tagFiles sampleChart).toOption.map (fun read ↦
      (read.map Prod.fst, origin? (read.map Prod.snd) true (sampleChart.names .empty) 1)) =
        some ([tagHelpers, tagCaller], some (0, 2)) := by
    decide +kernel
  obtain ⟨read, hread, hpair⟩ := Option.map_eq_some_iff.mp hall
  cases hok : Renderer.readTemplates tagFiles sampleChart with
  | error e =>
    rw [hok] at hread
    cases hread
  | ok _ =>
    rw [hok] at hread
    cases hread
    obtain ⟨hfiles, horigin⟩ := Prod.mk.inj hpair
    exact ⟨read, rfl, hfiles, horigin⟩

theorem report_right_iff_tagFiles : ∃ read, tagFiles.Proper ∧
    Renderer.readTemplates tagFiles sampleChart = .ok read ∧
    ({} : Renderer).renderChart tagFiles sampleChart .empty false =
      .error (.template tagReport) ∧
    ((∃ name cause, RenderFailure.template tagReport = .fullRender name cause) ∨
      ∃ (k : Nat) (file : TemplateFile) (source : Source) (f : Fault),
        read[k]? = some (file, source) ∧ Chart.isHelper file.name = false ∧
        source.render (read.map Prod.snd) true (sampleChart.names .empty) = .error f ∧
        .template tagReport = RenderFailure.ofFault file.name file.text f ∧
        ∀ n, f.line = some n → ∃ j origin s, read[j]? = some (origin, s) ∧ s.HasLine n ∧
          origin? (read.map Prod.snd) true (sampleChart.names .empty) k = some (j, n) ∧
          ∀ p, RenderFailure.template tagReport = .template p →
            p.template = file.name ∧ p.span = Template.lineSpan file.text.toList n ∧
              Problem.suggest p.kind (Text.lines file.text.toList)[n - 1]? = .ok p.suggestion ∧
              (.template tagReport = RenderFailure.ofFault origin.name origin.text f ↔ j = k)) := by
  have hfiles : tagFiles.Proper :=
    chartFiles_proper (List.forall_mem_cons.mpr ⟨by decide, by decide⟩) (by decide)
  obtain ⟨read, hread, -⟩ := readTemplates_tagFiles
  exact ⟨read, hfiles, hread, renderChart_tagFiles,
    Renderer.report_right_iff hfiles hread renderChart_tagFiles⟩

/-- The fault arises on the second line of the macro's template, but the report puts it on the
second line of the caller, and makes the suggestion from that line as well. -/
theorem helper_fault_misplaced :
    (∃ read, Renderer.readTemplates tagFiles sampleChart = .ok read ∧
      read.map Prod.fst = [tagHelpers, tagCaller] ∧
      origin? (read.map Prod.snd) true (sampleChart.names .empty) 1 = some (0, 2)) ∧
    ({} : Renderer).renderChart tagFiles sampleChart .empty false = .error (.template tagReport) ∧
    RenderFailure.ofFault tagHelpers.name tagHelpers.text
        ⟨.unknownFilter, some "filter toyml is unknown", some 2⟩ =
      .template { tagReport with
        template := tagHelpers.name, span := some ⟨19, 15⟩,
        suggestion := some "Did you mean \x60toyaml\x60?" } :=
  ⟨readTemplates_tagFiles, renderChart_tagFiles, by decide +kernel⟩

end DeliveryCharts
