import DeliveryCharts.Chart.Render
import DeliveryCharts.Proofs.Record
import DeliveryCharts.Proofs.Template.Cutting

/-!
Reporting a fault of a template: it has a place between characters, and a suggestion unless the
search for one fails.
-/

namespace DeliveryCharts

namespace Template

/-! The place of a fault. -/

theorem bareLine_append (line : List Char) : ∃ terminator, line = bareLine line ++ terminator := by
  refine ⟨(line.reverse.takeWhile fun c ↦ c == '\n' || c == '\r').reverse, ?_⟩
  rw [bareLine, ← List.reverse_append, List.takeWhile_append_dropWhile, List.reverse_reverse]

/-- A span goes from character to character. -/
theorem spanFrom_spec {start n : Nat} {lines : List (List Char)} {span : Span}
    (h : spanFrom start lines n = some span) :
    ∃ before part rest, lines.flatten = before ++ part ++ rest ∧
      span.start = start + Text.utf8Length before ∧ span.length = Text.utf8Length part := by
  induction lines generalizing start n with
  | nil => simp [spanFrom] at h
  | cons line lines ih =>
    match n with
    | 0 => simp [spanFrom] at h
    | 1 =>
      cases h
      obtain ⟨terminator, hline⟩ := bareLine_append line
      refine ⟨[], bareLine line, terminator ++ lines.flatten, ?_, rfl, rfl⟩
      rw [List.flatten_cons, List.nil_append, ← List.append_assoc, ← hline]
    | n + 2 =>
      obtain ⟨before, part, rest, hflatten, hstart, hlength⟩ := ih h
      refine ⟨line ++ before, part, rest, ?_, ?_, hlength⟩
      · rw [List.flatten_cons, hflatten]
        simp
      · rw [hstart, Text.utf8Length_append]
        omega

theorem lineSpan_spec {source : List Char} {n : Nat} {span : Span}
    (h : lineSpan source n = some span) :
    ∃ before part rest, source = before ++ part ++ rest ∧
      span.start = Text.utf8Length before ∧ span.length = Text.utf8Length part := by
  obtain ⟨before, part, rest, hflatten, hstart, hlength⟩ := spanFrom_spec h
  rw [Text.flatten_splitAfterFeeds] at hflatten
  exact ⟨before, part, rest, hflatten, by rw [hstart, Nat.zero_add], hlength⟩

namespace Problem

/-- The line that a suggestion is made from. -/
def lineOf (source : String) (f : Fault) : Option (List Char) :=
  f.line.bind fun n ↦ (Text.lines source.toList)[n - 1]?

theorem suggest_eq_error_iff {kind : ProblemKind} {line : Option (List Char)} :
    suggest kind line = .error .insideCharacter ↔
      kind = .unknownFunction ∧ ∃ l, line = some l ∧ Hint.Stumbles l := by
  constructor
  · intro h
    cases kind with
    | unknownFunction =>
      cases line with
      | none => cases h
      | some l =>
        refine ⟨rfl, l, rfl, ?_⟩
        cases hname : Hint.unknownFunction? l with
        | error e => exact Hint.stumbles_of_error hname
        | ok name =>
          rw [suggest, hname] at h
          cases h
    | unknownFilter =>
      cases line with
      | none => cases h
      | some l =>
        obtain ⟨name, hname⟩ := Hint.exists_unknownAmong? ((Text.splitAll (· == '|') l).drop 1)
        rw [suggest, Hint.unknownFilter?, hname] at h
        cases h
    | undefinedVariable | malformed | invalidOperation | other => cases h
  · rintro ⟨rfl, l, rfl, hl⟩
    rw [suggest, Hint.error_of_stumbles hl]
    rfl

end Problem

end Template

open Template (Fault Problem Span)
open Template.Hint (Stumbles)

/-- A part of a text between two characters. -/
def Template.Span.Cuts (span : Span) (source : String) : Prop :=
  ∃ before part rest, source.toList = before ++ part ++ rest ∧
    span.start = Text.utf8Length before ∧ span.length = Text.utf8Length part

namespace RenderFailure

variable {template source : String} {f : Fault}

theorem ofFault_eq (template source : String) (f : Fault) : ofFault template source f =
    match Problem.suggest f.kind.problem (Problem.lineOf source f) with
    | .ok suggestion => .template {
        kind := f.kind.problem, message := f.message, template,
        span := f.line.bind (Template.lineSpan source.toList), suggestion }
    | .error c => .unreportable c := by
  rw [ofFault, Problem.ofFault, ← Problem.lineOf]
  cases Problem.suggest f.kind.problem (Problem.lineOf source f) <;> rfl

theorem ofFault_unreportable_iff : (∃ c, ofFault template source f = .unreportable c) ↔
    f.kind.problem = .unknownFunction ∧ ∃ l, Problem.lineOf source f = some l ∧ Stumbles l := by
  rw [ofFault_eq, ← Problem.suggest_eq_error_iff]
  cases Problem.suggest f.kind.problem (Problem.lineOf source f) with
  | error c =>
    cases c
    exact ⟨fun _ ↦ rfl, fun _ ↦ ⟨_, rfl⟩⟩
  | ok suggestion => simp

theorem exists_template (h : ¬ ∃ c, ofFault template source f = .unreportable c) :
    ∃ problem, ofFault template source f = .template problem ∧
      ∀ span ∈ problem.span, span.Cuts source := by
  rw [ofFault_eq] at h ⊢
  cases hsuggest : Problem.suggest f.kind.problem (Problem.lineOf source f) with
  | error c =>
    rw [hsuggest] at h
    exact absurd ⟨c, rfl⟩ h
  | ok suggestion =>
    refine ⟨_, rfl, ?_⟩
    intro span hspan
    obtain ⟨n, -, hspan⟩ := Option.bind_eq_some_iff.mp hspan
    exact Template.lineSpan_spec hspan

end RenderFailure

theorem exists_ofFault_of_renderText {r : Renderer} {file : TemplateFile} {values : Values}
    {e : RenderFailure} (h : r.renderText file values = .error e) :
    ∃ f, e = .ofFault file.name file.text f := by
  rw [Renderer.renderText, TemplateFile.read] at h
  cases hread : Template.Source.read file.name file.text with
  | error f =>
    rw [hread] at h
    exact ⟨f, (Except.error.inj h).symm⟩
  | ok source =>
    rw [hread] at h
    replace h : (source.render [source] r.strict [("values", .ofJson values.tree)]).mapError
        (RenderFailure.ofFault file.name file.text) = .error e := h
    cases hrender : source.render [source] r.strict [("values", .ofJson values.tree)] with
    | ok text =>
      rw [hrender] at h
      cases h
    | error f =>
      rw [hrender] at h
      exact ⟨f, (Except.error.inj h).symm⟩

/-- A fault of a template is reported, with a span that starts and ends between characters, unless
its suggestion looks for an unknown function on a line that stumbles. So a template that is not
rendered is reported if none of its lines does. -/
theorem fault_reported_iff (r : Renderer) (file : TemplateFile) :
    (∀ f : Fault, (∃ c, RenderFailure.ofFault file.name file.text f = .unreportable c) ↔
      f.kind.problem = .unknownFunction ∧
        ∃ l, Problem.lineOf file.text f = some l ∧ Stumbles l) ∧
    (∀ f : Fault, ¬ (f.kind.problem = .unknownFunction ∧
        ∃ l, Problem.lineOf file.text f = some l ∧ Stumbles l) →
      ∃ problem, RenderFailure.ofFault file.name file.text f = .template problem ∧
        ∀ span ∈ problem.span, span.Cuts file.text) ∧
    ((∀ l ∈ Text.lines file.text.toList, ¬ Stumbles l) →
      ∀ values e, r.renderText file values = .error e →
        ∃ problem, e = .template problem ∧ ∀ span ∈ problem.span, span.Cuts file.text) := by
  refine ⟨fun f ↦ RenderFailure.ofFault_unreportable_iff, ?_, ?_⟩
  · intro f hf
    exact RenderFailure.exists_template (mt RenderFailure.ofFault_unreportable_iff.mp hf)
  · intro hlines values e he
    obtain ⟨f, rfl⟩ := exists_ofFault_of_renderText he
    apply RenderFailure.exists_template
    intro hc
    obtain ⟨-, l, hline, hl⟩ := RenderFailure.ofFault_unreportable_iff.mp hc
    obtain ⟨n, -, hget⟩ := Option.bind_eq_some_iff.mp hline
    exact hlines l (List.mem_of_getElem? hget) hl

/-- The arrow has three bytes, but the word that is called stands behind a blank. -/
def spacedNote : TemplateFile := ⟨"note.yaml", "note: → (docs) \x7b\x7b nope(1) \x7d\x7d\n"⟩

def arrowNote : TemplateFile := ⟨"note.yaml", "note: →(docs) \x7b\x7b nope(1) \x7d\x7d\n"⟩

theorem fault_reported_iff_spacedNote :
    let unknown : Fault := ⟨.unknownFunction, none, some 1⟩
    (∀ l ∈ Text.lines spacedNote.text.toList, ¬ Stumbles l) ∧
    (¬ (unknown.kind.problem = .unknownFunction ∧
        ∃ l, Problem.lineOf spacedNote.text unknown = some l ∧ Stumbles l) ∧
      ∃ problem, RenderFailure.ofFault spacedNote.name spacedNote.text unknown =
          .template problem ∧ ∀ span ∈ problem.span, span.Cuts spacedNote.text) ∧
    (∃ e, ({} : Renderer).renderText spacedNote .empty = .error e ∧
      ∃ problem, e = .template problem ∧ ∀ span ∈ problem.span, span.Cuts spacedNote.text) := by
  intro unknown
  have hlines : ∀ l ∈ Text.lines spacedNote.text.toList, ¬ Stumbles l := by decide +kernel
  have hunknown : ¬ (unknown.kind.problem = .unknownFunction ∧
      ∃ l, Problem.lineOf spacedNote.text unknown = some l ∧ Stumbles l) := by
    rintro ⟨-, l, hline, hl⟩
    exact hlines l (List.mem_of_getElem? hline) hl
  have hfails : (({} : Renderer).renderText spacedNote .empty).toOption = none := by
    decide +kernel
  refine ⟨hlines, ⟨hunknown, (fault_reported_iff {} spacedNote).2.1 unknown hunknown⟩, ?_⟩
  cases he : ({} : Renderer).renderText spacedNote .empty with
  | ok text =>
    rw [he] at hfails
    cases hfails
  | error e => exact ⟨e, rfl, (fault_reported_iff {} spacedNote).2.2 hlines .empty e he⟩

/-- A word right behind the arrow, though it is only the empty one, leaves the fault unreported. -/
theorem fault_unreportable_arrowNote :
    ({} : Renderer).renderText arrowNote .empty = .error (.unreportable .insideCharacter) := by
  decide +kernel

end DeliveryCharts
