import DeliveryCharts.Proofs.Record
import DeliveryCharts.Proofs.Yaml.Folding
import DeliveryCharts.Template.Filter.Manifest
import DeliveryCharts.Values.Basic

/-!
Strings in quotes, as the filters write them and as the values of a chart are read. Whatever is
printable comes back as it was, and tabs do; of line feeds one is lost wherever they stand.
-/

namespace DeliveryCharts.Template.Filter

open Yaml (Plainly isAllowed isBreak isGap isSpaceOrTab quoteOf singleChar)

variable {s : String} {safe : Bool} {ch : Char} {cs : List Char}

/-- The texts that are in question: printable characters, tabs and line feeds. -/
structure Legible (s : String) : Prop where
  allowed : ∀ ch ∈ s.toList, isAllowed ch = true
  feeds : ∀ ch ∈ s.toList, isBreak ch = true → ch = '\n'

/-- A character in double quotes. -/
def doubleChar (ch : Char) : List Char :=
  if ch = '\\' then ['\\', '\\'] else if ch = '"' then ['\\', '"'] else [ch]

/-- Quotes are escaped behind the backslashes, so that the backslashes that escape them are left
alone. -/
theorem quote_eq (s : String) (safe : Bool) :
    quote (.text s safe) = .ofList ('"' :: (s.toList.flatMap doubleChar ++ ['"'])) := by
  have hboth : (fun ch ↦ (if ch = '\\' then ['\\', '\\'] else [ch]).flatMap fun d ↦
      if d = '"' then ['\\', '"'] else [d]) = doubleChar := by
    funext ch
    by_cases hslash : ch = '\\'
    · rw [doubleChar, if_pos hslash, if_pos hslash]
      rfl
    · rw [doubleChar, if_neg hslash, if_neg hslash, List.flatMap_singleton]
  simp only [quote, Value.toText, Text.replace_singleton, List.flatMap_assoc, hboth]
  rfl

theorem squote_eq (s : String) (safe : Bool) :
    squote (.text s safe) = .ofList ('\'' :: (s.toList.flatMap singleChar ++ ['\''])) := by
  have hchar : (fun ch ↦ if ch = '\'' then ['\'', '\''] else [ch]) = singleChar := by
    funext ch
    simp [singleChar]
  simp only [squote, Value.toText, Text.replace_singleton, hchar]
  rfl

theorem plainly_double (hbreak : isBreak ch = true → ch = '\n') : Plainly true doubleChar ch := by
  by_cases hslash : ch = '\\'
  · subst hslash
    exact .inl ⟨rfl, Yaml.spells_escape rfl rfl⟩
  by_cases hquote : ch = '"'
  · subst hquote
    exact .inl ⟨rfl, Yaml.spells_escape rfl rfl⟩
  have hself : doubleChar ch = [ch] := by rw [doubleChar, if_neg hslash, if_neg hquote]
  rw [Plainly, hself]
  cases hgap : isGap ch with
  | false => exact .inl ⟨rfl, Yaml.spells_self hgap (by simp) fun _ ↦ ⟨hquote, hslash⟩⟩
  | true => exact .inr ⟨(Bool.or_eq_true_iff.mp hgap).imp_right hbreak, rfl⟩

theorem plainly_single (hbreak : isBreak ch = true → ch = '\n') : Plainly false singleChar ch := by
  by_cases hquote : ch = '\''
  · subst hquote
    exact .inl ⟨rfl, Yaml.spells_quote⟩
  have hself : singleChar ch = [ch] := by simp [singleChar, hquote]
  rw [Plainly, hself]
  cases hgap : isGap ch with
  | false => exact .inl ⟨rfl, Yaml.spells_self hgap (fun _ ↦ hquote) (by simp)⟩
  | true => exact .inr ⟨(Bool.or_eq_true_iff.mp hgap).imp_right hbreak, rfl⟩

theorem allowed_double (h : isAllowed ch = true) : ∀ d ∈ doubleChar ch, isAllowed d = true := by
  unfold doubleChar
  split
  · exact Text.forall_mem_of_all (by decide)
  · split
    · exact Text.forall_mem_of_all (by decide)
    · simpa using h

theorem allowed_single (h : isAllowed ch = true) : ∀ d ∈ singleChar ch, isAllowed d = true := by
  unfold singleChar
  split
  · exact Text.forall_mem_of_all (by decide)
  · simpa using h

theorem ofYaml_eq_iff (text : String) (m : String × Json) (ms : Members) :
    Values.ofYaml text = .ok ⟨.obj (m :: ms)⟩ ↔ Yaml.parse text = .ok (.obj (m :: ms)) := by
  rw [Values.ofYaml]
  cases Yaml.parse text with
  | error e => simp [Error.ofYaml, bind, Except.bind]
  | ok v =>
    cases v <;> simp [Error.ofYaml, bind, Except.bind, pure, Except.pure, throw, throwThe,
      MonadExceptOf.throw, Values.empty]

theorem ofYaml_quoted_iff (double : Bool) {enc : Char → List Char}
    (henc : ∀ ch ∈ s.toList, Plainly double enc ch ∧ ∀ d ∈ enc ch, isAllowed d = true) :
    Values.ofYaml ("k: " ++ .ofList (quoteOf double :: (s.toList.flatMap enc ++ [quoteOf double]))) =
      .ok ⟨.obj [("k", .str s)]⟩ ↔ '\n' ∉ s.toList := by
  have hallowed : ∀ d ∈ s.toList.flatMap enc, isAllowed d = true := by
    intro d hd
    obtain ⟨ch, hch, hd⟩ := List.mem_flatMap.mp hd
    exact (henc ch hch).2 d hd
  have htext : "k: " ++ String.ofList (quoteOf double :: (s.toList.flatMap enc ++ [quoteOf double])) =
      .ofList ('k' :: ':' :: ' ' :: quoteOf double :: (s.toList.flatMap enc ++ [quoteOf double])) := by
    have hkey : "k: " = String.ofList ['k', ':', ' '] := rfl
    rw [hkey, ← String.ofList_append]
    rfl
  have hread := Yaml.parse_quoted_eq_iff (fun ch hch ↦ (henc ch hch).1) hallowed
  rw [String.ofList_toList] at hread
  rw [htext, ofYaml_eq_iff, hread]

/-- A string without line feeds is read back from its quotes, and no other is. -/
theorem ofYaml_quote_iff (h : Legible s) (safe : Bool) :
    (Values.ofYaml ("k: " ++ quote (.text s safe)) = .ok ⟨.obj [("k", .str s)]⟩ ↔
        '\n' ∉ s.toList) ∧
      (Values.ofYaml ("k: " ++ squote (.text s safe)) = .ok ⟨.obj [("k", .str s)]⟩ ↔
        '\n' ∉ s.toList) := by
  rw [quote_eq, squote_eq]
  constructor
  · exact ofYaml_quoted_iff true fun ch hch ↦
      ⟨plainly_double (h.feeds ch hch), allowed_double (h.allowed ch hch)⟩
  · exact ofYaml_quoted_iff false fun ch hch ↦
      ⟨plainly_single (h.feeds ch hch), allowed_single (h.allowed ch hch)⟩

/-- A tab, both quotes, a backslash, spaces at both ends and a letter that is not in ASCII. -/
theorem ofYaml_quote_iff_marks :
    Legible " \"é'\t\\ " ∧
      (Values.ofYaml ("k: " ++ quote (.text " \"é'\t\\ " false)) =
          .ok ⟨.obj [("k", .str " \"é'\t\\ ")]⟩ ↔ '\n' ∉ " \"é'\t\\ ".toList) ∧
      (Values.ofYaml ("k: " ++ squote (.text " \"é'\t\\ " false)) =
          .ok ⟨.obj [("k", .str " \"é'\t\\ ")]⟩ ↔ '\n' ∉ " \"é'\t\\ ".toList) := by
  have hlegible : Legible " \"é'\t\\ " :=
    ⟨Text.forall_mem_of_all (by decide), Text.forall_mem_of_all (by decide)⟩
  exact ⟨hlegible, ofYaml_quote_iff hlegible false⟩

/-- Two lines become one. -/
theorem ofYaml_quote_two_lines :
    Legible "a\nb" ∧
      Values.ofYaml ("k: " ++ quote (.text "a\nb" false)) = .ok ⟨.obj [("k", .str "a b")]⟩ ∧
      Values.ofYaml ("k: " ++ squote (.text "a\nb" false)) = .ok ⟨.obj [("k", .str "a b")]⟩ ∧
      "a b" ≠ "a\nb" := by
  refine ⟨⟨Text.forall_mem_of_all (by decide), Text.forall_mem_of_all (by decide)⟩, ?_, ?_, by decide⟩
  all_goals decide +kernel

end DeliveryCharts.Template.Filter
