import DeliveryCharts.Proofs.Json.Canonical
import DeliveryCharts.Proofs.Template.Conversion
import DeliveryCharts.Proofs.Text.Blank
import DeliveryCharts.Proofs.Text.Lines
import DeliveryCharts.Proofs.Yaml.Embedding
import DeliveryCharts.Template.Filter.Manifest
import DeliveryCharts.Values.Basic

/-!
A value that a template writes with `toyaml` and `nindent` below a key is read as the value of that
key.
-/

namespace DeliveryCharts.Template

open Yaml (shift OneLine IsCollection)

variable {v : Json} {n : Nat} {node : Yaml.Node} {l cs : List Char}

/-! The filters. -/

theorem shift_row (h : OneLine l) (n : Nat) (r : List Char) :
    shift n true (l ++ '\n' :: r) = Filter.indentLine n l ++ '\n' :: shift n true r := by
  cases l with
  | nil => exact Yaml.shift_feed n true r
  | cons ch l =>
    obtain ⟨hch, hl⟩ := List.forall_mem_cons.mp h
    rw [List.cons_append, Yaml.shift_char hch.2, Yaml.shift_line hl, Yaml.shift_feed]
    simp [Filter.indentLine, Yaml.Writer.spaces]

/-- The filter puts spaces in front of the lines, if the last one is not ended. -/
theorem indentChars_eq_shift (hprintable : ∀ ch ∈ cs, Yaml.Writer.isPrintable ch = true)
    (hlast : cs.getLast? ≠ some '\n') (n : Nat) :
    Filter.indentChars cs n ++ ['\n'] = shift n true (cs ++ ['\n']) := by
  induction hn : cs.length using Nat.strongRecOn generalizing cs with
  | ind k ih =>
    subst hn
    obtain ⟨l, tail, rfl, hfeed, htail⟩ := Yaml.exists_span (· != '\n') cs
    obtain ⟨hl, hbelow⟩ := List.forall_mem_append.mp hprintable
    have hline : OneLine l := fun ch hch ↦ ⟨hl ch hch, by simpa using hfeed ch hch⟩
    have hfeed : '\n' ∉ l := fun hmem ↦ (hline '\n' hmem).2 rfl
    have hreturn : '\r' ∉ l := fun hmem ↦ absurd (hl '\r' hmem) (by decide)
    cases tail with
    | nil =>
      rw [List.append_nil, shift_row hline]
      by_cases hnil : l = []
      · subst hnil
        rfl
      · rw [Filter.indentChars, Text.lines_last hfeed hnil]
        rfl
    | cons ch tail =>
      obtain rfl : ch = '\n' := by simpa using htail ch rfl
      have hne : tail ≠ [] := by
        rintro rfl
        exact hlast List.getLast?_concat
      have hrest := ih tail.length (by simp; omega) (List.forall_mem_cons.mp hbelow).2
        (fun hend ↦ hlast (by
          rw [List.getLast?_append_of_ne_nil _ (List.cons_ne_nil _ _), List.getLast?_cons, hend]
          rfl)) rfl
      rw [List.append_assoc, List.cons_append, shift_row hline, ← hrest, Filter.indentChars,
        Text.lines_line hfeed hreturn, List.map_cons,
        Text.join_cons _ _ (mt List.map_eq_nil_iff.mp (Text.lines_ne_nil hne))]
      simp [Filter.indentChars]

/-- A text with a colon in its first line does not start with a marker. -/
theorem dropWord?_marker (h : OneLine l) (r : List Char) :
    Text.dropWord? ['-', '-', '-', '\n'] (l ++ ':' :: r) = none := by
  rw [Option.eq_none_iff_forall_ne_some]
  intro rest hrest
  obtain ⟨w, hmarker, hw⟩ | ⟨w, rfl, -⟩ :=
    List.append_eq_append_iff.mp (Text.dropWord?_eq_some_iff.mp hrest)
  · cases w with
    | nil =>
      rw [List.append_nil] at hmarker
      exact (h '\n' (by simp [← hmarker])).2 rfl
    | cons ch w =>
      obtain rfl : ':' = ch := (List.cons.inj hw).1
      have hcolon : ':' ∈ ['-', '-', '-', '\n'] := by simp [hmarker]
      exact absurd hcolon (by decide)
  · exact (h '\n' (by simp)).2 rfl

theorem dropMarkers_document (h : IsCollection v) (fuel : Nat) :
    Filter.dropMarkers fuel (Yaml.Writer.document v) = Yaml.Writer.document v := by
  have hnone : Text.dropWord? ['-', '-', '-', '\n'] (Yaml.Writer.document v) = none := by
    obtain ⟨vs, rfl⟩ | ⟨ms, rfl⟩ := h
    · cases vs <;> rfl
    · cases ms with
      | nil => rfl
      | cons m ms =>
        obtain ⟨k, v⟩ := m
        rw [Yaml.Writer.document, Yaml.Writer.entries, Yaml.Writer.keyText]
        by_cases hsimple : Yaml.Writer.isSimpleKey k = true
        · have hkey := dropWord?_marker
            (Yaml.oneLine_textOf (Yaml.styleOf_of_isSimpleKey hsimple) 2)
            (Yaml.Writer.value 0 v ++ Yaml.Writer.entries 0 ms)
          rw [if_pos hsimple, if_pos hsimple]
          simpa [Yaml.Writer.spaces] using hkey
        · rw [if_neg hsimple]
          rfl
  cases fuel with
  | zero => rfl
  | succ fuel => rw [Filter.dropMarkers, hnone]

/-- What is written of the value, without the blanks at its end. -/
theorem toyaml_ofJson {d : Nat} (hv : v.Within d) (hint : v.isIntegral = true)
    (hcollection : IsCollection v) :
    Filter.toyaml (.ofJson v) = .ok (Text.trimEnd (Yaml.render v)) := by
  have hdocument : (Yaml.render v).toList = Yaml.Writer.document v := String.toList_ofList
  rw [Filter.toyaml, Value.toJson_ofJson hv hint, Text.trimEnd]
  show Except.ok (String.ofList (Text.trimEndChars (Filter.dropMarkers _ _))) = _
  rw [hdocument, dropMarkers_document hcollection]

/-- The text that the filters put below a key. -/
theorem nindent_trimEnd (hbelow : Yaml.Below n node (Yaml.Writer.document v))
    (htrim : Text.trimEnd (Yaml.render v) ++ "\n" = Yaml.render v) :
    "k:" ++ Filter.nindent (Text.trimEnd (Yaml.render v)) n ++ "\n" =
      .ofList ('k' :: ':' :: '\n' :: shift n true (Yaml.Writer.document v)) := by
  have hdocument : (Text.trimEnd (Yaml.render v)).toList ++ ['\n'] = Yaml.Writer.document v := by
    have hchars := congrArg String.toList htrim
    rw [String.toList_append] at hchars
    exact hchars.trans String.toList_ofList
  have hprintable : ∀ ch ∈ (Text.trimEnd (Yaml.render v)).toList,
      Yaml.Writer.isPrintable ch = true := fun ch hch ↦
    hbelow.isPrintable ch (by rw [← hdocument]; exact List.mem_append_left _ hch)
  have hlast : (Text.trimEnd (Yaml.render v)).toList.getLast? ≠ some '\n' := fun hend ↦ by
    rw [Text.trimEnd, String.toList_ofList] at hend
    cases Text.isBlank_of_getLast?_trimEndChars hend
  rw [← hdocument, ← indentChars_eq_shift hprintable hlast]
  apply String.toList_inj.mp
  simp [Filter.nindent]

theorem ofYaml_nindent_trimEnd {d : Nat} (hcollection : IsCollection v) (hv : v.Within d)
    (hint : v.isIntegral = true) (hseparators : v.allTexts Yaml.keepsSeparators = true)
    (htrim : Text.trimEnd (Yaml.render v) ++ "\n" = Yaml.render v) (hn : 0 < n) :
    Values.ofYaml ("k:" ++ Filter.nindent (Text.trimEnd (Yaml.render v)) n ++ "\n") =
      if v.levels < Yaml.maxDepth then .ok ⟨.obj [("k", v)]⟩ else .error .yaml := by
  have hbelow := Yaml.below_document hv hint hseparators hcollection hn
  have hobject : (Json.obj [("k", v)]).Within (d + 1) :=
    .obj (List.pairwise_singleton _ _) (List.forall_mem_singleton.mpr hv)
  have hlevels : (Json.obj [("k", v)]).levels ≤ Yaml.maxDepth ↔ v.levels < Yaml.maxDepth := by
    rw [Yaml.maxDepth, Json.levels_obj_le]
    simp [Nat.lt_succ_iff]
  have hparse := hbelow.parse_eq.trans
    (Yaml.toJson_nodeOf hobject (Json.isIntegral_obj.mpr (List.forall_mem_singleton.mpr hint)))
  rw [nindent_trimEnd hbelow htrim, Values.ofYaml, hparse]
  by_cases h : v.levels < Yaml.maxDepth
  · rw [if_pos (hlevels.mpr h), if_pos h]
    rfl
  · rw [if_neg (mt hlevels.mp h), if_neg h]
    rfl

/-- The filters put a list or an object of integers below a key, and the text is read as it, unless
it is nested too deep. Of the text that is written for the value, only the line feed at the end may
be trimmed, and a line or paragraph separator in a literal block has to stand in front of another
break. -/
theorem ofYaml_nindent_toyaml {d : Nat} (hcollection : IsCollection v) (hv : v.Within d)
    (hint : v.isIntegral = true) (hseparators : v.allTexts Yaml.keepsSeparators = true)
    (htrim : Text.trimEnd (Yaml.render v) ++ "\n" = Yaml.render v) (hn : 0 < n) :
    ∃ text, Filter.toyaml (.ofJson v) = .ok text ∧
      Values.ofYaml ("k:" ++ Filter.nindent text n ++ "\n") =
        if v.levels < Yaml.maxDepth then .ok ⟨.obj [("k", v)]⟩ else .error .yaml :=
  ⟨_, toyaml_ofJson hv hint hcollection,
    ofYaml_nindent_trimEnd hcollection hv hint hseparators htrim hn⟩

section Witness

/-- The container of a job, with a script of several lines. -/
def container : Json :=
  .obj [("args", .arr [.ofInt 1, .null, .str "-c"]), ("script", .str "set -e\n\n  echo done\n")]

theorem within_container : container.Within 2 := by
  refine .obj (List.pairwise_pair.mpr (by decide +kernel))
    (List.forall_mem_cons.mpr ⟨?_, List.forall_mem_singleton.mpr (.str 1 _)⟩)
  exact .arr (by simpa using Json.within_ofInt (by decide) 0)

theorem ofYaml_nindent_toyaml_container :
    Filter.toyaml (.ofJson container) =
        .ok "args:\n- 1\n- null\n- -c\nscript: |\n  set -e\n\n    echo done" ∧
      Values.ofYaml ("k:" ++ Filter.nindent
          "args:\n- 1\n- null\n- -c\nscript: |\n  set -e\n\n    echo done" 4 ++ "\n") =
        .ok ⟨.obj [("k", container)]⟩ := by
  obtain ⟨text, htext, hread⟩ := ofYaml_nindent_toyaml (n := 4) (.inr ⟨_, rfl⟩) within_container rfl
    (by decide +kernel) (by decide +kernel) (by decide)
  have htoyaml : Filter.toyaml (.ofJson container) =
      .ok "args:\n- 1\n- null\n- -c\nscript: |\n  set -e\n\n    echo done" := by decide +kernel
  obtain rfl := Except.ok.inj (htoyaml.symm.trans htext)
  exact ⟨htoyaml, hread.trans (if_pos (by decide))⟩

theorem within_nest (n : Nat) : (Json.nest n).Within (n + 1) := by
  induction n with
  | zero => exact .arr (List.forall_mem_nil _)
  | succ n ih => exact .arr (List.forall_mem_singleton.mpr ih)

theorem ofYaml_nest :
    Filter.toyaml (.ofJson (Json.nest 127)) = .ok (Text.trimEnd (Yaml.render (Json.nest 127))) ∧
      Values.ofYaml
          ("k:" ++ Filter.nindent (Text.trimEnd (Yaml.render (Json.nest 127))) 2 ++ "\n") =
        .error .yaml := by
  have hcollection : IsCollection (Json.nest 127) := .inl ⟨_, rfl⟩
  have htrim : Text.trimEnd (Yaml.render (Json.nest 127)) ++ "\n" = Yaml.render (Json.nest 127) := by
    have hchars : Text.trimEndChars (Yaml.Writer.document (Json.nest 127)) ++ ['\n'] =
        Yaml.Writer.document (Json.nest 127) := by decide +kernel
    apply String.toList_inj.mp
    rw [String.toList_append, Text.trimEnd, Yaml.render, String.toList_ofList, String.toList_ofList]
    exact hchars
  have hread := ofYaml_nindent_trimEnd (n := 2) hcollection (within_nest 127) (by decide +kernel)
    (by decide +kernel) htrim (by decide)
  rw [Json.levels_nest, if_neg (by decide)] at hread
  exact ⟨toyaml_ofJson (within_nest 127) (by decide +kernel) hcollection, hread⟩

/-- Line feeds that are kept at the end, a blank at the end that is no space, a separator in front
of a letter, and a list that is nested as deep as the reader allows without the key. -/
theorem ofYaml_nindent_toyaml_ne :
    (Filter.toyaml (.ofJson (.obj [("a", .str "x\n\n")])) = .ok "a: |+\n  x" ∧
      Values.ofYaml ("k:" ++ Filter.nindent "a: |+\n  x" 2 ++ "\n") =
        .ok ⟨.obj [("k", .obj [("a", .str "x\n")])]⟩) ∧
    (Filter.toyaml (.ofJson (.arr [.str "x\u00a0"])) = .ok "- x" ∧
      Values.ofYaml ("k:" ++ Filter.nindent "- x" 2 ++ "\n") =
        .ok ⟨.obj [("k", .arr [.str "x"])]⟩) ∧
    (Filter.toyaml (.ofJson (.arr [.str "x\n\u2028y"])) = .ok "- |-\n  x\n\u2028  y" ∧
      Values.ofYaml ("k:" ++ Filter.nindent "- |-\n  x\n\u2028  y" 2 ++ "\n") =
        .error .yaml) ∧
    Filter.toyaml (.ofJson (Json.nest 127)) = .ok (Text.trimEnd (Yaml.render (Json.nest 127))) ∧
      Values.ofYaml
          ("k:" ++ Filter.nindent (Text.trimEnd (Yaml.render (Json.nest 127))) 2 ++ "\n") =
        .error .yaml :=
  ⟨by decide +kernel, by decide +kernel, by decide +kernel, ofYaml_nest⟩

end Witness

end DeliveryCharts.Template
