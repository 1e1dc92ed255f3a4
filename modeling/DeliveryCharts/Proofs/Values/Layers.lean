import DeliveryCharts.Chart
import DeliveryCharts.Proofs.Json.Depth
import DeliveryCharts.Proofs.Record
import DeliveryCharts.Proofs.Values.Overlay
import DeliveryCharts.Proofs.Yaml.Trees

/-!
Arguments as layers of values. The arguments are set one after the other from nothing, and what
comes of this is merged over the other layers. That is to merge them one by one if each extends what
those before it have set; otherwise there are lower layers that show the difference.
-/

namespace DeliveryCharts

namespace Values

open Json (Covers Ordered)

variable {v : Json}

/-- What an argument says: the keys of its path, and its value. -/
def assignment? (argument : String) : Option (List String × Json) :=
  match Text.splitOnce? ['='] argument.toList with
  | some (key, value) =>
    let keys := pathKeys (.ofList (Text.trimChars key))
    if keys.any (·.isEmpty) then none else some (keys, readArgument (.ofList value))
  | none => none

theorem setArgument_eq_ok_iff {values set : Values} {argument : String} :
    setArgument values argument = .ok set ↔
      ∃ keys v, assignment? argument = some (keys, v) ∧ set = ⟨setAt keys v values.tree⟩ := by
  rw [setArgument, assignment?]
  cases Text.splitOnce? ['='] argument.toList with
  | none => simp
  | some p =>
    obtain ⟨key, value⟩ := p
    simp only [Values.set]
    split
    · simp
    · simp only [Except.ok.injEq, Option.some.injEq, Prod.mk.injEq]
      constructor
      · rintro rfl
        exact ⟨_, _, ⟨rfl, rfl⟩, rfl⟩
      · rintro ⟨_, _, ⟨rfl, rfl⟩, rfl⟩
        rfl

theorem pathKeys_ne_nil (path : String) : pathKeys path ≠ [] := by
  simp [pathKeys, Text.splitAll_ne_nil]

theorem ordered_readArgument (text : String) : (readArgument text).Ordered := by
  unfold readArgument
  split
  · exact .leaf rfl
  split
  · exact .leaf rfl
  split
  · exact .leaf rfl
  split
  · exact .leaf rfl
  split
  · split
    · rename_i hparse
      exact (Json.within_parse hparse).ordered
    · exact .leaf rfl
  · exact .leaf rfl

theorem assignment?_spec {argument : String} {keys : List String}
    (h : assignment? argument = some (keys, v)) : keys ≠ [] ∧ v.Ordered := by
  rw [assignment?] at h
  split at h
  · dsimp only at h
    split at h
    · cases h
    · cases h
      exact ⟨pathKeys_ne_nil _, ordered_readArgument _⟩
  · cases h

/-- Each argument extends what those before it have set in `t`. -/
inductive Stacked : Json → List String → Prop
  | nil (t : Json) : Stacked t []
  | cons {t v : Json} {argument : String} {arguments : List String} {keys : List String}
      (h : assignment? argument = some (keys, v)) (hkeys : Extends keys v t)
      (hrest : Stacked (setAt keys v t) arguments) : Stacked t (argument :: arguments)

/-- Merges what one argument says over the values. -/
def layer (values : Values) (argument : String) : Except Error Values :=
  values.merge <$> ofArguments [argument]

/-- The values below those of the arguments: the chart's defaults, and then the files. -/
def lower (files : FileTree) (c : Chart) (s : Sources) : Except Error Values := do
  let defaults ← if !s.excludeDefaults && files.exists c.valuesPath then ofFile files c.valuesPath
    else pure empty
  s.files.foldlM (fun v path ↦ v.merge <$> ofNamedFile files path) (empty.merge defaults)

theorem load_eq (files : FileTree) (c : Chart) {s : Sources} (h : s.arguments ≠ []) :
    load files c s =
      lower files c s >>= fun values ↦ values.merge <$> ofArguments s.arguments := by
  have hempty : s.isEmpty = false := by simp [Sources.isEmpty, h]
  have harguments : s.arguments.isEmpty = false := by simp [h]
  rw [load, lower]
  simp only [hempty, harguments, Bool.and_false, Bool.false_eq_true, ↓reduceIte, pure_bind]
  split <;> simp [bind_assoc]

/-! What is below the arguments. -/

/-- Values as documents give them. -/
structure Proper (values : Values) : Prop where
  isObject : values.tree.isObject = true
  ordered : values.tree.Ordered

theorem proper_empty : empty.Proper := ⟨rfl, by simp [empty, Members.Sorted]⟩

theorem Proper.merge {values overlay : Values} (h : values.Proper) (h' : overlay.Proper) :
    (values.merge overlay).Proper := by
  refine ⟨?_, ordered_mergeTrees h.ordered h'.ordered⟩
  obtain ⟨ms, hms⟩ := isObject_iff.mp h.isObject
  obtain ⟨ns, hns⟩ := isObject_iff.mp h'.isObject
  rw [Values.merge, hms, hns]
  rfl

theorem proper_ofYaml {text : String} {values : Values} (h : ofYaml text = .ok values) :
    values.Proper := by
  obtain ⟨v, hv, h⟩ := Except.bind_eq_ok_iff.mp h
  have hparse := Except.mapError_eq_ok_iff.mp hv
  obtain ⟨g, -, hg⟩ := Except.bind_eq_ok_iff.mp hparse
  split at h
  · cases h
    exact proper_empty
  · cases h
    exact ⟨rfl, (Yaml.Graph.within_toJson hg).ordered⟩
  · cases h

theorem proper_ofFile {files : FileTree} {path : String} {values : Values}
    (h : ofFile files path = .ok values) : values.Proper := by
  obtain ⟨text, -, h⟩ := Except.bind_eq_ok_iff.mp h
  exact proper_ofYaml h

theorem proper_foldlM {files : FileTree} {paths : List String} {start values : Values}
    (hstart : start.Proper)
    (h : paths.foldlM (fun v path ↦ v.merge <$> ofNamedFile files path) start = .ok values) :
    values.Proper := by
  induction paths generalizing start with
  | nil =>
    cases h
    exact hstart
  | cons path paths ih =>
    rw [List.foldlM_cons] at h
    obtain ⟨next, hnext, h⟩ := Except.bind_eq_ok_iff.mp h
    obtain ⟨file, hfile, rfl⟩ := Except.map_eq_ok_iff.mp hnext
    exact ih (hstart.merge (proper_ofFile (Except.mapError_eq_ok_iff.mp hfile))) h

theorem proper_lower {files : FileTree} {c : Chart} {s : Sources} {values : Values}
    (h : lower files c s = .ok values) : values.Proper := by
  rw [lower] at h
  split at h
  · obtain ⟨defaults, hdefaults, h⟩ := Except.bind_eq_ok_iff.mp h
    exact proper_foldlM (proper_empty.merge (proper_ofFile hdefaults)) h
  · exact proper_foldlM (proper_empty.merge proper_empty) h

/-! The arguments, one by one. -/

variable {argument : String} {arguments : List String} {keys : List String}

theorem ofArguments_singleton (argument : String) :
    ofArguments [argument] = setArgument empty argument := by
  simp [ofArguments]

theorem setArgument_eq (h : assignment? argument = some (keys, v)) (values : Values) :
    setArgument values argument = .ok ⟨setAt keys v values.tree⟩ :=
  setArgument_eq_ok_iff.mpr ⟨keys, v, h, rfl⟩

theorem layer_eq (h : assignment? argument = some (keys, v)) (values : Values) :
    layer values argument = .ok ⟨mergeTrees values.tree (setAt keys v .null)⟩ := by
  have hset : setAt keys v empty.tree = setAt keys v .null := by
    obtain ⟨key, rest, rfl⟩ := List.exists_cons_of_ne_nil (assignment?_spec h).1
    rfl
  rw [layer, ofArguments_singleton, setArgument_eq h, hset]
  rfl

/-- Merging one by one what each argument says is merging what all of them set. -/
theorem foldlM_layer {t : Json} (h : Stacked t arguments) (ht : t.Ordered) {base : Values}
    (hbase : base.tree.Ordered) : arguments.foldlM layer (base.merge ⟨t⟩) =
      base.merge <$> arguments.foldlM setArgument ⟨t⟩ := by
  induction h with
  | nil t => rfl
  | @cons t v argument arguments keys h hkeys _ ih =>
    have hv := (assignment?_spec h).2
    have hmerge := overlaid_setAt (t := some t) (b := some base.tree) hv (by simpa) (by simpa)
      (by simpa)
    have htree : mergeTrees (mergeTrees base.tree t) (setAt keys v .null) =
        mergeTrees base.tree (setAt keys v t) := (Option.some.inj hmerge).symm
    rw [List.foldlM_cons, List.foldlM_cons, layer_eq h, setArgument_eq h]
    have hrest := ih (ordered_setAt hv keys ht)
    rw [Values.merge, ← htree] at hrest
    exact hrest

/-- An argument that does not extend what those before it have set can be told from the result,
over some values, of the arguments up to it. -/
theorem stacked_of_foldlM {t : Json} (ht : t.Ordered) {set : Values}
    (hset : arguments.foldlM setArgument ⟨t⟩ = .ok set)
    (h : ∀ done, done <+: arguments → ∀ base : Values, base.Proper →
      done.foldlM layer (base.merge ⟨t⟩) = base.merge <$> done.foldlM setArgument ⟨t⟩) :
    Stacked t arguments := by
  induction arguments generalizing t with
  | nil => exact .nil t
  | cons argument arguments ih =>
    rw [List.foldlM_cons] at hset
    obtain ⟨next, hnext, hset⟩ := Except.bind_eq_ok_iff.mp hset
    obtain ⟨keys, v, hsays, rfl⟩ := setArgument_eq_ok_iff.mp hnext
    have hv := (assignment?_spec hsays).2
    have hlayer (base : Values) (hbase : base.Proper) :
        (⟨mergeTrees (base.merge ⟨t⟩).tree (setAt keys v .null)⟩ : Values) =
          base.merge ⟨setAt keys v t⟩ := by
      have hone := h [argument] (List.prefix_append [argument] arguments) base hbase
      simp only [List.foldlM_cons, List.foldlM_nil, layer_eq hsays, setArgument_eq hsays] at hone
      exact Except.ok.inj hone
    refine .cons hsays (extends_of_overlaid hv ht fun bs hbs ↦ ?_)
      (ih (ordered_setAt hv keys ht) hset fun done hdone base hbase ↦ ?_)
    · exact congrArg (fun values ↦ some values.tree) (hlayer ⟨.obj bs⟩ ⟨rfl, hbs⟩).symm
    · have hmore := h (argument :: done) (List.cons_prefix_cons.mpr ⟨rfl, hdone⟩) base hbase
      rw [List.foldlM_cons, List.foldlM_cons, layer_eq hsays, setArgument_eq hsays] at hmore
      rw [← hlayer base hbase]
      exact hmore

theorem merge_empty {values : Values} (h : values.tree.isObject = true) :
    values.merge empty = values := by
  obtain ⟨tree⟩ := values
  obtain ⟨ms, rfl⟩ := isObject_iff.mp h
  rfl

/-- A chart that has nothing but its defaults. -/
def bareChart (defaults : String) : FileTree :=
  .directory [("chart", .directory [("values.yaml", .file (Text.utf8String defaults))])]

end Values

end DeliveryCharts
