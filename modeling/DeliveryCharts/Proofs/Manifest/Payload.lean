import DeliveryCharts.Proofs.Json.Depth
import DeliveryCharts.Proofs.Manifest.Compiled
import DeliveryCharts.Proofs.Manifest.Stored

/-!
Copies that the platform keeps of an object. What the platform adds to a copy, where it leaves out
lists and in which order it shows members does not count: all such copies decode to one spec.
-/

namespace DeliveryCharts

def Json.Shape.fields : Json.Shape → List (List String × Json.Shape)
  | .record _ fields => fields
  | _ => []

namespace Manifest

open Json (Source Shape)
open Json.Source
open Members

/-- What the platform is given of an object. -/
inductive Spec where
  | application (a : Application)
  | pipeline (p : Pipeline)
  deriving DecidableEq

namespace Spec

def ofCompiled : Compiled → Spec
  | .application m => application m.spec
  | .pipeline m => pipeline m.spec.toPlatform

def toJson : Spec → Json
  | application a => a.toJson
  | pipeline p => p.toJson

/-- The spec of a copy, without the keys of its stages that are input only. -/
def ofPayload (payload : Text.Bytes) : Kind → Except Error Spec
  | .application => (Application.ofPlatform payload).map application
  | .pipeline => (Pipeline.ofPlatform payload).map pipeline

def ofSource? (v : Source) : Kind → Option Spec
  | .application =>
    (v.shaped? Json.Reader.maxDepth Application.shape).bind fun j ↦
      (Application.ofJson j).toOption.map application
  | .pipeline =>
    (v.shaped? Json.Reader.maxDepth Pipeline.shape).bind fun j ↦
      (Pipeline.ofJson j).toOption.map fun p ↦ pipeline p.toPlatform

theorem ofPayload_eq (payload : Text.Bytes) (k : Kind) :
    (ofPayload payload k).toOption =
      (ofText (Text.received payload)).bind fun v ↦ ofSource? v k := by
  cases k with
  | application =>
    simp only [ofPayload, Application.ofPlatform, Except.toOption_map, Except.toOption_mapError,
      Except.toOption_bind, parse_eq, Option.bind_assoc, Option.map_bind, Function.comp_def,
      ofSource?]
  | pipeline =>
    simp only [ofPayload, Pipeline.ofPlatform, Except.toOption_map, Except.toOption_mapError,
      Except.toOption_bind, parse_eq, Option.bind_assoc, Option.map_bind, Function.comp_def,
      Option.map_map, ofSource?]

end Spec

/-- The keys that a record of this kind declares. -/
def declared : Kind → List String
  | .application => ["cloudProviders", "email", "name", "permissions"]
  | .pipeline => Pipeline.fields

/-- The lists of a pipeline that may be null or missing instead of empty. -/
def listKeys : List String := ["triggers", "notifications", "parameterConfig", "stages"]

/-- A pipeline around the value of one of its fields, which is a member of it or, where the pipeline
is given as a list, an item. -/
inductive Slot (key : String) : (Source → Source) → Prop
  | member (ms ms' : List (Option String × Source)) :
    Slot key fun v ↦ .obj (ms ++ (some key, v) :: ms')
  | item (vs vs' : List Source) (h : Pipeline.fields[vs.length]? = some key) :
    Slot key fun v ↦ .arr (vs ++ v :: vs')

def Blank (v : Source) : Prop := v = .null ∨ v = .arr []

/-- The levels that are left for the values in a stage. -/
def stageDepth : Nat := Json.Reader.maxDepth - 3

/-- One copy has something that the other does not have and that is not part of the spec, or it has
members in another order. -/
inductive Edit : Kind → Source → Source → Prop
  | swap {k : Kind} {v w : Source} (h : Swap v w) : Edit k v w
  | undeclared {k : Kind} {ms ms' : List (Option String × Source)} {key : String} {v : Source}
    (h : key ∉ declared k) : Edit k (.obj (ms ++ ms')) (.obj (ms ++ (some key, v) :: ms'))
  | blank {key : String} {place : Source → Source} {v w : Source} (hkey : key ∈ listKeys)
    (h : Slot key place) (hv : Blank v) (hw : Blank w) : Edit .pipeline (place v) (place w)
  | absent {key : String} {ms ms' : List (Option String × Source)} {v : Source}
    (hkey : key ∈ listKeys) (h : ∀ m ∈ ms ++ ms', m.1 ≠ some key) (hv : Blank v) :
    Edit .pipeline (.obj (ms ++ ms')) (.obj (ms ++ (some key, v) :: ms'))
  | short {key : String} {vs : List Source} {v : Source} (hkey : key ∈ listKeys)
    (h : Pipeline.fields[vs.length]? = some key) (hv : Blank v) :
    Edit .pipeline (.arr vs) (.arr (vs ++ [v]))
  | inputOnly {key : String} {place : Source → Source} {vs vs' : List Source}
    {ms ms' : List (Option String × Source)} {v : Source} (hkey : key ∈ Stage.inputOnlyKeys)
    (h : Slot "stages" place) (hv : (v.toJson? stageDepth).isSome) :
    Edit .pipeline (place (.arr (vs ++ .obj (ms ++ ms') :: vs')))
      (place (.arr (vs ++ .obj (ms ++ (some key, v) :: ms') :: vs')))

/-- Any number of edits, made or taken back. -/
inductive Edited (k : Kind) : Source → Source → Prop
  | refl (v : Source) : Edited k v v
  | make {u v w : Source} (h : Edited k u v) (hw : Edit k v w) : Edited k u w
  | undo {u v w : Source} (h : Edited k u v) (hw : Edit k w v) : Edited k u w

namespace Pipeline

/-- What a field of a copy may hold instead of what it holds in another copy. -/
inductive Alike (key : String) : Option Json → Option Json → Prop
  | same (o : Option Json) : Alike key o o
  | blank {o o' : Option Json} (hkey : key ∈ listKeys)
    (h : o = none ∨ o = some .null ∨ o = some (.arr []))
    (h' : o' = none ∨ o' = some .null ∨ o' = some (.arr [])) : Alike key o o'
  | stage {vs vs' : List Json} {ms ms' : Members} (hkey : key = "stages")
    (h : Stage.stripInputOnly ms = Stage.stripInputOnly ms') :
    Alike key (some (.arr (vs ++ .obj ms :: vs'))) (some (.arr (vs ++ .obj ms' :: vs')))

theorem elim_blank {α : Type} {read : Json → Except Json.Fault α} {o : Option Json}
    (h : o = none ∨ o = some .null ∨ o = some (.arr [])) :
    o.elim (.ok []) (Record.nullableList read) = .ok [] := by
  rcases h with rfl | rfl | rfl <;> rfl

variable {ms ms' : Members}

theorem field_of_alike {α : Type} {key : String} (h : Alike key (ms.get? key) (ms'.get? key))
    (hkey : key ∉ listKeys) (default : α) (read : Json → Except Json.Fault α) :
    Record.field ms key default read = Record.field ms' key default read := by
  rw [Record.field_eq, Record.field_eq]
  revert h
  generalize ms.get? key = o, ms'.get? key = o'
  intro h
  cases h with
  | same => rfl
  | blank h => exact absurd h hkey
  | stage h =>
    rw [h] at hkey
    exact absurd (by decide) hkey

theorem bind_field {α β γ : Type} {key : String} (h : Alike key (ms.get? key) (ms'.get? key))
    (hkey : key ∉ listKeys) (default : α) (read : Json → Except Json.Fault α)
    {f g : α → Except Json.Fault β} {r : β → γ}
    (hf : ∀ a, (f a).toOption.map r = (g a).toOption.map r) :
    (Record.field ms key default read >>= f).toOption.map r =
      (Record.field ms' key default read >>= g).toOption.map r :=
  Except.toOption_bind_congr_of_eq (field_of_alike h hkey default read) hf

theorem list_of_alike {key : String} (h : Alike key (ms.get? key) (ms'.get? key))
    (hkey : key ≠ "stages") {α : Type} (read : Json → Except Json.Fault α) :
    Record.field ms key [] (Record.nullableList read) =
      Record.field ms' key [] (Record.nullableList read) := by
  rw [Record.field_eq, Record.field_eq]
  revert h
  generalize ms.get? key = o, ms'.get? key = o'
  intro h
  cases h with
  | same => rfl
  | blank _ h h' => rw [elim_blank h, elim_blank h']
  | stage h => exact absurd h hkey

theorem bind_list {α β γ : Type} {key : String} (h : Alike key (ms.get? key) (ms'.get? key))
    (hkey : key ≠ "stages") (read : Json → Except Json.Fault α)
    {f g : List α → Except Json.Fault β} {r : β → γ}
    (hf : ∀ a, (f a).toOption.map r = (g a).toOption.map r) :
    (Record.field ms key [] (Record.nullableList read) >>= f).toOption.map r =
      (Record.field ms' key [] (Record.nullableList read) >>= g).toOption.map r :=
  Except.toOption_bind_congr_of_eq (list_of_alike h hkey read) hf

theorem stages_of_alike (h : Alike "stages" (ms.get? "stages") (ms'.get? "stages")) :
    (Record.field ms "stages" [] (Record.nullableList Record.map)).toOption.map
        (List.map Stage.stripInputOnly) =
      (Record.field ms' "stages" [] (Record.nullableList Record.map)).toOption.map
        (List.map Stage.stripInputOnly) := by
  rw [Record.field_eq, Record.field_eq]
  revert h
  generalize ms.get? "stages" = o, ms'.get? "stages" = o'
  intro h
  cases h with
  | same => rfl
  | blank _ h h' => rw [elim_blank h, elim_blank h']
  | @stage vs vs' n n' _ h =>
    simp only [Option.elim_some, Record.nullableList, Record.list, List.mapM_append,
      List.mapM_cons, Record.map]
    cases vs.mapM Record.map with
    | error e => rfl
    | ok a =>
      cases vs'.mapM Record.map with
      | error e => rfl
      | ok b => simp [h, bind, Except.bind, pure, Except.pure]

/-- Copies whose fields are alike decode to one spec. -/
theorem decode_of_alike (h : ∀ key, Alike key (ms.get? key) (ms'.get? key)) :
    (decode ms).toOption.map toPlatform = (decode ms').toOption.map toPlatform := by
  refine bind_field (h "application") (by decide) _ _ fun _ ↦ ?_
  refine bind_field (h "description") (by decide) _ _ fun _ ↦ ?_
  refine bind_field (h "disabled") (by decide) _ _ fun _ ↦ ?_
  refine bind_field (h "index") (by decide) _ _ fun _ ↦ ?_
  refine bind_field (h "keepWaitingPipelines") (by decide) _ _ fun _ ↦ ?_
  refine bind_field (h "limitConcurrent") (by decide) _ _ fun _ ↦ ?_
  refine bind_field (h "name") (by decide) _ _ fun _ ↦ ?_
  refine bind_list (h "notifications") (by decide) _ fun _ ↦ ?_
  refine bind_list (h "parameterConfig") (by decide) _ fun _ ↦ ?_
  refine bind_field (h "spelEvaluator") (by decide) _ _ fun _ ↦ ?_
  -- The stages may differ in what is input only, which is dropped in the end.
  refine Except.toOption_bind_congr _ (stages_of_alike (h "stages")) fun stages stages' hstages ↦ ?_
  refine bind_list (h "triggers") (by decide) _ fun _ ↦ ?_
  simp [toPlatform, hstages, pure, Except.pure]

def record? : Source → Option Members
  | .obj ms =>
    (fields? (Json.Reader.maxDepth - 1) shape.fields ms).bind (Members.once? [])
  | .arr vs => (positional? (Json.Reader.maxDepth - 1) shape.fields vs).map .ofList
  | _ => none

theorem shaped?_eq (v : Source) :
    v.shaped? Json.Reader.maxDepth shape = (record? v).map .obj := by
  cases v with
  | obj ms => rfl
  | arr vs =>
    rw [record?, Option.map_map]
    rfl
  | null | bool | num | str => rfl

theorem ofSource?_eq (v : Source) : Spec.ofSource? v .pipeline =
    ((record? v).bind fun ms ↦ (decode ms).toOption.map toPlatform).map .pipeline := by
  rw [Spec.ofSource?, shaped?_eq, Option.bind_map, Option.map_bind]
  refine Option.bind_congr fun ms _ ↦ ?_
  simp [ofJson, Record.read, Function.comp_def]

theorem spellings_fields : shape.fields.map Prod.fst = fields.map ([·]) := rfl

theorem find?_of_mem : ∀ f ∈ shape.fields,
    shape.fields.find? (fun g ↦ g.1.contains (Json.Shape.nameOf f.1)) = some f := by
  simp [shape, Json.Shape.fields, Json.Shape.nameOf]

theorem find?_listKeys : ∀ key ∈ listKeys, ∃ item, (key = "stages" → item = .map) ∧
    shape.fields.find? (fun f ↦ f.1.contains key) = some ([key], .list item) := by
  simp [listKeys, shape, Json.Shape.fields]

theorem drop_fields {key : String} {item : Shape} {n : Nat} (hn : fields[n]? = some key)
    (h : shape.fields.find? (fun f ↦ f.1.contains key) = some ([key], .list item)) :
    shape.fields.drop n = ([key], .list item) :: shape.fields.drop (n + 1) := by
  have hspellings : (shape.fields.map Prod.fst)[n]? = some [key] := by
    rw [spellings_fields, List.getElem?_map, hn]
    rfl
  rw [List.getElem?_map] at hspellings
  obtain ⟨f, hf, hkey⟩ := Option.map_eq_some_iff.mp hspellings
  have hfind := find?_of_mem f (List.mem_of_getElem? hf)
  rw [hkey] at hfind
  obtain rfl : f = ([key], .list item) := Option.some.inj (hfind.symm.trans h)
  obtain ⟨hlt, hget⟩ := List.getElem?_eq_some_iff.mp hf
  rw [List.drop_eq_getElem_cons hlt, hget]

theorem names_of_positional? {depth : Nat} {shapes : List (List String × Shape)}
    {vs : List Source} {l : List (String × Json)} (h : positional? depth shapes vs = some l) :
    l.map Prod.fst = (shapes.map fun f ↦ Json.Shape.nameOf f.1).take vs.length := by
  induction vs generalizing shapes l with
  | nil =>
    cases h
    rfl
  | cons v vs ih =>
    cases shapes with
    | nil => cases h
    | cons f shapes =>
      simp only [positional?, Option.bind_eq_bind, Option.bind_eq_some_iff] at h
      obtain ⟨j, -, l', hl, ⟨⟩⟩ := h
      simp [ih hl]

theorem ne_of_nodup {l l' : List (String × Json)} {key : String}
    (h : (l.map Prod.fst ++ key :: l'.map Prod.fst).Nodup) : ∀ m ∈ l ++ l', m.1 ≠ key := by
  rintro m hm rfl
  have hcons := List.perm_middle.nodup_iff.mp h
  rw [← List.map_append] at hcons
  exact (List.nodup_cons.mp hcons).1 (List.mem_map_of_mem hm)

theorem ne_of_positional? {depth : Nat} {key : String} {item : Shape} {vs vs' : List Source}
    {l l' : List (String × Json)}
    (hdrop : shape.fields.drop vs.length =
      ([key], .list item) :: shape.fields.drop (vs.length + 1))
    (hl : positional? depth shape.fields vs = some l)
    (hl' : positional? depth (shape.fields.drop (vs.length + 1)) vs' = some l') :
    ∀ m ∈ l ++ l', m.1 ≠ key := by
  have hnames : (shape.fields.map fun f ↦ Json.Shape.nameOf f.1) = fields := rfl
  have hbehind : fields.drop vs.length = key :: fields.drop (vs.length + 1) := by
    rw [← hnames, ← List.map_drop, hdrop, List.map_cons, List.map_drop]
    rfl
  refine ne_of_nodup ?_
  rw [names_of_positional? hl, names_of_positional? hl', hnames, List.map_drop, hnames]
  have hnodup : (fields.take vs.length ++ fields.drop vs.length).Nodup := by
    rw [List.take_append_drop]
    decide
  rw [hbehind] at hnodup
  exact hnodup.sublist (List.Sublist.append (.refl _) ((List.take_sublist ..).cons_cons key))

/-- The fields of a copy around one of its lists do not depend on what the list holds. -/
def Framed (key : String) (item : Shape) (place : Source → Source) : Prop :=
  ∃ around : Option (Members × Members), (∀ p ∈ around, ∀ m ∈ p.1 ++ p.2, m.1 ≠ key) ∧
    ∀ v, record? (place v) =
      (v.shaped? (Json.Reader.maxDepth - 1) (.list item)).bind fun j ↦
        around.map fun p ↦ ofList (p.1 ++ (key, j) :: p.2)

section

variable {key : String} {item : Shape}

theorem framed_member (hfind : shape.fields.find? (fun f ↦ f.1.contains key) =
      some ([key], .list item)) (ms ms' : List (Option String × Source)) :
    Framed key item fun v ↦ .obj (ms ++ (some key, v) :: ms') := by
  cases hl : fields? (Json.Reader.maxDepth - 1) shape.fields ms with
  | none =>
    refine ⟨none, nofun, fun v ↦ ?_⟩
    rw [record?, fields?_append, hl]
    simp
  | some l =>
    cases hl' : fields? (Json.Reader.maxDepth - 1) shape.fields ms' with
    | none =>
      refine ⟨none, nofun, fun v ↦ ?_⟩
      rw [record?, fields?_append, fields?_declared hfind, hl, hl']
      simp
    | some l' =>
      by_cases hnodup : (l.map Prod.fst ++ key :: l'.map Prod.fst).Nodup
      · refine ⟨some (l, l'), ?_, fun v ↦ ?_⟩
        · rintro p ⟨⟩
          exact ne_of_nodup hnodup
        · rw [record?, fields?_append, fields?_declared hfind, hl, hl']
          cases shaped? (Json.Reader.maxDepth - 1) (.list item) v with
          | none => rfl
          | some j => simp [Members.once?_nil, hnodup, Json.Shape.nameOf]
      · refine ⟨none, nofun, fun v ↦ ?_⟩
        rw [record?, fields?_append, fields?_declared hfind, hl, hl']
        cases shaped? (Json.Reader.maxDepth - 1) (.list item) v with
        | none => rfl
        | some j => simp [Members.once?_nil, hnodup, Json.Shape.nameOf]

theorem framed_item {vs : List Source} (hdrop : shape.fields.drop vs.length =
      ([key], .list item) :: shape.fields.drop (vs.length + 1)) (vs' : List Source) :
    Framed key item fun v ↦ .arr (vs ++ v :: vs') := by
  cases hl : positional? (Json.Reader.maxDepth - 1) shape.fields vs with
  | none =>
    refine ⟨none, nofun, fun v ↦ ?_⟩
    rw [record?, positional?_append, hl]
    simp
  | some l =>
    cases hl' : positional? (Json.Reader.maxDepth - 1)
        (shape.fields.drop (vs.length + 1)) vs' with
    | none =>
      refine ⟨none, nofun, fun v ↦ ?_⟩
      rw [record?, positional?_append, hl, hdrop]
      simp [positional?, hl']
    | some l' =>
      refine ⟨some (l, l'), ?_, fun v ↦ ?_⟩
      · rintro p ⟨⟩
        exact ne_of_positional? hdrop hl hl'
      · rw [record?, positional?_append, hl, hdrop]
        cases hj : shaped? (Json.Reader.maxDepth - 1) (.list item) v with
        | none => simp [positional?, hj]
        | some j => simp [positional?, hj, hl', Json.Shape.nameOf]

end

theorem framed_slot {key : String} {place : Source → Source} (h : Slot key place)
    (hkey : key ∈ listKeys) : ∃ item, (key = "stages" → item = .map) ∧ Framed key item place := by
  obtain ⟨item, hitem, hfind⟩ := find?_listKeys key hkey
  refine ⟨item, hitem, ?_⟩
  cases h with
  | member ms ms' => exact framed_member hfind ms ms'
  | item vs vs' hn => exact framed_item (drop_fields hn hfind) vs'

theorem get?_around {l l' : List (String × Json)} {key : String} {j : Json}
    (h : ∀ m ∈ l ++ l', m.1 ≠ key) (key' : String) :
    (ofList (l ++ (key, j) :: l')).get? key' =
      if key' = key then some j else (ofList (l ++ l')).get? key' := by
  rw [get?_ofList_append, get?_ofList_cons, get?_ofList_append]
  by_cases hkey : key' = key
  · subst key'
    have hbehind : (ofList l').get? key = none :=
      get?_ofList_eq_none fun m hm ↦ h m (List.mem_append_right l hm)
    simp [hbehind]
  · simp [hkey, Ne.symm hkey]

theorem shaped?_blank (item : Shape) {v : Source} (hv : Blank v) :
    ∃ j, v.shaped? (Json.Reader.maxDepth - 1) (.list item) = some j ∧
      (some j = none ∨ some j = some .null ∨ some j = some (.arr [])) := by
  rcases hv with rfl | rfl
  · exact ⟨.null, rfl, .inr (.inl rfl)⟩
  · exact ⟨.arr [], rfl, .inr (.inr rfl)⟩

def specOf? (ms : Members) : Option Pipeline := (decode ms).toOption.map toPlatform

theorem specOf?_around {l l' : List (String × Json)} {key : String} {j j' : Json}
    (h : ∀ m ∈ l ++ l', m.1 ≠ key) (hj : Alike key (some j) (some j')) :
    specOf? (ofList (l ++ (key, j) :: l')) = specOf? (ofList (l ++ (key, j') :: l')) := by
  refine decode_of_alike fun key' ↦ ?_
  rw [get?_around h, get?_around h]
  split
  · rename_i hkey
    exact hkey ▸ hj
  · exact .same _

theorem specOf?_without {l l' : List (String × Json)} {key : String} {j : Json}
    (h : ∀ m ∈ l ++ l', m.1 ≠ key) (hj : Alike key none (some j)) :
    specOf? (ofList (l ++ l')) = specOf? (ofList (l ++ (key, j) :: l')) := by
  refine decode_of_alike fun key' ↦ ?_
  rw [get?_around h]
  split
  · rename_i hkey
    subst key'
    rwa [get?_ofList_eq_none h]
  · exact .same _

theorem specOf?_blank {key : String} {place : Source → Source} {v w : Source}
    (hkey : key ∈ listKeys) (h : Slot key place) (hv : Blank v) (hw : Blank w) :
    (record? (place v)).bind specOf? = (record? (place w)).bind specOf? := by
  obtain ⟨item, -, around, hfresh, hrecord⟩ := framed_slot h hkey
  obtain ⟨j, hj, hblank⟩ := shaped?_blank item hv
  obtain ⟨j', hj', hblank'⟩ := shaped?_blank item hw
  rw [hrecord, hrecord, hj, hj']
  cases around with
  | none => rfl
  | some p => exact specOf?_around (hfresh p rfl) (.blank hkey hblank hblank')

theorem nameOf_of_find? {f : List String × Shape} {key : String}
    (h : shape.fields.find? (fun g ↦ g.1.contains key) = some f) : Json.Shape.nameOf f.1 = key := by
  have hsole : ∀ g ∈ shape.fields, g.1 = [Json.Shape.nameOf g.1] := by
    simp [shape, Json.Shape.fields, Json.Shape.nameOf]
  have hcontains := List.find?_some h
  rw [hsole f (List.mem_of_find?_eq_some h)] at hcontains
  simpa [eq_comm] using hcontains

theorem mem_of_fields? {depth : Nat} {ms : List (Option String × Source)}
    {l : List (String × Json)} (h : fields? depth shape.fields ms = some l) :
    ∀ m ∈ l, some m.1 ∈ ms.map Prod.fst := by
  induction ms generalizing l with
  | nil =>
    cases h
    exact nofun
  | cons m ms ih =>
    obtain ⟨_ | key, v⟩ := m
    · cases h
    · cases hfind : shape.fields.find? fun f ↦ f.1.contains key with
      | none =>
        rw [fields?_undeclared hfind] at h
        exact fun m hm ↦ List.mem_cons_of_mem _ (ih h m hm)
      | some f =>
        rw [fields?_declared hfind] at h
        obtain ⟨j, -, h⟩ := Option.bind_eq_some_iff.mp h
        obtain ⟨l', hl, rfl⟩ := Option.map_eq_some_iff.mp h
        have hkey := nameOf_of_find? hfind
        intro m hm
        rcases List.mem_cons.mp hm with rfl | hm
        · simp [hkey]
        · exact List.mem_cons_of_mem _ (ih hl m hm)

theorem specOf?_absent {key : String} {ms ms' : List (Option String × Source)} {v : Source}
    (hkey : key ∈ listKeys) (h : ∀ m ∈ ms ++ ms', m.1 ≠ some key) (hv : Blank v) :
    (record? (.obj (ms ++ ms'))).bind specOf? =
      (record? (.obj (ms ++ (some key, v) :: ms'))).bind specOf? := by
  obtain ⟨item, -, hfind⟩ := find?_listKeys key hkey
  obtain ⟨j, hj, hblank⟩ := shaped?_blank item hv
  rw [record?, record?, fields?_append, fields?_append, fields?_declared hfind, hj]
  cases hl : fields? (Json.Reader.maxDepth - 1) shape.fields ms with
  | none => rfl
  | some l =>
    cases hl' : fields? (Json.Reader.maxDepth - 1) shape.fields ms' with
    | none => rfl
    | some l' =>
      have hfresh : ∀ m ∈ l ++ l', m.1 ≠ key := by
        rintro m hm rfl
        have hmem : some m.1 ∈ (ms ++ ms').map Prod.fst := by
          rw [List.map_append, List.mem_append]
          exact (List.mem_append.mp hm).imp (mem_of_fields? hl m) (mem_of_fields? hl' m)
        obtain ⟨m', hm', hkey'⟩ := List.mem_map.mp hmem
        exact h m' hm' hkey'
      have hnodup : (l.map Prod.fst ++ l'.map Prod.fst).Nodup ↔
          (l.map Prod.fst ++ key :: l'.map Prod.fst).Nodup := by
        have hmem : key ∉ (l ++ l').map Prod.fst := fun hmem ↦ by
          obtain ⟨m, hm, hkey'⟩ := List.mem_map.mp hmem
          exact hfresh m hm hkey'
        rw [List.perm_middle.nodup_iff, List.nodup_cons, ← List.map_append]
        exact (and_iff_right hmem).symm
      by_cases hn : (l.map Prod.fst ++ l'.map Prod.fst).Nodup
      · simp [Members.once?_nil, hn, hnodup.mp hn, Json.Shape.nameOf,
          specOf?_without hfresh (.blank hkey (.inl rfl) hblank)]
      · simp [Members.once?_nil, hn, mt hnodup.mpr hn, Json.Shape.nameOf]

theorem specOf?_short {key : String} {vs : List Source} {v : Source} (hkey : key ∈ listKeys)
    (h : fields[vs.length]? = some key) (hv : Blank v) :
    (record? (.arr vs)).bind specOf? = (record? (.arr (vs ++ [v]))).bind specOf? := by
  obtain ⟨item, -, hfind⟩ := find?_listKeys key hkey
  obtain ⟨j, hj, hblank⟩ := shaped?_blank item hv
  have hdrop := drop_fields h hfind
  rw [record?, record?, positional?_append, hdrop]
  cases hl : positional? (Json.Reader.maxDepth - 1) shape.fields vs with
  | none => rfl
  | some l =>
    have hnil : positional? (Json.Reader.maxDepth - 1) (shape.fields.drop (vs.length + 1)) [] =
        some [] := by
      rw [positional?]
    have hfresh : ∀ m ∈ l ++ [], m.1 ≠ key := ne_of_positional? hdrop hl hnil
    have hspec := specOf?_without hfresh (.blank hkey (.inl rfl) hblank)
    rw [List.append_nil] at hspec
    simp [positional?, hj, Json.Shape.nameOf, hspec]

theorem get?_stripInputOnly (stage : Members) (key : String) :
    (Stage.stripInputOnly stage).get? key =
      if key ∈ Stage.inputOnlyKeys then none else stage.get? key :=
  get?_filter_not_mem Stage.inputOnlyKeys stage key

theorem stripInputOnly_ofList {l l' : List (String × Json)} {key : String} {j : Json}
    (hkey : key ∈ Stage.inputOnlyKeys) :
    Stage.stripInputOnly (ofList (l ++ l')) =
      Stage.stripInputOnly (ofList (l ++ (key, j) :: l')) := by
  refine ((sorted_ofList _).filter _).ext ((sorted_ofList _).filter _) fun key' ↦ ?_
  have hget := get?_stripInputOnly (ofList (l ++ l')) key'
  have hget' := get?_stripInputOnly (ofList (l ++ (key, j) :: l')) key'
  refine hget.trans (Eq.trans ?_ hget'.symm)
  refine ite_congr rfl (fun _ ↦ rfl) fun hother ↦ ?_
  have hne : key ≠ key' := by
    rintro rfl
    exact hother hkey
  simp [hne]

theorem shaped?_stages (vs vs' : List Source) (ms : List (Option String × Source)) :
    (Source.arr (vs ++ .obj ms :: vs')).shaped? (Json.Reader.maxDepth - 1) (.list .map) =
      (shapedItems? (Json.Reader.maxDepth - 2) .map vs).bind fun js ↦
        (toMembers? stageDepth ms).bind fun l ↦
          (shapedItems? (Json.Reader.maxDepth - 2) .map vs').map fun js' ↦
            .arr (js ++ .obj (ofList l) :: js') := by
  have hstage : (Source.obj ms).shaped? (Json.Reader.maxDepth - 2) .map =
      (toMembers? stageDepth ms).map Json.ofMembers := rfl
  have hlist : (Source.arr (vs ++ .obj ms :: vs')).shaped? (Json.Reader.maxDepth - 1) (.list .map) =
      (shapedItems? (Json.Reader.maxDepth - 2) .map (vs ++ .obj ms :: vs')).map .arr := rfl
  rw [hlist, shapedItems?_append, Option.map_bind]
  refine Option.bind_congr fun js _ ↦ ?_
  rw [Function.comp, shapedItems?, hstage]
  cases toMembers? stageDepth ms with
  | none => rfl
  | some l => cases shapedItems? (Json.Reader.maxDepth - 2) .map vs' <;> rfl

theorem specOf?_inputOnly {key : String} {place : Source → Source} {vs vs' : List Source}
    {ms ms' : List (Option String × Source)} {v : Source} (hkey : key ∈ Stage.inputOnlyKeys)
    (h : Slot "stages" place) (hv : (v.toJson? stageDepth).isSome) :
    (record? (place (.arr (vs ++ .obj (ms ++ ms') :: vs')))).bind specOf? =
      (record? (place (.arr (vs ++ .obj (ms ++ (some key, v) :: ms') :: vs')))).bind specOf? := by
  obtain ⟨item, hitem, around, hfresh, hrecord⟩ := framed_slot h (by decide)
  obtain rfl := hitem rfl
  obtain ⟨j, hj⟩ := Option.isSome_iff_exists.mp hv
  have hmember : member? stageDepth (some key, v) = some (key, j) := by
    simp [member?, hj]
  rw [hrecord, hrecord, shaped?_stages, shaped?_stages, toMembers?_append, toMembers?_append,
    toMembers?_cons, hmember]
  cases shapedItems? (Json.Reader.maxDepth - 2) .map vs with
  | none => rfl
  | some js =>
    cases toMembers? stageDepth ms with
    | none => rfl
    | some l =>
      cases toMembers? stageDepth ms' with
      | none => rfl
      | some l' =>
        cases shapedItems? (Json.Reader.maxDepth - 2) .map vs' with
        | none => rfl
        | some js' =>
          cases around with
          | none => rfl
          | some p =>
            exact specOf?_around (hfresh p rfl) (.stage rfl (stripInputOnly_ofList hkey))

theorem normal_of_ofPlatform {payload : Text.Bytes} {p : Pipeline}
    (h : ofPlatform payload = .ok p) :
    p.Normal (Json.Reader.maxDepth - 2) ∧ p.toPlatform = p := by
  rw [ofPlatform, Except.mapError_eq_ok_iff, Except.map_eq_ok_iff] at h
  obtain ⟨q, hq, rfl⟩ := h
  obtain ⟨j, hj, hdecode⟩ := Except.bind_eq_ok_iff.mp hq
  have hparse := parse_eq shape (Text.received payload)
  rw [hj] at hparse
  obtain ⟨v, -, hv⟩ := Option.bind_eq_some_iff.mp hparse.symm
  have hwithin := within_shaped? hv
  rw [shaped?_eq] at hv
  obtain ⟨ms, -, rfl⟩ := Option.map_eq_some_iff.mp hv
  obtain ⟨-, n, hn, hms⟩ := hwithin.obj_inv
  obtain rfl : n = Json.Reader.maxDepth - 2 := by omega
  exact ⟨(normal_of_decode (by decide) hms hdecode).toPlatform, toPlatform_toPlatform q⟩

end Pipeline

theorem shaped?_undeclared {depth : Nat} {fields : List (List String × Shape)} {key : String}
    (h : (fields.find? fun f ↦ f.1.contains key) = none) (name : String)
    (ms ms' : List (Option String × Source)) (v : Source) :
    (Source.obj (ms ++ ms')).shaped? depth (.record name fields) =
      (Source.obj (ms ++ (some key, v) :: ms')).shaped? depth (.record name fields) := by
  rw [shaped?, shaped?, fields?_append, fields?_append, fields?_undeclared h]

namespace Spec

/-- What an edit changes is no part of the spec. -/
theorem ofSource?_edit {k : Kind} {v w : Source} (h : Edit k v w) :
    ofSource? v k = ofSource? w k := by
  cases h with
  | swap h => cases k <;> simp only [ofSource?, h.shaped?_eq]
  | @undeclared _ ms ms' key v h =>
    cases k with
    | application =>
      have hfind : Application.shape.fields.find? (fun f ↦ f.1.contains key) = none := by
        simpa [declared, Application.shape, Shape.fields] using h
      have hshape : Application.shape = .record "Application" Application.shape.fields := rfl
      rw [ofSource?, ofSource?, hshape, shaped?_undeclared hfind "Application" ms ms' v]
    | pipeline =>
      have hfind : Pipeline.shape.fields.find? (fun f ↦ f.1.contains key) = none := by
        simpa [declared, Pipeline.shape, Shape.fields, Pipeline.fields] using h
      have hshape : Pipeline.shape = .record "Pipeline" Pipeline.shape.fields := rfl
      rw [ofSource?, ofSource?, hshape, shaped?_undeclared hfind "Pipeline" ms ms' v]
  | blank hkey h hv hw =>
    rw [Pipeline.ofSource?_eq, Pipeline.ofSource?_eq]
    exact congrArg _ (Pipeline.specOf?_blank hkey h hv hw)
  | absent hkey h hv =>
    rw [Pipeline.ofSource?_eq, Pipeline.ofSource?_eq]
    exact congrArg _ (Pipeline.specOf?_absent hkey h hv)
  | short hkey h hv =>
    rw [Pipeline.ofSource?_eq, Pipeline.ofSource?_eq]
    exact congrArg _ (Pipeline.specOf?_short hkey h hv)
  | inputOnly hkey h hv =>
    rw [Pipeline.ofSource?_eq, Pipeline.ofSource?_eq]
    exact congrArg _ (Pipeline.specOf?_inputOnly hkey h hv)

theorem ofSource?_edited {k : Kind} {v w : Source} (h : Edited k v w) :
    ofSource? v k = ofSource? w k := by
  induction h with
  | refl => rfl
  | make h hw ih => exact ih.trans (ofSource?_edit hw)
  | undo h hw ih => exact ih.trans (ofSource?_edit hw).symm

def kind : Spec → Kind
  | application _ => .application
  | pipeline _ => .pipeline

/-- A spec as it is compared, whichever side it comes from. -/
def Normal (n : Nat) : Spec → Prop
  | application _ => True
  | pipeline p => p.Normal n ∧ p.toPlatform = p

theorem kind_of_ofPayload {payload : Text.Bytes} {k : Kind} {spec : Spec}
    (h : ofPayload payload k = .ok spec) : spec.kind = k := by
  cases k <;>
    obtain ⟨_, -, rfl⟩ := Except.map_eq_ok_iff.mp h <;>
    rfl

theorem normal_of_ofPayload {payload : Text.Bytes} {k : Kind} {spec : Spec}
    (h : ofPayload payload k = .ok spec) : spec.Normal (Json.Reader.maxDepth - 2) := by
  cases k with
  | application =>
    obtain ⟨a, -, rfl⟩ := Except.map_eq_ok_iff.mp h
    trivial
  | pipeline =>
    obtain ⟨p, hp, rfl⟩ := Except.map_eq_ok_iff.mp h
    exact Pipeline.normal_of_ofPlatform hp

theorem kind_ofCompiled (c : Compiled) : (ofCompiled c).kind = c.kind := by
  cases c <;> rfl

theorem normal_ofCompiled {n : Nat} {c : Compiled} (h : c.Normal n) : (ofCompiled c).Normal n := by
  cases c with
  | application m => trivial
  | pipeline m => exact ⟨Pipeline.Normal.toPlatform h, m.spec.toPlatform_toPlatform⟩

theorem canonicalText_ofCompiled (c : Compiled) :
    (ofCompiled c).toJson.canonicalText = c.canonicalText := by
  cases c <;> rfl

theorem ofPayload_canonicalText {n : Nat} {spec : Spec} (h : spec.Normal n) (hn : 1 ≤ n)
    (hn' : n + 1 < Json.Reader.maxDepth) (hi : spec.toJson.isIntegral = true) :
    ofPayload (Text.utf8String spec.toJson.canonicalText) spec.kind = .ok spec := by
  cases spec with
  | application a => exact Except.map_eq_ok_iff.mpr ⟨a, a.ofPlatform_canonicalText, rfl⟩
  | pipeline p =>
    obtain ⟨hnormal, hplatform⟩ := h
    have hread := Pipeline.ofPlatform_canonicalText hnormal hn hn' hi
    rw [hplatform] at hread
    exact Except.map_eq_ok_iff.mpr ⟨p, hread, rfl⟩

/-- Specs whose numbers are integers are told apart by their canonical texts. -/
theorem canonicalText_inj {n k : Nat} {spec spec' : Spec} (h : spec.Normal n) (hn : 1 ≤ n)
    (hn' : n + 1 < Json.Reader.maxDepth) (hi : spec.toJson.isIntegral = true)
    (h' : spec'.Normal k) (hk : 1 ≤ k) (hk' : k + 1 < Json.Reader.maxDepth)
    (hi' : spec'.toJson.isIntegral = true) (hkind : spec.kind = spec'.kind) :
    spec.toJson.canonicalText = spec'.toJson.canonicalText ↔ spec = spec' := by
  refine ⟨fun htext ↦ ?_, fun heq ↦ heq ▸ rfl⟩
  -- The one text is read back as both specs.
  have hread := ofPayload_canonicalText h hn hn' hi
  rw [htext, hkind, ofPayload_canonicalText h' hk hk' hi'] at hread
  exact (Except.ok.inj hread).symm

end Spec

end Manifest

end DeliveryCharts
