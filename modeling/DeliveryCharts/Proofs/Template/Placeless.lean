import DeliveryCharts.Proofs.Record
import DeliveryCharts.Template.Evaluate

/-!
Operations on values know no lines: what they fail with has no place yet.
-/

namespace DeliveryCharts.Template

variable {α β γ : Type} {f : Fault}

namespace Fault

@[simp]
theorem line_undefined : undefined.line = none := rfl

@[simp]
theorem line_missingArgument : missingArgument.line = none := rfl

@[simp]
theorem line_tooManyArguments : tooManyArguments.line = none := rfl

@[simp]
theorem line_invalid (reason : String) : (invalid reason).line = none := rfl

end Fault

/-- What it fails with has no place yet. -/
def Placeless (x : Except Fault α) : Prop := ∀ f, x = .error f → f.line = none

namespace Placeless

@[simp]
theorem ok (a : α) : Placeless (.ok a) := by
  rintro f ⟨⟩

@[simp]
theorem error_iff : Placeless (.error f : Except Fault α) ↔ f.line = none := by
  constructor
  · intro h
    exact h f rfl
  · rintro h f' ⟨⟩
    exact h

@[simp]
theorem throw_iff : Placeless (throw f : Except Fault α) ↔ f.line = none := error_iff

@[simp]
theorem pure (a : α) : Placeless (pure a : Except Fault α) := ok a

@[simp]
theorem bind_iff {x : Except Fault α} {k : α → Except Fault β} :
    Placeless (x >>= k) ↔ Placeless x ∧ ∀ a, x = .ok a → Placeless (k a) := by
  cases x with
  | error f => exact ⟨fun h ↦ ⟨fun f' hf ↦ h f' (by cases hf; rfl), nofun⟩,
      fun h f' hf ↦ h.1 f' (by cases hf; rfl)⟩
  | ok a => exact ⟨fun h ↦ ⟨ok a, fun _ ha ↦ by cases ha; exact h⟩, fun h ↦ h.2 a rfl⟩

@[simp]
theorem map_iff {x : Except Fault α} {g : α → β} : Placeless (x.map g) ↔ Placeless x := by
  cases x <;> simp [Except.map]

@[simp]
theorem fmap_iff {x : Except Fault α} {g : α → β} : Placeless (g <$> x) ↔ Placeless x := map_iff

theorem mapM {g : α → Except Fault β} (h : ∀ a, Placeless (g a)) (as : List α) :
    Placeless (as.mapM g) := by
  induction as with
  | nil => exact ok []
  | cons a as ih =>
    rw [List.mapM_cons]
    simp [h a, ih]

theorem foldlM {g : β → α → Except Fault β} (h : ∀ b a, Placeless (g b a)) (as : List α) (b : β) :
    Placeless (as.foldlM g b) := by
  induction as generalizing b with
  | nil => exact ok b
  | cons a as ih =>
    rw [List.foldlM_cons]
    simp [h b a, ih]

end Placeless

/-! Values. -/

namespace Value

variable (v w : Value)

@[simp]
theorem placeless_arithmetic (op : Operator) (ints : Int → Int → Option Int)
    (floats : Decimal.Binary64 → Decimal.Binary64 → Decimal.Binary64) :
    Placeless (arithmetic op ints floats v w) := by
  rw [arithmetic]
  repeat' split
  all_goals simp [uncomputable, unsupported]

theorem placeless_mul : Placeless (mul v w) := by
  rw [mul.eq_def]
  split
  all_goals simp only [Placeless.bind_iff, Placeless.pure, implies_true, and_true]
  case h_5 => exact placeless_arithmetic v w _ _ _
  all_goals split <;> simp

theorem placeless_apply (op : Operator) : Placeless (apply op v w) := by
  cases op with
  | add =>
    simp only [apply, add]
    split <;> simp
  | mul => exact placeless_mul v w
  | div =>
    simp only [apply, div]
    split <;> simp [unsupported]
  | floorDiv =>
    simp only [apply]
    split <;> simp [uncomputable]
  | member =>
    simp only [apply, contains]
    split <;> simp
  | sub | rem | pow | concat | eq | ne | lt | le | gt | ge => simp [apply]

theorem placeless_neg : Placeless v.neg := by
  rw [neg.eq_def]
  repeat' split
  all_goals simp

theorem placeless_bound : Placeless (bound v) := by
  rw [bound.eq_def]
  repeat' split
  all_goals simp

theorem placeless_slice (start stop step : Value) : Placeless (slice v start stop step) := by
  rw [slice]
  simp only [Placeless.bind_iff, placeless_bound, true_and]
  intro first _ last _ stride _
  split
  · simp
  · split <;> simp

@[simp]
theorem placeless_iterate : Placeless v.iterate := by
  rw [iterate]
  split <;> simp

theorem placeless_memberKey : Placeless (memberKey v) := by
  rw [memberKey.eq_def]
  repeat' split
  all_goals simp

mutual

theorem placeless_toJson : (v : Value) → Placeless v.toJson
  | undefined _ | none | bool _ | float _ | text _ _ | handle _ => by simp [toJson]
  | int z => by
    rw [toJson]
    split <;> simp
  | list items _ => by simp [toJson, placeless_toItems items]
  | map entries _ => by simp [toJson, placeless_toMembers [] entries]

theorem placeless_toItems : (vs : List Value) → Placeless (toItems vs)
  | [] => by simp [toItems]
  | v :: vs => by simp [toItems, placeless_toJson v, placeless_toItems vs]

theorem placeless_toMembers (members : Members) :
    (es : List (Value × Value)) → Placeless (toMembers members es)
  | [] => by simp [toMembers]
  | (k, v) :: es => by
    simp only [toMembers, Placeless.bind_iff, placeless_memberKey, placeless_toJson v, true_and]
    intro key _ j _
    exact placeless_toMembers _ es

end

end Value

/-! Arguments. -/

namespace Take

/-- Whatever the arguments are. -/
def Placeless (t : Take α) : Prop := ∀ mode args, Template.Placeless (t mode args)

namespace Placeless

theorem bind {t : Take α} {k : α → Take β} (ht : Placeless t) (hk : ∀ a, Placeless (k a)) :
    Placeless (t >>= k) := by
  intro mode args
  exact Template.Placeless.bind_iff.mpr ⟨ht mode args, fun p _ ↦ hk p.1 mode p.2⟩

theorem pure (a : α) : Placeless (pure a : Take α) := fun _ args ↦ .ok (a, args)

theorem throw (h : f.line = none) : Placeless (throw f : Take α) :=
  fun _ _ ↦ Template.Placeless.error_iff.mpr h

theorem lift {x : Except Fault α} (h : Template.Placeless x) : Placeless (x : Take α) := by
  intro mode args
  exact Template.Placeless.bind_iff.mpr ⟨h, fun a _ ↦ .ok (a, args)⟩

theorem read : Placeless (read : Take Mode) := fun mode args ↦ .ok (mode, args)

theorem get : Placeless (get : Take (List Value)) := fun _ args ↦ .ok (args, args)

theorem mapM {g : β → Take α} (h : ∀ b, Placeless (g b)) (bs : List β) :
    Placeless (bs.mapM g) := by
  induction bs with
  | nil => exact .pure []
  | cons b bs ih =>
    rw [List.mapM_cons]
    exact .bind (h b) fun a ↦ .bind ih fun as ↦ .pure (a :: as)

theorem filterM {g : β → Take Bool} (h : ∀ b, Placeless (g b)) (bs : List β) :
    Placeless (bs.filterM g) := by
  have hkept (bs kept : List β) : Placeless (bs.filterAuxM g kept) := by
    induction bs generalizing kept with
    | nil => exact .pure kept
    | cons b bs ih => exact .bind (h b) fun passed ↦ ih (cond passed (b :: kept) kept)
  exact .bind (hkept bs []) fun kept ↦ .pure kept.reverse

theorem fmap (g : α → β) {t : Take α} (h : Placeless t) : Placeless (g <$> t) :=
  .bind h fun a ↦ .pure (g a)

theorem set (args : List Value) : Placeless (set args : Take Unit) := fun _ _ ↦ .ok ((), args)

end Placeless

theorem placeless_next? : Placeless next? := by
  refine .bind .get fun args ↦ ?_
  cases args with
  | nil => exact .pure none
  | cons v args => exact .bind (.set args) fun _ ↦ .pure (some v)

theorem placeless_value : Placeless value := by
  refine .bind placeless_next? fun v? ↦ ?_
  cases v? with
  | none => exact .throw rfl
  | some v => exact .pure v

theorem placeless_checked (v : Value) : Placeless (checked v) := by
  refine .bind .read fun mode ↦ ?_
  split
  · exact .throw rfl
  · exact .pure ()

theorem placeless_convert {g : Value → Except Fault α} (h : ∀ v, Template.Placeless (g v)) :
    Placeless (convert g) := by
  refine .bind placeless_next? fun v? ↦ ?_
  cases v? with
  | none => exact .throw rfl
  | some v => exact .bind (placeless_checked v) fun _ ↦ .lift (h v)

theorem placeless_optional {g : Value → Except Fault α} (h : ∀ v, Template.Placeless (g v)) :
    Placeless (optional g) := by
  refine .bind placeless_next? fun v? ↦ ?_
  cases v? with
  | none => exact .pure none
  | some v =>
    refine .bind (placeless_checked v) fun _ ↦ ?_
    split
    · exact .pure none
    · exact .pure none
    · exact .bind (.lift (h v)) fun a ↦ .pure (some a)

theorem placeless_rest : Placeless rest :=
  .bind .get fun vs ↦ .bind (.set []) fun _ ↦ .pure vs

theorem placeless_named : Placeless named := by
  refine .bind .get fun vs ↦ ?_
  split
  · exact .bind (.set _) fun _ ↦ .pure _
  · exact .pure []

theorem placeless_done : Placeless done := by
  refine .bind .get fun vs ↦ ?_
  split
  · exact .throw rfl
  · exact .pure ()

theorem placeless_finish {x : Except Fault α} (h : Template.Placeless x) : Placeless (finish x) :=
  .bind placeless_done fun _ ↦ .lift h

theorem placeless_textOf (v : Value) : Template.Placeless (textOf v) := by
  rw [textOf.eq_def]
  split <;> simp

theorem placeless_natOf (v : Value) : Template.Placeless (natOf v) := by
  rw [natOf]
  split <;> simp [unconvertible]

theorem placeless_natBelow (type : String) (limit : Nat) (v : Value) :
    Template.Placeless (natBelow type limit v) := by
  rw [natBelow]
  split <;> simp [unconvertible]

theorem placeless_boolOf (v : Value) : Template.Placeless (boolOf v) := by
  rw [boolOf.eq_def]
  split <;> simp [unconvertible]

theorem placeless_text : Placeless text := placeless_convert placeless_textOf

theorem placeless_nat : Placeless nat := placeless_convert placeless_natOf

theorem placeless_anyOptional : Placeless anyOptional := placeless_optional .ok

theorem placeless_optionalText : Placeless (optional textOf) := placeless_optional placeless_textOf

theorem placeless_onlyNamed (entries : List (Value × Value)) (names : List String) :
    Template.Placeless (onlyNamed entries names) := by
  rw [onlyNamed]
  split <;> simp

theorem placeless_all {t : Take α} (h : Placeless t) (mode : Mode) (args : List Value) :
    Template.Placeless (all mode args t) := by
  have hdone : Placeless (do let a ← t; done; return a) :=
    .bind h fun a ↦ .bind placeless_done fun _ ↦ .pure a
  exact Template.Placeless.bind_iff.mpr ⟨hdone mode args, fun p _ ↦ .ok p.1⟩

end Take

/-! Tests. -/

namespace Test

open Template.Take (placeless_value placeless_text)

theorem placeless_single (p : Value → Bool) : (single p).Placeless :=
  .bind placeless_value fun _ ↦ .pure _

theorem placeless_pair (p : Value → Value → Bool) : (pair p).Placeless :=
  .bind placeless_value fun _ ↦ .bind placeless_value fun _ ↦ .pure _

theorem placeless_texts (p : List Char → List Char → Bool) : (texts p).Placeless :=
  .bind placeless_text fun _ ↦ .bind placeless_text fun _ ↦ .pure _

theorem placeless_compared {name : String} {t : Take Bool} (h : table.compared name = some t) :
    t.Placeless := by
  unfold table.compared at h
  repeat' split at h
  all_goals cases h
  all_goals exact placeless_pair _

theorem placeless_table {name : String} {t : Take Bool} (h : table name = some t) :
    t.Placeless := by
  unfold table at h
  split at h
  case h_26 => exact placeless_compared h
  all_goals cases h
  all_goals
    with_reducible first
    | exact placeless_single _
    | exact placeless_pair _
    | exact placeless_texts _
    | exact .bind placeless_text fun _ ↦ .pure _

theorem placeless_apply (mode : Mode) (name : String) (args : List Value) :
    Placeless (apply mode name args) := by
  rw [apply]
  split
  · rename_i t ht
    exact Take.placeless_all (placeless_table ht) mode args
  · simp

end Test

/-! Functions. -/

namespace Function

open Template.Take (placeless_value placeless_text placeless_rest placeless_anyOptional
  placeless_optional placeless_convert placeless_natBelow placeless_finish)

theorem placeless_fail (message : String) : Placeless (fail message) := by
  simp [fail]

theorem placeless_members (members : Members) (args : List Value) :
    Placeless (dict.members members args) := by
  induction members, args using dict.members.induct with
  | case1 members key safe v rest ih =>
    rw [dict.members]
    simp [Value.placeless_toJson, ih]
  | case2 members | case3 members => simp [dict.members, *]

theorem placeless_dict (args : List Value) : Placeless (dict args) := by
  rw [dict]
  split <;> simp [placeless_members]

theorem placeless_toint (v : Value) : Placeless (toint v) := by
  simp only [toint]
  repeat' split
  all_goals simp

theorem placeless_range (low : Nat) (high step : Option Nat) : Placeless (range low high step) := by
  simp only [range]
  repeat' split
  all_goals simp

theorem placeless_table {name : String} {t : Take Value} (h : table name = some t) :
    t.Placeless := by
  unfold table at h
  split at h
  all_goals cases h
  -- each function takes its arguments one by one, and then does what it does
  all_goals
    repeat' with_reducible first
      | refine .bind ?_ fun _ ↦ ?_
      | exact .pure _
      | exact placeless_value
      | exact placeless_text
      | exact placeless_rest
      | exact placeless_anyOptional
      | exact .lift (placeless_dict _)
      | exact placeless_convert (placeless_natBelow _ _)
      | exact placeless_optional (placeless_natBelow _ _)
      | exact placeless_finish (placeless_fail _)
      | exact placeless_finish (placeless_toint _)
      | exact placeless_finish (placeless_range _ _ _)

end Function

/-! Filters. -/

namespace Filter

open Template.Take (placeless_value placeless_text placeless_nat placeless_finish placeless_rest
  placeless_named placeless_anyOptional placeless_optional placeless_optionalText
  placeless_onlyNamed)

variable (mode : Mode) (v w : Value) (items : List Value) (entries : List (Value × Value))

theorem placeless_b64decode (s : String) : Placeless (b64decode s) := by
  rw [b64decode]
  repeat' split
  all_goals simp

theorem placeless_required (message : Option String) : Placeless (required v message) := by
  rw [required]
  repeat' split
  all_goals simp

theorem placeless_merge : Placeless (merge v w) := by
  simp [merge, Value.placeless_toJson]

theorem placeless_readFloat (s : String) : Placeless (readFloat s) := by
  simp only [readFloat]
  repeat' split
  all_goals simp

theorem placeless_int : Placeless (int v) := by
  rw [int.eq_def]
  repeat' split
  all_goals simp [placeless_readFloat]

theorem placeless_float : Placeless (float v) := by
  rw [float.eq_def]
  repeat' split
  all_goals simp [placeless_readFloat]

theorem placeless_abs : Placeless (abs v) := by
  rw [abs.eq_def]
  split <;> simp

theorem placeless_round (digits : Int) : Placeless (round v digits) := by
  rw [round.eq_def]
  split <;> simp

theorem placeless_int32 : Placeless (int32 v) := by
  rw [int32]
  split <;> simp [Take.unconvertible]

theorem placeless_int64 : Placeless (int64 v) := by
  rw [int64]
  split <;> simp [Take.unconvertible]

theorem placeless_length : Placeless (length v) := by
  rw [length]
  split <;> simp

theorem placeless_joined (separator : Option String) : Placeless (joined v separator) := by
  rw [joined]
  repeat' split
  all_goals simp

@[simp]
theorem placeless_itemsOf : Placeless (itemsOf mode v) := by
  rw [itemsOf.eq_def]
  repeat' split
  all_goals simp

theorem placeless_listItems : Placeless (listItems mode v) := by
  rw [listItems]
  cases itemsOf mode v <;> simp

theorem placeless_followPath (parts : List (List Char)) : Placeless (followPath parts v) := by
  induction parts generalizing v with
  | nil => simp [followPath]
  | cons part parts ih =>
    rw [followPath]
    split
    · simp
    · exact ih _

theorem placeless_path (dotted : String) : Placeless (path v dotted) := placeless_followPath v _

@[simp]
theorem placeless_flag (name : String) : Placeless (flag entries name) := by
  rw [flag]
  split
  · simp
  · exact Take.placeless_boolOf _

@[simp]
theorem placeless_string? (name : String) : Placeless (string? entries name) := by
  rw [string?]
  split <;> simp

theorem placeless_sort : Placeless (sort items entries) := by
  simp [sort, placeless_onlyNamed]

theorem placeless_items : Placeless (Filter.items v) := by
  rw [Filter.items.eq_def]
  split <;> simp [notPairs]

theorem placeless_dictsort : Placeless (dictsort v entries) := by
  rw [dictsort.eq_def]
  split
  · simp only [Placeless.bind_iff, placeless_string?, true_and]
    intro chosen _
    split <;> simp [placeless_onlyNamed]
  · simp [notPairs]

theorem placeless_unique : Placeless (unique items entries) := by
  simp [unique, placeless_onlyNamed]

theorem placeless_reverse : Placeless (reverse v) := by
  rw [reverse.eq_def]
  split <;> simp

theorem placeless_first : Placeless (first v) := by
  rw [first.eq_def]
  split <;> simp

theorem placeless_last : Placeless (last v) := by
  rw [last.eq_def]
  split <;> simp

theorem placeless_sum : Placeless (sum items) := by
  refine .foldlM (fun total v ↦ ?_) _ _
  split
  · simp
  split
  · exact Value.placeless_apply total _ .add
  · simp

theorem placeless_batch (count : Nat) (filler : Option Value) :
    Placeless (batch items count filler) := by
  rw [batch]
  split <;> simp

theorem placeless_columns (count : Nat) (filler : Option Value) :
    Placeless (columns items count filler) := by
  rw [columns]
  split <;> simp

theorem placeless_groupby (attr : String) : Placeless (groupby items attr entries) := by
  simp [groupby, placeless_onlyNamed]

/-! The tables. -/

theorem placeless_ofText (g : String → String) : Take.Placeless (ofText g) :=
  .bind placeless_text fun _ ↦ .pure _

theorem placeless_manifest {name : String} {t : Take Value} (h : manifest name = some t) :
    t.Placeless := by
  have htoyaml (v : Value) : Placeless (toyaml v) := by simp [toyaml, Value.placeless_toJson]
  have htojson (v : Value) : Placeless (tojson v) := by simp [tojson, Value.placeless_toJson]
  unfold manifest at h
  split at h
  all_goals cases h
  all_goals
    repeat' with_reducible first
      | refine .bind ?_ fun _ ↦ ?_
      | exact .pure _
      | exact placeless_ofText _
      | exact placeless_value
      | exact placeless_text
      | exact placeless_nat
      | exact placeless_optionalText
      | exact placeless_finish (htoyaml _)
      | exact placeless_finish (htojson _)
      | exact placeless_finish (placeless_b64decode _)
      | exact placeless_finish (placeless_required _ _)
      | exact placeless_finish (placeless_merge _ _)

theorem placeless_fallback : scalar.fallback.Placeless :=
  .bind placeless_value fun _ ↦ .bind placeless_anyOptional fun _ ↦
    .bind (placeless_optional Take.placeless_boolOf) fun _ ↦ .pure _

/-- The attribute of a value that may be undefined. -/
theorem placeless_attr (key : Value) : Placeless
    (if v.isUndefined then .error .undefined else .ok ((v.item? key).getD .missing)) := by
  split <;> simp

theorem placeless_scalar {name : String} {t : Take Value} (h : scalar name = some t) :
    t.Placeless := by
  unfold scalar at h
  split at h
  all_goals cases h
  all_goals
    repeat' with_reducible first
      | refine .bind ?_ fun _ ↦ ?_
      | exact .pure _
      | exact placeless_ofText _
      | exact placeless_fallback
      | exact placeless_value
      | exact placeless_text
      | exact placeless_optionalText
      | exact placeless_optional placeless_int32
      | exact placeless_optional placeless_int64
      | exact placeless_finish (placeless_int _)
      | exact placeless_finish (placeless_float _)
      | exact placeless_finish (placeless_abs _)
      | exact placeless_finish (placeless_round _ _)
      | exact placeless_finish (placeless_length _)
      | exact placeless_finish (placeless_attr _ _)
      | split

theorem placeless_takeItems : takeItems.Placeless :=
  .bind placeless_value fun v ↦ .bind .read fun mode ↦ placeless_finish (placeless_listItems mode v)

theorem placeless_takeLists : takeLists.Placeless :=
  .bind .read fun mode ↦ .bind placeless_rest fun vs ↦
    .mapM (fun v ↦ .lift (placeless_itemsOf mode v)) vs

theorem placeless_takeGroups {g : List Value → Nat → Option Value → Except Fault Value}
    (h : ∀ items count filler, Placeless (g items count filler)) : (takeGroups g).Placeless := by
  refine .bind .read fun mode ↦ .bind placeless_value fun v ↦ .bind placeless_nat fun count ↦
    .bind placeless_anyOptional fun filler ↦ placeless_finish ?_
  simp [h]

theorem placeless_collection {name : String} {t : Take Value} (h : collection name = some t) :
    t.Placeless := by
  have hunique (mode : Mode) (v : Value) (named : List (Value × Value)) :
      Placeless (do unique (← itemsOf mode v) named) := by
    simp [placeless_unique]
  have hsum (mode : Mode) (v : Value) : Placeless (do sum (← itemsOf mode v)) := by
    simp [placeless_sum]
  unfold collection at h
  split at h
  all_goals cases h
  all_goals
    repeat' with_reducible first
      | refine .bind ?_ fun _ ↦ ?_
      | exact .pure _
      | exact .read
      | exact placeless_value
      | exact placeless_named
      | exact placeless_optionalText
      | exact placeless_takeItems
      | exact placeless_takeLists
      | exact placeless_takeGroups placeless_batch
      | exact placeless_takeGroups placeless_columns
      | exact placeless_finish (placeless_dictsort _ _)
      | exact placeless_finish (placeless_items _)
      | exact placeless_finish (placeless_reverse _)
      | exact placeless_finish (placeless_joined _ _)
      | exact placeless_finish (placeless_first _)
      | exact placeless_finish (placeless_last _)
      | exact placeless_finish (placeless_sort _ _)
      | exact placeless_finish (hunique _ _ _)
      | exact placeless_finish (hsum _ _)
      | exact placeless_finish (by split <;> simp [placeless_groupby])

theorem placeless_table {name : String} {t : Take Value} (h : table name = some t) :
    t.Placeless := by
  rw [table] at h
  cases hmanifest : manifest name with
  | some t' =>
    rw [hmanifest] at h
    cases h
    exact placeless_manifest hmanifest
  | none =>
    cases hscalar : scalar name with
    | some t' =>
      rw [hmanifest, hscalar] at h
      cases h
      exact placeless_scalar hscalar
    | none =>
      rw [hmanifest, hscalar] at h
      exact placeless_collection h

theorem placeless_selection (keep byAttribute : Bool) : (selection keep byAttribute).Placeless := by
  unfold selection
  dsimp only
  repeat' with_reducible first
    | refine .bind ?_ fun _ ↦ ?_
    | refine .filterM (fun _ ↦ .lift ?_) _
    | exact .pure _
    | exact .throw rfl
    | exact .read
    | exact .fmap some placeless_text
    | exact placeless_value
    | exact placeless_optionalText
    | exact placeless_rest
    | exact .lift (placeless_itemsOf _ _)
    | split
  -- whether an item passes, by its attribute or by itself
  all_goals simp [placeless_path, Test.placeless_apply]

theorem placeless_attributes (attr : Value) : Placeless (attributes attr entries items) := by
  rw [attributes]
  simp only [Placeless.bind_iff, placeless_onlyNamed, Placeless.pure, implies_true, and_true]
  refine .mapM (fun item ↦ ?_) items
  split
  · simp
  · rename_i f hf
    have hline : f.line = none := by
      split at hf
      · exact placeless_path item _ f hf
      · exact placeless_attr item attr f hf
    split
    · exact Placeless.error_iff.mpr hline
    · simp

theorem placeless_applyTo_of {n : Nat} (ih : ∀ k < n, ∀ name args x,
    applyTo mode k name args = some x → Placeless x) {name : String} {args : List Value}
    {x : Except Fault Value} (h : applyTo mode n name args = some x) : Placeless x := by
  unfold applyTo at h
  split at h
  case h_5 k =>
    cases h
    refine Take.placeless_all (.bind placeless_value fun v ↦ .bind placeless_named fun named ↦
      .bind placeless_rest fun rest ↦ ?_) mode _
    dsimp only
    split
    · split
      · exact .bind (.throw rfl) fun _ ↦ .bind (.lift (placeless_itemsOf mode v)) fun items ↦
          .lift (placeless_attributes items named _)
      · exact .bind (.lift (placeless_itemsOf mode v)) fun items ↦
          .lift (placeless_attributes items named _)
    split
    · refine .bind (.lift (placeless_itemsOf mode v)) fun items ↦
        .bind (.mapM (fun item ↦ ?_) items) fun _ ↦ .pure _
      split
      · rename_i x hx
        exact .lift (ih k (Nat.lt_succ_self k) _ _ x hx)
      · exact .throw rfl
    · exact .throw rfl
    · exact .throw rfl
  case h_6 =>
    obtain ⟨t, ht, rfl⟩ := Option.map_eq_some_iff.mp h
    exact Take.placeless_all (placeless_table ht) mode _
  all_goals
    cases h
    exact Take.placeless_all (placeless_selection _ _) mode _

theorem placeless_applyTo (n : Nat) {name : String} {args : List Value} {x : Except Fault Value}
    (h : applyTo mode n name args = some x) : Placeless x := by
  induction n using Nat.strongRecOn generalizing name args x with
  | ind n ih => exact placeless_applyTo_of mode (fun k hk name args x hx ↦ ih k hk hx) h

theorem placeless_apply (name : String) (args : List Value) : Placeless (apply mode name args) := by
  rw [apply]
  split
  · rename_i x hx
    exact placeless_applyTo mode _ hx
  · simp

end Filter

/-! Procedures. -/

theorem placeless_matchParams (named : List (Value × Value)) (params : List String)
    (args : List Value) : Placeless (matchParams named params args) := by
  induction params generalizing args with
  | nil => cases args <;> simp [matchParams]
  | cons p params ih =>
    rw [matchParams]
    split <;> simp [ih]

theorem placeless_take (p : Procedure) (args : List Value) : Placeless (p.take args) := by
  simp only [Procedure.take]
  split
  · simp
  · simp only [Placeless.bind_iff, placeless_matchParams, true_and]
    intro values _
    split <;> simp

end DeliveryCharts.Template
