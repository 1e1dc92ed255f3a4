import DeliveryCharts.Proofs.Json.Members
import DeliveryCharts.Proofs.Json.Source

/-!
What the readers make of a text is what the text's tree says: the tree of values where the content
of a value matters, and the fields of a record where its form is known.
-/

namespace DeliveryCharts

/-- The members of a record whose fields are given in this order, each once. -/
def Members.once? : Members → List (String × Json) → Option Members
  | ms, [] => some ms
  | ms, (name, v) :: l => if ms.contains name then none else once? (ms.insert name v) l

namespace Json

open Text (Received)
open Reader
open Shape (nameOf)

namespace Source

theorem string_eq (s : Received) : (string s).toOption =
    (skipString s).toOption.bind fun rest ↦ (textAt s).map (·, rest) := by
  cases h : string s with
  | error e => simp [textAt, h, Except.toOption]
  | ok r =>
    obtain ⟨t, rest⟩ := r
    obtain ⟨⟨cs, rest⟩, hbody, ⟨⟩⟩ := Except.map_eq_ok_iff.mp h
    rw [textAt, h, skipString_of_stringBody hbody]
    rfl

theorem number_eq (negative : Bool) (s : Received) : (number negative s).toOption =
    (skipNumber s).toOption.bind fun rest ↦ (numberAt negative s).map fun n ↦ (n.1, rest) := by
  unfold numberAt
  split
  case h_1 n rest h =>
    have hok := Except.toOption_eq_some_iff.mpr h
    rw [hok, skipNumber_of_number h]
    rfl
  case h_2 e h =>
    rw [h]
    cases skipNumber s <;> rfl

mutual

/-- The tree of values, if it has at most `depth` levels and each number and each text is one. -/
def toJson? : Nat → Source → Option Json
  | _, null => some .null
  | _, bool b => some (.bool b)
  | _, num n => n.map fun n ↦ .num n.1
  | _, str s => s.map .str
  | depth, arr vs => if depth ≤ 1 then none else (toItems? (depth - 1) vs).map .arr
  | depth, obj ms => if depth ≤ 1 then none else (toMembers? (depth - 1) ms).map .ofMembers

def toItems? : Nat → List Source → Option (List Json)
  | _, [] => some []
  | depth, v :: vs => do return (← toJson? depth v) :: (← toItems? depth vs)

def toMembers? : Nat → List (Option String × Source) → Option (List (String × Json))
  | _, [] => some []
  | depth, (key, v) :: ms => do return (← key, ← toJson? depth v) :: (← toMembers? depth ms)

end

theorem bind_next {α : Type} (s : Received) (f : Source × Received → Option α) :
    (next s).bind f =
      match lead s with
      | some (.scalar v rest) => f (v, rest)
      | some (.list rest) => (nextItems true rest).bind fun r ↦ f (.arr r.1, r.2)
      | some (.object rest) => (nextMembers true rest).bind fun r ↦ f (.obj r.1, r.2)
      | none => none := by
  cases hlead : lead s with
  | none => rw [next_none hlead, Option.bind_none]
  | some l =>
    cases l with
    | scalar v rest => rw [next_scalar hlead, Option.bind_some]
    | list rest =>
      rw [next_list hlead, Option.bind_map]
      rfl
    | object rest =>
      rw [next_object hlead, Option.bind_map]
      rfl

/-- What is nested is read a level deeper, unless there is none. -/
theorem nested_eq {β γ : Type} {depth : Nat} {read : Option (γ × Received)}
    {others : Option (β × Received)} {tree : β × Received → Option γ}
    (h : read = others.bind fun r ↦ (tree r).map (·, r.2)) :
    (if depth ≤ 1 then none else read) =
      others.bind fun r ↦ (if depth ≤ 1 then none else tree r).map (·, r.2) := by
  by_cases hd : depth ≤ 1
  · simp [hd]
  · simp only [hd, ↓reduceIte, h]

/-- Where a value is read as its tree says, a reader goes on as the tree of the rest says. -/
theorem bind_next_eq {α β γ : Type} {s : Received} {read : Option (α × Received)}
    {tree : Source → Option α} {more : α × Received → Option γ}
    {others : Source × Received → Option β} {join : Source × Received → β → Option γ}
    (hread : read = (next s).bind fun r ↦ (tree r.1).map (·, r.2))
    (hnone : ∀ r q, tree r.1 = none → join r q = none)
    (hsome : ∀ a r, next s = some r → tree r.1 = some a →
      more (a, r.2) = (others r).bind (join r)) :
    read.bind more = (next s).bind fun r ↦ (others r).bind (join r) := by
  rw [hread, Option.bind_assoc]
  refine Option.bind_congr fun r hr ↦ ?_
  cases htree : tree r.1 with
  | none => exact (Option.bind_eq_none_iff.mpr fun q _ ↦ hnone r q htree).symm
  | some a => exact hsome a r hr htree

theorem value_succ (fuel depth : Nat) (s : Received) : (value (fuel + 1) depth s).toOption =
    match lead s with
    | some (.scalar v rest) => (v.toJson? depth).map (·, rest)
    | some (.list rest) => if depth ≤ 1 then none
      else (items fuel (depth - 1) true rest).toOption.map fun r ↦ (.arr r.1, r.2)
    | some (.object rest) => if depth ≤ 1 then none
      else (members fuel (depth - 1) true [] rest).toOption.map fun r ↦ (.obj r.1, r.2)
    | none => none := by
  unfold value lead
  generalize skipSpace s = t
  split
  case h_1 => rfl
  case h_2 s =>
    simp only [Except.toOption_map]
    cases word ['u', 'l', 'l'] s <;> rfl
  case h_3 s =>
    simp only [Except.toOption_map]
    cases word ['r', 'u', 'e'] s <;> rfl
  case h_4 s =>
    simp only [Except.toOption_map]
    cases word ['a', 'l', 's', 'e'] s <;> rfl
  case h_5 s =>
    simp only [Except.toOption_map, string_eq]
    cases skipString s with
    | error e => rfl
    | ok rest => cases textAt s <;> simp [toJson?]
  case h_6 s =>
    simp only [Except.toOption_map, number_eq]
    cases skipNumber s with
    | error e => rfl
    | ok rest => cases numberAt true s <;> simp [toJson?]
  case h_7 s => by_cases h : depth ≤ 1 <;> simp [h]
  case h_8 s => by_cases h : depth ≤ 1 <;> simp [h]
  case h_9 c s _ _ _ _ _ _ _ =>
    by_cases hc : Text.isDigit c = true
    · simp only [hc, ↓reduceIte, Except.toOption_map, number_eq]
      cases skipNumber (some c :: s) with
      | error e => rfl
      | ok rest => cases numberAt false (some c :: s) <;> simp [toJson?]
    · simp [hc]
  case h_10 => rfl

theorem value_skipSpace (fuel depth : Nat) (s : Received) :
    value fuel depth (skipSpace s) = value fuel depth s := by
  cases fuel with
  | zero => rfl
  | succ fuel => rw [value, value, skipSpace_skipSpace]

mutual

theorem value_eq {fuel depth : Nat} {s : Received} (h : 2 * s.length < fuel) :
    (value fuel depth s).toOption = (next s).bind fun r ↦ (r.1.toJson? depth).map (·, r.2) := by
  -- A value and the look in front of the next one take a step each, and a character at least.
  cases fuel with
  | zero => omega
  | succ fuel =>
    rw [value_succ, bind_next]
    cases hlead : lead s with
    | none => rfl
    | some l =>
      have hrest := length_lead hlead
      cases l with
      | scalar v rest => rfl
      | list rest =>
        simp only [Lead.rest] at hrest
        simp only [toJson?]
        refine nested_eq ?_
        rw [items_eq (by omega), Option.map_bind]
        refine Option.bind_congr fun r _ ↦ ?_
        simp [Function.comp_def]
      | object rest =>
        simp only [Lead.rest] at hrest
        simp only [toJson?]
        refine nested_eq ?_
        rw [members_eq (by omega), Option.map_bind]
        refine Option.bind_congr fun r _ ↦ ?_
        simp [Function.comp_def, ofMembers, Members.ofList]

theorem items_eq {fuel depth : Nat} {first : Bool} {s : Received}
    (h : 2 * s.length + 1 < fuel) : (items fuel depth first s).toOption =
      (nextItems first s).bind fun r ↦ (toItems? depth r.1).map (·, r.2) := by
  cases fuel with
  | zero => omega
  | succ fuel =>
    rw [items, Except.toOption_bind, nextItems_eq, Option.bind_eq_bind, Option.bind_assoc]
    refine Option.bind_congr fun p hp ↦ ?_
    obtain ⟨more, t⟩ := p
    have ht : t.length ≤ s.length := (length_nextItem (Except.toOption_eq_some_iff.mp hp)).1
    cases more with
    | false => rfl
    | true =>
      simp only [Bool.not_true, Bool.false_eq_true, ↓reduceIte, Except.toOption_bind,
        Option.bind_eq_bind, Option.bind_assoc]
      refine bind_next_eq (value_eq (by omega)) (fun v vs hj ↦ by simp [toItems?, hj])
        fun j v hv hj ↦ ?_
      have hlt := length_read hv
      dsimp only
      rw [items_eq (by omega), Option.bind_assoc]
      refine Option.bind_congr fun vs _ ↦ ?_
      cases hvs : toItems? depth vs.1 <;> simp [toItems?, hj, hvs, pure, Except.pure]

theorem members_eq {fuel depth : Nat} {first : Bool} {ms : Members} {s : Received}
    (h : 2 * s.length + 1 < fuel) : (members fuel depth first ms s).toOption =
      (nextMembers first s).bind fun r ↦ (toMembers? depth r.1).map fun l ↦
        (l.foldl (fun ms m ↦ ms.insert m.1 m.2) ms, r.2) := by
  cases fuel with
  | zero => omega
  | succ fuel =>
    rw [members, Except.toOption_bind, nextMembers_eq, Option.bind_eq_bind, Option.bind_assoc]
    refine Option.bind_congr fun p hp ↦ ?_
    obtain ⟨more, t⟩ := p
    have ht : t.length < s.length := length_nextKey (Except.toOption_eq_some_iff.mp hp)
    cases more with
    | false => rfl
    | true =>
      simp only [Bool.not_true, Bool.false_eq_true, ↓reduceIte, Except.toOption_bind, string_eq,
        Option.bind_eq_bind, Option.bind_assoc]
      refine Option.bind_congr fun u hu ↦ ?_
      have hkey := length_skipString (Except.toOption_eq_some_iff.mp hu)
      cases htext : textAt t with
      | none => simp [toMembers?]
      | some key =>
        simp only [Option.map_some, Option.bind_some]
        refine Option.bind_congr fun w hw ↦ ?_
        have hcolon := length_colon (Except.toOption_eq_some_iff.mp hw)
        refine bind_next_eq (value_eq (by omega)) (fun v vs hj ↦ by simp [toMembers?, hj])
          fun j v hv hj ↦ ?_
        have hlt := length_read hv
        dsimp only
        rw [members_eq (by omega)]
        refine Option.bind_congr fun vs _ ↦ ?_
        cases hvs : toMembers? depth vs.1 <;> simp [toMembers?, hj, hvs]

end

mutual

/-- The tree of a value of this shape, with at most `depth` levels. -/
def shaped? : Nat → Shape → Source → Option Json
  | depth, .whole check, v => do
    let j ← v.toJson? depth
    (check j).toOption
    return j
  | _, .list _, .null => some .null
  | depth, .list item, .arr vs =>
    if depth ≤ 1 then none else (shapedItems? (depth - 1) item vs).map .arr
  | depth, .map, .obj ms => (obj ms).toJson? depth
  | depth, .record _ fields, .obj ms =>
    if depth ≤ 1 then none
    else ((fields? (depth - 1) fields ms).bind (Members.once? [])).map .obj
  | depth, .record _ fields, .arr vs =>
    if depth ≤ 1 then none else (positional? (depth - 1) fields vs).map .ofMembers
  | _, _, _ => none

def shapedItems? : Nat → Shape → List Source → Option (List Json)
  | _, _, [] => some []
  | depth, item, v :: vs => do
    return (← shaped? depth item v) :: (← shapedItems? depth item vs)

/-- The fields among some members, under their names. -/
def fields? : Nat → List (List String × Shape) → List (Option String × Source) →
    Option (List (String × Json))
  | _, _, [] => some []
  | depth, fields, (key, v) :: ms => do
    let key ← key
    match fields.find? fun f ↦ f.1.contains key with
    | none => fields? depth fields ms
    | some f => return (nameOf f.1, ← shaped? depth f.2 v) :: (← fields? depth fields ms)

def positional? : Nat → List (List String × Shape) → List Source → Option (List (String × Json))
  | _, _, [] => some []
  | _, [], _ :: _ => none
  | depth, f :: fields, v :: vs => do
    return (nameOf f.1, ← shaped? depth f.2 v) :: (← positional? depth fields vs)

end

section

variable {depth : Nat} {fields : List (List String × Shape)} {key : String} {v : Source}
  {ms : List (Option String × Source)}

theorem fields?_undeclared (h : (fields.find? fun f ↦ f.1.contains key) = none) :
    fields? depth fields ((some key, v) :: ms) = fields? depth fields ms := by
  simp only [fields?, Option.bind_eq_bind, Option.bind_some, h]

theorem fields?_declared {f : List String × Shape}
    (h : (fields.find? fun f ↦ f.1.contains key) = some f) :
    fields? depth fields ((some key, v) :: ms) =
      (shaped? depth f.2 v).bind fun j ↦
        (fields? depth fields ms).map ((nameOf f.1, j) :: ·) := by
  simp only [fields?, Option.bind_eq_bind, Option.bind_some, h]
  refine Option.bind_congr fun j _ ↦ ?_
  cases fields? depth fields ms <;> rfl

end

theorem once?_declared {fields : List (List String × Shape)} {key : String}
    {f : List String × Shape} (h : (fields.find? fun f ↦ f.1.contains key) = some f)
    (ms' : Members) (depth : Nat) (v : Source) (ms : List (Option String × Source)) :
    (fields? depth fields ((some key, v) :: ms)).bind (Members.once? ms') =
      if ms'.contains (nameOf f.1) then none
      else (shaped? depth f.2 v).bind fun j ↦
        (fields? depth fields ms).bind (Members.once? (ms'.insert (nameOf f.1) j)) := by
  rw [fields?_declared h]
  cases shaped? depth f.2 v with
  | none => cases ms'.contains (nameOf f.1) <;> rfl
  | some j =>
    cases fields? depth fields ms with
    | none => cases ms'.contains (nameOf f.1) <;> rfl
    | some l => simp [Members.once?]

/-- A list for a record without fields is empty. -/
theorem closeList_eq (depth : Nat) (first : Bool) (s : Received) :
    (Shape.closeList s).toOption =
      (nextItems first s).bind fun r ↦ (positional? depth [] r.1).map fun _ ↦ r.2 := by
  have hitems (t : Received) :
      ((itemsFrom t).bind fun r ↦ (positional? depth [] r.1).map fun _ ↦ r.2) = none := by
    cases ht : itemsFrom t with
    | none => rfl
    | some r =>
      simp only [itemsFrom, Option.bind_eq_bind, Option.bind_eq_some_iff] at ht
      obtain ⟨v, -, vs, -, ⟨⟩⟩ := ht
      rfl
  rw [Shape.closeList]
  split
  case h_2 t hs =>
    rw [nextItems_end hs]
    rfl
  case h_1 hs =>
    cases first with
    | true => rw [nextItems_first (by simp [hs]), hitems, Except.toOption_error]
    | false =>
      rw [nextItems_stop (by simp [hs]) (by simp [hs])]
      rfl
  case h_3 t hs =>
    have hnone : (nextItems first s).bind
        (fun r ↦ (positional? depth [] r.1).map fun _ ↦ r.2) = none := by
      cases first with
      | true => rw [nextItems_first (by simp [hs]), hitems]
      | false => rw [nextItems_comma hs, hitems]
    rw [hnone]
    split <;> rfl
  case h_4 hnil hend hcomma =>
    cases first with
    | true => rw [nextItems_first hend, hitems, Except.toOption_error]
    | false =>
      rw [nextItems_stop hend hcomma]
      rfl

def isPlain : Source → Bool
  | bool _ | num _ | str _ => true
  | _ => false

theorem lead_cases (s : Received) :
    (∃ t, skipSpace s = some 'n' :: t ∧
      lead s = (word ['u', 'l', 'l'] t).toOption.map (.scalar .null)) ∨
    (∃ t, skipSpace s = some '[' :: t ∧ lead s = some (.list t)) ∨
    (∃ t, skipSpace s = some '\x7b' :: t ∧ lead s = some (.object t)) ∨
    ((∀ t, skipSpace s ≠ some 'n' :: t) ∧ (∀ t, skipSpace s ≠ some '[' :: t) ∧
      (∀ t, skipSpace s ≠ some '\x7b' :: t) ∧
      ∀ l, lead s = some l → ∃ v rest, l = .scalar v rest ∧ v.isPlain = true) := by
  have hscalar {v : Source} {x : Except TextFault Received} (hv : v.isPlain = true) (l : Lead)
      (h : x.toOption.map (Lead.scalar v) = some l) :
      ∃ v rest, l = .scalar v rest ∧ v.isPlain = true := by
    obtain ⟨rest, -, rfl⟩ := Option.map_eq_some_iff.mp h
    exact ⟨v, rest, rfl, hv⟩
  unfold lead
  generalize skipSpace s = t
  split
  case h_1 t => exact .inl ⟨t, rfl, rfl⟩
  case h_6 t => exact .inr (.inl ⟨t, rfl, rfl⟩)
  case h_7 t => exact .inr (.inr (.inl ⟨t, rfl, rfl⟩))
  case h_8 c t hn _ _ _ _ hlist hobject =>
    refine .inr (.inr (.inr ⟨?_, ?_, ?_, fun l hl ↦ ?_⟩))
    · rintro u ⟨⟩
      exact hn rfl
    · rintro u ⟨⟩
      exact hlist rfl
    · rintro u ⟨⟩
      exact hobject rfl
    · split at hl
      · exact hscalar rfl l hl
      · cases hl
  case h_9 hn _ _ _ _ hlist hobject _ => exact .inr (.inr (.inr ⟨hn, hlist, hobject, nofun⟩))
  all_goals exact .inr (.inr (.inr ⟨nofun, nofun, nofun, hscalar rfl⟩))

theorem shaped?_of_isPlain {depth : Nat} {v : Source} (hv : v.isPlain = true) :
    (∀ item, shaped? depth (.list item) v = none) ∧ shaped? depth .map v = none ∧
      ∀ name fields, shaped? depth (.record name fields) v = none := by
  cases v with
  | bool b => exact ⟨fun _ ↦ rfl, rfl, fun _ _ ↦ rfl⟩
  | num n => exact ⟨fun _ ↦ rfl, rfl, fun _ _ ↦ rfl⟩
  | str s => exact ⟨fun _ ↦ rfl, rfl, fun _ _ ↦ rfl⟩
  | null | arr | obj => cases hv

section

variable (fuel depth : Nat) (s : Received)

theorem read_list (item : Shape) : (Shape.read (fuel + 1) depth (.list item) s).toOption =
    match lead s with
    | some (.scalar v rest) => (v.shaped? depth (.list item)).map (·, rest)
    | some (.list rest) => if depth ≤ 1 then none
      else (Shape.readItems fuel (depth - 1) item true rest).toOption.map fun r ↦ (.arr r.1, r.2)
    | _ => none := by
  rcases lead_cases s with
    ⟨t, hs, hlead⟩ | ⟨t, hs, hlead⟩ | ⟨t, hs, hlead⟩ | ⟨hnull, hlist, -, hplain⟩
  · simp only [Shape.read, hs, hlead, Shape.lift, Except.toOption_mapError, Except.toOption_map]
    cases word ['u', 'l', 'l'] t <;> rfl
  · simp only [Shape.read, hs, hlead]
    by_cases hd : depth ≤ 1
    · simp only [hd, ↓reduceIte, Except.toOption_error]
    · simp only [hd, ↓reduceIte, Except.toOption_bind]
      exact Option.map_eq_bind.symm
  · simp only [Shape.read, hs, hlead]
    rfl
  · have hread : (Shape.read (fuel + 1) depth (.list item) s).toOption = none := by
      rw [Shape.read]
      split
      case h_1 => rfl
      case h_2 t heq => exact absurd heq (hnull t)
      case h_3 t heq => exact absurd heq (hlist t)
      case h_4 => rfl
    rw [hread]
    cases hlead : lead s with
    | none => rfl
    | some l =>
      obtain ⟨v, rest, rfl, hv⟩ := hplain l hlead
      simp [(shaped?_of_isPlain hv).1]

theorem read_map : (Shape.read (fuel + 1) depth .map s).toOption =
    match lead s with
    | some (.scalar v rest) => (v.shaped? depth .map).map (·, rest)
    | some (.object _) => (value fuel depth s).toOption
    | _ => none := by
  rcases lead_cases s with
    ⟨t, hs, hlead⟩ | ⟨t, hs, hlead⟩ | ⟨t, hs, hlead⟩ | ⟨-, -, hobject, hplain⟩
  · simp only [Shape.read, hs, hlead]
    cases word ['u', 'l', 'l'] t <;> rfl
  · simp only [Shape.read, hs, hlead]
    rfl
  · simp only [Shape.read, hs, hlead, Shape.lift, Except.toOption_mapError]
    rw [← hs, value_skipSpace]
  · have hread : (Shape.read (fuel + 1) depth .map s).toOption = none := by
      rw [Shape.read]
      split
      case h_1 => rfl
      case h_2 t heq => exact absurd heq (hobject t)
      case h_3 => rfl
    rw [hread]
    cases hlead : lead s with
    | none => rfl
    | some l =>
      obtain ⟨v, rest, rfl, hv⟩ := hplain l hlead
      simp [(shaped?_of_isPlain hv).2.1]

theorem read_record (name : String) (fields : List (List String × Shape)) :
    (Shape.read (fuel + 1) depth (.record name fields) s).toOption =
      match lead s with
      | some (.scalar v rest) => (v.shaped? depth (.record name fields)).map (·, rest)
      | some (.list rest) => if depth ≤ 1 then none
        else (Shape.readPositional fuel (depth - 1) fields true [] rest).toOption.map fun r ↦
          (.obj r.1, r.2)
      | some (.object rest) => if depth ≤ 1 then none
        else (Shape.readMembers fuel (depth - 1) fields true [] rest).toOption.map fun r ↦
          (.obj r.1, r.2)
      | _ => none := by
  rcases lead_cases s with
    ⟨t, hs, hlead⟩ | ⟨t, hs, hlead⟩ | ⟨t, hs, hlead⟩ | ⟨-, hlist, hobject, hplain⟩
  · simp only [Shape.read, hs, hlead]
    cases word ['u', 'l', 'l'] t <;> rfl
  · simp only [Shape.read, hs, hlead]
    by_cases hd : depth ≤ 1
    · simp only [hd, ↓reduceIte, Except.toOption_error]
    · simp only [hd, ↓reduceIte, Except.toOption_bind]
      exact Option.map_eq_bind.symm
  · simp only [Shape.read, hs, hlead]
    by_cases hd : depth ≤ 1
    · simp only [hd, ↓reduceIte, Except.toOption_error]
    · simp only [hd, ↓reduceIte, Except.toOption_bind]
      exact Option.map_eq_bind.symm
  · have hread : (Shape.read (fuel + 1) depth (.record name fields) s).toOption = none := by
      rw [Shape.read]
      split
      case h_1 => rfl
      case h_2 t heq => exact absurd heq (hobject t)
      case h_3 t heq => exact absurd heq (hlist t)
      case h_4 => rfl
    rw [hread]
    cases hlead : lead s with
    | none => rfl
    | some l =>
      obtain ⟨v, rest, rfl, hv⟩ := hplain l hlead
      simp [(shaped?_of_isPlain hv).2.2]

end

mutual

theorem read_eq {fuel depth : Nat} {shape : Shape} {s : Received} (h : 2 * s.length + 1 < fuel) :
    (Shape.read fuel depth shape s).toOption =
      (next s).bind fun r ↦ (r.1.shaped? depth shape).map (·, r.2) := by
  cases fuel with
  | zero => omega
  | succ fuel =>
    cases shape with
    | whole check =>
      rw [Shape.read, Except.toOption_bind, Shape.lift, Except.toOption_mapError,
        value_eq (by omega), Option.bind_assoc]
      refine Option.bind_congr fun r _ ↦ ?_
      simp only [shaped?]
      cases r.1.toJson? depth with
      | none => rfl
      | some j =>
        simp only [Option.map_some, Option.bind_some]
        cases hc : check j <;> simp [hc, pure, Except.pure]
    | list item =>
      rw [read_list, bind_next]
      cases hlead : lead s with
      | none => rfl
      | some l =>
        cases l with
        | scalar v rest => rfl
        | list rest =>
          have hrest : rest.length < s.length := length_lead hlead
          simp only [shaped?]
          refine nested_eq ?_
          rw [readItems_eq (by omega), Option.map_bind]
          refine Option.bind_congr fun r _ ↦ ?_
          simp [Function.comp_def]
        | object rest => simp [shaped?]
    | map =>
      rw [read_map, bind_next]
      cases hlead : lead s with
      | none => rfl
      | some l =>
        cases l with
        | scalar v rest => rfl
        | list rest => simp [shaped?]
        | object rest =>
          rw [value_eq (by omega), bind_next, hlead]
          rfl
    | record name fields =>
      rw [read_record, bind_next]
      cases hlead : lead s with
      | none => rfl
      | some l =>
        cases l with
        | scalar v rest => rfl
        | list rest =>
          have hrest : rest.length < s.length := length_lead hlead
          simp only [shaped?]
          refine nested_eq ?_
          rw [readPositional_eq (by omega), Option.map_bind]
          refine Option.bind_congr fun r _ ↦ ?_
          simp [Function.comp_def, ofMembers, Members.ofList]
        | object rest =>
          have hrest : rest.length < s.length := length_lead hlead
          simp only [shaped?]
          refine nested_eq ?_
          rw [readMembers_eq (by omega), Option.map_bind]
          refine Option.bind_congr fun r _ ↦ ?_
          simp [Option.map_bind, Function.comp_def]

theorem readItems_eq {fuel depth : Nat} {item : Shape} {first : Bool} {s : Received}
    (h : 2 * s.length + 2 < fuel) :
    (Shape.readItems fuel depth item first s).toOption =
      (nextItems first s).bind fun r ↦ (shapedItems? depth item r.1).map (·, r.2) := by
  cases fuel with
  | zero => omega
  | succ fuel =>
    rw [Shape.readItems, Except.toOption_bind, nextItems_eq, Option.bind_eq_bind,
      Option.bind_assoc, Shape.lift, Except.toOption_mapError]
    refine Option.bind_congr fun p hp ↦ ?_
    obtain ⟨more, t⟩ := p
    have ht : t.length ≤ s.length := (length_nextItem (Except.toOption_eq_some_iff.mp hp)).1
    cases more with
    | false => rfl
    | true =>
      simp only [Bool.not_true, Bool.false_eq_true, ↓reduceIte, Except.toOption_bind,
        Option.bind_eq_bind, Option.bind_assoc]
      refine bind_next_eq (read_eq (by omega)) (fun v vs hj ↦ by simp [shapedItems?, hj])
        fun j v hv hj ↦ ?_
      have hlt := length_read hv
      dsimp only
      rw [readItems_eq (by omega), Option.bind_assoc]
      refine Option.bind_congr fun vs _ ↦ ?_
      cases hvs : shapedItems? depth item vs.1 <;>
        simp [shapedItems?, hj, hvs, pure, Except.pure]

theorem readMembers_eq {fuel depth : Nat} {fields : List (List String × Shape)} {first : Bool}
    {ms : Members} {s : Received} (h : 2 * s.length + 2 < fuel) :
    (Shape.readMembers fuel depth fields first ms s).toOption =
      (nextMembers first s).bind fun r ↦
        ((fields? depth fields r.1).bind (Members.once? ms)).map (·, r.2) := by
  cases fuel with
  | zero => omega
  | succ fuel =>
    rw [Shape.readMembers, Except.toOption_bind, nextMembers_eq, Option.bind_eq_bind,
      Option.bind_assoc, Shape.lift, Except.toOption_mapError]
    refine Option.bind_congr fun p hp ↦ ?_
    obtain ⟨more, t⟩ := p
    have ht : t.length < s.length := length_nextKey (Except.toOption_eq_some_iff.mp hp)
    cases more with
    | false => rfl
    | true =>
      simp only [Bool.not_true, Bool.false_eq_true, ↓reduceIte, Except.toOption_bind, string_eq,
        Shape.lift, Except.toOption_mapError, Option.bind_eq_bind, Option.bind_assoc]
      refine Option.bind_congr fun u hu ↦ ?_
      have hkey := length_skipString (Except.toOption_eq_some_iff.mp hu)
      cases htext : textAt t with
      | none => simp [fields?]
      | some key =>
        simp only [Option.map_some, Option.bind_some]
        cases hfield : fields.find? fun f ↦ f.1.contains key with
        | none =>
          simp only [Except.toOption_bind, Except.toOption_mapError]
          refine Option.bind_congr fun w hw ↦ ?_
          have hcolon := length_colon (Except.toOption_eq_some_iff.mp hw)
          rw [skipValue_eq (by omega), Option.bind_map]
          refine Option.bind_congr fun v hv ↦ ?_
          have hlt := length_read hv
          rw [Function.comp, readMembers_eq (by omega)]
          refine Option.bind_congr fun r _ ↦ ?_
          rw [← fields?_undeclared hfield]
          rfl
        | some f =>
          cases hdup : ms.contains (nameOf f.1) with
          | true =>
            -- The reader refuses a repeated field at once, and the tree's fields are refused later.
            simp only [hdup, ↓reduceIte, Except.toOption_error]
            refine (Option.bind_eq_none_iff.mpr fun w _ ↦ Option.bind_eq_none_iff.mpr fun v _ ↦
              Option.bind_eq_none_iff.mpr fun r _ ↦ ?_).symm
            have hnone := once?_declared hfield ms depth v.1 r.1
            rw [if_pos hdup] at hnone
            exact Option.map_eq_none_iff.mpr hnone
          | false =>
            simp only [hdup, Bool.false_eq_true, ↓reduceIte, Except.toOption_bind,
              Except.toOption_mapError]
            refine Option.bind_congr fun w hw ↦ ?_
            have hcolon := length_colon (Except.toOption_eq_some_iff.mp hw)
            have hfields (v : Source × Received) (r : List (Option String × Source) × Received) :=
              once?_declared hfield ms depth v.1 r.1
            refine bind_next_eq (read_eq (by omega)) (fun v r hj ↦ ?_) fun j v hv hj ↦ ?_
            · refine Option.map_eq_none_iff.mpr ((hfields v r).trans ?_)
              simp [hdup, hj]
            · have hlt := length_read hv
              dsimp only
              rw [readMembers_eq (by omega)]
              refine Option.bind_congr fun r _ ↦ congrArg (Option.map (·, r.2)) ?_
              simp [hfields, hdup, hj]

theorem readPositional_eq {fuel depth : Nat} {fields : List (List String × Shape)} {first : Bool}
    {ms : Members} {s : Received} (h : 2 * s.length + 2 < fuel) :
    (Shape.readPositional fuel depth fields first ms s).toOption =
      (nextItems first s).bind fun r ↦ (positional? depth fields r.1).map fun l ↦
        (l.foldl (fun ms m ↦ ms.insert m.1 m.2) ms, r.2) := by
  cases fuel with
  | zero => omega
  | succ fuel =>
    cases fields with
    | nil =>
      rw [Shape.readPositional, Except.toOption_bind, Shape.lift, Except.toOption_mapError,
        closeList_eq depth first]
      · cases nextItems first s with
        | none => rfl
        | some r =>
          obtain ⟨vs, rest⟩ := r
          cases vs <;> rfl
      · exact Nat.succ_ne_zero fuel
    | cons f fields =>
      obtain ⟨spellings, shape⟩ := f
      rw [Shape.readPositional, Except.toOption_bind, nextItems_eq, Option.bind_eq_bind,
        Option.bind_assoc, Shape.lift, Except.toOption_mapError]
      refine Option.bind_congr fun p hp ↦ ?_
      obtain ⟨more, t⟩ := p
      have ht : t.length ≤ s.length := (length_nextItem (Except.toOption_eq_some_iff.mp hp)).1
      cases more with
      | false => rfl
      | true =>
        simp only [Bool.not_true, Bool.false_eq_true, ↓reduceIte, Except.toOption_bind,
          Option.bind_eq_bind, Option.bind_assoc]
        refine bind_next_eq (read_eq (by omega)) (fun v vs hj ↦ by simp [positional?, hj])
          fun j v hv hj ↦ ?_
        have hlt := length_read hv
        dsimp only
        rw [readPositional_eq (by omega)]
        refine Option.bind_congr fun vs _ ↦ ?_
        cases hvs : positional? depth fields vs.1 <;> simp [positional?, hj, hvs]

end

/-- The tree of a text that holds one value. -/
def ofText (s : Received) : Option Source := do
  let (v, rest) ← next s
  (finish rest).toOption
  return v

theorem parse_eq (shape : Shape) (s : Received) :
    (shape.parse s).toOption = (ofText s).bind (shaped? maxDepth shape) := by
  rw [Shape.parse, Except.toOption_bind, read_eq (by rw [fuelFor]; omega), ofText]
  cases next s with
  | none => rfl
  | some r =>
    simp only [Option.bind_some, Option.bind_eq_bind, Shape.lift]
    cases hv : r.1.shaped? maxDepth shape with
    | none => cases hf : finish r.2 <;> simp [hv]
    | some v => cases hf : finish r.2 <;> simp [hv, hf, pure, Except.pure]

end Source

end Json

end DeliveryCharts
