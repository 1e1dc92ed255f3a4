import DeliveryCharts.Proofs.Json.Tokens

/-!
JSON texts as they stand. A text has one tree, in which the members of an object keep their order
and a repeated key is kept as well; that a number is out of range or that a string is no text does
not matter before the value is asked for. All readers go along this tree.
-/

namespace DeliveryCharts

namespace Except

variable {ε ε' α β : Type}

@[simp]
theorem toOption_ok (a : α) : (.ok a : Except ε α).toOption = some a := rfl

@[simp]
theorem toOption_error (e : ε) : (.error e : Except ε α).toOption = none := rfl

@[simp]
theorem toOption_map (f : α → β) (x : Except ε α) : (x.map f).toOption = x.toOption.map f := by
  cases x <;> rfl

@[simp]
theorem toOption_bind (x : Except ε α) (f : α → Except ε β) :
    (x >>= f).toOption = x.toOption.bind fun a ↦ (f a).toOption := by
  cases x <;> rfl

@[simp]
theorem toOption_mapError (f : ε → ε') (x : Except ε α) :
    (x.mapError f).toOption = x.toOption := by
  cases x <;> rfl

/-- Readers that agree up to `r` go on alike if what follows does not tell such results apart. -/
theorem toOption_bind_congr {γ δ : Type} {x y : Except ε α} {f g : α → Except ε β} {h : β → γ}
    (r : α → δ) (hx : x.toOption.map r = y.toOption.map r)
    (hf : ∀ a b, r a = r b → (f a).toOption.map h = (g b).toOption.map h) :
    (x >>= f).toOption.map h = (y >>= g).toOption.map h := by
  cases x with
  | error e =>
    cases y with
    | error e' => rfl
    | ok b => cases hx
  | ok a =>
    cases y with
    | error e' => cases hx
    | ok b => exact hf a b (Option.some.inj hx)

theorem toOption_bind_congr_of_eq {γ : Type} {x y : Except ε α} {f g : α → Except ε β} {h : β → γ}
    (hx : x = y) (hf : ∀ a, (f a).toOption.map h = (g a).toOption.map h) :
    (x >>= f).toOption.map h = (y >>= g).toOption.map h := by
  subst hx
  refine toOption_bind_congr id rfl fun a b hab ↦ ?_
  obtain rfl : a = b := hab
  exact hf a

theorem toOption_eq_some_iff {x : Except ε α} {a : α} : x.toOption = some a ↔ x = .ok a := by
  cases x <;> simp

end Except

namespace Json

open Text (Received)
open Reader

inductive Source where
  | null
  | bool (b : Bool)
  | num (n : Option {n : Number // n.Fits})
  | str (s : Option String)
  | arr (items : List Source)
  | obj (members : List (Option String × Source))
  deriving Inhabited

namespace Source

mutual

def eqb : Source → Source → Bool
  | null, null => true
  | bool a, bool b => a == b
  | num a, num b => decide (a = b)
  | str a, str b => decide (a = b)
  | arr vs, arr ws => eqbItems vs ws
  | obj ms, obj ns => eqbMembers ms ns
  | _, _ => false

def eqbItems : List Source → List Source → Bool
  | [], [] => true
  | v :: vs, w :: ws => eqb v w && eqbItems vs ws
  | _, _ => false

def eqbMembers : List (Option String × Source) → List (Option String × Source) → Bool
  | [], [] => true
  | (key, v) :: ms, (key', w) :: ns => decide (key = key') && eqb v w && eqbMembers ms ns
  | _, _ => false

end

mutual

theorem eqb_iff : ∀ v w : Source, eqb v w = true ↔ v = w
  | null, w => by cases w <;> simp [eqb]
  | bool _, w => by cases w <;> simp [eqb]
  | num _, w => by cases w <;> simp [eqb]
  | str _, w => by cases w <;> simp [eqb]
  | arr vs, w => by cases w <;> simp [eqb, eqbItems_iff vs]
  | obj ms, w => by cases w <;> simp [eqb, eqbMembers_iff ms]

theorem eqbItems_iff : ∀ vs ws : List Source, eqbItems vs ws = true ↔ vs = ws
  | [], ws => by cases ws <;> simp [eqbItems]
  | v :: vs, ws => by cases ws <;> simp [eqbItems, eqb_iff v, eqbItems_iff vs]

theorem eqbMembers_iff : ∀ ms ns : List (Option String × Source),
    eqbMembers ms ns = true ↔ ms = ns
  | [], ns => by cases ns <;> simp [eqbMembers]
  | (key, v) :: ms, ns => by
    rcases ns with _ | ⟨⟨key', w⟩, ns⟩
    · simp [eqbMembers]
    · simp [eqbMembers, eqb_iff v, eqbMembers_iff ms, and_assoc]

end

instance : DecidableEq Source := fun v w ↦ decidable_of_iff _ (eqb_iff v w)

/-- The string whose characters follow, if it is a text. -/
def textAt (s : Received) : Option String := (string s).toOption.map (·.1)

/-- The number that follows its sign, if it is in range. -/
def numberAt (negative : Bool) (s : Received) : Option {n : Number // n.Fits} :=
  match h : number negative s with
  | .ok (n, _) => some ⟨n, fits_of_number h⟩
  | .error _ => none

/-- What a value starts with: a scalar, which is whole, or a bracket. -/
inductive Lead where
  | scalar (v : Source) (rest : Received)
  | list (rest : Received)
  | object (rest : Received)

def Lead.rest : Lead → Received
  | scalar _ rest => rest
  | list rest => rest
  | object rest => rest

def lead (s : Received) : Option Lead :=
  match skipSpace s with
  | some 'n' :: s => (word ['u', 'l', 'l'] s).toOption.map (.scalar .null)
  | some 't' :: s => (word ['r', 'u', 'e'] s).toOption.map (.scalar (.bool true))
  | some 'f' :: s => (word ['a', 'l', 's', 'e'] s).toOption.map (.scalar (.bool false))
  | some '"' :: s => (skipString s).toOption.map (.scalar (.str (textAt s)))
  | some '-' :: s => (skipNumber s).toOption.map (.scalar (.num (numberAt true s)))
  | some '[' :: s => some (.list s)
  | some '\x7b' :: s => some (.object s)
  | some c :: s =>
    if Text.isDigit c then
      (skipNumber (some c :: s)).toOption.map (.scalar (.num (numberAt false (some c :: s))))
    else none
  | _ => none

mutual

def read : Nat → Received → Option (Source × Received)
  | 0, _ => none
  | fuel + 1, s =>
    match lead s with
    | some (.scalar v rest) => some (v, rest)
    | some (.list rest) => (readItems fuel true rest).map fun r ↦ (.arr r.1, r.2)
    | some (.object rest) => (readMembers fuel true rest).map fun r ↦ (.obj r.1, r.2)
    | none => none

def readItems : Nat → Bool → Received → Option (List Source × Received)
  | 0, _, _ => none
  | fuel + 1, first, s => do
    let (more, s) ← (nextItem first s).toOption
    if !more then return ([], s)
    let (v, s) ← read fuel s
    let (vs, s) ← readItems fuel false s
    return (v :: vs, s)

def readMembers : Nat → Bool → Received → Option (List (Option String × Source) × Received)
  | 0, _, _ => none
  | fuel + 1, first, s => do
    let (more, s) ← (nextKey first s).toOption
    if !more then return ([], s)
    let rest ← (skipString s).toOption
    let rest ← (colon rest).toOption
    let (v, rest) ← read fuel rest
    let (ms, rest) ← readMembers fuel false rest
    return ((textAt s, v) :: ms, rest)

end

theorem ok_of_scalar {v : Source} {x : Except TextFault Received} {l : Lead}
    (h : x.toOption.map (Lead.scalar v) = some l) : x = .ok l.rest := by
  obtain ⟨rest, hrest, rfl⟩ := Option.map_eq_some_iff.mp h
  exact Except.toOption_eq_some_iff.mp hrest

theorem length_lead {s : Received} {l : Lead} (h : lead s = some l) :
    l.rest.length < s.length := by
  have hs := length_skipSpace_le s
  unfold lead at h
  split at h
  case h_1 heq | h_2 heq | h_3 heq =>
    rw [heq] at hs
    exact Nat.lt_of_le_of_lt (length_word (ok_of_scalar h)) hs
  case h_4 heq =>
    rw [heq] at hs
    exact Nat.lt_trans (length_skipString (ok_of_scalar h)) hs
  case h_5 heq =>
    rw [heq] at hs
    exact Nat.lt_trans (length_skipNumber (ok_of_scalar h)) hs
  case h_6 heq | h_7 heq =>
    rw [heq] at hs
    cases h
    exact hs
  case h_8 heq =>
    rw [heq] at hs
    split at h
    · exact Nat.lt_of_lt_of_le (length_skipNumber (ok_of_scalar h)) hs
    · cases h
  case h_9 => cases h

mutual

theorem length_read {fuel : Nat} {s : Received} {r : Source × Received} (h : read fuel s = some r) :
    r.2.length < s.length := by
  cases fuel with
  | zero => cases h
  | succ fuel =>
    rw [read] at h
    split at h
    · rename_i hlead
      cases h
      exact length_lead hlead
    · rename_i hlead
      obtain ⟨r, hr, rfl⟩ := Option.map_eq_some_iff.mp h
      exact Nat.lt_trans (length_readItems hr) (length_lead hlead)
    · rename_i hlead
      obtain ⟨r, hr, rfl⟩ := Option.map_eq_some_iff.mp h
      exact Nat.lt_trans (length_readMembers hr) (length_lead hlead)
    · cases h

theorem length_readItems {fuel : Nat} {first : Bool} {s : Received} {r : List Source × Received}
    (h : readItems fuel first s = some r) : r.2.length < s.length := by
  cases fuel with
  | zero => cases h
  | succ fuel =>
    simp only [readItems, Option.bind_eq_bind, Option.bind_eq_some_iff] at h
    obtain ⟨⟨more, t⟩, hnext, h⟩ := h
    obtain ⟨hle, hlt⟩ := length_nextItem (Except.toOption_eq_some_iff.mp hnext)
    cases more with
    | false =>
      cases h
      exact hlt rfl
    | true =>
      simp only [Bool.not_true, Bool.false_eq_true, ↓reduceIte, Option.bind_eq_some_iff] at h
      obtain ⟨v, hv, vs, hvs, ⟨⟩⟩ := h
      have hread := length_read hv
      have hitems := length_readItems hvs
      have hread := length_read hv
      simp only
      omega

theorem length_readMembers {fuel : Nat} {first : Bool} {s : Received}
    {r : List (Option String × Source) × Received} (h : readMembers fuel first s = some r) :
    r.2.length < s.length := by
  cases fuel with
  | zero => cases h
  | succ fuel =>
    simp only [readMembers, Option.bind_eq_bind, Option.bind_eq_some_iff] at h
    obtain ⟨⟨more, t⟩, hnext, h⟩ := h
    have hlt := length_nextKey (Except.toOption_eq_some_iff.mp hnext)
    cases more with
    | false =>
      cases h
      exact hlt
    | true =>
      simp only [Bool.not_true, Bool.false_eq_true, ↓reduceIte, Option.bind_eq_some_iff] at h
      obtain ⟨u, hu, w, hw, v, hv, ms, hms, ⟨⟩⟩ := h
      have hkey := length_skipString (Except.toOption_eq_some_iff.mp hu)
      have hcolon := length_colon (Except.toOption_eq_some_iff.mp hw)
      have hread := length_read hv
      have hmembers := length_readMembers hms
      simp only
      omega

end

mutual

theorem read_stable {fuel fuel' : Nat} {s : Received} (h : 2 * s.length < fuel)
    (h' : 2 * s.length < fuel') : read fuel s = read fuel' s := by
  cases fuel with
  | zero => omega
  | succ fuel =>
    obtain ⟨fuel', rfl⟩ := Nat.exists_eq_add_one_of_ne_zero (by omega : fuel' ≠ 0)
    cases hlead : lead s with
    | none => simp only [read, hlead]
    | some l =>
      have hrest := length_lead hlead
      cases l with
      | scalar v rest => simp only [read, hlead]
      | list rest =>
        simp only [Lead.rest] at hrest
        have hitems : readItems fuel true rest = readItems fuel' true rest :=
          readItems_stable (by omega) (by omega)
        simp only [read, hlead, hitems]
      | object rest =>
        simp only [Lead.rest] at hrest
        have hmembers : readMembers fuel true rest = readMembers fuel' true rest :=
          readMembers_stable (by omega) (by omega)
        simp only [read, hlead, hmembers]

theorem readItems_stable {fuel fuel' : Nat} {first : Bool} {s : Received}
    (h : 2 * s.length + 1 < fuel) (h' : 2 * s.length + 1 < fuel') :
    readItems fuel first s = readItems fuel' first s := by
  cases fuel with
  | zero => omega
  | succ fuel =>
    obtain ⟨fuel', rfl⟩ := Nat.exists_eq_add_one_of_ne_zero (by omega : fuel' ≠ 0)
    simp only [readItems, Option.bind_eq_bind]
    refine Option.bind_congr fun p hp ↦ ?_
    have hnext := (length_nextItem (Except.toOption_eq_some_iff.mp hp)).1
    have hread : read fuel p.2 = read fuel' p.2 := read_stable (by omega) (by omega)
    rw [hread]
    split
    · rfl
    · refine Option.bind_congr fun v hv ↦ ?_
      have hv := length_read hv
      have hitems : readItems fuel false v.2 = readItems fuel' false v.2 :=
        readItems_stable (by omega) (by omega)
      rw [hitems]

theorem readMembers_stable {fuel fuel' : Nat} {first : Bool} {s : Received}
    (h : 2 * s.length + 1 < fuel) (h' : 2 * s.length + 1 < fuel') :
    readMembers fuel first s = readMembers fuel' first s := by
  cases fuel with
  | zero => omega
  | succ fuel =>
    obtain ⟨fuel', rfl⟩ := Nat.exists_eq_add_one_of_ne_zero (by omega : fuel' ≠ 0)
    simp only [readMembers, Option.bind_eq_bind]
    refine Option.bind_congr fun p hp ↦ ?_
    have hnext := length_nextKey (Except.toOption_eq_some_iff.mp hp)
    split
    · rfl
    · refine Option.bind_congr fun t ht ↦ Option.bind_congr fun u hu ↦ ?_
      have hkey := length_skipString (Except.toOption_eq_some_iff.mp ht)
      have hcolon := length_colon (Except.toOption_eq_some_iff.mp hu)
      have hread : read fuel u = read fuel' u := read_stable (by omega) (by omega)
      rw [hread]
      refine Option.bind_congr fun v hv ↦ ?_
      have hv := length_read hv
      have hmembers : readMembers fuel false v.2 = readMembers fuel' false v.2 :=
        readMembers_stable (by omega) (by omega)
      rw [hmembers]

end

/-- The value at the head of a text, and what follows it. -/
def next (s : Received) : Option (Source × Received) := read (fuelFor s) s

def nextItems (first : Bool) (s : Received) : Option (List Source × Received) :=
  readItems (fuelFor s) first s

def nextMembers (first : Bool) (s : Received) :
    Option (List (Option String × Source) × Received) :=
  readMembers (fuelFor s) first s

section

variable {s rest : Received} {v : Source}

theorem read_eq_next {fuel : Nat} (h : 2 * s.length < fuel) : read fuel s = next s :=
  read_stable h (by rw [fuelFor]; omega)

theorem readItems_eq_next {fuel : Nat} {first : Bool} (h : 2 * s.length + 1 < fuel) :
    readItems fuel first s = nextItems first s :=
  readItems_stable h (by rw [fuelFor]; omega)

theorem readMembers_eq_next {fuel : Nat} {first : Bool} (h : 2 * s.length + 1 < fuel) :
    readMembers fuel first s = nextMembers first s :=
  readMembers_stable h (by rw [fuelFor]; omega)

theorem next_none (h : lead s = none) : next s = none := by
  simp only [next, fuelFor, read, h]

theorem next_scalar (h : lead s = some (.scalar v rest)) : next s = some (v, rest) := by
  simp only [next, fuelFor, read, h]

theorem next_list (h : lead s = some (.list rest)) :
    next s = (nextItems true rest).map fun r ↦ (.arr r.1, r.2) := by
  have hrest : rest.length < s.length := length_lead h
  simp only [next, fuelFor, read, h]
  rw [readItems_eq_next (by omega)]

theorem next_object (h : lead s = some (.object rest)) :
    next s = (nextMembers true rest).map fun r ↦ (.obj r.1, r.2) := by
  have hrest : rest.length < s.length := length_lead h
  simp only [next, fuelFor, read, h]
  rw [readMembers_eq_next (by omega)]

theorem nextItems_eq (first : Bool) (s : Received) : nextItems first s = do
    let (more, s) ← (nextItem first s).toOption
    if !more then return ([], s)
    let (v, s) ← next s
    let (vs, s) ← nextItems false s
    return (v :: vs, s) := by
  rw [nextItems, fuelFor, readItems]
  refine Option.bind_congr fun p hp ↦ ?_
  obtain ⟨more, t⟩ := p
  have ht : t.length ≤ s.length := (length_nextItem (Except.toOption_eq_some_iff.mp hp)).1
  cases more with
  | false => rfl
  | true =>
    have hread : read (2 * s.length + 1) t = next t := read_eq_next (by omega)
    simp only [hread]
    refine Option.bind_congr fun v hv ↦ ?_
    have hv := length_read hv
    rw [readItems_eq_next (by omega)]

theorem nextMembers_eq (first : Bool) (s : Received) : nextMembers first s = do
    let (more, s) ← (nextKey first s).toOption
    if !more then return ([], s)
    let rest ← (skipString s).toOption
    let rest ← (colon rest).toOption
    let (v, rest) ← next rest
    let (ms, rest) ← nextMembers false rest
    return ((textAt s, v) :: ms, rest) := by
  rw [nextMembers, fuelFor, readMembers]
  refine Option.bind_congr fun p hp ↦ ?_
  obtain ⟨more, t⟩ := p
  have ht : t.length < s.length := length_nextKey (Except.toOption_eq_some_iff.mp hp)
  cases more with
  | false => rfl
  | true =>
    refine Option.bind_congr fun u hu ↦ Option.bind_congr fun w hw ↦ ?_
    have hkey := length_skipString (Except.toOption_eq_some_iff.mp hu)
    have hcolon := length_colon (Except.toOption_eq_some_iff.mp hw)
    have hread : read (2 * s.length + 1) w = next w := read_eq_next (by omega)
    simp only [hread]
    refine Option.bind_congr fun v hv ↦ ?_
    have hv := length_read hv
    rw [readMembers_eq_next (by omega)]

end

theorem skipValue_succ (fuel : Nat) (s : Received) : (skipValue (fuel + 1) s).toOption =
    match lead s with
    | some (.scalar _ rest) => some rest
    | some (.list rest) =>
      match skipSpace rest with
      | [] => none
      | some ']' :: rest => some rest
      | rest => (skipItems fuel rest).toOption
    | some (.object rest) =>
      match skipSpace rest with
      | [] => none
      | some '\x7d' :: rest => some rest
      | rest => (skipMembers fuel rest).toOption
    | none => none := by
  unfold skipValue lead
  generalize skipSpace s = t
  split
  case h_1 => rfl
  case h_2 s =>
    simp only
    cases word ['u', 'l', 'l'] s <;> rfl
  case h_3 s =>
    simp only
    cases word ['r', 'u', 'e'] s <;> rfl
  case h_4 s =>
    simp only
    cases word ['a', 'l', 's', 'e'] s <;> rfl
  case h_5 s =>
    simp only
    cases skipString s <;> rfl
  case h_6 s =>
    simp only
    cases skipNumber s <;> rfl
  case h_7 s =>
    simp only
    split <;> simp_all
  case h_8 s =>
    simp only
    split <;> simp_all
  case h_9 c s _ _ _ _ _ _ _ =>
    by_cases hc : Text.isDigit c = true
    · simp only [hc, ↓reduceIte]
      cases skipNumber (some c :: s) <;> rfl
    · simp [hc]
  case h_10 => rfl

@[simp]
theorem skipSpace_skipSpace (s : Received) : skipSpace (skipSpace s) = skipSpace s := by
  induction s with
  | nil => rfl
  | cons c s ih =>
    cases hc : isSpace c with
    | true => simpa [skipSpace, hc] using ih
    | false => simp [skipSpace, hc]

@[simp]
theorem next_skipSpace (s : Received) : next (skipSpace s) = next s := by
  have hlead : lead (skipSpace s) = lead s := by
    unfold lead
    rw [skipSpace_skipSpace]
  cases h : lead s with
  | none => rw [next_none h, next_none (hlead.trans h)]
  | some l =>
    cases l with
    | scalar v rest => rw [next_scalar h, next_scalar (hlead.trans h)]
    | list rest => rw [next_list h, next_list (hlead.trans h)]
    | object rest => rw [next_object h, next_object (hlead.trans h)]

def itemsFrom (s : Received) : Option (List Source × Received) := do
  let (v, s) ← next s
  let (vs, s) ← nextItems false s
  return (v :: vs, s)

theorem itemsFrom_eq_none {s : Received} (h : lead s = none) : itemsFrom s = none := by
  rw [itemsFrom, next_none h]
  rfl

theorem itemsFrom_skipSpace (s : Received) : itemsFrom (skipSpace s) = itemsFrom s := by
  rw [itemsFrom, next_skipSpace, itemsFrom]

section

variable {s t : Received} {first : Bool}

theorem nextItems_end (h : skipSpace s = some ']' :: t) : nextItems first s = some ([], t) := by
  rw [nextItems_eq, nextItem, h]
  rfl

theorem nextItems_first (h : ∀ t, skipSpace s ≠ some ']' :: t) :
    nextItems true s = itemsFrom s := by
  rw [nextItems_eq, nextItem, ← itemsFrom_skipSpace]
  split
  case h_1 heq =>
    rw [heq]
    exact (itemsFrom_eq_none rfl).symm
  case h_2 t heq => exact absurd heq (h t)
  case h_3 t heq =>
    rw [heq]
    rfl
  case h_4 => rfl

theorem nextItems_comma (h : skipSpace s = some ',' :: t) : nextItems false s = itemsFrom t := by
  rw [nextItems_eq, nextItem, h, ← itemsFrom_skipSpace t]
  simp only [Bool.false_eq_true, ↓reduceIte]
  split
  case h_1 heq =>
    rw [heq]
    exact (itemsFrom_eq_none rfl).symm
  case h_2 heq =>
    rw [heq]
    exact (itemsFrom_eq_none rfl).symm
  case h_3 => rfl

theorem nextItems_stop (hend : ∀ t, skipSpace s ≠ some ']' :: t)
    (hcomma : ∀ t, skipSpace s ≠ some ',' :: t) : nextItems false s = none := by
  rw [nextItems_eq, nextItem]
  split
  case h_1 => rfl
  case h_2 t heq => exact absurd heq (hend t)
  case h_3 t heq => exact absurd heq (hcomma t)
  case h_4 => rfl

end

def membersFrom (s : Received) : Option (List (Option String × Source) × Received) :=
  match skipSpace s with
  | some '"' :: s => do
    let rest ← (skipString s).toOption
    let rest ← (colon rest).toOption
    let (v, rest) ← next rest
    let (ms, rest) ← nextMembers false rest
    return ((textAt s, v) :: ms, rest)
  | _ => none

section

variable {s t : Received} {first : Bool}

theorem membersFrom_quote (h : skipSpace s = some '"' :: t) : membersFrom s = do
    let rest ← (skipString t).toOption
    let rest ← (colon rest).toOption
    let (v, rest) ← next rest
    let (ms, rest) ← nextMembers false rest
    return ((textAt t, v) :: ms, rest) := by
  simp only [membersFrom, h]

theorem membersFrom_other (h : ∀ t, skipSpace s ≠ some '"' :: t) : membersFrom s = none := by
  rw [membersFrom]
  split
  case h_1 t heq => exact absurd heq (h t)
  case h_2 => rfl

theorem nextMembers_end (h : skipSpace s = some '\x7d' :: t) :
    nextMembers first s = some ([], t) := by
  rw [nextMembers_eq, nextKey, h]
  rfl

theorem nextMembers_first (h : ∀ t, skipSpace s ≠ some '\x7d' :: t) :
    nextMembers true s = membersFrom s := by
  rw [nextMembers_eq, nextKey]
  split
  case h_1 heq => exact (membersFrom_other (by simp [heq])).symm
  case h_2 t heq => exact absurd heq (h t)
  case h_3 t heq => exact (membersFrom_other (by simp [heq])).symm
  case h_4 t heq => exact (membersFrom_quote heq).symm
  case h_5 hquote => exact (membersFrom_other hquote).symm

theorem nextMembers_comma (h : skipSpace s = some ',' :: t) :
    nextMembers false s = membersFrom t := by
  rw [nextMembers_eq, nextKey, h]
  simp only [Bool.false_eq_true, ↓reduceIte]
  split
  case h_1 heq => exact (membersFrom_other (by simp [heq])).symm
  case h_2 t heq => exact (membersFrom_quote heq).symm
  case h_3 t heq => exact (membersFrom_other (by simp [heq])).symm
  case h_4 hquote _ => exact (membersFrom_other hquote).symm

theorem nextMembers_stop (hend : ∀ t, skipSpace s ≠ some '\x7d' :: t)
    (hcomma : ∀ t, skipSpace s ≠ some ',' :: t) : nextMembers false s = none := by
  rw [nextMembers_eq, nextKey]
  split
  case h_1 => rfl
  case h_2 t heq => exact absurd heq (hend t)
  case h_3 t heq => exact absurd heq (hcomma t)
  case h_4 => rfl
  case h_5 => rfl

end

theorem membersFrom_skipSpace (s : Received) : membersFrom (skipSpace s) = membersFrom s := by
  rw [membersFrom, skipSpace_skipSpace, membersFrom]

mutual

theorem skipValue_eq {fuel : Nat} {s : Received} (h : 2 * s.length < fuel) :
    (skipValue fuel s).toOption = (next s).map Prod.snd := by
  cases fuel with
  | zero => omega
  | succ fuel =>
    rw [skipValue_succ]
    cases hlead : lead s with
    | none =>
      rw [next_none hlead]
      rfl
    | some l =>
      have hrest := length_lead hlead
      cases l with
      | scalar v rest =>
        rw [next_scalar hlead]
        rfl
      | list rest =>
        have hskip := length_skipSpace_le rest
        simp only [Lead.rest] at hrest
        rw [next_list hlead]
        simp only
        split
        case h_1 heq =>
          rw [nextItems_first (by simp [heq]), ← itemsFrom_skipSpace, heq, itemsFrom_eq_none rfl]
          rfl
        case h_2 t heq =>
          rw [nextItems_end heq]
          rfl
        case h_3 hnil hend =>
          rw [nextItems_first hend, skipItems_eq (by omega), itemsFrom_skipSpace]
          cases itemsFrom rest <;> rfl
      | object rest =>
        have hskip := length_skipSpace_le rest
        simp only [Lead.rest] at hrest
        rw [next_object hlead]
        simp only
        split
        case h_1 heq =>
          rw [nextMembers_first (by simp [heq]), membersFrom_other (by simp [heq])]
          rfl
        case h_2 t heq =>
          rw [nextMembers_end heq]
          rfl
        case h_3 hnil hend =>
          rw [nextMembers_first hend, skipMembers_eq (by omega), membersFrom_skipSpace]
          cases membersFrom rest <;> rfl

theorem skipItems_eq {fuel : Nat} {s : Received} (h : 2 * s.length + 1 < fuel) :
    (skipItems fuel s).toOption = (itemsFrom s).map Prod.snd := by
  cases fuel with
  | zero => omega
  | succ fuel =>
    rw [skipItems, Except.toOption_bind, skipValue_eq (by omega), itemsFrom]
    cases hv : next s with
    | none => rfl
    | some v =>
      have hlt := length_read hv
      have hskip := length_skipSpace_le v.2
      simp only [Option.map_some, Option.bind_some, Option.bind_eq_bind]
      split
      case h_1 heq =>
        rw [nextItems_stop (by simp [heq]) (by simp [heq])]
        rfl
      case h_2 t heq =>
        simp only [heq, List.length_cons] at hskip
        rw [nextItems_comma heq, skipItems_eq (by omega)]
        cases itemsFrom t <;> rfl
      case h_3 t heq =>
        rw [nextItems_end heq]
        rfl
      case h_4 hnil hcomma hend =>
        rw [nextItems_stop hend hcomma]
        rfl

theorem skipMembers_eq {fuel : Nat} {s : Received} (h : 2 * s.length + 1 < fuel) :
    (skipMembers fuel s).toOption = (membersFrom s).map Prod.snd := by
  cases fuel with
  | zero => omega
  | succ fuel =>
    have hs := length_skipSpace_le s
    rw [skipMembers]
    split
    case h_1 heq =>
      rw [membersFrom_other (by simp [heq])]
      rfl
    case h_2 t heq =>
      rw [membersFrom_quote heq]
      simp only [heq, List.length_cons] at hs
      simp only [Except.toOption_bind, Option.bind_eq_bind, Option.map_bind, Function.comp_def]
      refine Option.bind_congr fun u hu ↦ Option.bind_congr fun w hw ↦ ?_
      have hkey := length_skipString (Except.toOption_eq_some_iff.mp hu)
      have hcolon := length_colon (Except.toOption_eq_some_iff.mp hw)
      rw [skipValue_eq (by omega)]
      cases hv : next w with
      | none => rfl
      | some v =>
        have hlt := length_read hv
        have hskip := length_skipSpace_le v.2
        simp only [Option.map_some, Option.bind_some]
        split
        case h_1 heq =>
          rw [nextMembers_stop (by simp [heq]) (by simp [heq])]
          rfl
        case h_2 t heq =>
          simp only [heq, List.length_cons] at hskip
          rw [nextMembers_comma heq, skipMembers_eq (by omega)]
          cases membersFrom t <;> rfl
        case h_3 t heq =>
          rw [nextMembers_end heq]
          rfl
        case h_4 hnil hcomma hend =>
          rw [nextMembers_stop hend hcomma]
          rfl
    case h_3 hnil hquote =>
      rw [membersFrom_other hquote]
      rfl

end

end Source

end Json

end DeliveryCharts
