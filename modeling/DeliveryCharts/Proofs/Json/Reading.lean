import DeliveryCharts.Json.Shape
import DeliveryCharts.Proofs.Json.Tree
import DeliveryCharts.Proofs.Record
import DeliveryCharts.Proofs.Text.Numeral

/-!
Reading what was written. The indented text of a tree whose numbers are integers is read as that
tree, and a form that admits the tree reads it as well.
-/

namespace DeliveryCharts.Json

open Text (Received decimal)

mutual

/-- All numbers of the tree are integers. -/
def isIntegral : Json → Bool
  | num (.float _) => false
  | arr items => isIntegralItems items
  | obj ms => isIntegralMembers ms
  | _ => true

def isIntegralItems : List Json → Bool
  | [] => true
  | v :: vs => isIntegral v && isIntegralItems vs

def isIntegralMembers : List (String × Json) → Bool
  | [] => true
  | (_, v) :: ms => isIntegral v && isIntegralMembers ms

end

theorem isIntegral_arr {vs : List Json} :
    (arr vs).isIntegral = true ↔ ∀ v ∈ vs, v.isIntegral = true := by
  rw [isIntegral]
  induction vs with
  | nil => simp [isIntegralItems]
  | cons v vs ih => simp [isIntegralItems, ih]

theorem isIntegral_obj {ms : Members} :
    (obj ms).isIntegral = true ↔ ∀ m ∈ ms, m.2.isIntegral = true := by
  rw [isIntegral]
  induction ms with
  | nil => simp [isIntegralMembers]
  | cons m ms ih => simp [isIntegralMembers, ih]

/-- The order of the members does not matter. -/
theorem isIntegral_ofMembers {l : List (String × Json)} (h : (obj l).isIntegral = true) :
    (ofMembers l).isIntegral = true :=
  isIntegral_obj.mpr fun m hm ↦ isIntegral_obj.mp h m (Members.mem_ofList hm)

namespace Reader

/-! Strings -/

theorem hex4_padded {n : Nat} (h : n < 32) :
    Text.padded 2 (Text.digits 16 n) = [Text.digitChar (n / 16), Text.digitChar (n % 16)] ∧
      hex4 (some '0') (some '0') (some (Text.digitChar (n / 16)))
        (some (Text.digitChar (n % 16))) = some n := by
  have hall : ∀ n < 32,
      Text.padded 2 (Text.digits 16 n) = [Text.digitChar (n / 16), Text.digitChar (n % 16)] ∧
        hex4 (some '0') (some '0') (some (Text.digitChar (n / 16)))
          (some (Text.digitChar (n % 16))) = some n := by decide
  exact hall n h

theorem stringBody_escapeChar (c : Char) (rest : Received) :
    stringBody false ((escapeChar c).map some ++ rest) =
      (stringBody false rest).map fun r ↦ (c :: r.1, r.2) := by
  rw [escapeChar]
  iterate 7
    split
    · subst c
      rfl
  split
  · rename_i h
    obtain ⟨hp, hx⟩ := hex4_padded h
    have hl : isLowSurrogate c.toNat = false := by
      simp only [isLowSurrogate, Bool.and_eq_false_iff, decide_eq_false_iff_not]
      omega
    have hh : isHighSurrogate c.toNat = false := by
      simp only [isHighSurrogate, Bool.and_eq_false_iff, decide_eq_false_iff_not]
      omega
    rw [hp]
    simp only [List.cons_append, List.nil_append, List.map_cons, List.map_nil]
    rw [stringBody]
    simp [hx, hl, hh, Char.ofNat_toNat]
  · rename_i hq hb _ _ _ _ _ h
    simp only [List.map_cons, List.map_nil, List.cons_append, List.nil_append]
    rw [stringBody]
    · rw [if_neg hq, if_neg h]
    · exact hb

theorem stringBody_quoted (cs : List Char) (rest : Received) :
    stringBody false ((cs.flatMap escapeChar).map some ++ some '"' :: rest) = .ok (cs, rest) := by
  induction cs with
  | nil => rfl
  | cons c cs ih =>
    rw [List.flatMap_cons, List.map_append, List.append_assoc, stringBody_escapeChar, ih]
    rfl

/-- The text of a string behind its opening quote. -/
theorem string_quoted (s : String) (rest : Received) :
    string ((s.toList.flatMap escapeChar).map some ++ some '"' :: rest) = .ok (s, rest) := by
  rw [string, stringBody_quoted]
  exact congrArg (fun t ↦ Except.ok (t, rest)) String.ofList_toList

/-! Numbers -/

/-- The text of a value ends here: there is a comma, or the line ends. -/
inductive Stops : Received → Prop
  | comma (s : Received) : Stops (some ',' :: s)
  | line (s : Received) : Stops (some '\n' :: s)

theorem digits_append {ds : List Char} (hd : ∀ c ∈ ds, Text.isDigit c = true) {rest : Received}
    (hr : Stops rest) : digits (ds.map some ++ rest) = (ds, rest) := by
  induction ds with
  | nil => cases hr <;> rfl
  | cons c ds ih =>
    obtain ⟨hc, hds⟩ := List.forall_mem_cons.mp hd
    rw [List.map_cons, List.cons_append, digits, if_pos hc, ih hds]
    rfl

theorem takeSignificant_eq {ds : List Char} {n : Nat}
    (h : ds.foldl (fun m c ↦ m * 10 + (c.toNat - 48)) n < twoPow 64) :
    takeSignificant n ds = (ds.foldl (fun m c ↦ m * 10 + (c.toNat - 48)) n, 0) := by
  have hle (ds : List Char) (n : Nat) :
      n ≤ ds.foldl (fun m c ↦ m * 10 + (c.toNat - 48)) n := by
    induction ds generalizing n with
    | nil => exact Nat.le_refl n
    | cons c ds ih =>
      have hn : n ≤ n * 10 + (c.toNat - 48) := by omega
      exact Nat.le_trans hn (ih _)
  induction ds generalizing n with
  | nil => rfl
  | cons c ds ih =>
    rw [List.foldl_cons] at h ⊢
    rw [takeSignificant, ← ih h]
    exact if_pos (Nat.lt_of_le_of_lt (hle ds _) h)

theorem number_decimal (negative : Bool) {n : Nat} (hn : n < twoPow 64) {rest : Received}
    (hr : Stops rest) :
    number negative ((decimal n).map some ++ rest) =
      if !negative then .ok (.int n, rest)
      else if n ≠ 0 ∧ n ≤ twoPow 63 then .ok (.int (-n), rest)
      else .ok (.float (Decimal.Binary64.ofInt n).neg, rest) := by
  have hd := digits_append (Text.isDigit_of_mem_decimal n) hr
  have ht : takeSignificant 0 (decimal n) = (n, 0) := by
    have hf := Text.foldl_decimal n
    rw [takeSignificant_eq (by rw [hf]; exact hn), hf]
  obtain ⟨c, cs, hc⟩ : ∃ c cs, decimal n = c :: cs :=
    List.exists_cons_of_ne_nil (Text.digits_ne_nil _ _)
  have hz := Text.decimal_ne_zero_cons n
  rw [hc] at hd ht hz ⊢
  rw [List.map_cons, List.cons_append] at hd ⊢
  simp only [number, hd, ht, ne_eq, not_true_eq_false, ↓reduceIte]
  cases hr <;> rfl

theorem lt_of_fits {n : Nat} (h : Number.Fits (.int n)) : n < twoPow 64 := by
  have h₆₃ : twoPow (64 - 1) = 9223372036854775808 := rfl
  have h₆₄ : twoPow 64 = 18446744073709551616 := rfl
  simp only [Number.Fits, Width.signed, Width.unsigned, h₆₃, h₆₄, Bool.and_eq_true,
    decide_eq_true_eq] at h ⊢
  omega

theorem le_of_fits {n : Nat} (h : Number.Fits (.int (.negSucc n))) : n + 1 ≤ twoPow 63 := by
  have h₆₃ : twoPow 63 = 9223372036854775808 := rfl
  simp only [Number.Fits, Width.signed, Width.unsigned, h₆₃, Bool.and_eq_true,
    decide_eq_true_eq] at h ⊢
  omega

/-! Blanks, and what stands before a value -/

theorem skipSpace_of_not {c : Char} (h : isSpace (some c) = false) (s : Received) :
    skipSpace (some c :: s) = some c :: s := by
  rw [skipSpace, List.dropWhile_cons_of_neg (by simp [h])]

theorem skipSpace_newline (level : Nat) {c : Char} (h : isSpace (some c) = false) (s : Received) :
    skipSpace ((newline level).map some ++ some c :: s) = some c :: s := by
  have hspaces (n : Nat) :
      ((List.replicate n (some ' ') : Received) ++ some c :: s).dropWhile isSpace =
        some c :: s := by
    induction n with
    | zero => exact skipSpace_of_not h s
    | succ n ih => exact ih
  rw [newline, List.map_cons, List.map_replicate]
  exact hspaces _

/-- A value may start with this character. -/
def Opens (c : Char) : Prop := isSpace (some c) = false ∧ c ≠ ',' ∧ c ≠ ']'

instance : DecidablePred Opens := fun _ ↦ inferInstanceAs (Decidable (_ ∧ _))

theorem ne_of_isDigit {c d : Char} (h : Text.isDigit c = true) (hd : Text.isDigit d = false) :
    c ≠ d := by
  rintro rfl
  exact absurd h (by simp [hd])

theorem opens_of_isDigit {c : Char} (h : Text.isDigit c = true) : Opens c := by
  refine ⟨?_, ne_of_isDigit h (by decide), ne_of_isDigit h (by decide)⟩
  simp [isSpace, ne_of_isDigit h (d := ' ') (by decide), ne_of_isDigit h (d := '\n') (by decide),
    ne_of_isDigit h (d := '\t') (by decide), ne_of_isDigit h (d := '\r') (by decide)]

theorem decimal_eq_cons (n : Nat) : ∃ c cs, decimal n = c :: cs ∧ Text.isDigit c = true := by
  obtain ⟨c, cs, hc⟩ : ∃ c cs, decimal n = c :: cs :=
    List.exists_cons_of_ne_nil (Text.digits_ne_nil _ _)
  exact ⟨c, cs, hc, Text.isDigit_of_mem_decimal n c (hc ▸ List.mem_cons_self)⟩

theorem prettyChars_eq_cons {v : Json} (hv : v.isIntegral = true) (level : Nat) :
    ∃ c cs, prettyChars level v = c :: cs ∧ Opens c := by
  have hopen {c : Char} (h : Opens c) (cs : List Char) : ∃ c' cs', c :: cs = c' :: cs' ∧ Opens c' :=
    ⟨c, cs, rfl, h⟩
  cases v with
  | null => exact hopen (by decide) _
  | bool b => cases b <;> exact hopen (by decide) _
  | num x =>
    cases x with
    | int z =>
      cases z with
      | ofNat n =>
        obtain ⟨c, cs, hc, hd⟩ := decimal_eq_cons n
        exact ⟨c, cs, hc, opens_of_isDigit hd⟩
      | negSucc n => exact hopen (by decide) _
    | float x => simp [isIntegral] at hv
  | str s => exact hopen (by decide) _
  | arr vs => cases vs <;> exact hopen (by decide) _
  | obj ms => cases ms <;> exact hopen (by decide) _

theorem skipSpace_prettyChars {v : Json} (hi : v.isIntegral = true) (level : Nat)
    (s : Received) :
    skipSpace ((prettyChars level v).map some ++ s) = (prettyChars level v).map some ++ s := by
  obtain ⟨c, cs, hc, ho⟩ := prettyChars_eq_cons hi level
  rw [hc, List.map_cons, List.cons_append, skipSpace_of_not ho.1]

theorem skipSpace_text {v : Json} (hi : v.isIntegral = true) :
    skipSpace ((prettyChars 0 v ++ ['\n']).map some) =
      (prettyChars 0 v).map some ++ [some '\n'] := by
  rw [List.map_append]
  exact skipSpace_prettyChars hi 0 _

theorem length_lt_fuelFor (cs : List Char) : cs.length < fuelFor ((cs ++ ['\n']).map some) := by
  simp only [fuelFor, List.length_map, List.length_append, List.length_singleton]
  omega

/-! The texts of lists and objects -/

/-- The text of a list behind its bracket. -/
def listChars (level : Nat) : List Json → List Char
  | [] => [']']
  | v :: vs => newline (level + 1) ++ prettyChars (level + 1) v ++ prettyItems level vs

theorem prettyChars_arr (level : Nat) (vs : List Json) :
    prettyChars level (.arr vs) = '[' :: listChars level vs := by
  cases vs <;> rfl

/-- The text of a member behind the opening quote of its key. -/
def memberChars (level : Nat) (m : String × Json) : List Char :=
  m.1.toList.flatMap escapeChar ++ '"' :: ':' :: ' ' :: prettyChars level m.2

/-- The text of an object behind its brace. -/
def objectChars (level : Nat) : List (String × Json) → List Char
  | [] => ['}']
  | m :: ms => newline (level + 1) ++ '"' :: memberChars (level + 1) m ++ prettyMembers level ms

theorem prettyMembers_cons (level : Nat) (m : String × Json) (ms : List (String × Json)) :
    prettyMembers level (m :: ms) =
      ',' :: newline (level + 1) ++ '"' :: memberChars (level + 1) m ++ prettyMembers level ms := by
  simp [prettyMembers, quoted, memberChars]

theorem prettyChars_obj (level : Nat) (ms : List (String × Json)) :
    prettyChars level (.obj ms) = '{' :: objectChars level ms := by
  cases ms with
  | nil => rfl
  | cons m ms => simp [prettyChars, objectChars, quoted, memberChars]

theorem stops_prettyItems (level : Nat) (vs : List Json) (rest : Received) :
    Stops ((prettyItems level vs).map some ++ rest) := by
  cases vs with
  | nil => exact .line _
  | cons v vs => exact .comma _

theorem stops_prettyMembers (level : Nat) (ms : List (String × Json)) (rest : Received) :
    Stops ((prettyMembers level ms).map some ++ rest) := by
  cases ms with
  | nil => exact .line _
  | cons m ms => exact .comma _

section Heads

variable (level : Nat) {v : Json} (vs : List Json) (m : String × Json)
  (ms : List (String × Json)) (rest : Received)

theorem nextItem_first (hi : v.isIntegral = true) :
    nextItem true ((listChars level (v :: vs)).map some ++ rest) =
      .ok (true, (prettyChars (level + 1) v).map some ++
        ((prettyItems level vs).map some ++ rest)) := by
  obtain ⟨c, cs, hc, ho⟩ := prettyChars_eq_cons hi (level + 1)
  simp only [listChars, hc, List.map_append, List.map_cons, List.append_assoc, List.cons_append]
  rw [nextItem, skipSpace_newline (level + 1) ho.1]
  split <;> simp_all [Opens]

theorem nextItem_next (hi : v.isIntegral = true) :
    nextItem false ((prettyItems level (v :: vs)).map some ++ rest) =
      .ok (true, (prettyChars (level + 1) v).map some ++
        ((prettyItems level vs).map some ++ rest)) := by
  obtain ⟨c, cs, hc, ho⟩ := prettyChars_eq_cons hi (level + 1)
  simp only [prettyItems, hc, List.map_append, List.map_cons, List.append_assoc, List.cons_append]
  rw [nextItem, skipSpace_of_not (by decide)]
  simp only [Bool.false_eq_true, ↓reduceIte, skipSpace_newline (level + 1) ho.1]
  split <;> simp_all [Opens]

theorem nextItem_last :
    nextItem false ((prettyItems level []).map some ++ rest) = .ok (false, rest) := by
  simp only [prettyItems, List.map_append, List.map_cons, List.map_nil, List.append_assoc,
    List.cons_append, List.nil_append]
  rw [nextItem, skipSpace_newline level (by decide)]
  rfl

theorem nextKey_first :
    nextKey true ((objectChars level (m :: ms)).map some ++ rest) =
      .ok (true, (memberChars (level + 1) m).map some ++
        ((prettyMembers level ms).map some ++ rest)) := by
  simp only [objectChars, List.map_append, List.map_cons, List.append_assoc, List.cons_append]
  rw [nextKey, skipSpace_newline (level + 1) (by decide)]
  rfl

theorem nextKey_next :
    nextKey false ((prettyMembers level (m :: ms)).map some ++ rest) =
      .ok (true, (memberChars (level + 1) m).map some ++
        ((prettyMembers level ms).map some ++ rest)) := by
  have hq : isSpace (some '"') = false := by decide
  simp only [prettyMembers_cons, List.map_append, List.map_cons, List.append_assoc,
    List.cons_append]
  rw [nextKey, skipSpace_of_not (by decide)]
  simp only [Bool.false_eq_true, ↓reduceIte, skipSpace_newline (level + 1) hq]

theorem nextKey_last :
    nextKey false ((prettyMembers level []).map some ++ rest) = .ok (false, rest) := by
  simp only [prettyMembers, List.map_append, List.map_cons, List.map_nil, List.append_assoc,
    List.cons_append, List.nil_append]
  rw [nextKey, skipSpace_newline level (by decide)]
  rfl

theorem length_listChars (v : Json) :
    (prettyChars (level + 1) v).length + (prettyItems level vs).length <
      (listChars level (v :: vs)).length := by
  simp only [listChars, newline, List.cons_append, List.length_cons, List.length_append]
  omega

theorem length_prettyItems (v : Json) :
    (prettyChars (level + 1) v).length + (prettyItems level vs).length <
      (prettyItems level (v :: vs)).length := by
  simp only [prettyItems, List.cons_append, List.length_cons, List.length_append]
  omega

theorem length_objectChars :
    (prettyChars (level + 1) m.2).length + (prettyMembers level ms).length <
      (objectChars level (m :: ms)).length := by
  simp only [objectChars, memberChars, List.length_cons, List.length_append]
  omega

theorem length_prettyMembers :
    (prettyChars (level + 1) m.2).length + (prettyMembers level ms).length <
      (prettyMembers level (m :: ms)).length := by
  simp only [prettyMembers, List.cons_append, List.length_cons, List.length_append]
  omega

end Heads

/-! Values -/

/-- Where the text of the tree stands behind blanks, the tree is read, and what follows is left. -/
def ReadsAt (depth : Nat) (v : Json) : Prop :=
  ∀ (fuel level : Nat) (s rest : Received), (prettyChars level v).length ≤ fuel → Stops rest →
    skipSpace s = (prettyChars level v).map some ++ rest → value fuel depth s = .ok (v, rest)

theorem exists_fuel {fuel level : Nat} {v : Json} (hi : v.isIntegral = true)
    (hf : (prettyChars level v).length ≤ fuel) : ∃ n, fuel = n + 1 := by
  obtain ⟨c, cs, hc, -⟩ := prettyChars_eq_cons hi level
  rw [hc, List.length_cons] at hf
  exact Nat.exists_eq_add_one_of_ne_zero (by omega)

theorem readsAt_of_succ {depth : Nat} {v : Json} (hi : v.isIntegral = true)
    (h : ∀ (fuel level : Nat) (s rest : Received), (prettyChars level v).length ≤ fuel + 1 →
      Stops rest → skipSpace s = (prettyChars level v).map some ++ rest →
      value (fuel + 1) depth s = .ok (v, rest)) : ReadsAt depth v := by
  intro fuel level s rest hf hr hs
  obtain ⟨fuel, rfl⟩ := exists_fuel hi hf
  exact h fuel level s rest hf hr hs

theorem value_digit {fuel depth : Nat} {c : Char} {s t : Received} (hc : Text.isDigit c = true)
    (hs : skipSpace s = some c :: t) :
    value (fuel + 1) depth s = (number false (some c :: t)).map fun r ↦ (.num r.1, r.2) := by
  rw [value, hs]
  split
  case h_9 h =>
    cases h
    rw [if_pos hc]
  case h_1 h => cases h
  case h_10 h => cases h
  all_goals
    rename_i h
    cases h
    exact absurd hc (by decide)

theorem value_int {fuel depth : Nat} {s rest : Received} {z : Int} (hz : Number.Fits (.int z))
    (hr : Stops rest) (hs : skipSpace s = (Text.decimalInt z).map some ++ rest) :
    value (fuel + 1) depth s = .ok (.num (.int z), rest) := by
  cases z with
  | ofNat n =>
    obtain ⟨c, cs, hc, hd⟩ := decimal_eq_cons n
    have hnum := number_decimal false (lt_of_fits hz) hr
    rw [Text.decimalInt, hc] at hs
    rw [hc] at hnum
    rw [value_digit hd hs]
    exact congrArg (Except.map _) hnum
  | negSucc n =>
    have hn := le_of_fits hz
    have hnum := number_decimal true (n := n + 1) (Nat.lt_of_le_of_lt hn (by decide)) hr
    rw [if_neg (by decide), if_pos ⟨Nat.succ_ne_zero n, hn⟩] at hnum
    rw [Text.decimalInt, List.map_cons, List.cons_append] at hs
    rw [value, hs]
    exact congrArg (Except.map _) hnum

section Steps

variable {fuel depth : Nat} {first : Bool} {v : Json} {s tail rest : Received} (level : Nat)

theorem items_end (hs : nextItem first s = .ok (false, rest)) :
    items (fuel + 1) depth first s = .ok ([], rest) := by
  rw [items]
  exact Except.bind_eq_ok_iff.mpr ⟨_, hs, rfl⟩

theorem items_step (hv : ReadsAt depth v) (hi : v.isIntegral = true)
    (hf : (prettyChars level v).length ≤ fuel) (hr : Stops tail)
    (hs : nextItem first s = .ok (true, (prettyChars level v).map some ++ tail)) :
    items (fuel + 1) depth first s =
      (items fuel depth false tail).map fun r ↦ (v :: r.1, r.2) := by
  have hread := hv fuel level _ tail hf hr (skipSpace_prettyChars hi level tail)
  rw [items, hs]
  simp only [bind, Except.bind, hread, Bool.not_true, Bool.false_eq_true, ↓reduceIte]
  rfl

theorem members_end {ms : Members} (hs : nextKey first s = .ok (false, rest)) :
    members (fuel + 1) depth first ms s = .ok (ms, rest) := by
  rw [members]
  exact Except.bind_eq_ok_iff.mpr ⟨_, hs, rfl⟩

theorem string_memberChars (m : String × Json) :
    string ((memberChars level m).map some ++ tail) =
      .ok (m.1, some ':' :: some ' ' :: ((prettyChars level m.2).map some ++ tail)) := by
  simp only [memberChars, List.map_append, List.map_cons, List.append_assoc, List.cons_append]
  exact string_quoted m.1 _

theorem members_step {m : String × Json} {ms : Members} (hv : ReadsAt depth m.2)
    (hi : m.2.isIntegral = true) (hf : (prettyChars level m.2).length ≤ fuel) (hr : Stops tail)
    (hs : nextKey first s = .ok (true, (memberChars level m).map some ++ tail)) :
    members (fuel + 1) depth first ms s =
      members fuel depth false (ms.insert m.1 m.2) tail := by
  have hread := hv fuel level (some ' ' :: _) tail hf hr (skipSpace_prettyChars hi level tail)
  have hcolon (s : Received) : colon (some ':' :: s) = .ok s := rfl
  rw [members, hs]
  simp only [bind, Except.bind, string_memberChars, hcolon, hread, Bool.not_true,
    Bool.false_eq_true, ↓reduceIte]

end Steps

section Lists

variable {depth : Nat} {vs : List Json}

/-- What a list holds is read back at this depth. -/
def ItemsReadAt (depth : Nat) (vs : List Json) : Prop :=
  ∀ v ∈ vs, ReadsAt depth v ∧ v.isIntegral = true

theorem items_next (h : ItemsReadAt depth vs) {fuel level : Nat}
    (hf : (prettyItems level vs).length ≤ fuel) (rest : Received) :
    items fuel depth false ((prettyItems level vs).map some ++ rest) = .ok (vs, rest) := by
  induction vs generalizing fuel with
  | nil =>
    have hlen : 0 < (prettyItems level []).length := by simp [prettyItems]
    obtain ⟨fuel, rfl⟩ := Nat.exists_eq_add_one_of_ne_zero (by omega : fuel ≠ 0)
    exact items_end (nextItem_last level rest)
  | cons v vs ih =>
    obtain ⟨⟨hv, hi⟩, hvs⟩ := List.forall_mem_cons.mp h
    have hlen := length_prettyItems level vs v
    obtain ⟨fuel, rfl⟩ := Nat.exists_eq_add_one_of_ne_zero (by omega : fuel ≠ 0)
    rw [items_step (level + 1) hv hi (by omega) (stops_prettyItems level vs rest)
      (nextItem_next level vs rest hi), ih hvs (by omega)]
    rfl

theorem items_first (h : ItemsReadAt depth vs) {fuel level : Nat}
    (hf : (listChars level vs).length ≤ fuel) (rest : Received) :
    items fuel depth true ((listChars level vs).map some ++ rest) = .ok (vs, rest) := by
  cases vs with
  | nil =>
    have hlen : 0 < (listChars level []).length := Nat.zero_lt_one
    obtain ⟨fuel, rfl⟩ := Nat.exists_eq_add_one_of_ne_zero (by omega : fuel ≠ 0)
    exact items_end rfl
  | cons v vs =>
    obtain ⟨⟨hv, hi⟩, hvs⟩ := List.forall_mem_cons.mp h
    have hlen := length_listChars level vs v
    obtain ⟨fuel, rfl⟩ := Nat.exists_eq_add_one_of_ne_zero (by omega : fuel ≠ 0)
    rw [items_step (level + 1) hv hi (by omega) (stops_prettyItems level vs rest)
      (nextItem_first level vs rest hi), items_next hvs (by omega) rest]
    rfl

theorem readsAt_arr (h : ItemsReadAt (depth + 1) vs) : ReadsAt (depth + 2) (.arr vs) := by
  refine readsAt_of_succ (isIntegral_arr.mpr fun v hv ↦ (h v hv).2) ?_
  intro fuel level s rest hf hr hs
  rw [prettyChars_arr] at hf hs
  have hitems := items_first h (by simpa using hf) rest
  rw [value, hs]
  exact congrArg (Except.map _) hitems

end Lists

section Objects

variable {depth : Nat} {ms : List (String × Json)}

/-- What an object holds is read back at this depth. -/
def MembersReadAt (depth : Nat) (ms : List (String × Json)) : Prop :=
  ∀ m ∈ ms, ReadsAt depth m.2 ∧ m.2.isIntegral = true

theorem members_next (h : MembersReadAt depth ms) {fuel level : Nat}
    (hf : (prettyMembers level ms).length ≤ fuel) (ms' : Members) (rest : Received) :
    members fuel depth false ms' ((prettyMembers level ms).map some ++ rest) =
      .ok (ms.foldl (fun ms m ↦ ms.insert m.1 m.2) ms', rest) := by
  induction ms generalizing fuel ms' with
  | nil =>
    have hlen : 0 < (prettyMembers level []).length := by simp [prettyMembers]
    obtain ⟨fuel, rfl⟩ := Nat.exists_eq_add_one_of_ne_zero (by omega : fuel ≠ 0)
    exact members_end (nextKey_last level rest)
  | cons m ms ih =>
    obtain ⟨⟨hv, hi⟩, hms⟩ := List.forall_mem_cons.mp h
    have hlen := length_prettyMembers level m ms
    obtain ⟨fuel, rfl⟩ := Nat.exists_eq_add_one_of_ne_zero (by omega : fuel ≠ 0)
    rw [members_step (level + 1) hv hi (by omega) (stops_prettyMembers level ms rest)
      (nextKey_next level m ms rest), ih hms (by omega)]
    rfl

theorem members_first (h : MembersReadAt depth ms) {fuel level : Nat}
    (hf : (objectChars level ms).length ≤ fuel) (rest : Received) :
    members fuel depth true [] ((objectChars level ms).map some ++ rest) =
      .ok (Members.ofList ms, rest) := by
  cases ms with
  | nil =>
    have hlen : 0 < (objectChars level []).length := Nat.zero_lt_one
    obtain ⟨fuel, rfl⟩ := Nat.exists_eq_add_one_of_ne_zero (by omega : fuel ≠ 0)
    exact members_end rfl
  | cons m ms =>
    obtain ⟨⟨hv, hi⟩, hms⟩ := List.forall_mem_cons.mp h
    have hlen := length_objectChars level m ms
    obtain ⟨fuel, rfl⟩ := Nat.exists_eq_add_one_of_ne_zero (by omega : fuel ≠ 0)
    rw [members_step (level + 1) hv hi (by omega) (stops_prettyMembers level ms rest)
      (nextKey_first level m ms rest), members_next hms (by omega)]
    rfl

theorem readsAt_obj (hms : Members.Sorted ms) (h : MembersReadAt (depth + 1) ms) :
    ReadsAt (depth + 2) (.obj ms) := by
  refine readsAt_of_succ (isIntegral_obj.mpr fun m hm ↦ (h m hm).2) ?_
  intro fuel level s rest hf hr hs
  rw [prettyChars_obj] at hf hs
  have hmembers := members_first h (by simpa using hf) rest
  rw [hms.ofList_eq] at hmembers
  rw [value, hs]
  exact congrArg (Except.map _) hmembers

end Objects

theorem readsAt_of_within {n depth : Nat} {v : Json} (h : v.Within n) (hi : v.isIntegral = true)
    (hd : n < depth) : ReadsAt depth v := by
  induction h generalizing depth with
  | null =>
    refine readsAt_of_succ hi fun fuel level s rest _ _ hs ↦ ?_
    rw [value, hs]
    rfl
  | bool n b =>
    refine readsAt_of_succ hi fun fuel level s rest _ _ hs ↦ ?_
    cases b <;> (rw [value, hs]; rfl)
  | @num n x hx =>
    refine readsAt_of_succ hi fun fuel level s rest _ hr hs ↦ ?_
    cases x with
    | int z => exact value_int hx hr hs
    | float x => cases hi
  | str n s =>
    refine readsAt_of_succ hi fun fuel level s' rest _ _ hs ↦ ?_
    have hstring := string_quoted s rest
    simp only [prettyChars, quoted, List.map_append, List.map_cons, List.map_nil, List.cons_append,
      List.append_assoc, List.nil_append] at hs
    rw [value, hs]
    exact congrArg (Except.map _) hstring
  | @arr n vs h ih =>
    obtain ⟨depth, rfl⟩ : ∃ d, depth = d + 2 := ⟨depth - 2, by omega⟩
    rw [isIntegral_arr] at hi
    exact readsAt_arr fun v hv ↦ ⟨ih v hv (hi v hv) (by omega), hi v hv⟩
  | @obj n ms hs h ih =>
    obtain ⟨depth, rfl⟩ : ∃ d, depth = d + 2 := ⟨depth - 2, by omega⟩
    rw [isIntegral_obj] at hi
    exact readsAt_obj hs fun m hm ↦ ⟨ih m hm (hi m hm) (by omega), hi m hm⟩

end Reader

end DeliveryCharts.Json
