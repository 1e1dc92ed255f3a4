import DeliveryCharts.Proofs.Template.Cutting
import DeliveryCharts.Proofs.Text.Blank
import DeliveryCharts.Template.Filter.Table
import DeliveryCharts.Template.Function

/-!
The names that are looked for on a line. A bar is taken for a filter and a parenthesis for a call,
wherever it stands; the first name that is not suggested is the one that is reported.
-/

namespace DeliveryCharts.Template.Hint

open Text (isWordChar)

variable {line cs back more before rest : List Char} {c : Char}

/-! Places on a line. -/

/-- What `look` finds at the characters of a text, one after the other; `back` is the text before
them, from its end. -/
def found (look : List Char → List Char → Option String) : List Char → List Char → List String
  | _, [] => []
  | back, c :: cs => (look back (c :: cs)).toList ++ found look (c :: back) cs

theorem found_append (look : List Char → List Char → Option String) {before : List Char}
    (h : ∀ back c more, c ∈ before → look back (c :: more) = none) (back cs : List Char) :
    found look back (before ++ cs) = found look (before.reverse ++ back) cs := by
  induction before generalizing back with
  | nil => rfl
  | cons c before ih =>
    have hc : look back (c :: (before ++ cs)) = none := h _ _ _ List.mem_cons_self
    rw [List.cons_append, found, hc, ih fun back d more hd ↦ h back d more (List.mem_cons_of_mem c hd)]
    simp

/-- Where nothing is looked for behind a character, it bounds the search. -/
theorem found_wall {look : List Char → List Char → Option String}
    (h : ∀ back ahead, look (back ++ c :: more) ahead = look back ahead) (back cs : List Char) :
    found look (back ++ c :: more) cs = found look back cs := by
  induction cs generalizing back with
  | nil => rfl
  | cons d cs ih => rw [found, found, h, ← List.cons_append, ih]

/-- The word at the head of a text, behind blanks. -/
def wordAhead? (cs : List Char) : Option String :=
  let word := (Text.trimStartChars cs).takeWhile isWordChar
  if word = [] then none else some (.ofList word)

/-- The word behind a bar. -/
def behindBar (_ ahead : List Char) : Option String :=
  match ahead with
  | '|' :: cs => wordAhead? cs
  | _ => none

/-- The word at the end of a text, unless it is a method. -/
def wordBefore? (back : List Char) : Option String :=
  let word := (back.takeWhile isWordChar).reverse
  if word = [] ∨ (back.dropWhile isWordChar).head? = some '.' then none else some (.ofList word)

/-- What is found right in front of an opening parenthesis. -/
def beforeParen (behind : List Char → Option String) (back ahead : List Char) : Option String :=
  match ahead with
  | '(' :: _ => behind back
  | _ => none

/-- All words behind bars. -/
def filterWords (line : List Char) : List String := found behindBar [] line

/-- All words in front of parentheses, but methods. -/
def callWords (line : List Char) : List String := found (beforeParen wordBefore?) [] line

theorem behindBar_of_ne (h : c ≠ '|') (back more : List Char) : behindBar back (c :: more) = none := by
  rw [behindBar]
  intro cs hcs
  exact h (List.cons.inj hcs).1

theorem beforeParen_of_ne (h : c ≠ '(') (behind : List Char → Option String)
    (back more : List Char) : beforeParen behind back (c :: more) = none := by
  rw [beforeParen]
  intro cs hcs
  exact h (List.cons.inj hcs).1

/-! Filters. -/

theorem splitAll_eq_cons (line : List Char) :
    ∃ parts, Text.splitAll (· == '|') line = line.takeWhile (· != '|') :: parts ∧
      unknownFilter? line = unknownAmong? parts := by
  have hcons : ∃ parts, Text.splitAll (· == '|') line = line.takeWhile (· != '|') :: parts := by
    induction line with
    | nil => exact ⟨[], rfl⟩
    | cons c line ih =>
      obtain ⟨parts, hparts⟩ := ih
      by_cases hc : c = '|'
      · subst hc
        exact ⟨_, rfl⟩
      · refine ⟨parts, ?_⟩
        rw [Text.splitAll, if_neg (by simpa using hc), hparts,
          List.takeWhile_cons_of_pos (by simpa using hc)]
  obtain ⟨parts, hparts⟩ := hcons
  exact ⟨parts, hparts, by rw [unknownFilter?, hparts]; rfl⟩

theorem takeWhile_takeWhile_of_imp {p q : Char → Bool} (h : ∀ c, q c = true → p c = true)
    (cs : List Char) : (cs.takeWhile p).takeWhile q = cs.takeWhile q := by
  induction cs with
  | nil => rfl
  | cons c cs ih =>
    cases hq : q c with
    | true => simp [h c hq, hq, ih]
    | false => cases hp : p c <;> simp [hp, hq]

/-- The word ends before the next bar. -/
theorem leadingWord?_part (cs : List Char) :
    leadingWord? (Text.trimStartChars (cs.takeWhile (· != '|'))) = .ok (wordAhead? cs) := by
  have hbar : isWordChar '|' = false := by decide
  have hword : ∀ c, isWordChar c = true → (c != '|') = true := by
    intro c hc
    simp only [bne_iff_ne]
    rintro rfl
    rw [hbar] at hc
    cases hc
  have hcut : (Text.trimStartChars (cs.takeWhile (· != '|'))).takeWhile isWordChar =
      (Text.trimStartChars cs).takeWhile isWordChar := by
    induction cs with
    | nil => rfl
    | cons c cs ih =>
      by_cases hblank : Text.isBlank c = true
      · have hne : (c != '|') = true := by
          simp only [bne_iff_ne]
          rintro rfl
          cases hblank
        rw [List.takeWhile_cons_of_pos (p := (· != '|')) hne, Text.trimStartChars,
          Text.trimStartChars, List.dropWhile_cons_of_pos hblank, List.dropWhile_cons_of_pos hblank]
        exact ih
      · replace hblank := Bool.eq_false_iff.mpr hblank
        have htrim : Text.trimStartChars ((c :: cs).takeWhile (· != '|')) =
            (c :: cs).takeWhile (· != '|') := by
          rw [List.takeWhile_cons]
          split
          · exact Text.trimStartChars_cons hblank _
          · rfl
        rw [htrim, Text.trimStartChars_cons hblank, takeWhile_takeWhile_of_imp hword]
  rw [leadingWord?_eq, hcut]
  rfl

/-- What is reported of a line is its first word behind a bar that is not suggested. -/
theorem unknownFilter?_eq (line : List Char) :
    unknownFilter? line = .ok ((filterWords line).find? fun f ↦ !filters.contains f) := by
  have hfound (line back : List Char) : unknownFilter? line =
      .ok ((found behindBar back line).find? fun f ↦ !filters.contains f) := by
    induction line generalizing back with
    | nil => rfl
    | cons c line ih =>
      rw [found]
      by_cases hc : c = '|'
      · subst hc
        obtain ⟨parts, hparts, hunknown⟩ := splitAll_eq_cons line
        have hsplit : unknownFilter? ('|' :: line) =
            unknownAmong? (line.takeWhile (· != '|') :: parts) := by
          rw [unknownFilter?, Text.splitAll, if_pos (show ('|' == '|') = true from rfl), hparts]
          rfl
        rw [hsplit, unknownAmong?, leadingWord?_part, ← hunknown, ih ('|' :: back)]
        simp only [bind, Except.bind, behindBar]
        cases wordAhead? line with
        | none => rfl
        | some f =>
          rw [Option.toList_some, List.singleton_append, List.find?_cons]
          show (if filters.contains f then _ else _) = _
          cases filters.contains f <;> rfl
      · have hskip : unknownFilter? (c :: line) = unknownFilter? line := by
          obtain ⟨parts, hparts, hunknown⟩ := splitAll_eq_cons line
          rw [hunknown, unknownFilter?, Text.splitAll, if_neg (by simpa using hc), hparts]
          rfl
        rw [hskip, behindBar_of_ne hc, ih (c :: back)]
        rfl
  exact hfound line []

/-! Functions. -/

/-- A character that is neither of a word nor a point: what stands before it does not matter. -/
def IsWall (c : Char) : Prop := isWordChar c = false ∧ c ≠ '.'

theorem takeWhile_append_wall {p : Char → Bool} (hc : p c = false) (cs more : List Char) :
    (cs ++ c :: more).takeWhile p = cs.takeWhile p := by
  induction cs with
  | nil => rw [List.nil_append, List.takeWhile_cons_of_neg (by simp [hc])]; rfl
  | cons d cs ih => rw [List.cons_append, List.takeWhile_cons, List.takeWhile_cons, ih]

theorem dropWhile_append_wall {p : Char → Bool} (hc : p c = false) (cs more : List Char) :
    (cs ++ c :: more).dropWhile p = cs.dropWhile p ++ c :: more := by
  induction cs with
  | nil => rw [List.nil_append, List.dropWhile_cons_of_neg (by simp [hc])]; rfl
  | cons d cs ih =>
    rw [List.cons_append, List.dropWhile_cons, List.dropWhile_cons]
    split
    · exact ih
    · rfl

theorem wordBefore?_wall (hc : IsWall c) (back more : List Char) :
    wordBefore? (back ++ c :: more) = wordBefore? back := by
  have htake : (back ++ c :: more).takeWhile isWordChar = back.takeWhile isWordChar :=
    takeWhile_append_wall hc.1 back more
  have hdrop : (back ++ c :: more).dropWhile isWordChar = back.dropWhile isWordChar ++ c :: more :=
    dropWhile_append_wall hc.1 back more
  have hpoint : (back.dropWhile isWordChar ++ c :: more).head? = some '.' ↔
      (back.dropWhile isWordChar).head? = some '.' := by
    cases back.dropWhile isWordChar with
    | nil => simp [hc.2]
    | cons d tail => simp
  simp only [wordBefore?, htake, hdrop, hpoint]

theorem beforeParen_wall {behind : List Char → Option String}
    (h : ∀ back, behind (back ++ c :: more) = behind back) (back ahead : List Char) :
    beforeParen behind (back ++ c :: more) ahead = beforeParen behind back ahead := by
  cases ahead with
  | nil => rfl
  | cons d ahead =>
    by_cases hd : d = '('
    · subst hd
      exact h back
    · rw [beforeParen_of_ne hd, beforeParen_of_ne hd]

/-- The words that a call is suggested for. -/
def isSuggested (f : String) : Bool := functions.contains f || filters.contains f

theorem unknownCall?_eq (h : ¬ BehindWide before) : unknownCall? before =
    .ok ((wordBefore? before.reverse).filter fun f ↦ !isSuggested f) := by
  have hname (ahead word : List Char) (hahead : (before.reverse.dropWhile isWordChar) = ahead.reverse)
      (hword : before.reverse.takeWhile isWordChar = word.reverse) :
      unknownName? ahead word = (wordBefore? before.reverse).filter fun f ↦ !isSuggested f := by
    rw [unknownName?, wordBefore?, hahead, hword, List.reverse_reverse, List.head?_reverse]
    cases hword : word with
    | nil => simp
    | cons c word =>
      by_cases hpoint : ahead.getLast? = some '.'
      · simp [hpoint]
      · have hempty : (c :: word).isEmpty = false := rfl
        simp only [hempty, hpoint, reduceCtorEq, or_self, decide_false, Bool.false_or, if_false,
          Option.filter_some, isSuggested]
        cases functions.contains (String.ofList (c :: word)) <;>
          cases filters.contains (String.ofList (c :: word)) <;> rfl
  obtain hall | ⟨ahead, c, word, rfl, hc, hword⟩ := Text.last_cases (!isWordChar ·) before
  · have hstart : wordStart before = 0 := by rw [wordStart, Text.lastByte?_of_forall hall]
    have hcut := cut_append [] before
    have hwords : ∀ c ∈ before.reverse, isWordChar c = true := by simpa using hall
    rw [unknownCall?, hstart]
    refine (congrArg (Except.map _) hcut).trans (congrArg Except.ok (hname [] before ?_ ?_))
    · rw [← List.append_nil before.reverse, List.dropWhile_append_of_pos hwords]
      rfl
    · rw [← List.append_nil before.reverse, List.takeWhile_append_of_pos hwords, List.takeWhile_nil]
  · have hsize : c.utf8Size = 1 := by
      have hpos := c.utf8Size_pos
      have hle : ¬ 1 < c.utf8Size := fun hlt ↦
        h ⟨ahead, c, word, rfl, by simpa using hc, by simpa using hword, hlt⟩
      omega
    have hstart : wordStart (ahead ++ c :: word) = Text.utf8Length (ahead ++ [c]) := by
      rw [wordStart, Text.lastByte?_append ahead hc hword]
      simp [Text.utf8Length, hsize]
    have hcut := cut_append (ahead ++ [c]) word
    rw [List.append_assoc, List.singleton_append] at hcut
    have hwords : ∀ d ∈ word.reverse, isWordChar d = true := by simpa using hword
    have hc' : isWordChar c = false := by simpa using hc
    rw [unknownCall?, hstart]
    refine (congrArg (Except.map _) hcut).trans (congrArg Except.ok (hname (ahead ++ [c]) word ?_ ?_))
    · rw [List.reverse_append, List.reverse_cons, List.append_assoc,
        List.dropWhile_append_of_pos hwords, List.singleton_append,
        List.dropWhile_cons_of_neg (by simp [hc'])]
      simp
    · rw [List.reverse_append, List.reverse_cons, List.append_assoc,
        List.takeWhile_append_of_pos hwords, List.singleton_append,
        List.takeWhile_cons_of_neg (by simp [hc']), List.append_nil]

/-- What is reported of a line is its first word in front of a parenthesis that is not suggested. -/
theorem unknownFunction?_eq (h : ¬ Stumbles line) :
    unknownFunction? line = .ok ((callWords line).find? fun f ↦ !isSuggested f) := by
  induction hn : line.length using Nat.strongRecOn generalizing line with
  | _ n ih =>
    have hopening {before : List Char} (hbefore : '(' ∉ before) (back : List Char) (c : Char)
        (more : List Char) (hc : c ∈ before) :
        beforeParen wordBefore? back (c :: more) = none := by
      refine beforeParen_of_ne ?_ _ back more
      rintro rfl
      exact hbefore hc
    obtain hnone | ⟨before, rest, rfl, hbefore⟩ := opening_cases line
    · have hcalls := found_append (beforeParen wordBefore?) (hopening hnone) [] []
      rw [List.append_nil] at hcalls
      rw [unknownFunction?_of_not_mem hnone, callWords, hcalls]
      rfl
    · have hwide : ¬ BehindWide before := fun hwide ↦
        h ⟨[], before, rest, rfl, .inl rfl, hbefore, hwide, unknownFunction?_of_not_mem (by simp)⟩
      have hwall : IsWall '(' := ⟨by decide, by decide⟩
      have hcalls : callWords (before ++ '(' :: rest) =
          (wordBefore? before.reverse).toList ++ callWords rest := by
        rw [callWords, found_append (beforeParen wordBefore?) (hopening hbefore), List.append_nil, found]
        exact congrArg _ (found_wall (beforeParen_wall fun back ↦ wordBefore?_wall hwall back _) [] rest)
      have hcall := unknownFunction?_append hbefore rest
      rw [unknownCall?_eq hwide] at hcall
      rw [hcall, hcalls]
      have hrest (hnone : (wordBefore? before.reverse).filter (fun f ↦ !isSuggested f) = none) :
          unknownFunction? rest = .ok ((callWords rest).find? fun f ↦ !isSuggested f) := by
        refine ih rest.length (by rw [← hn, List.length_append, List.length_cons]; omega) ?_ rfl
        intro hstumbles
        refine h (stumbles_iff.mpr ?_)
        rw [hcall, hnone]
        exact stumbles_iff.mp hstumbles
      cases hword : wordBefore? before.reverse with
      | none =>
        rw [hword] at hrest
        exact hrest rfl
      | some f =>
        rw [hword] at hrest
        rw [Option.toList_some, List.singleton_append, List.find?_cons, Option.filter_some]
        rw [Option.filter_some] at hrest
        cases hf : isSuggested f with
        | true =>
          rw [hf] at hrest
          exact hrest rfl
        | false => rfl

/-- Of the functions that are known, all but one are suggested. -/
theorem names_eq : Function.names = functions ++ ["debug"] := rfl

end DeliveryCharts.Template.Hint

namespace DeliveryCharts.Template.Filter

/-- The filters that apply another filter or a test. -/
def applying : List String := ["select", "reject", "selectattr", "rejectattr", "map"]

/-- The filter can be applied. -/
def isKnown (name : String) : Bool := applying.contains name || (table name).isSome

theorem isSome_applyTo (mode : Mode) (n : Nat) (name : String) (args : List Value) :
    (applyTo mode (n + 1) name args).isSome = isKnown name := by
  unfold applyTo
  split
  case h_6 name _ _ _ _ hselect hreject hselectattr hrejectattr hmap =>
    have hname : applying.contains name = false := by
      simp only [applying, List.contains_eq_mem, decide_eq_false_iff_not, List.mem_cons,
        List.not_mem_nil, or_false, not_or]
      exact ⟨hselect, hreject, hselectattr, hrejectattr, hmap n rfl⟩
    rw [isKnown, hname, Option.isSome_map, Bool.false_or]
  all_goals rfl

/-- An unknown filter is the one that the fault names. -/
theorem apply_of_not_isKnown {name : String} (h : isKnown name = false) (mode : Mode)
    (args : List Value) :
    apply mode name args = .error ⟨.unknownFilter, some s!"filter {name} is unknown", none⟩ := by
  have hnone : applyTo mode (args.length + 1) name args = none := by
    rw [← Option.not_isSome_iff_eq_none, isSome_applyTo, h]
    exact Bool.false_ne_true
  rw [apply, hnone]

/-- The filters that are not suggested, though they can be applied. -/
def unsuggested : List String :=
  ["safe", "escape", "e", "capitalize", "split", "lines", "abs", "round", "bool", "pprint", "count",
    "d", "attr", "dictsort", "reverse", "min", "max", "sum", "batch", "slice", "groupby", "chain",
    "zip", "select", "reject", "selectattr", "rejectattr", "map"]

theorem isKnown_iff (name : String) :
    isKnown name = true ↔ name ∈ Hint.filters ∨ name ∈ unsuggested := by
  constructor
  · intro h
    refine Decidable.byContradiction fun hn ↦ ?_
    obtain ⟨hfilters, hunsuggested⟩ := not_or.mp hn
    have hmanifest : manifest name = none := by
      unfold manifest
      split <;> first | rfl | exact absurd (by decide) hfilters
    have hscalar : scalar name = none := by
      unfold scalar
      split <;> first | rfl | exact absurd (by decide) hfilters | exact absurd (by decide) hunsuggested
    have hcollection : collection name = none := by
      unfold collection
      split <;> first | rfl | exact absurd (by decide) hfilters | exact absurd (by decide) hunsuggested
    have happlying : applying.contains name = false := by
      have hsub : ∀ f ∈ applying, f ∈ unsuggested := by decide
      simp only [List.contains_eq_mem, decide_eq_false_iff_not]
      exact fun hmem ↦ hunsuggested (hsub name hmem)
    rw [isKnown, happlying, table, hmanifest, hscalar, hcollection] at h
    cases h
  · have hall : ∀ f ∈ Hint.filters ++ unsuggested, isKnown f = true := by decide
    intro h
    exact hall name (List.mem_append.mpr h)

end DeliveryCharts.Template.Filter
