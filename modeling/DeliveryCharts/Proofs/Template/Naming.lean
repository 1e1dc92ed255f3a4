import DeliveryCharts.Proofs.Template.Layout
import DeliveryCharts.Proofs.Text.Lines
import Mathlib.Data.List.Infix

/-!
The names that a line of a template applies and calls, as its tokens tell, and the names that are
looked for on the line. What is applied and called is found, in its order; what is found besides
stands in texts, comments and the text between the blocks.
-/

namespace DeliveryCharts.Template

open Scan
open Hint (IsWall behindBar behindBar_of_ne beforeParen beforeParen_of_ne beforeParen_wall found
  wordAhead? wordBefore? wordBefore?_wall takeWhile_append_wall)
open Text (isWordChar)

variable {inside : Bool} {n m line : Nat} {cs shown rest back : List Char} {ts ahead : List Located}
  {p q : Option Located} {f : String} {c : Char}

/-! What a line applies and calls. -/

/-- The name of a token that stands on line `n`. -/
def nameOn? (n : Nat) : Option Located → Option String
  | some (.name f, line) => if line = n then some f else none
  | _ => none

/-- The filters of line `n`: the names behind a bar, both on the line. -/
def appliedOn (n : Nat) : List Located → List String
  | [] => []
  | t :: ts => (if t = (.symbol "|", n) then nameOn? n ts.head? else none).toList ++ appliedOn n ts

/-- Behind a point stands a method, and behind a number no name can be called. -/
def Token.admitsCall : Token → Bool
  | .symbol "." => false
  | t => !t.isNumber

/-- What is called on line `n`: the names in front of a parenthesis, both on the line, that are no
methods. Besides functions and macros these are keywords, and the filters and tests that are given
arguments. The two tokens before the others are `p` and `q`. -/
def calledOn (n : Nat) : Option Located → Option Located → List Located → List String
  | _, _, [] => []
  | p, q, t :: ts =>
    (if t = (.symbol "(", n) ∧ p.all (·.1.admitsCall) then nameOn? n q else none).toList ++
      calledOn n q (some t) ts

theorem nameOn?_eq_some (h : nameOn? n q = some f) : q = some (.name f, n) := by
  unfold nameOn? at h
  split at h
  · split at h
    · rename_i hline
      rw [← Option.some.inj h, hline]
    · cases h
  · cases h

theorem appliedOn_append (h : ∀ t ∈ ahead, t.1.isOpaque = true) :
    appliedOn n (ahead ++ ts) = appliedOn n ts := by
  induction ahead with
  | nil => rfl
  | cons t ahead ih =>
    obtain ⟨ht, hahead⟩ := List.forall_mem_cons.mp h
    have hne : t ≠ (.symbol "|", n) := by
      rintro rfl
      cases ht
    rw [List.cons_append, appliedOn, if_neg hne, ih hahead]
    rfl

/-! What is found on a line of a text. -/

/-- What is found on line `n` of a text that starts on line `line`. -/
def foundOn (n : Nat) (look : List Char → List Char → Option String) :
    Nat → List Char → List Char → List String
  | _, _, [] => []
  | line, back, c :: cs =>
    (if line = n then look back ((c :: cs).takeWhile (· != '\n')) else none).toList ++
      foundOn n look (line + feeds [c]) (c :: back) cs

section Found

variable {look : List Char → List Char → Option String}

theorem exists_foundOn_append (n : Nat) (look : List Char → List Char → Option String) (line : Nat)
    (back shown rest : List Char) : ∃ first, foundOn n look line back (shown ++ rest) =
      first ++ foundOn n look (line + feeds shown) (shown.reverse ++ back) rest := by
  induction shown generalizing line back with
  | nil => exact ⟨[], rfl⟩
  | cons c shown ih =>
    obtain ⟨first, hfirst⟩ := ih (line + feeds [c]) (c :: back)
    have hline : line + feeds [c] + feeds shown = line + feeds (c :: shown) := by
      rw [feeds_cons c shown, Nat.add_assoc]
    have hback : shown.reverse ++ c :: back = (c :: shown).reverse ++ back := by simp
    rw [hline, hback] at hfirst
    exact ⟨_, by rw [List.cons_append, foundOn, hfirst, List.append_assoc]⟩

theorem foundOn_sublist {names : List String}
    (h : names.Sublist (foundOn n look (line + feeds shown) (shown.reverse ++ back) rest)) :
    names.Sublist (foundOn n look line back (shown ++ rest)) := by
  obtain ⟨first, hfirst⟩ := exists_foundOn_append n look line back shown rest
  rw [hfirst]
  exact h.trans (List.sublist_append_right _ _)

theorem foundOn_rest (h : foundOn n look line back (shown ++ rest) = []) :
    foundOn n look (line + feeds shown) (shown.reverse ++ back) rest = [] := by
  obtain ⟨first, hfirst⟩ := exists_foundOn_append n look line back shown rest
  rw [hfirst] at h
  exact (List.append_eq_nil_iff.mp h).2

theorem foundOn_step {names : List String}
    (h : names.Sublist (foundOn n look (line + feeds [c]) (c :: back) rest)) :
    names.Sublist (foundOn n look line back (c :: rest)) :=
  h.trans (List.sublist_append_right _ _)

theorem foundOn_later (h : n < line) : foundOn n look line back cs = [] := by
  induction cs generalizing line back with
  | nil => rfl
  | cons c cs ih =>
    rw [foundOn, if_neg (Nat.ne_of_gt h), ih (Nat.lt_of_lt_of_le h (Nat.le_add_right _ _))]
    rfl

theorem foundOn_before {before : List Char} (hlines : line + feeds before = n)
    (hlast : before = [] ∨ before.getLast? = some '\n') (rest : List Char) :
    foundOn n look line back (before ++ rest) = foundOn n look n (before.reverse ++ back) rest := by
  induction before generalizing line back with
  | nil =>
    obtain rfl : line = n := hlines
    rfl
  | cons c before ih =>
    have hlast' : (c :: before).getLast? = some '\n' := hlast.resolve_left (List.cons_ne_nil _ _)
    have hsum : line + feeds [c] + feeds before = n := by
      rw [← hlines, feeds_cons c before, Nat.add_assoc]
    have hlt : line ≠ n := by
      have hpos : 0 < feeds (c :: before) :=
        List.countP_pos_iff.mpr ⟨'\n', List.mem_of_getLast? hlast', rfl⟩
      omega
    have hrest : before = [] ∨ before.getLast? = some '\n' := by
      rcases List.eq_nil_or_concat before with hnil | ⟨front, d, rfl⟩
      · exact .inl hnil
      · right
        simpa [List.getLast?_cons, List.getLast?_append] using hlast'
    rw [List.cons_append, foundOn, if_neg hlt, ih hsum hrest]
    simp

/-- What is looked for depends on the line only. -/
structure IsLocal (look : List Char → List Char → Option String) : Prop where
  wall : ∀ back more ahead, look (back ++ '\n' :: more) ahead = look back ahead
  terminator : ∀ back ahead, look back (ahead ++ ['\r']) = look back ahead
  nil : ∀ back, look back [] = none

theorem foundOn_line (hlook : IsLocal look) {line terminator after : List Char} (h : '\n' ∉ line)
    (hterminator : terminator ∈ [['\n'], ['\r', '\n']] ∨ (terminator = [] ∧ after = []))
    (n : Nat) (back : List Char) :
    foundOn n look n back (line ++ (terminator ++ after)) = found look back line := by
  have hfeed (back after : List Char) : foundOn n look n back ('\n' :: after) = [] := by
    have hnil : ('\n' :: after).takeWhile (· != '\n') = [] := by simp
    have hlater : n < n + feeds ['\n'] := Nat.lt_succ_self n
    rw [foundOn, if_pos rfl, hnil, hlook.nil, foundOn_later hlater]
    rfl
  have hend : (terminator ++ after).takeWhile (· != '\n') ∈ [[], ['\r']] := by
    rcases hterminator with hmem | ⟨rfl, rfl⟩
    · simp only [List.mem_cons, List.not_mem_nil, or_false] at hmem
      rcases hmem with rfl | rfl <;> simp
    · simp
  induction line generalizing back with
  | nil =>
    rcases hterminator with hmem | ⟨rfl, rfl⟩
    · simp only [List.mem_cons, List.not_mem_nil, or_false] at hmem
      rcases hmem with rfl | rfl
      · exact hfeed back after
      · have hreturn : ('\r' :: '\n' :: after).takeWhile (· != '\n') = [] ++ ['\r'] := by simp
        show foundOn n look n back ('\r' :: '\n' :: after) = []
        rw [foundOn, if_pos rfl, hreturn, hlook.terminator, hlook.nil]
        exact hfeed _ after
    · rfl
  | cons c line ih =>
    obtain ⟨hc, hline⟩ := not_or.mp (mt List.mem_cons.mpr h)
    have hkept : ∀ d ∈ c :: line, (d != '\n') = true := by
      intro d hd
      simp only [bne_iff_ne]
      rintro rfl
      exact h hd
    have hsame : look back ((c :: line) ++ (terminator ++ after).takeWhile (· != '\n')) =
        look back (c :: line) := by
      simp only [List.mem_cons, List.not_mem_nil, or_false] at hend
      rcases hend with hnil | hreturn
      · rw [hnil, List.append_nil]
      · rw [hreturn, hlook.terminator]
    have hfeeds : feeds [c] = 0 := feeds_eq_zero (by simpa using hc)
    rw [List.cons_append, foundOn, if_pos rfl, ← List.cons_append,
      List.takeWhile_append_of_pos hkept, hsame, hfeeds, Nat.add_zero, ih hline, found]

/-- On its own, a line has what is found on it in the text. -/
theorem foundOn_eq (hlook : IsLocal look) {source line : List Char} {n : Nat}
    (h : (Text.lines source)[n]? = some line) :
    foundOn (n + 1) look 1 [] source = found look [] line := by
  obtain ⟨before, terminator, after, rfl, hcount, hbefore, hline, hterminator⟩ := Text.exists_line h
  have hlines : 1 + feeds before = n + 1 := by
    rw [feeds, hcount, Nat.add_comm]
  rw [foundOn_before hlines hbefore, List.append_nil, foundOn_line hlook hline hterminator]
  rcases hbefore with rfl | hlast
  · rfl
  · obtain ⟨front, rfl⟩ := List.getLast?_eq_some_iff.mp hlast
    rw [List.reverse_append]
    exact Hint.found_wall (fun back ahead ↦ hlook.wall back _ ahead) [] line

end Found

/-! Filters. -/

theorem isWordChar_of_isNameChar (h : isNameChar c = true) :
    isWordChar c = true ∧ Text.isBlank c = false ∧ c ≠ '\n' := by
  have hall : ∀ k < 123, isNameChar (.ofNat k) = true →
      isWordChar (.ofNat k) = true ∧ Text.isBlank (.ofNat k) = false ∧ Char.ofNat k ≠ '\n' := by
    decide
  have hlt : c.toNat < 123 := by
    have hz : 'z'.val.toNat = 122 := rfl
    have hZ : 'Z'.val.toNat = 90 := rfl
    have hdigit : '9'.val.toNat = 57 := rfl
    simp only [isNameChar, isNameStart, Text.isDigit, Bool.or_eq_true, Bool.and_eq_true, beq_iff_eq,
      decide_eq_true_eq, Char.le_def, UInt32.le_iff_toNat_le] at h
    simp only [Char.toNat]
    rcases h with ((rfl | h) | h) | h
    · decide
    all_goals omega
  have hc := hall c.toNat hlt
  rw [Char.ofNat_toNat] at hc
  exact hc h

theorem isBlank_of_isAsciiBlank (h : isAsciiBlank c = true) : Text.isBlank c = true := by
  simp only [isAsciiBlank, Bool.or_eq_true, beq_iff_eq] at h
  rcases h with (((rfl | rfl) | rfl) | rfl) | rfl <;> rfl

/-- The line of a name that comes next is not above. -/
theorem le_of_head_name (h : Layout true line cs ts) (hhead : ts.head? = some (.name f, m)) :
    line ≤ m := by
  generalize hinside : true = inside at h
  induction h with
  | nil => cases hhead
  | text => cases hinside
  | close t ht =>
    obtain rfl := (Prod.mk.inj (Option.some.inj hhead)).1
    cases ht.1
  | blank c hc h ih => exact Nat.le_trans (Nat.le_add_right _ _) (ih hhead rfl)
  | name => exact Nat.le_of_eq (Prod.mk.inj (Option.some.inj hhead)).2
  | symbol => cases hhead
  | literal t ht =>
    obtain rfl := (Prod.mk.inj (Option.some.inj hhead)).1
    cases ht

/-- A name that comes next on the same line is the next word on it. -/
theorem wordAhead?_of_head_name (h : Layout true line cs ts)
    (hhead : ts.head? = some (.name f, line)) :
    wordAhead? (cs.takeWhile (· != '\n')) = some f := by
  generalize hinside : true = inside at h
  induction h with
  | nil => cases hhead
  | text => cases hinside
  | close t ht =>
    obtain rfl := (Prod.mk.inj (Option.some.inj hhead)).1
    cases ht.1
  | @blank line rest ts c hc h ih =>
    have hle := le_of_head_name h hhead
    have hne : c ≠ '\n' := by
      rintro rfl
      have hone : feeds ['\n'] = 1 := rfl
      omega
    have hzero : feeds [c] = 0 := feeds_eq_zero (by simpa using Ne.symm hne)
    rw [hzero, Nat.add_zero] at ih
    rw [List.takeWhile_cons_of_pos (by simpa using hne), wordAhead?, Text.trimStartChars,
      List.dropWhile_cons_of_pos (isBlank_of_isAsciiBlank hc)]
    exact ih hhead rfl
  | @name line rest ts word hne hword hrest h ih =>
    obtain rfl : String.ofList word = f := by simpa using hhead
    have hchars := fun c hc ↦ isWordChar_of_isNameChar (hword c hc)
    have hline : (word ++ rest).takeWhile (· != '\n') = word ++ rest.takeWhile (· != '\n') := by
      refine List.takeWhile_append_of_pos fun c hc ↦ ?_
      simpa using (hchars c hc).2.2
    have htrim : Text.trimStartChars (word ++ rest.takeWhile (· != '\n')) =
        word ++ rest.takeWhile (· != '\n') := by
      obtain ⟨c, word, rfl⟩ := List.exists_cons_of_ne_nil hne
      exact Text.trimStartChars_cons (hchars c List.mem_cons_self).2.1 _
    have hend : (rest.takeWhile (· != '\n')).takeWhile isWordChar = [] := by
      cases rest with
      | nil => rfl
      | cons c rest =>
        have hc : isWordChar c = false := hrest c rfl
        rw [List.takeWhile_cons]
        split
        · rw [List.takeWhile_cons_of_neg (by simp [hc])]
        · rfl
    have htake : (word ++ rest.takeWhile (· != '\n')).takeWhile isWordChar = word := by
      rw [List.takeWhile_append_of_pos fun c hc ↦ (hchars c hc).1, hend, List.append_nil]
    rw [hline, wordAhead?, htrim, htake, if_neg hne]
  | symbol => cases hhead
  | literal t ht =>
    obtain rfl := (Prod.mk.inj (Option.some.inj hhead)).1
    cases ht

theorem wordAhead?_return (cs : List Char) : wordAhead? (cs ++ ['\r']) = wordAhead? cs := by
  have hword : (Text.trimStartChars (cs ++ ['\r'])).takeWhile isWordChar =
      (Text.trimStartChars cs).takeWhile isWordChar := by
    rw [Text.trimStartChars, Text.trimStartChars, List.dropWhile_append]
    split
    · rename_i hblank
      rw [List.isEmpty_iff.mp hblank]
      rfl
    · exact takeWhile_append_wall (by decide) _ []
  rw [wordAhead?, hword]
  rfl

/-- The filters of a line are found on it, in their order. -/
theorem appliedOn_sublist (h : Layout inside line cs ts) (back : List Char) :
    (appliedOn n ts).Sublist (foundOn n behindBar line back cs) := by
  induction h generalizing back with
  | nil => exact List.nil_sublist _
  | text inside ahead hahead hwall h ih =>
    rw [appliedOn_append fun t ht ↦ (hahead t ht).1]
    exact foundOn_sublist (ih _)
  | close t ht hwall h ih =>
    rw [← List.singleton_append, appliedOn_append (by simpa using ht.1)]
    exact foundOn_sublist (ih _)
  | @blank line rest ts c hc h ih => exact foundOn_step (ih _)
  | @name line rest ts word hne hword hrest h ih =>
    have hfeeds : feeds word = 0 := feeds_of_forall (p := isNameChar) (by decide) hword
    have hne : ((.name (.ofList word), line) : Located) ≠ (.symbol "|", n) := by
      rintro ⟨⟩
    rw [appliedOn, if_neg hne]
    exact foundOn_sublist (by rw [hfeeds]; exact ih _)
  | @symbol line rest ts s hs h ih =>
    have hfeeds : feeds s.toList = 0 := feeds_of_symbol hs
    have hskip : (appliedOn n ts).Sublist (foundOn n behindBar line back (s.toList ++ rest)) :=
      foundOn_sublist (by rw [hfeeds]; exact ih _)
    rw [appliedOn]
    split
    · rename_i hbar
      obtain ⟨hs, rfl⟩ := Prod.mk.inj hbar
      obtain rfl := Token.symbol.inj hs
      cases hname : nameOn? line ts.head? with
      | none => exact hskip
      | some f =>
        have hword : wordAhead? (rest.takeWhile (· != '\n')) = some f :=
          wordAhead?_of_head_name h (nameOn?_eq_some hname)
        have hlook : behindBar back (('|' :: rest).takeWhile (· != '\n')) = some f := by
          rw [List.takeWhile_cons_of_pos (by decide)]
          exact hword
        show (f :: appliedOn line ts).Sublist (foundOn line behindBar line back ('|' :: rest))
        rw [foundOn, if_pos rfl, hlook]
        exact (ih _).cons_cons f
    · exact hskip
  | literal t ht hwall h ih =>
    rw [← List.singleton_append, appliedOn_append (by simpa using ht)]
    exact foundOn_sublist (ih _)

theorem isLocal_behindBar : IsLocal behindBar where
  wall _ _ _ := rfl
  nil _ := rfl
  terminator back ahead := by
    cases ahead with
    | nil => rfl
    | cons c cs =>
      by_cases hc : c = '|'
      · subst hc
        exact wordAhead?_return cs
      · rw [List.cons_append, behindBar_of_ne hc, behindBar_of_ne hc]

/-! Calls. -/

/-- Something, if a line goes on with a blank. -/
def blankBefore? (back : List Char) : Option String :=
  match back with
  | c :: _ => if isAsciiBlank c ∧ c ≠ '\n' then some "" else none
  | [] => none

/-- A blank stands in front of a parenthesis of the line. -/
def Gapped (line : List Char) : Prop := ∃ c ∈ [' ', '\t', '\r', '\x0c'], [c, '('] <:+: line

instance (line : List Char) : Decidable (Gapped line) :=
  List.decidableBEx (fun c ↦ [c, '('] <:+: line) [' ', '\t', '\r', '\x0c']

/-- What is known of the text behind a place, by the two tokens in front of it. -/
structure Behind (inside : Bool) (line : Nat) (back cs : List Char) (p q : Option Located) :
    Prop where
  outside : inside = false → ∀ t ∈ q, t.1.isOpaque = true
  start : q.all (·.1.admitsCall) = true → (∃ c ∈ cs.head?, isNameChar c = true) →
    ∀ c ∈ back.head?, IsWall c
  name : ∀ f m, q = some (.name f, m) → p.all (·.1.admitsCall) = true →
    ∃ blanks word more, f = .ofList word ∧ word ≠ [] ∧ (∀ c ∈ word, isNameChar c = true) ∧
      back = blanks ++ (word.reverse ++ more) ∧ line = m + feeds blanks ∧
      (∀ c ∈ blanks, isAsciiBlank c = true) ∧ ∀ c ∈ more.head?, IsWall c

section Behind

variable {word : List Char} {t : Token}

theorem Behind.nil (cs : List Char) : Behind false 1 [] cs none none where
  outside _ t ht := by cases ht
  start _ _ c hc := by cases hc
  name f m hq := by cases hq

/-- Behind a wall it does not matter what is in front of it. -/
theorem Behind.of_walled (hwall : Walled shown rest) (hq : ∀ t ∈ q, t.1.isOpaque = true)
    (inside : Bool) (line : Nat) (back : List Char) (p : Option Located) :
    Behind inside line (shown.reverse ++ back) rest p q where
  outside _ := hq
  start _ hhead c hc := by
    obtain ⟨d, hd, -⟩ := hhead
    rcases hwall with rfl | ⟨e, he, hwall⟩
    · cases hd
    · obtain ⟨front, rfl⟩ := List.getLast?_eq_some_iff.mp he
      simp only [List.reverse_append, List.reverse_cons, List.reverse_nil, List.nil_append,
        List.cons_append, List.head?_cons, Option.mem_some_iff] at hc
      exact hc ▸ hwall
  name f m hname := by
    subst hname
    cases hq _ rfl

theorem Behind.blank (h : Behind true line back (c :: rest) p q) (hc : isAsciiBlank c = true) :
    Behind true (line + feeds [c]) (c :: back) rest p q where
  outside := nofun
  start _ _ d hd := by
    obtain rfl : c = d := by simpa using hd
    exact isWall_of_isAsciiBlank hc
  name f m hq hp := by
    obtain ⟨blanks, word, more, rfl, hne, hword, rfl, rfl, hblanks, hmore⟩ := h.name f m hq hp
    refine ⟨c :: blanks, word, more, rfl, hne, hword, rfl, ?_, List.forall_mem_cons.mpr ⟨hc, hblanks⟩,
      hmore⟩
    rw [feeds_cons c blanks]
    omega

theorem Behind.of_name (h : Behind true line back (word ++ rest) p q) (hne : word ≠ [])
    (hword : ∀ c ∈ word, isNameChar c = true) (hrest : ∀ c ∈ rest.head?, isWordChar c = false) :
    Behind true line (word.reverse ++ back) rest q (some (.name (.ofList word), line)) where
  outside := nofun
  start _ hhead := by
    obtain ⟨c, hc, hname⟩ := hhead
    have hnot := hrest c hc
    rw [(isWordChar_of_isNameChar hname).1] at hnot
    cases hnot
  name f m hq hp := by
    obtain ⟨hf, rfl⟩ : Token.name (.ofList word) = .name f ∧ line = m := by simpa using hq
    obtain ⟨c, tail, hcons⟩ := List.exists_cons_of_ne_nil hne
    have hhead : ∃ c ∈ (word ++ rest).head?, isNameChar c = true :=
      ⟨c, by rw [hcons]; rfl, hword c (by rw [hcons]; exact List.mem_cons_self)⟩
    exact ⟨[], word, back, (Token.name.inj hf).symm, hne, hword, rfl, rfl, by simp,
      h.start hp hhead⟩

theorem Behind.symbol {s : String} (hs : s ∈ symbols) (line : Nat) (back rest : List Char)
    (p : Option Located) :
    Behind true line (s.toList.reverse ++ back) rest p (some (.symbol s, line)) where
  outside := nofun
  start hq _ c hc := by
    have hall : ∀ s ∈ symbols, s ≠ "." → '.' ∉ s.toList := by decide
    have hpoint : s ≠ "." := by
      rintro rfl
      cases hq
    obtain ⟨hne, hchars⟩ := isWordChar_of_symbol hs
    rw [List.head?_append, List.head?_reverse, List.getLast?_eq_some_getLast hne] at hc
    obtain rfl := Option.some.inj hc
    have hmem := List.getLast_mem hne
    refine ⟨hchars _ hmem, fun heq ↦ hall s hs hpoint ?_⟩
    rwa [heq] at hmem
  name f m hq := by cases hq

/-- Behind a number no name can be called. -/
theorem Behind.number (ht : t.isNumber = true) (line' line : Nat) (back rest : List Char)
    (p : Option Located) : Behind true line back rest p (some (t, line')) where
  outside := nofun
  start hq := by
    have hnot : t.admitsCall = false := by
      cases t <;> first | rfl | cases ht
    rw [Option.all_some, hnot] at hq
    cases hq
  name f m hq := by
    obtain ⟨rfl, -⟩ : t = .name f ∧ line' = m := by simpa using hq
    cases ht

theorem calledOn_cons {t : Located} (ht : t ≠ (.symbol "(", n)) (p q : Option Located)
    (ts : List Located) : calledOn n p q (t :: ts) = calledOn n q (some t) ts := by
  rw [calledOn, if_neg (fun hcall ↦ ht hcall.1)]
  rfl

theorem ne_symbol_of_isOpaque {t : Located} {s : String} (ht : t.1.isOpaque = true) :
    t ≠ (.symbol s, n) := by
  rintro rfl
  cases ht

theorem calledOn_append (h : ∀ t ∈ ahead, t.1.isOpaque = true) (p : Option Located)
    (hq : ∀ t ∈ q, t.1.isOpaque = true) : ∃ p' q', (∀ t ∈ q', t.1.isOpaque = true) ∧
      calledOn n p q (ahead ++ ts) = calledOn n p' q' ts := by
  induction ahead generalizing p q with
  | nil => exact ⟨p, q, hq, rfl⟩
  | cons t ahead ih =>
    obtain ⟨ht, hahead⟩ := List.forall_mem_cons.mp h
    obtain ⟨p', q', hq', heq⟩ := ih hahead (p := q) (q := some t) (by simpa using ht)
    refine ⟨p', q', hq', ?_⟩
    rw [List.cons_append, calledOn_cons (ne_symbol_of_isOpaque ht), heq]

/-- The name that is called on a line is the word in front of the parenthesis. -/
theorem Behind.wordBefore?_eq (h : Behind inside n back cs p (some (.name f, n)))
    (hp : p.all (·.1.admitsCall) = true) (hgap : blankBefore? back = none) :
    wordBefore? back = some f := by
  obtain ⟨blanks, word, more, rfl, hne, hword, rfl, hline, hblanks, hmore⟩ := h.name f n rfl hp
  have hnil : blanks = [] := by
    cases blanks with
    | nil => rfl
    | cons c blanks =>
      have hfeed : c ≠ '\n' := by
        rintro rfl
        have hone : feeds ['\n'] = 1 := rfl
        rw [feeds_cons] at hline
        omega
      rw [List.cons_append, blankBefore?, if_pos ⟨hblanks c List.mem_cons_self, hfeed⟩] at hgap
      cases hgap
  have hwords : ∀ c ∈ word.reverse, isWordChar c = true := fun c hc ↦
    (isWordChar_of_isNameChar (hword c (List.mem_reverse.mp hc))).1
  have htake : (word.reverse ++ more).takeWhile isWordChar = word.reverse := by
    rw [List.takeWhile_append_of_pos hwords]
    cases more with
    | nil => simp
    | cons c more => rw [List.takeWhile_cons_of_neg (by simp [(hmore c rfl).1]), List.append_nil]
  have hdrop : (word.reverse ++ more).dropWhile isWordChar = more := by
    rw [List.dropWhile_append_of_pos hwords]
    cases more with
    | nil => rfl
    | cons c more => rw [List.dropWhile_cons_of_neg (by simp [(hmore c rfl).1])]
  have hpoint : more.head? ≠ some '.' := fun hhead ↦ (hmore '.' hhead).2 rfl
  rw [hnil, List.nil_append, wordBefore?, htake, hdrop, List.reverse_reverse,
    if_neg (not_or.mpr ⟨hne, hpoint⟩)]

/-- The parenthesis of a call finds the name that is called. -/
theorem Behind.foundOn_call (h : Behind inside n back cs p (some (.name f, n)))
    (hp : p.all (·.1.admitsCall) = true)
    (hgap : foundOn n (beforeParen blankBefore?) n back ('(' :: rest) = []) :
    foundOn n (beforeParen wordBefore?) n back ('(' :: rest) =
      f :: foundOn n (beforeParen wordBefore?) (n + feeds ['(']) ('(' :: back) rest := by
  have hparen (behind : List Char → Option String) :
      beforeParen behind back (('(' :: rest).takeWhile (· != '\n')) = behind back := by
    rw [List.takeWhile_cons_of_pos (by decide)]
    rfl
  have hnone : blankBefore? back = none := by
    have hfirst := (List.append_eq_nil_iff.mp hgap).1
    rw [if_pos rfl, hparen] at hfirst
    exact Option.toList_eq_nil_iff.mp hfirst
  rw [foundOn, if_pos rfl, hparen, h.wordBefore?_eq hp hnone]
  rfl

/-- What is called on a line is found on it, in its order. -/
theorem calledOn_sublist (h : Layout inside line cs ts) (hbehind : Behind inside line back cs p q)
    (hgap : foundOn n (beforeParen blankBefore?) line back cs = []) :
    (calledOn n p q ts).Sublist (foundOn n (beforeParen wordBefore?) line back cs) := by
  induction h generalizing back p q with
  | nil => exact List.nil_sublist _
  | text inside ahead hahead hwall h ih =>
    have hq := hbehind.outside rfl
    obtain ⟨p', q', hq', heq⟩ := calledOn_append (fun t ht ↦ (hahead t ht).1) p hq
    rw [heq]
    exact foundOn_sublist (ih (.of_walled hwall hq' ..) (foundOn_rest hgap))
  | close t ht hwall h ih =>
    rw [calledOn_cons (ne_symbol_of_isOpaque ht.1)]
    exact foundOn_sublist (ih (.of_walled hwall (by simpa using ht.1) ..) (foundOn_rest hgap))
  | blank c hc h ih => exact foundOn_step (ih (hbehind.blank hc) (List.append_eq_nil_iff.mp hgap).2)
  | name word hne hword hrest h ih =>
    have hfeeds : feeds word = 0 := feeds_of_forall (p := isNameChar) (by decide) hword
    have hsymbol : ∀ line, ((.name (.ofList word), line) : Located) ≠ (.symbol "(", n) := by
      rintro line ⟨⟩
    replace hgap := foundOn_rest hgap
    rw [hfeeds] at hgap
    rw [calledOn_cons (hsymbol _)]
    exact foundOn_sublist (by rw [hfeeds]; exact ih (hbehind.of_name hne hword hrest) hgap)
  | @symbol line rest ts s hs h ih =>
    have hgap' := foundOn_rest hgap
    rw [feeds_of_symbol hs] at hgap'
    have hrest := ih (.symbol hs line back rest q) hgap'
    have hskip : (calledOn n q (some (.symbol s, line)) ts).Sublist
        (foundOn n (beforeParen wordBefore?) line back (s.toList ++ rest)) :=
      foundOn_sublist (by rw [feeds_of_symbol hs]; exact hrest)
    rw [calledOn]
    split
    · rename_i hcall
      obtain ⟨heq, hp⟩ := hcall
      obtain ⟨hs, rfl⟩ := Prod.mk.inj heq
      obtain rfl := Token.symbol.inj hs
      cases hname : nameOn? line q with
      | none => exact hskip
      | some f =>
        obtain rfl := nameOn?_eq_some hname
        replace hgap : foundOn line (beforeParen blankBefore?) line back ('(' :: rest) = [] := hgap
        show (f :: calledOn line _ _ ts).Sublist
          (foundOn line (beforeParen wordBefore?) line back ('(' :: rest))
        rw [hbehind.foundOn_call hp hgap]
        exact hrest.cons_cons f
    · exact hskip
  | literal t ht hwall h ih =>
    rw [calledOn_cons (ne_symbol_of_isOpaque ht)]
    have hgap' := foundOn_rest hgap
    rcases hwall with hnumber | hwall
    · exact foundOn_sublist (ih (.number hnumber ..) hgap')
    · exact foundOn_sublist (ih (.of_walled hwall (by simpa using ht) ..) hgap')

end Behind

theorem isLocal_beforeParen {behind : List Char → Option String}
    (h : ∀ back more, behind (back ++ '\n' :: more) = behind back) : IsLocal (beforeParen behind) where
  wall back more ahead := beforeParen_wall (fun back ↦ h back more) back ahead
  nil _ := rfl
  terminator back ahead := by
    cases ahead with
    | nil => rfl
    | cons c cs =>
      by_cases hc : c = '('
      · subst hc
        rfl
      · rw [List.cons_append, beforeParen_of_ne hc, beforeParen_of_ne hc]

theorem isLocal_wordBefore? : IsLocal (beforeParen wordBefore?) :=
  isLocal_beforeParen fun back more ↦ wordBefore?_wall (isWall_of_mem (by decide)) back more

theorem isLocal_blankBefore? : IsLocal (beforeParen blankBefore?) :=
  isLocal_beforeParen fun back more ↦ by cases back <;> rfl

theorem found_blankBefore? {line : List Char} (h : ¬ Gapped line) :
    found (beforeParen blankBefore?) [] line = [] := by
  have hfound (before rest : List Char) (h : ¬ Gapped (before.reverse ++ rest)) :
      found (beforeParen blankBefore?) before rest = [] := by
    induction rest generalizing before with
    | nil => rfl
    | cons c rest ih =>
      have hnone : beforeParen blankBefore? before (c :: rest) = none := by
        by_cases hc : c = '('
        · subst hc
          cases before with
          | nil => rfl
          | cons b before =>
            refine if_neg fun hblank ↦ h ⟨b, ?_, before.reverse, rest, by simp⟩
            simp only [isAsciiBlank, Bool.or_eq_true, beq_iff_eq] at hblank
            obtain ⟨(((rfl | rfl) | rfl) | rfl) | rfl, hfeed⟩ := hblank <;>
              first | exact absurd rfl hfeed | simp
        · exact beforeParen_of_ne hc ..
      rw [found, hnone, ih (c :: before) (by simpa using h)]
      rfl
  exact hfound [] line h

/-! What is reported. -/

/-- The first element that is not passed over. -/
theorem find?_eq_some_iff_of_mem {α : Type} {p : α → Bool} {before after : List α} {a : α}
    (ha : p a = true) (hmem : a ∉ before) :
    (before ++ a :: after).find? p = some a ↔ ∀ b ∈ before, p b = false := by
  constructor
  · intro h b hb
    by_contra hpb
    obtain ⟨c, hc⟩ := Option.isSome_iff_exists.mp
      (List.find?_isSome.mpr ⟨b, hb, (Bool.not_eq_false _).mp hpb⟩)
    rw [List.find?_append, hc] at h
    obtain rfl := Option.some.inj h
    exact hmem (List.mem_of_find?_eq_some hc)
  · intro h
    rw [List.find?_append, List.find?_eq_none.mpr (by simpa using h), List.find?_cons_of_pos ha]
    rfl

section Reported

variable {source : String} {text : List Char} {before after : List String}

theorem layout_ofSource (h : (Tokens.ofSource source).fault = none) :
    Layout false 1 source.toList (Tokens.ofSource source).list := by
  have hlength : source.toList.length < source.length + 1 := by
    rw [String.length_toList]
    exact Nat.lt_succ_self _
  have hscan : (scan (source.length + 1) (.text false) 1 source.toList).fault = none := h
  exact layout_of_scan hlength hscan

/-- The filters of a line are among the words behind its bars. -/
theorem appliedOn_sublist_filterWords (h : (Tokens.ofSource source).fault = none)
    (hline : (Text.lines source.toList)[n]? = some text) :
    (appliedOn (n + 1) (Tokens.ofSource source).list).Sublist (Hint.filterWords text) := by
  rw [Hint.filterWords, ← foundOn_eq isLocal_behindBar hline]
  exact appliedOn_sublist (layout_ofSource h) []

/-- What is called on a line is among the words in front of its parentheses. -/
theorem calledOn_sublist_callWords (h : (Tokens.ofSource source).fault = none)
    (hline : (Text.lines source.toList)[n]? = some text) (hgap : ¬ Gapped text) :
    (calledOn (n + 1) none none (Tokens.ofSource source).list).Sublist (Hint.callWords text) := by
  rw [Hint.callWords, ← foundOn_eq isLocal_wordBefore? hline]
  refine calledOn_sublist (layout_ofSource h) (.nil _) ?_
  rw [foundOn_eq isLocal_blankBefore? hline, found_blankBefore? hgap]

/-- An unknown filter is reported unless a known one in front of it is not suggested. -/
theorem unknownFilter?_eq_some_iff (hwords : Hint.filterWords text = before ++ f :: after)
    (hf : Filter.isKnown f = false) (hbefore : ∀ g ∈ before, Filter.isKnown g = true) :
    Hint.unknownFilter? text = .ok (some f) ↔ ∀ g ∈ before, g ∉ Filter.unsuggested := by
  have hunknown : f ∉ Hint.filters := by
    intro hmem
    rw [(Filter.isKnown_iff f).mpr (.inl hmem)] at hf
    cases hf
  have hsuggested : ∀ g ∈ before, (!Hint.filters.contains g) = false ↔ g ∉ Filter.unsuggested := by
    intro g hg
    have hdisjoint : ∀ g ∈ Hint.filters, g ∉ Filter.unsuggested := by decide
    rw [Bool.not_eq_false', List.contains_iff_mem]
    exact ⟨hdisjoint g, ((Filter.isKnown_iff g).mp (hbefore g hg)).resolve_right⟩
  have hmem : f ∉ before := fun hmem ↦ by
    rw [hbefore f hmem] at hf
    cases hf
  rw [Hint.unknownFilter?_eq, hwords, Except.ok.injEq,
    find?_eq_some_iff_of_mem (by simpa using hunknown) hmem]
  exact forall₂_congr hsuggested

/-- An unknown function is reported unless the search fails, it is the name of a filter, or what is
called in front of it is not suggested. -/
theorem unknownFunction?_eq_some_iff (hwords : Hint.callWords text = before ++ f :: after)
    (hf : f ∉ Function.names) (hbefore : f ∉ before) :
    Hint.unknownFunction? text = .ok (some f) ↔
      ¬ Hint.Stumbles text ∧ f ∉ Hint.filters ∧ ∀ g ∈ before, Hint.isSuggested g = true := by
  have hfunction : f ∉ Hint.functions := by
    rw [Hint.names_eq, List.mem_append, not_or] at hf
    exact hf.1
  by_cases hstumbles : Hint.Stumbles text
  · rw [Hint.stumbles_iff.mp hstumbles]
    exact ⟨nofun, fun h ↦ absurd hstumbles h.1⟩
  rw [Hint.unknownFunction?_eq hstumbles, hwords, Except.ok.injEq]
  by_cases hfilter : f ∈ Hint.filters
  · refine ⟨fun h ↦ ?_, fun h ↦ absurd hfilter h.2.1⟩
    have hreported := List.find?_some h
    simp [Hint.isSuggested, hfilter] at hreported
  · rw [find?_eq_some_iff_of_mem (by simp [Hint.isSuggested, hfunction, hfilter]) hbefore]
    simp [hstumbles, hfilter]

/-- What is reported of a line of a template is the first word behind a bar, or in front of a
parenthesis, that is not suggested. The filters and calls of the line are among these words. Where
there are no others, an unknown one is reported unless one in front of it is not suggested. -/
theorem unknown_name_reported_iff (hfault : (Tokens.ofSource source).fault = none)
    (hline : (Text.lines source.toList)[n]? = some text) :
    (Hint.unknownFilter? text = .ok ((Hint.filterWords text).find? fun g ↦ !Hint.filters.contains g) ∧
      (appliedOn (n + 1) (Tokens.ofSource source).list).Sublist (Hint.filterWords text) ∧
      ∀ before f after, appliedOn (n + 1) (Tokens.ofSource source).list = before ++ f :: after →
        (Hint.filterWords text).length = (before ++ f :: after).length →
        Filter.isKnown f = false → (∀ g ∈ before, Filter.isKnown g = true) →
        (Hint.unknownFilter? text = .ok (some f) ↔ ∀ g ∈ before, g ∉ Filter.unsuggested)) ∧
    (¬ Hint.Stumbles text → Hint.unknownFunction? text =
      .ok ((Hint.callWords text).find? fun g ↦ !Hint.isSuggested g)) ∧
    (¬ Gapped text →
      (calledOn (n + 1) none none (Tokens.ofSource source).list).Sublist (Hint.callWords text) ∧
      ∀ before f after,
        calledOn (n + 1) none none (Tokens.ofSource source).list = before ++ f :: after →
        (Hint.callWords text).length = (before ++ f :: after).length →
        f ∉ Function.names → f ∉ before →
        (Hint.unknownFunction? text = .ok (some f) ↔
          ¬ Hint.Stumbles text ∧ f ∉ Hint.filters ∧ ∀ g ∈ before, Hint.isSuggested g = true)) := by
  have happlied := appliedOn_sublist_filterWords hfault hline
  refine ⟨⟨Hint.unknownFilter?_eq text, happlied, ?_⟩, Hint.unknownFunction?_eq, fun hgap ↦ ?_⟩
  · intro before f after heq hlength hf hbefore
    rw [heq] at happlied
    exact unknownFilter?_eq_some_iff (happlied.eq_of_length hlength.symm).symm hf hbefore
  · have hcalled := calledOn_sublist_callWords hfault hline hgap
    refine ⟨hcalled, fun before f after heq hlength hf hbefore ↦ ?_⟩
    rw [heq] at hcalled
    exact unknownFunction?_eq_some_iff (hcalled.eq_of_length hlength.symm).symm hf hbefore

/-- A template with an unknown function and an unknown filter. -/
def misspelt : String := "id: \x7b\x7b artifactid(values.name) | lower | toyml \x7d\x7d"

theorem unknown_name_reported_iff_misspelt :
    ((Tokens.ofSource misspelt).fault = none ∧
      (Text.lines misspelt.toList)[0]? = some misspelt.toList ∧ ¬ Gapped misspelt.toList) ∧
    appliedOn 1 (Tokens.ofSource misspelt).list = ["lower", "toyml"] ∧
    Hint.unknownFilter? misspelt.toList = .ok (some "toyml") ∧
    calledOn 1 none none (Tokens.ofSource misspelt).list = ["artifactid"] ∧
    Hint.unknownFunction? misspelt.toList = .ok (some "artifactid") := by
  have hfault : (Tokens.ofSource misspelt).fault = none := by decide +kernel
  have hline : (Text.lines misspelt.toList)[0]? = some misspelt.toList := by decide +kernel
  have hgap : ¬ Gapped misspelt.toList := by decide +kernel
  have happlied : appliedOn 1 (Tokens.ofSource misspelt).list = ["lower", "toyml"] := by decide +kernel
  have hcalled : calledOn 1 none none (Tokens.ofSource misspelt).list = ["artifactid"] := by
    decide +kernel
  obtain ⟨⟨-, -, hfilter⟩, -, hcalls⟩ := unknown_name_reported_iff hfault hline
  refine ⟨⟨hfault, hline, hgap⟩, happlied, ?_, hcalled, ?_⟩
  · exact (hfilter ["lower"] "toyml" [] happlied (by decide +kernel) (by decide +kernel)
      (by decide +kernel)).mpr (by decide)
  · exact ((hcalls hgap).2 [] "artifactid" [] hcalled (by decide +kernel) (by decide) (by simp)).mpr
      ⟨by decide +kernel, by decide, by simp⟩

/-- An unknown filter behind a known one. -/
def misspeltFilter : String := "\x7b\x7b values.n | abs | toyml \x7d\x7d"

/-- An unknown function behind a known one. -/
def misspeltFunction : String := "\x7b\x7b debug() | length \x7d\x7d\x7b\x7b debg() \x7d\x7d"

/-- What is reported is the known filter, and the known function. -/
theorem known_name_reported :
    ((Tokens.ofSource misspeltFilter).fault = none ∧
      Text.lines misspeltFilter.toList = [misspeltFilter.toList] ∧
      appliedOn 1 (Tokens.ofSource misspeltFilter).list = ["abs", "toyml"] ∧
      Filter.isKnown "abs" = true ∧ Filter.isKnown "toyml" = false ∧
      Hint.unknownFilter? misspeltFilter.toList = .ok (some "abs")) ∧
    ((Tokens.ofSource misspeltFunction).fault = none ∧
      Text.lines misspeltFunction.toList = [misspeltFunction.toList] ∧
      calledOn 1 none none (Tokens.ofSource misspeltFunction).list = ["debug", "debg"] ∧
      "debug" ∈ Function.names ∧ "debg" ∉ Function.names ∧
      Hint.unknownFunction? misspeltFunction.toList = .ok (some "debug")) := by
  decide +kernel

end Reported

end DeliveryCharts.Template
