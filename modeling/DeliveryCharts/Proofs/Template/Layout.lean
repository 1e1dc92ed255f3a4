import DeliveryCharts.Proofs.Template.Suggestion
import DeliveryCharts.Proofs.Text.Numeral
import DeliveryCharts.Template.Token
import Mathlib.Data.List.TakeWhile

/-!
Where the tokens of a template stand. Each is written on the line that it knows, and names and
symbols are written as they are.
-/

namespace DeliveryCharts.Template

open Scan
open Hint (IsWall)
open Text (isWordChar)

namespace Token

def isNumber : Token → Bool
  | .int _ => true
  | .float _ => true
  | _ => false

/-- Neither a name nor a symbol. -/
def isOpaque : Token → Bool
  | .name _ => false
  | .symbol _ => false
  | _ => true

end Token

variable {inside : Bool} {line : Nat} {cs shown rest : List Char} {ts : List Located}

/-- What is written before a name ends with a character that does not belong to it. -/
def Walled (shown rest : List Char) : Prop := rest = [] ∨ ∃ c ∈ shown.getLast?, IsWall c

/-- The text from a place on, which is inside of a block or not, with the tokens in it. -/
inductive Layout : Bool → Nat → List Char → List Located → Prop
  | nil (inside : Bool) (line : Nat) : Layout inside line [] []
  | text {line : Nat} {shown rest : List Char} {ts : List Located} (inside : Bool)
      (ahead : List Located) (hahead : ∀ t ∈ ahead, t.1.isOpaque = true ∧ t.1.isNumber = false)
      (hwall : Walled shown rest) (h : Layout inside (line + feeds shown) rest ts) :
      Layout false line (shown ++ rest) (ahead ++ ts)
  | close {line : Nat} {shown rest : List Char} {ts : List Located} (t : Token)
      (ht : t.isOpaque = true ∧ t.isNumber = false) (hwall : Walled shown rest)
      (h : Layout false (line + feeds shown) rest ts) :
      Layout true line (shown ++ rest) ((t, line) :: ts)
  | blank {line : Nat} {rest : List Char} {ts : List Located} (c : Char) (hc : isAsciiBlank c = true)
      (h : Layout true (line + feeds [c]) rest ts) : Layout true line (c :: rest) ts
  | name {line : Nat} {rest : List Char} {ts : List Located} (word : List Char) (hne : word ≠ [])
      (hword : ∀ c ∈ word, isNameChar c = true) (hrest : ∀ c ∈ rest.head?, isWordChar c = false)
      (h : Layout true line rest ts) :
      Layout true line (word ++ rest) ((.name (.ofList word), line) :: ts)
  | symbol {line : Nat} {rest : List Char} {ts : List Located} (s : String) (hs : s ∈ symbols)
      (h : Layout true line rest ts) : Layout true line (s.toList ++ rest) ((.symbol s, line) :: ts)
  | literal {line : Nat} {shown rest : List Char} {ts : List Located} (t : Token)
      (ht : t.isOpaque = true) (hwall : t.isNumber = true ∨ Walled shown rest)
      (h : Layout true (line + feeds shown) rest ts) :
      Layout true line (shown ++ rest) ((t, line) :: ts)

/-! What is passed. -/

theorem feeds_append (as bs : List Char) : feeds (as ++ bs) = feeds as + feeds bs :=
  List.countP_append

theorem feeds_cons (c : Char) (cs : List Char) : feeds (c :: cs) = feeds [c] + feeds cs :=
  feeds_append [c] cs

theorem feeds_eq_zero {cs : List Char} (h : '\n' ∉ cs) : feeds cs = 0 := by
  refine List.countP_eq_zero.mpr fun c hc ↦ ?_
  simp only [beq_iff_eq]
  rintro rfl
  exact h hc

theorem margin_eq {m : Margin} (h : margin cs = (m, rest)) :
    ∃ sign, cs = sign ++ rest ∧ sign ∈ [[], ['-'], ['+']] := by
  unfold margin at h
  split at h
  · obtain ⟨-, rfl⟩ := Prod.mk.inj h
    exact ⟨['-'], rfl, by simp⟩
  · obtain ⟨-, rfl⟩ := Prod.mk.inj h
    exact ⟨['+'], rfl, by simp⟩
  · obtain ⟨-, rfl⟩ := Prod.mk.inj h
    exact ⟨[], rfl, by simp⟩

/-- The character behind the brace of an opening. -/
def Scan.Opening.mark : Opening → Char
  | .variable => '{'
  | .block => '%'
  | .comment => '#'

theorem findOpening_eq (cs : List Char) :
    findOpening cs = (cs, none, []) ∨ ∃ before o rest,
      findOpening cs = (before, some o, rest) ∧ cs = before ++ '{' :: o.mark :: rest := by
  fun_induction findOpening cs with
  | case1 => exact .inl rfl
  | case2 cs => exact .inr ⟨[], .variable, cs, rfl, rfl⟩
  | case3 cs => exact .inr ⟨[], .block, cs, rfl, rfl⟩
  | case4 cs => exact .inr ⟨[], .comment, cs, rfl, rfl⟩
  | case5 c cs hvariable hblock hcomment before opening rest hfind ih =>
    rw [hfind] at ih
    rcases ih with heq | ⟨b, o, r, heq, rfl⟩
    · obtain ⟨rfl, rfl, rfl⟩ := heq
      exact .inl rfl
    · obtain ⟨rfl, rfl, rfl⟩ := heq
      exact .inr ⟨_, _, _, rfl, rfl⟩

/-- The word and what is in front of it are passed. -/
theorem exists_of_dropWhile {p : Char → Bool} {word : List Char}
    (h : cs.dropWhile p = word ++ rest) : ∃ before, cs = before ++ (word ++ rest) :=
  ⟨cs.takeWhile p, by rw [← h, List.takeWhile_append_dropWhile]⟩

theorem bareBlock?_eq {word : String} {m : Margin} (h : bareBlock? word cs = some (m, rest)) :
    ∃ shown, cs = shown ++ rest ∧ shown.getLast? = some '}' := by
  obtain ⟨r, hword, h⟩ := Option.bind_eq_some_iff.mp h
  cases hmargin : margin (r.dropWhile isAsciiBlank) with
  | mk m' r' =>
    rw [hmargin] at h
    obtain ⟨rest', hend, heq⟩ := Option.map_eq_some_iff.mp h
    obtain ⟨rfl, rfl⟩ := Prod.mk.inj heq
    obtain ⟨sign, hsign, -⟩ := margin_eq hmargin
    rw [Text.dropWord?_eq_some_iff.mp hend] at hsign
    obtain ⟨before, rfl⟩ := exists_of_dropWhile (Text.dropWord?_eq_some_iff.mp hword)
    obtain ⟨blanks, rfl⟩ := exists_of_dropWhile hsign
    exact ⟨before ++ (word.toList ++ (blanks ++ (sign ++ ['%', '}']))), by simp, by simp⟩

theorem findRawEnd_eq {e : RawEnd} (h : findRawEnd cs = some e) :
    ∃ shown, cs = shown ++ e.rest ∧ shown.getLast? = some '}' := by
  fun_induction findRawEnd cs generalizing e with
  | case1 => cases h
  | case2 cs m inside hmargin after rest hbare =>
    obtain rfl := Option.some.inj h
    obtain ⟨sign, rfl, -⟩ := margin_eq hmargin
    obtain ⟨shown, rfl, hlast⟩ := bareBlock?_eq hbare
    exact ⟨'{' :: '%' :: (sign ++ shown), by simp, by simp [List.getLast?_cons, hlast]⟩
  | case3 cs m inside hmargin hbare ih =>
    obtain ⟨e', he', rfl⟩ := Option.map_eq_some_iff.mp h
    obtain ⟨shown, rfl, hlast⟩ := ih he'
    exact ⟨'{' :: '%' :: shown, rfl, by simp [List.getLast?_cons, hlast]⟩
  | case4 c cs hne ih =>
    obtain ⟨e', he', rfl⟩ := Option.map_eq_some_iff.mp h
    obtain ⟨shown, rfl, hlast⟩ := ih he'
    exact ⟨c :: shown, rfl, by simp [List.getLast?_cons, hlast]⟩

theorem splitOnce?_eq {w cs before rest : List Char} (h : Text.splitOnce? w cs = some (before, rest)) :
    cs = before ++ w ++ rest := by
  induction cs generalizing before with
  | nil =>
    rw [Text.splitOnce?] at h
    split at h
    · rename_i hw
      obtain ⟨rfl, rfl⟩ := Prod.mk.inj (Option.some.inj h)
      simpa using hw
    · cases h
  | cons c cs ih =>
    rw [Text.splitOnce?] at h
    split at h
    · rename_i r hr
      obtain ⟨rfl, rfl⟩ := Prod.mk.inj (Option.some.inj h)
      exact Text.dropWord?_eq_some_iff.mp hr
    · obtain ⟨p, hp, heq⟩ := Option.map_eq_some_iff.mp h
      obtain ⟨rfl, rfl⟩ := Prod.mk.inj heq
      rw [ih hp]
      rfl

theorem quoted_eq {quote : Char} {written : List Char}
    (h : Scan.quoted quote cs = some (written, rest)) : ∃ body, cs = body ++ quote :: rest := by
  have hpart {f : List Char → List Char} {o : Option (List Char × List Char)} {w : List Char}
      (hmap : (o.map fun p ↦ (f p.1, p.2)) = some (w, rest)) : ∃ w', o = some (w', rest) := by
    obtain ⟨p, hp, heq⟩ := Option.map_eq_some_iff.mp hmap
    exact ⟨p.1, by rw [hp, ← (Prod.mk.inj heq).2]⟩
  fun_induction Scan.quoted quote cs generalizing written with
  | case1 => cases h
  | case2 => cases h
  | case3 c cs ih =>
    obtain ⟨w, hw⟩ := hpart (f := fun w ↦ '\\' :: c :: w) h
    obtain ⟨body, rfl⟩ := ih hw
    exact ⟨'\\' :: c :: body, rfl⟩
  | case4 cs =>
    obtain ⟨-, rfl⟩ := Prod.mk.inj (Option.some.inj h)
    exact ⟨[], rfl⟩
  | case5 c cs hslash hlast hquote ih =>
    obtain ⟨w, hw⟩ := hpart (f := fun w ↦ c :: w) h
    obtain ⟨body, rfl⟩ := ih hw
    exact ⟨c :: body, rfl⟩

theorem decimalRun_eq (part : NumberPart) (cs : List Char) :
    cs = (decimalRun part cs).1 ++ (decimalRun part cs).2.2 := by
  fun_induction decimalRun part cs with
  | case1 => rfl
  | case2 => rfl
  | case3 part c cs next? next hnext run last rest hrun ih =>
    rw [hrun] at ih
    rw [ih]
    rfl

theorem radixOf_eq {radix : Nat} {digits : List Char} (h : radixOf cs = some (radix, digits)) :
    ∃ c, cs = '0' :: c :: digits := by
  unfold radixOf at h
  split at h
  · rename_i c cs
    refine ⟨c, ?_⟩
    repeat' split at h
    all_goals first | (obtain ⟨-, rfl⟩ := Prod.mk.inj (Option.some.inj h); rfl) | cases h
  · cases h

theorem isNumber_of_integer? {radix : Nat} {digits : List Char} {t : Token}
    (h : integer? radix digits = some t) : t.isNumber = true := by
  obtain ⟨n, -, rfl⟩ := Option.map_eq_some_iff.mp h
  rfl

/-- A number takes up at least its first digit. -/
theorem number?_eq {c : Char} {t : Token} (hc : Text.isDigit c = true)
    (h : number? (c :: cs) = some (t, rest)) :
    t.isNumber = true ∧ ∃ shown, c :: cs = shown ++ rest ∧ shown ≠ [] := by
  rw [number?] at h
  split at h
  · rename_i radix digits hradix
    obtain ⟨mark, heq⟩ := radixOf_eq hradix
    extract_lets belongs at h
    split at h
    · cases h
    · obtain ⟨t', ht', heq'⟩ := Option.map_eq_some_iff.mp h
      obtain ⟨rfl, rfl⟩ := Prod.mk.inj heq'
      refine ⟨isNumber_of_integer? ht', '0' :: mark :: digits.takeWhile belongs, ?_,
        List.cons_ne_nil _ _⟩
      rw [heq, List.cons_append, List.cons_append, List.takeWhile_append_dropWhile]
  · have hrun := decimalRun_eq .whole (c :: cs)
    have hne : (decimalRun .whole (c :: cs)).1 ≠ [] := by
      rw [decimalRun]
      split
      · rename_i hnone
        repeat' split at hnone
        all_goals cases hnone
      · exact List.cons_ne_nil _ _
    cases hrun' : decimalRun .whole (c :: cs) with
    | mk run p =>
      obtain ⟨part, rest'⟩ := p
      rw [hrun'] at h hrun hne
      simp only at h
      split at h
      · cases h
      · obtain ⟨t', ht', heq'⟩ := Option.map_eq_some_iff.mp h
        obtain ⟨rfl, rfl⟩ := Prod.mk.inj heq'
        refine ⟨?_, run, hrun, hne⟩
        split at ht'
        · exact isNumber_of_integer? ht'
        · obtain ⟨x, -, rfl⟩ := Option.map_eq_some_iff.mp ht'
          rfl

theorem symbol?_eq {s : String} (h : symbol? cs = some (s, rest)) :
    s ∈ symbols ∧ cs = s.toList ++ rest := by
  obtain ⟨u, hu, hmap⟩ := List.exists_of_findSome?_eq_some h
  obtain ⟨r, hr, heq⟩ := Option.map_eq_some_iff.mp hmap
  obtain ⟨rfl, rfl⟩ := Prod.mk.inj heq
  exact ⟨hu, Text.dropWord?_eq_some_iff.mp hr⟩

/-- The characters at the end of a block. -/
def closers : List Char := ['-', '+', '%', '}']

theorem closing?_eq {place : Place} {t : Token} {m : Margin}
    (h : closing? place cs = some (t, m, rest)) :
    (t.isOpaque = true ∧ t.isNumber = false) ∧
      ∃ shown, cs = shown ++ rest ∧ shown ≠ [] ∧ ∀ d ∈ shown, d ∈ closers := by
  cases hmargin : margin cs with
  | mk m' r =>
    obtain ⟨sign, rfl, hsign⟩ := margin_eq hmargin
    have hclosers (last : Char) (hlast : last ∈ closers) : ∀ d ∈ sign ++ [last, '}'], d ∈ closers := by
      simp only [List.mem_cons, List.not_mem_nil, or_false] at hsign
      rcases hsign with rfl | rfl | rfl <;> simpa [closers] using hlast
    unfold closing? at h
    rw [hmargin] at h
    simp only at h
    split at h
    · cases h
    · obtain ⟨r', hr', heq⟩ := Option.map_eq_some_iff.mp h
      obtain ⟨rfl, hmargins⟩ := Prod.mk.inj heq
      obtain ⟨rfl, rfl⟩ := Prod.mk.inj hmargins
      rw [Text.dropWord?_eq_some_iff.mp hr']
      exact ⟨⟨rfl, rfl⟩, sign ++ ['%', '}'], by simp, by simp, hclosers '%' (by decide)⟩
    · obtain ⟨r', hr', heq⟩ := Option.map_eq_some_iff.mp h
      obtain ⟨rfl, hmargins⟩ := Prod.mk.inj heq
      obtain ⟨rfl, rfl⟩ := Prod.mk.inj hmargins
      rw [Text.dropWord?_eq_some_iff.mp hr']
      exact ⟨⟨rfl, rfl⟩, sign ++ ['}', '}'], by simp, by simp, hclosers '}' (by decide)⟩
    · cases h

/-- What can be read inside of a block. -/
theorem inside_cases {c : Char} {line : Nat} {t : Token}
    (h : Scan.inside line (c :: cs) = .ok (t, rest)) :
    (∃ s, t = .symbol s ∧ s ∈ symbols ∧ c :: cs = s.toList ++ rest) ∨
      (∃ word, t = .name (.ofList word) ∧ word ≠ [] ∧ (∀ d ∈ word, isNameChar d = true) ∧
        c :: cs = word ++ rest ∧ ∀ d ∈ rest.head?, isNameChar d = false) ∨
      (t.isOpaque = true ∧ ∃ shown, c :: cs = shown ++ rest ∧ shown ≠ [] ∧
        ((t.isNumber = true ∧ Text.isDigit c = true) ∨
          (c ∈ ['"', '\''] ∧ shown.getLast? = some c))) := by
  rw [Scan.inside] at h
  split at h
  · rename_i hquote
    right; right
    split at h
    · cases h
    · rename_i written rest' hquoted
      obtain ⟨body, rfl⟩ := quoted_eq hquoted
      have hkind : t.isOpaque = true ∧ rest' = rest := by
        split at h
        · obtain ⟨rfl, rfl⟩ := Prod.mk.inj (Except.ok.inj h)
          exact ⟨rfl, rfl⟩
        · split at h
          · obtain ⟨rfl, rfl⟩ := Prod.mk.inj (Except.ok.inj h)
            exact ⟨rfl, rfl⟩
          · cases h
      obtain ⟨hkind, rfl⟩ := hkind
      exact ⟨hkind, c :: (body ++ [c]), by simp, by simp,
        .inr ⟨by simpa using hquote, by simp [List.getLast?_cons]⟩⟩
  · split at h
    · rename_i hdigit
      split at h
      · rename_i t' hnumber
        obtain rfl := Except.ok.inj h
        obtain ⟨hnumeral, shown, hshown, hne⟩ := number?_eq hdigit hnumber
        have hkind : t.isOpaque = true := by
          cases t <;> first | rfl | cases hnumeral
        exact .inr (.inr ⟨hkind, shown, hshown, hne, .inl ⟨hnumeral, hdigit⟩⟩)
      · cases h
    · split at h
      · rename_i s r hsymbol
        obtain ⟨rfl, rfl⟩ := Prod.mk.inj (Except.ok.inj h)
        obtain ⟨hs, hcs⟩ := symbol?_eq hsymbol
        exact .inl ⟨s, rfl, hs, hcs⟩
      · split at h
        · rename_i hstart
          obtain ⟨rfl, rfl⟩ := Prod.mk.inj (Except.ok.inj h)
          have hc : isNameChar c = true := by simp [isNameChar, hstart]
          refine .inr (.inl ⟨_, rfl, ?_, ?_, List.takeWhile_append_dropWhile.symm, ?_⟩)
          · rw [List.takeWhile_cons_of_pos hc]
            exact List.cons_ne_nil _ _
          · intro d hd
            exact List.mem_takeWhile_imp hd
          · intro d hd
            have hnot := List.head?_dropWhile_not isNameChar (c :: cs)
            rwa [Option.mem_def.mp hd] at hnot
        · cases h

/-! The tokens of a scan. -/

def Scan.Place.isInside : Place → Bool
  | .text _ => false
  | _ => true

theorem isInside_track (t : Token) (place : Place) : (track t place).isInside = place.isInside := by
  rcases place with _ | _ | n
  · rfl
  · rfl
  · rw [track]
    split
    · rfl
    · split <;> rfl

/-- Some characters that bound a search. -/
def walls : List Char :=
  ['{', '}', '%', '#', '-', '+', '"', '\'', ' ', '\t', '\n', '\r', '\x0c']

theorem isWall_of_mem {c : Char} (h : c ∈ walls) : IsWall c := by
  have hall : ∀ c ∈ walls, isWordChar c = false ∧ c ≠ '.' :=
    Text.forall_mem_of_all (by decide)
  exact hall c h

theorem mem_walls_of_quote {c : Char} (h : c ∈ ['"', '\'']) : c ∈ walls := by
  have hall : ∀ c ∈ ['"', '\''], c ∈ walls := Text.forall_mem_of_all (by decide)
  exact hall c h

theorem isWall_of_isAsciiBlank {c : Char} (h : isAsciiBlank c = true) : IsWall c := by
  simp only [isAsciiBlank, Bool.or_eq_true, beq_iff_eq] at h
  rcases h with (((rfl | rfl) | rfl) | rfl) | rfl <;> exact isWall_of_mem (by decide)

theorem isWordChar_of_symbol {s : String} (hs : s ∈ symbols) :
    s.toList ≠ [] ∧ ∀ c ∈ s.toList, isWordChar c = false := by
  have hall : ∀ s ∈ symbols, s.toList ≠ [] ∧ s.toList.all (isWordChar · = false) = true := by
    decide
  exact ⟨(hall s hs).1, Text.forall_mem_of_all (hall s hs).2⟩

theorem feeds_of_symbol {s : String} (hs : s ∈ symbols) : feeds s.toList = 0 := by
  have hall : ∀ s ∈ symbols, feeds s.toList = 0 := by decide
  exact hall s hs

/-- One step inside of a block. -/
theorem scan_inside {place : Place} (hplace : place.isInside = true) (fuel line : Nat) (c : Char)
    (cs : List Char) : scan (fuel + 1) place line (c :: cs) =
      if isAsciiBlank c then scan fuel place (if c = '\n' then line + 1 else line) cs
      else
        match closing? place (c :: cs) with
        | some (t, m, rest) => (scan fuel (afterMargin m) line rest).push t line
        | none =>
          match Scan.inside line (c :: cs) with
          | .error f => .broken f
          | .ok (t, rest) =>
            (scan fuel (track t place) (line + feeds ((c :: cs).take (cs.length + 1 - rest.length)))
              rest).push t line := by
  rcases place with _ | _ | n
  · cases hplace
  · rfl
  · rfl

theorem isWall_of_mem_closers {c : Char} (h : c ∈ closers) : IsWall c := by
  have hall : ∀ c ∈ closers, c ∈ walls := Text.forall_mem_of_all (by decide)
  exact isWall_of_mem (hall c h)

theorem head_eq_of_append {c : Char} (h : c :: cs = shown ++ rest) (hne : shown ≠ []) : c ∈ shown := by
  obtain ⟨d, shown, rfl⟩ := List.exists_cons_of_ne_nil hne
  rw [(List.cons.inj h).1]
  exact List.mem_cons_self

/-- Inside of a block a character that no name goes on with starts no word either. -/
theorem isWordChar_of_scan {fuel line : Nat} {place : Place} {c : Char}
    (hplace : place.isInside = true) (h : (scan (fuel + 1) place line (c :: cs)).fault = none)
    (hc : isNameChar c = false) : isWordChar c = false := by
  rw [scan_inside hplace] at h
  split at h
  · rename_i hblank
    exact (isWall_of_isAsciiBlank hblank).1
  · split at h
    · rename_i t m rest hclosing
      obtain ⟨-, shown, hcs, hne, hclosers⟩ := closing?_eq hclosing
      exact (isWall_of_mem_closers (hclosers c (head_eq_of_append hcs hne))).1
    · cases hinside : Scan.inside line (c :: cs) with
      | error f =>
        rw [hinside] at h
        cases h
      | ok p =>
        obtain ⟨t, rest⟩ := p
        rcases inside_cases hinside with ⟨s, -, hs, hcs⟩ | ⟨word, -, hne, hword, hcs, -⟩ |
          ⟨-, shown, hcs, hne, ⟨-, hdigit⟩ | ⟨hquote, -⟩⟩
        · obtain ⟨hne, hchars⟩ := isWordChar_of_symbol hs
          exact hchars c (head_eq_of_append hcs hne)
        · rw [hword c (head_eq_of_append hcs hne)] at hc
          cases hc
        · simp [isNameChar, hdigit] at hc
        · exact (isWall_of_mem (mem_walls_of_quote hquote)).1

theorem walled_of_last {c : Char} (h : shown.getLast? = some c) (hc : IsWall c) (rest : List Char) :
    Walled shown rest := .inr ⟨c, h, hc⟩

theorem length_le_of_append {c : Char} (h : c :: cs = shown ++ rest) (hne : shown ≠ []) :
    rest.length ≤ cs.length := by
  have hlength := congrArg List.length h
  have hpos := List.length_pos_iff.mpr hne
  rw [List.length_cons, List.length_append] at hlength
  omega

theorem feeds_of_forall {p : Char → Bool} (hp : p '\n' = false) (h : ∀ c ∈ shown, p c = true) :
    feeds shown = 0 := by
  refine feeds_eq_zero fun hmem ↦ ?_
  rw [h _ hmem] at hp
  cases hp

/-- The tokens from an opening on, of which `inner` is what stands behind its margin. -/
def opened (fuel : Nat) (o : Opening) (there : Nat) (inner : List Char) : Tokens :=
  match o with
  | .variable => (scan fuel (.variable 0) there inner).push .variableStart there
  | .block =>
    match bareBlock? "raw" inner with
    | none => (scan fuel .block there inner).push .blockStart there
    | some (start, content) =>
      let there := there + feeds (inner.take (inner.length - content.length))
      match findRawEnd content with
      | none => .broken (.malformed (some there))
      | some e =>
        let shown := if start = .drop then Text.trimStartChars e.content else e.content
        let shown := if e.before = .drop then Text.trimEndChars shown else shown
        let next := there + feeds (content.take (content.length - e.rest.length))
        (scan fuel (afterMargin e.after) next e.rest).push (.data shown) there
  | .comment =>
    match findCommentEnd inner with
    | none => .broken (.malformed (some there))
    | some (comment, rest) =>
      let after := if comment.getLast? = some '-' then Margin.drop else .plain
      scan fuel (afterMargin after) (there + feeds comment) rest

/-- One step in the text between blocks. -/
theorem scan_text (fuel line : Nat) (trim : Bool) (c : Char) (cs : List Char) :
    ∃ blanks body, c :: cs = blanks ++ body ∧ scan (fuel + 1) (.text trim) line (c :: cs) =
      match findOpening body with
      | (before, none, _) => pushData before (line + feeds blanks) .none
      | (before, some o, rest) =>
        pushData (if (margin rest).1 = .drop then Text.trimEndChars before else before)
          (line + feeds blanks)
          (opened fuel o (line + feeds blanks + feeds before) (margin rest).2) := by
  refine ⟨if trim then (c :: cs).takeWhile Text.isBlank else [],
    if trim then (c :: cs).dropWhile Text.isBlank else c :: cs, ?_, ?_⟩
  · cases trim with
    | true => exact List.takeWhile_append_dropWhile.symm
    | false => rfl
  · rw [scan]
    generalize findOpening (if trim then (c :: cs).dropWhile Text.isBlank else c :: cs) = found
    obtain ⟨before, o?, rest⟩ := found
    cases o? with
    | none => rfl
    | some o => cases o <;> rfl
    exact List.cons_ne_nil c cs

theorem pushData_fault (data : List Char) (n : Nat) (ts : Tokens) :
    (pushData data n ts).fault = ts.fault := by
  rw [pushData]
  split <;> rfl

/-- Text that is passed, with a token of it and perhaps another one behind it. -/
theorem layout_pushData (inside : Bool) {ts : Tokens} {ahead list : List Located}
    (data : List Char) (n : Nat)
    (hlist : ts.list = ahead ++ list)
    (hahead : ∀ t ∈ ahead, t.1.isOpaque = true ∧ t.1.isNumber = false) (hwall : Walled shown rest)
    (h : Layout inside (line + feeds shown) rest list) :
    Layout false line (shown ++ rest) (pushData data n ts).list := by
  rw [pushData]
  split
  · rw [hlist]
    exact .text inside ahead hahead hwall h
  · have hdata : (ts.push (.data data) n).list = ((.data data, n) :: ahead) ++ list := by
      rw [Tokens.push, hlist]
      rfl
    rw [hdata]
    exact .text inside _ (List.forall_mem_cons.mpr ⟨⟨rfl, rfl⟩, hahead⟩) hwall h

theorem feeds_opening (o : Opening) {sign : List Char} (hsign : sign ∈ [[], ['-'], ['+']]) :
    feeds ('{' :: o.mark :: sign) = 0 := by
  refine feeds_eq_zero ?_
  simp only [List.mem_cons, List.not_mem_nil, or_false] at hsign
  cases o <;> rcases hsign with rfl | rfl | rfl <;> decide

/-- An opening ends in a mark, and so does what is shown of a raw block or a comment. -/
theorem walled_opening (before : List Char) (o : Opening) {sign shown : List Char}
    (hsign : sign ∈ [[], ['-'], ['+']]) (hlast : shown = [] ∨ shown.getLast? = some '}')
    (rest : List Char) : Walled (before ++ ('{' :: o.mark :: sign) ++ shown) rest := by
  rcases hlast with rfl | hlast
  · have hne : '{' :: o.mark :: sign ≠ [] := List.cons_ne_nil _ _
    refine walled_of_last (c := ('{' :: o.mark :: sign).getLast hne) ?_ ?_ rest
    · rw [List.append_nil, List.getLast?_append, List.getLast?_eq_some_getLast hne]
      rfl
    · simp only [List.mem_cons, List.not_mem_nil, or_false] at hsign
      cases o <;> rcases hsign with rfl | rfl | rfl <;>
        exact isWall_of_mem (by simp [Opening.mark, walls])
  · refine walled_of_last (c := '}') ?_ (isWall_of_mem (by decide)) rest
    rw [List.getLast?_append, hlast]
    rfl

section Step

variable {fuel : Nat} {c : Char} {place : Place}
variable (ih : ∀ {cs : List Char} {line : Nat} (place : Place), cs.length < fuel →
  (scan fuel place line cs).fault = none →
  Layout place.isInside line cs (scan fuel place line cs).list)
include ih

/-- A token inside of a block. -/
theorem layout_token {t : Token} (hplace : place.isInside = true) (hfuel : cs.length < fuel)
    (hinside : Scan.inside line (c :: cs) = .ok (t, rest))
    (h : (scan fuel place (line + feeds ((c :: cs).take (cs.length + 1 - rest.length))) rest).fault =
      none) :
    Layout true line (c :: cs) ((t, line) :: (scan fuel place
      (line + feeds ((c :: cs).take (cs.length + 1 - rest.length))) rest).list) := by
  have hpassed {shown : List Char} (hcs : c :: cs = shown ++ rest) :
      (c :: cs).take (cs.length + 1 - rest.length) = shown := by
    have hlength := congrArg List.length hcs
    rw [List.length_cons, List.length_append] at hlength
    rw [hlength, hcs]
    exact List.take_left' (by omega)
  have hlayout {shown : List Char} (hcs : c :: cs = shown ++ rest) (hne : shown ≠ []) :
      Layout true (line + feeds shown) rest (scan fuel place (line + feeds shown) rest).list := by
    have hrest := ih _ (Nat.lt_of_le_of_lt (length_le_of_append hcs hne) hfuel) h
    rwa [hplace, hpassed hcs] at hrest
  rcases inside_cases hinside with ⟨s, rfl, hs, hcs⟩ | ⟨word, rfl, hne, hword, hcs, hhead⟩ |
    ⟨hkind, shown, hcs, hne, hend⟩
  · have hrest := hlayout hcs (isWordChar_of_symbol hs).1
    rw [hpassed hcs, feeds_of_symbol hs, Nat.add_zero]
    rw [feeds_of_symbol hs, Nat.add_zero] at hrest
    rw [hcs]
    exact .symbol s hs hrest
  · have hfeeds : feeds word = 0 := feeds_of_forall (p := isNameChar) (by decide) hword
    have hrest := hlayout hcs hne
    rw [hpassed hcs, hfeeds, Nat.add_zero] at h ⊢
    rw [hfeeds, Nat.add_zero] at hrest
    have hwords : ∀ d ∈ rest.head?, isWordChar d = false := by
      intro d hd
      have hshort := Nat.lt_of_le_of_lt (length_le_of_append hcs hne) hfuel
      obtain ⟨rest, rfl⟩ := List.head?_eq_some_iff.mp hd
      obtain ⟨k, rfl⟩ : ∃ k, fuel = k + 1 := ⟨fuel - 1, by omega⟩
      exact isWordChar_of_scan hplace h (hhead d rfl)
    rw [hcs]
    exact .name word hne hword hwords hrest
  · have hrest := hlayout hcs hne
    rw [hpassed hcs]
    rw [hcs]
    refine .literal t hkind (hend.imp And.left fun hquote ↦ ?_) hrest
    exact walled_of_last hquote.2 (isWall_of_mem (mem_walls_of_quote hquote.1)) rest

theorem layout_inside (hplace : place.isInside = true) (hfuel : cs.length < fuel)
    (h : (scan (fuel + 1) place line (c :: cs)).fault = none) :
    Layout true line (c :: cs) (scan (fuel + 1) place line (c :: cs)).list := by
  rw [scan_inside hplace] at h ⊢
  by_cases hblank : isAsciiBlank c = true
  · have hfeeds : (if c = '\n' then line + 1 else line) = line + feeds [c] := by
      by_cases hc : c = '\n' <;> simp [feeds, hc]
    rw [if_pos hblank, hfeeds] at h ⊢
    have hrest := ih _ hfuel h
    rw [hplace] at hrest
    exact .blank c hblank hrest
  · rw [if_neg hblank] at h ⊢
    cases hclosing : closing? place (c :: cs) with
    | some p =>
      obtain ⟨t, m, rest⟩ := p
      rw [hclosing] at h
      obtain ⟨ht, shown, hcs, hne, hclosers⟩ := closing?_eq hclosing
      have hfeeds : feeds shown = 0 := feeds_eq_zero fun hmem ↦ by
        cases (by decide : '\n' ∉ closers) (hclosers _ hmem)
      have hrest :
          Layout false (line + feeds shown) rest (scan fuel (afterMargin m) line rest).list := by
        rw [hfeeds]
        exact ih _ (Nat.lt_of_le_of_lt (length_le_of_append hcs hne) hfuel) h
      rw [hcs]
      refine .close t ht (walled_of_last (List.getLast?_eq_some_getLast hne) ?_ rest) hrest
      exact isWall_of_mem_closers (hclosers _ (List.getLast_mem hne))
    | none =>
      rw [hclosing] at h
      cases hinside : Scan.inside line (c :: cs) with
      | error f =>
        rw [hinside] at h
        cases h
      | ok p =>
        obtain ⟨t, rest⟩ := p
        rw [hinside] at h
        exact layout_token ih ((isInside_track t place).trans hplace) hfuel hinside h

/-- What an opening stands for: perhaps a token, and what follows. -/
theorem layout_opened {o : Opening} {there : Nat} {inner : List Char} (hfuel : inner.length < fuel)
    (h : (opened fuel o there inner).fault = none) :
    ∃ inside ahead list shown rest, inner = shown ++ rest ∧
      (opened fuel o there inner).list = ahead ++ list ∧
      (∀ t ∈ ahead, t.1.isOpaque = true ∧ t.1.isNumber = false) ∧
      (shown = [] ∨ shown.getLast? = some '}') ∧ Layout inside (there + feeds shown) rest list := by
  have hsingle (t : Token) (n : Nat) (ht : t.isOpaque = true ∧ t.isNumber = false) :
      ∀ u ∈ [(t, n)], u.1.isOpaque = true ∧ u.1.isNumber = false := by simpa using ht
  cases o with
  | «variable» =>
    exact ⟨true, [(.variableStart, there)], _, [], inner, rfl, rfl, hsingle _ _ ⟨rfl, rfl⟩, .inl rfl,
      ih (.variable 0) hfuel h⟩
  | block =>
    rw [opened] at h ⊢
    cases hraw : bareBlock? "raw" inner with
    | none =>
      rw [hraw] at h
      exact ⟨true, [(.blockStart, there)], _, [], inner, rfl, rfl, hsingle _ _ ⟨rfl, rfl⟩, .inl rfl,
        ih .block hfuel h⟩
    | some p =>
      obtain ⟨start, content⟩ := p
      rw [hraw] at h
      simp only at h ⊢
      cases hend : findRawEnd content with
      | none =>
        rw [hend] at h
        cases h
      | some e =>
        rw [hend] at h
        obtain ⟨opening, rfl, -⟩ := bareBlock?_eq hraw
        obtain ⟨raw, rfl, hlast⟩ := findRawEnd_eq hend
        have htake (as bs : List Char) : (as ++ bs).take ((as ++ bs).length - bs.length) = as :=
          List.take_left' (by simp)
        simp only [htake] at h ⊢
        have hshort : e.rest.length < fuel := by
          simp only [List.length_append] at hfuel
          omega
        have hrest := ih _ hshort h
        refine ⟨false, [(.data _, _)], _, opening ++ raw, e.rest, (List.append_assoc ..).symm, rfl,
          hsingle _ _ ⟨rfl, rfl⟩, .inr ?_, ?_⟩
        · rw [List.getLast?_append, hlast]
          rfl
        · rw [feeds_append, ← Nat.add_assoc]
          exact hrest
  | comment =>
    rw [opened] at h ⊢
    cases hend : findCommentEnd inner with
    | none =>
      rw [hend] at h
      cases h
    | some p =>
      obtain ⟨comment, rest⟩ := p
      rw [hend] at h
      simp only at h ⊢
      obtain rfl := splitOnce?_eq hend
      have hshort : rest.length < fuel := by
        simp only [List.length_append] at hfuel
        omega
      have hrest := ih _ hshort h
      refine ⟨false, [], _, comment ++ ['#', '}'], rest, rfl, rfl, by simp, .inr (by simp), ?_⟩
      have hfeeds : feeds (comment ++ ['#', '}']) = feeds comment := by
        rw [feeds_append]
        rfl
      rw [hfeeds]
      exact hrest

theorem layout_text {trim : Bool} (hfuel : (c :: cs).length < fuel + 1)
    (h : (scan (fuel + 1) (.text trim) line (c :: cs)).fault = none) :
    Layout false line (c :: cs) (scan (fuel + 1) (.text trim) line (c :: cs)).list := by
  obtain ⟨blanks, body, hcs, hscan⟩ := scan_text fuel line trim c cs
  rw [hscan] at h ⊢
  rw [hcs] at hfuel ⊢
  rcases findOpening_eq body with hfind | ⟨before, o, rest, hfind, rfl⟩
  · rw [hfind]
    have hnil : Layout false line ((blanks ++ body) ++ [])
        (pushData body (line + feeds blanks) .none).list :=
      layout_pushData false body _ (List.nil_append []).symm (by simp) (.inl rfl) (.nil false _)
    rwa [List.append_nil] at hnil
  · rw [hfind] at h ⊢
    cases hmargin : margin rest with
    | mk m inner =>
      simp only [hmargin, pushData_fault] at h ⊢
      obtain ⟨sign, rfl, hsign⟩ := margin_eq hmargin
      have hshort : inner.length < fuel := by
        simp only [List.length_append, List.length_cons] at hfuel
        omega
      obtain ⟨inside, ahead, list, shown, rest, rfl, hlist, hahead, hlast, hrest⟩ :=
        layout_opened ih hshort h
      -- All up to the end of the opening is passed at once, and ends in a mark.
      have htext : blanks ++ (before ++ '{' :: o.mark :: (sign ++ (shown ++ rest))) =
          blanks ++ before ++ ('{' :: o.mark :: sign) ++ shown ++ rest := by simp
      rw [htext]
      refine layout_pushData inside _ _ hlist hahead ?_ ?_
      · exact walled_opening (blanks ++ before) o hsign hlast rest
      · have hfeeds : line + feeds (blanks ++ before ++ ('{' :: o.mark :: sign) ++ shown) =
            line + feeds blanks + feeds before + feeds shown := by
          simp only [feeds_append, feeds_opening o hsign]
          omega
        rw [hfeeds]
        exact hrest

end Step

/-- The tokens of a text that has no fault stand in it. -/
theorem layout_of_scan {fuel line : Nat} {place : Place} (hfuel : cs.length < fuel)
    (h : (scan fuel place line cs).fault = none) :
    Layout place.isInside line cs (scan fuel place line cs).list := by
  induction fuel generalizing place line cs with
  | zero => exact absurd hfuel (Nat.not_lt_zero _)
  | succ fuel ih =>
    cases cs with
    | nil =>
      have hnil : scan (fuel + 1) place line [] = .none := by cases place <;> rfl
      rw [hnil]
      exact .nil _ _
    | cons c cs =>
      cases hplace : place.isInside with
      | true => exact layout_inside (fun _ ↦ ih) hplace (Nat.lt_of_succ_lt_succ hfuel) h
      | false =>
        obtain ⟨trim, rfl⟩ : ∃ trim, place = .text trim := by
          rcases place with trim | _ | n
          · exact ⟨trim, rfl⟩
          · cases hplace
          · cases hplace
        exact layout_text (fun _ ↦ ih) hfuel h

end DeliveryCharts.Template
