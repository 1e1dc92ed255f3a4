import DeliveryCharts.Proofs.Yaml.Onward
import Mathlib.Data.List.Basic

/-!
Literal blocks. Their lines are indented, and the breaks at their end are kept as the header says.
-/

namespace DeliveryCharts.Yaml

open Sequel (blockBreaks_go_eq)
open Writer (chompMark spaces)

variable {cs bs r t : List Char} {c : Cursor} {indent least line margin : Nat} {unindented : Bool}

/-! The breaks in front of a line. -/

/-- Breaks in the text of a block, with at most `width` spaces in front of each. -/
inductive Padded (width : Nat) : List Char → List Char → Prop
  | nil : Padded width [] []
  | cons {n : Nat} {b : Char} {bs t : List Char} (hb : IsFeed b) (hn : n ≤ width)
      (h : Padded width bs t) : Padded width (b :: bs) (spaces n ++ b :: t)

theorem Padded.length_le {width : Nat} (h : Padded width bs t) : bs.length ≤ t.length := by
  induction h with
  | nil => exact Nat.le_refl _
  | cons hb hn h ih =>
    rw [List.length_append, List.length_cons, List.length_cons]
    omega

theorem indented_eq {n : Nat} (hrest : c.rest = spaces n ++ r) (hr : r.head? ≠ some ' ')
    (hcol : c.col = 0) (hn : indent = 0 ∨ n ≤ indent) :
    Sequel.indented indent c = c.advance n := by
  have hspaces : c.rest.takeWhile (· == ' ') = spaces n := by
    rw [hrest]
    exact takeWhile_spaces _ (by rfl) (fun ch hch ↦ by
      have hne : ch ≠ ' ' := fun he ↦ hr (he ▸ hch)
      simpa using hne) n
  rw [Sequel.indented, hspaces, length_spaces, hcol]
  split
  · rfl
  · rw [Nat.sub_zero, Nat.min_eq_left (hn.resolve_left ‹_›)]

theorem blockBreaks_go_padded {fuel deepest : Nat} {breaks : List Char} (h : Padded indent bs t)
    (hrest : c.rest = t ++ r) (hcol : c.col = 0) (hfuel : bs.length ≤ fuel) :
    ∃ fuel' deepest' d, blockBreaks.go least indent fuel deepest breaks c =
        blockBreaks.go least indent fuel' deepest' (breaks ++ bs) d ∧
      d.rest = r ∧ d.col = 0 ∧ d.line = c.line + bs.length := by
  induction h generalizing c fuel deepest breaks with
  | nil => exact ⟨fuel, deepest, c, by rw [List.append_nil], hrest, hcol, rfl⟩
  | @cons n b bs t hb hn h ih =>
    rw [List.length_cons] at hfuel
    obtain ⟨k, rfl⟩ : ∃ k, fuel = k + 1 := ⟨fuel - 1, by omega⟩
    rw [List.append_assoc, List.cons_append] at hrest
    have hhead : b ≠ ' ' ∧ b ≠ '\t' := by
      rcases hb with rfl | rfl | rfl <;> decide
    have hindented : Sequel.indented indent c = c.advance n :=
      indented_eq hrest (by simpa using hhead.1) hcol (.inr hn)
    have hdrop : (c.advance n).rest = b :: (t ++ r) := by
      rw [Cursor.advance_rest, hrest, List.drop_left' (length_spaces n)]
    have htab : ¬ ((indent = 0 ∨ (c.advance n).col < indent) ∧
        (c.advance n).rest.head? = some '\t') := by
      rw [hdrop]
      simpa using fun _ ↦ hhead.2
    obtain ⟨fuel', deepest', d, hgo, hd, hdcol, hdline⟩ :=
      @ih (c.advance n).newline k (max deepest (c.advance n).col) (breaks ++ [b])
        (hb.newline_rest hdrop) rfl (by omega)
    refine ⟨fuel', deepest', d, ?_, hd, hdcol, ?_⟩
    · have hstarts : startsBreak (c.advance n).rest = true := by rw [hdrop]; exact hb.isBreak
      rw [blockBreaks_go_eq, hindented, if_neg htab, hstarts, hb.breakText hdrop]
      dsimp only
      rw [hgo, List.append_assoc, List.singleton_append]
    · rw [hdline, Cursor.newline_line, Cursor.advance_line, List.length_cons]
      omega

/-- Behind a block, left of its lines. -/
structure Leaves (indent line : Nat) (r : List Char) (c : Cursor) : Prop where
  out : (c.col ≠ indent || c.rest.isEmpty) = true
  behind : Behind line r { c with fresh := true }

theorem blockBreaks_go_line {fuel deepest n : Nat} {breaks : List Char}
    (hindented : Sequel.indented indent c = c.advance n)
    (hrest : (c.advance n).rest = r) (hbreak : startsBreak r = false)
    (htab : r.head? = some '\t' → ¬ (indent = 0 ∨ c.col + n < indent)) :
    blockBreaks.go least indent fuel deepest breaks c =
      .ok (if indent = 0 then max (max (max deepest (c.col + n)) least) 1 else indent, breaks,
        c.advance n) := by
  have htab' : ¬ ((indent = 0 ∨ (c.advance n).col < indent) ∧
      (c.advance n).rest.head? = some '\t') := by
    rw [hrest]
    exact fun h ↦ htab h.2 h.1
  rw [blockBreaks_go_eq, hindented, if_neg htab', hrest, hbreak]
  cases fuel <;> rfl

/-- The blanks behind the column of the block are its own. -/
theorem indented_of_le (hrest : c.rest = spaces indent ++ r) (hcol : c.col = 0)
    (hpos : 0 < indent) : Sequel.indented indent c = c.advance indent := by
  have hle : indent ≤ (c.rest.takeWhile (· == ' ')).length := by
    rw [hrest, List.takeWhile_append_of_pos fun ch hch ↦ by rw [eq_space_of_mem hch]; rfl,
      List.length_append, length_spaces]
    omega
  rw [Sequel.indented, if_neg (by omega), hcol, Nat.sub_zero, Nat.min_eq_right hle]

theorem blockBreaks_onward (least line : Nat) (hbs : Padded indent bs t) (hrest : c.rest = t ++ r)
    (hcol : c.col = 0) (hr : Onward margin unindented r) (hpos : 0 < indent) (hmargin : margin ≤ indent)
    (hline : line < c.line + bs.length) :
    ∃ d, blockBreaks least indent c = .ok (indent, bs, d) ∧ Leaves indent line r d := by
  have hlength := hbs.length_le
  obtain ⟨fuel, deepest, d, hgo, hd, hdcol, hdline⟩ := @blockBreaks_go_padded bs r t c indent least
    c.rest.length 0 [] hbs hrest hcol (by rw [hrest, List.length_append]; omega)
  rw [blockBreaks, hgo]
  have hne : ¬ indent = 0 := by omega
  have hlt : line < d.line := by omega
  cases hr with
  | nil =>
    refine ⟨d.advance 0, ?_, ?_, ?_⟩
    · rw [blockBreaks_go_line (n := 0) (r := []) (indented_eq hd (by simp) hdcol (by omega)) hd rfl
        (by simp), if_neg hne]
      rfl
    · show (d.col ≠ indent || d.rest.isEmpty) = true
      rw [hd]
      simp
    · exact AtLine.behind ⟨hd, hdcol, rfl⟩ hlt
  | @token n ch r hn hlt' hgap hsign =>
    obtain ⟨hspace, hbreak⟩ := Bool.or_eq_false_iff.mp hgap
    obtain ⟨hspace, htab⟩ := Bool.or_eq_false_iff.mp hspace
    have hdrop : (d.advance n).rest = ch :: r := by
      rw [Cursor.advance_rest, hd, List.drop_left' (length_spaces n)]
    refine ⟨d.advance n, ?_, ?_, ?_⟩
    · rw [blockBreaks_go_line (indented_eq hd (by simpa using hspace) hdcol (by omega)) hdrop hbreak
        (by simpa using fun he ↦ by simp [he] at htab), if_neg hne]
      rfl
    · have hcol' : (d.advance n).col ≠ indent := by
        rw [Cursor.advance_col]
        omega
      show (decide ((d.advance n).col ≠ indent) || (d.advance n).rest.isEmpty) = true
      rw [decide_eq_true hcol', Bool.true_or]
    · exact AtLine.behind_advance (d := { d with fresh := true }) ⟨hd, hdcol, rfl⟩ hgap hsign hlt

theorem blockBreaks_line (least : Nat) (hbs : Padded indent bs t)
    (hrest : c.rest = t ++ (spaces indent ++ r)) (hcol : c.col = 0) (hr : startsBreak r = false)
    (hpos : 0 < indent) :
    ∃ d, blockBreaks least indent c = .ok (indent, bs, d) ∧ d.rest = r ∧ d.col = indent ∧
      d.line = c.line + bs.length := by
  have hlength := hbs.length_le
  obtain ⟨fuel, deepest, d, hgo, hd, hdcol, hdline⟩ := @blockBreaks_go_padded bs _ t c indent least
    c.rest.length 0 [] hbs hrest hcol (by rw [hrest, List.length_append]; omega)
  have hdrop : (d.advance indent).rest = r := by
    rw [Cursor.advance_rest, hd, List.drop_left' (length_spaces indent)]
  refine ⟨d.advance indent, ?_, hdrop, ?_, hdline⟩
  · rw [blockBreaks, hgo, blockBreaks_go_line (indented_of_le hd hdcol hpos) hdrop hr (by omega),
      if_neg (by omega)]
    rfl
  · rw [Cursor.advance_col, hdcol, Nat.zero_add]

/-- The first line says how far the block is indented. -/
theorem blockBreaks_first {n : Nat} {ch : Char} (hrest : c.rest = spaces n ++ ch :: r)
    (hcol : c.col = 0) (hgap : isGap ch = false) (hleast : least ≤ n) (hpos : 0 < n) :
    blockBreaks least 0 c = .ok (n, [], c.advance n) := by
  obtain ⟨hspace, hbreak⟩ := Bool.or_eq_false_iff.mp hgap
  obtain ⟨hspace, htab⟩ := Bool.or_eq_false_iff.mp hspace
  have hdrop : (c.advance n).rest = ch :: r := by
    rw [Cursor.advance_rest, hrest, List.drop_left' (length_spaces n)]
  rw [blockBreaks, blockBreaks_go_line (indented_eq hrest (by simpa using hspace) hcol (.inl rfl))
    hdrop hbreak (by simpa using fun he ↦ by simp [he] at htab), if_pos rfl, hcol]
  congr 3
  omega

/-! The lines of a block. -/

/-- A text up to its last character that is no break, and the breaks behind. A text that does not
end with one gets a line feed when it is written. -/
inductive Ending : List Char → List Char → Char → List Char → Prop
  | opened {cs : List Char} (hlast : ∀ ch ∈ cs.getLast?, isBreak ch = false) : Ending cs cs '\n' []
  | closed {body bs : List Char} {b : Char} (hlast : ∀ ch ∈ body.getLast?, isBreak ch = false)
      (hb : isBreak b = true) (hbs : ∀ ch ∈ bs, isBreak ch = true) :
      Ending (body ++ b :: bs) body b bs

/-- The line feed that a text gets. -/
def lastFeed (cs : List Char) : List Char := if cs.getLast?.any isBreak then [] else ['\n']

theorem lastFeed_append {rest : List Char} (hne : rest ≠ []) (bs : List Char) :
    lastFeed (bs ++ rest) = lastFeed rest := by
  rw [lastFeed, lastFeed, List.getLast?_append_of_ne_nil _ hne]

theorem lastFeed_of_breaks (hne : cs ≠ []) (hcs : ∀ ch ∈ cs, isBreak ch = true) :
    lastFeed cs = [] := by
  have hlast : isBreak (cs.getLast hne) = true := hcs _ (List.getLast_mem hne)
  rw [lastFeed, List.getLast?_eq_some_getLast hne]
  exact if_pos hlast

theorem not_isBreak_of_mem_getLast? (h : ∀ ch ∈ cs, isBreak ch = false) :
    ∀ ch ∈ cs.getLast?, isBreak ch = false :=
  fun ch hch ↦ h ch (List.mem_of_getLast? hch)

theorem lastFeed_of_line (h : ∀ ch ∈ cs, isBreak ch = false) : lastFeed cs = ['\n'] := by
  have hany : cs.getLast?.any isBreak = false := by
    cases hch : cs.getLast? with
    | none => rfl
    | some ch => exact not_isBreak_of_mem_getLast? h ch hch
  rw [lastFeed, hany]
  rfl

theorem blockLines_succ {fuel : Nat} {s : BlockState} {l : List Char} {b : Char}
    (hrest : s.cursor.rest = l ++ b :: r) (hl : ∀ ch ∈ l, isBreak ch = false) (hb : IsFeed b)
    (hcol : s.cursor.col = indent) :
    blockLines true indent (fuel + 1) s =
      blockBreaks indent indent (s.cursor.advance l.length).newline >>= fun next ↦
        blockLines true indent fuel {
          text := s.text ++ (s.leading ++ s.trailing) ++ l
          leading := [b]
          trailing := next.2.1
          leadingBlank := s.cursor.rest.head?.any isSpaceOrTab
          cursor := next.2.2 } := by
  have hline : s.cursor.rest.takeWhile (fun c ↦ !isBreak c) = l := by
    rw [hrest, List.takeWhile_append_of_pos (by simpa using hl),
      List.takeWhile_cons_of_neg (by simp [hb.isBreak]), List.append_nil]
  have hbehind : (s.cursor.advance l.length).rest = b :: r := by
    rw [Cursor.advance_rest, hrest, List.drop_left]
  have hstop : (s.cursor.col ≠ indent || s.cursor.rest.isEmpty) = false := by
    rw [hcol, hrest]
    simp
  have hempty : (s.cursor.advance l.length).rest.isEmpty = false := by
    rw [hbehind]
    rfl
  rw [blockLines.eq_2, hstop, hline]
  simp only [hb.breakText hbehind, hempty, Bool.not_true, Bool.false_and, Bool.false_eq_true,
    if_false]

/-- The text of a block, from the start of a line or from inside one. The lines are indented; where
one has breaks only, there may be fewer spaces. -/
inductive Indented (indent : Nat) : Bool → List Char → List Char → Prop
  | nil (atStart : Bool) : Indented indent atStart [] []
  | char {ch : Char} {cs t : List Char} (hch : isBreak ch = false) (h : Indented indent false cs t) :
      Indented indent false (ch :: cs) (ch :: t)
  | start {ch : Char} {cs t : List Char} (hch : isBreak ch = false)
      (h : Indented indent false (ch :: cs) t) : Indented indent true (ch :: cs) (spaces indent ++ t)
  | feed {b : Char} {cs t : List Char} (hb : IsFeed b) (h : Indented indent true cs t) :
      Indented indent false (b :: cs) (b :: t)
  | blank {n : Nat} {b : Char} {cs t : List Char} (hb : IsFeed b) (hn : n ≤ indent)
      (h : Indented indent true cs t) : Indented indent true (b :: cs) (spaces n ++ b :: t)

theorem Indented.rest_of_line {l : List Char} (h : Indented indent false (l ++ cs) t)
    (hl : ∀ ch ∈ l, isBreak ch = false) : ∃ t', t = l ++ t' ∧ Indented indent false cs t' := by
  induction l generalizing t with
  | nil => exact ⟨t, rfl, h⟩
  | cons ch l ih =>
    obtain ⟨hch, hl⟩ := List.forall_mem_cons.mp hl
    cases h with
    | char _ h =>
      obtain ⟨t', rfl, ht'⟩ := ih h hl
      exact ⟨t', rfl, ht'⟩
    | feed hb =>
      rw [hb.isBreak] at hch
      cases hch

theorem Indented.breaks (h : Indented indent true (bs ++ cs) t) (hbs : ∀ ch ∈ bs, isBreak ch = true) :
    ∃ t₁ t₂, t = t₁ ++ t₂ ∧ Padded indent bs t₁ ∧ Indented indent true cs t₂ := by
  induction bs generalizing t with
  | nil => exact ⟨[], t, rfl, .nil, h⟩
  | cons b bs ih =>
    obtain ⟨hb, hbs⟩ := List.forall_mem_cons.mp hbs
    cases h with
    | start hch =>
      rw [hb] at hch
      cases hch
    | @blank n _ _ t hfeed hn h =>
      obtain ⟨t₁, t₂, rfl, hpadded, ht₂⟩ := ih h hbs
      exact ⟨spaces n ++ b :: t₁, t₂, by simp, .cons hfeed hn hpadded, ht₂⟩

theorem Indented.rest_of_break {b : Char} (h : Indented indent false (b :: cs) t)
    (hb : isBreak b = true) : IsFeed b ∧ ∃ t', t = b :: t' ∧ Indented indent true cs t' := by
  cases h with
  | char hch =>
    rw [hb] at hch
    cases hch
  | feed hfeed h => exact ⟨hfeed, _, rfl, h⟩

theorem Indented.eq_nil {atStart : Bool} (h : Indented indent atStart [] t) : t = [] := by
  cases h
  rfl

/-- The first line. -/
theorem Indented.first {ch : Char} (h : Indented indent true (ch :: cs) t)
    (hch : isBreak ch = false) :
    ∃ t', t = spaces indent ++ ch :: t' ∧ Indented indent false (ch :: cs) (ch :: t') := by
  cases h with
  | start _ h =>
    cases h with
    | char _ h => exact ⟨_, rfl, .char hch h⟩
    | feed hb =>
      rw [hb.isBreak] at hch
      cases hch
  | blank hb =>
    rw [hb.isBreak] at hch
    cases hch

theorem blockLines_of_leaves {s : BlockState} (h : Leaves indent line r s.cursor) (fuel : Nat) :
    blockLines true indent fuel s = .ok s := by
  cases fuel with
  | zero => rfl
  | succ fuel => rw [blockLines.eq_2, if_pos h.out]

theorem Ending.prepend {body : List Char} {b : Char} (h : Ending cs body b bs) (hne : body ≠ [])
    (front : List Char) : Ending (front ++ cs) (front ++ body) b bs := by
  have hlast (hbody : ∀ ch ∈ body.getLast?, isBreak ch = false) :
      ∀ ch ∈ (front ++ body).getLast?, isBreak ch = false := by
    rwa [List.getLast?_append_of_ne_nil _ hne]
  cases h with
  | opened hbody => exact .opened (hlast hbody)
  | closed hbody hb hbs =>
    rw [← List.append_assoc]
    exact .closed (hlast hbody) hb hbs

/-- The lines `body` are in the text. Their last break `b` and the breaks `bs` behind it are not
yet. -/
structure Taken (indent line : Nat) (r : List Char) (s s' : BlockState) (body : List Char) (b : Char)
    (bs : List Char) : Prop where
  text : s'.text = s.text ++ (s.leading ++ s.trailing) ++ body
  leading : s'.leading = [b]
  trailing : s'.trailing = bs
  leaves : Leaves indent line r s'.cursor

section Lines

variable {fuel : Nat} {s : BlockState} {l : List Char} {b : Char} (hpos : 0 < indent)
  (hcol : s.cursor.col = indent) (hline : line ≤ s.cursor.line) (hl : ∀ ch ∈ l, isBreak ch = false)
  (hb : IsFeed b) (hbs : Padded indent bs t)
include hpos hcol hline hl hb hbs

theorem blockLines_last (hr : Onward margin unindented r) (hmargin : margin ≤ indent)
    (hrest : s.cursor.rest = l ++ b :: (t ++ r)) :
    ∃ s', blockLines true indent (fuel + 1) s = .ok s' ∧ Taken indent line r s s' l b bs := by
  have hnext : (s.cursor.advance l.length).newline.rest = t ++ r := by
    apply hb.newline_rest
    rw [Cursor.advance_rest, hrest, List.drop_left]
  have hbelow : line < s.cursor.line + 1 + bs.length := by omega
  obtain ⟨d, hbreaks, hleaves⟩ := blockBreaks_onward indent line hbs hnext rfl hr hpos hmargin hbelow
  rw [blockLines_succ hrest hl hb hcol, hbreaks]
  exact ⟨_, blockLines_of_leaves hleaves fuel, rfl, rfl, rfl, hleaves⟩

/-- Behind the line and the breaks the next line starts. -/
theorem blockLines_next (hr : startsBreak r = false)
    (hrest : s.cursor.rest = l ++ b :: (t ++ (spaces indent ++ r))) :
    ∃ next, (∀ fuel, blockLines true indent (fuel + 1) s = blockLines true indent fuel next) ∧
      next.cursor.rest = r ∧ next.cursor.col = indent ∧ line ≤ next.cursor.line ∧
      next.text ++ (next.leading ++ next.trailing) =
        s.text ++ (s.leading ++ s.trailing) ++ (l ++ b :: bs) := by
  have hnext : (s.cursor.advance l.length).newline.rest = t ++ (spaces indent ++ r) := by
    apply hb.newline_rest
    rw [Cursor.advance_rest, hrest, List.drop_left]
  obtain ⟨d, hbreaks, hd, hdcol, hdline⟩ := blockBreaks_line indent hbs hnext rfl hr hpos
  have hbelow : line ≤ s.cursor.line + 1 + bs.length := by omega
  refine ⟨⟨s.text ++ (s.leading ++ s.trailing) ++ l, [b], bs, s.cursor.rest.head?.any isSpaceOrTab, d⟩,
    fun fuel ↦ ?_, hd, hdcol, Nat.le_trans hbelow (Nat.le_of_eq hdline.symm), by simp⟩
  rw [blockLines_succ hrest hl hb hcol, hbreaks]
  rfl

end Lines

theorem blockLines_eq (line : Nat) {fuel : Nat} {s : BlockState} (hcs : Lines cs) (hne : cs ≠ [])
    (hhead : ∀ ch ∈ cs.head?, isBreak ch = false) (ht : Indented indent false cs t)
    (hr : Onward margin unindented r) (hpos : 0 < indent) (hmargin : margin ≤ indent)
    (hrest : s.cursor.rest = t ++ (lastFeed cs ++ r)) (hcol : s.cursor.col = indent)
    (hline : line ≤ s.cursor.line) (hfuel : s.cursor.rest.length < fuel) :
    ∃ s' body b bs, blockLines true indent fuel s = .ok s' ∧ body ≠ [] ∧ Ending cs body b bs ∧
      Taken indent line r s s' body b bs := by
  obtain ⟨k, rfl⟩ : ∃ k, fuel = k + 1 := ⟨fuel - 1, by omega⟩
  induction hcs generalizing s k t with
  | @last l hl =>
    rw [← List.append_nil l] at ht
    obtain ⟨t, rfl, hnil⟩ := ht.rest_of_line hl
    rw [hnil.eq_nil, List.append_nil, lastFeed_of_line hl] at hrest
    obtain ⟨s', hok, htaken⟩ := blockLines_last hpos hcol hline hl (.inl rfl) .nil hr hmargin hrest
    exact ⟨s', l, '\n', [], hok, hne, .opened (not_isBreak_of_mem_getLast? hl), htaken⟩
  | @more l cs b bs hl hb hbs hhead' hcs ih =>
    obtain ⟨t, rfl, hline'⟩ := ht.rest_of_line hl
    obtain ⟨hfeed, t, rfl, hbelow⟩ := hline'.rest_of_break hb
    obtain ⟨t₁, t₂, rfl, hpadded, hcs'⟩ := hbelow.breaks hbs
    have hlne : l ≠ [] := by
      rintro rfl
      have hbreak : isBreak b = false := hhead b rfl
      rw [hb] at hbreak
      cases hbreak
    have hsplit : l ++ b :: (bs ++ cs) = l ++ b :: bs ++ cs := by simp
    rw [List.append_assoc, List.cons_append, List.append_assoc] at hrest
    by_cases hnil : cs = []
    · subst hnil
      have hended : lastFeed (l ++ b :: bs) = [] :=
        (lastFeed_append (List.cons_ne_nil b bs) l).trans
          (lastFeed_of_breaks (List.cons_ne_nil b bs) (List.forall_mem_cons.mpr ⟨hb, hbs⟩))
      rw [List.append_nil] at hrest ⊢
      rw [hended, hcs'.eq_nil] at hrest
      obtain ⟨s', hok, htaken⟩ := blockLines_last hpos hcol hline hl hfeed hpadded hr hmargin hrest
      exact ⟨s', l, b, bs, hok, hlne, .closed (not_isBreak_of_mem_getLast? hl) hb hbs, htaken⟩
    · obtain ⟨ch, cs, rfl⟩ := List.exists_cons_of_ne_nil hnil
      obtain ⟨t₂, rfl, hfirst⟩ := hcs'.first (hhead' ch rfl)
      rw [hsplit, lastFeed_append hnil, List.append_assoc] at hrest
      have hstarts : startsBreak (ch :: t₂ ++ (lastFeed (ch :: cs) ++ r)) = false := hhead' ch rfl
      obtain ⟨next, hnext, hnrest, hncol, hnline, hntext⟩ :=
        blockLines_next hpos hcol hline hl hfeed hpadded hstarts hrest
      have hlength : next.cursor.rest.length + 1 < s.cursor.rest.length := by
        rw [hrest, hnrest]
        have hpos' : 0 < l.length := List.length_pos_iff.mpr hlne
        simp only [List.length_append, List.length_cons]
        omega
      obtain ⟨k, rfl⟩ : ∃ j, k = j + 1 := ⟨k - 1, by omega⟩
      obtain ⟨s', body, b', bs', hok, hbody, hending, htaken⟩ :=
        ih hnil hhead' hfirst hnrest hncol hnline k (by omega)
      rw [hsplit, hnext]
      refine ⟨s', l ++ b :: bs ++ body, b', bs', hok, by simp, hending.prepend hbody _,
        ?_, htaken.leading, htaken.trailing, htaken.leaves⟩
      rw [htaken.text, hntext, List.append_assoc]

/-! The header, and what becomes of the breaks at the end. -/

/-- How it is written in the header. -/
def Chomp.mark : Chomp → List Char
  | .strip => ['-']
  | .clip => []
  | .keep => ['+']

/-- What is left of the breaks at the end: the first one and the others. -/
def Chomp.tail (leading trailing : List Char) : Chomp → List Char
  | .strip => []
  | .clip => leading
  | .keep => leading ++ trailing

theorem blockHeader_mark (marked : Bool) (k : Chomp) (r : List Char) :
    blockHeader ((if marked then ['2'] else []) ++ k.mark ++ '\n' :: r) =
      .ok (k, if marked then some 2 else none,
        ((if marked then ['2'] else []) ++ k.mark).length) := by
  cases marked <;> cases k <;> rfl

/-- Of two breaks or more at the end all are kept. -/
theorem chompMark_of_two {b b' : Char} (front : List Char)
    (hbs : ∀ ch ∈ b :: b' :: bs, isBreak ch = true) :
    chompMark (front ++ b :: b' :: bs) = Chomp.mark .keep := by
  obtain ⟨w, y, hy⟩ := (List.eq_nil_or_concat (b' :: bs)).resolve_left (by simp)
  obtain ⟨v, x, hx⟩ := (List.eq_nil_or_concat (b :: w)).resolve_left (by simp)
  have hsplit : b :: b' :: bs = v ++ [x, y] := by
    rw [hy, List.concat_eq_append, ← List.cons_append, hx]
    simp
  rw [hsplit] at hbs ⊢
  have hbx : isBreak x = true := hbs x (by simp)
  have hby : isBreak y = true := hbs y (by simp)
  simp [chompMark, hbx, hby, Chomp.mark]

theorem chompMark_of_breaks (hne : cs ≠ []) (hcs : ∀ ch ∈ cs, isBreak ch = true) :
    chompMark cs = Chomp.mark .keep := by
  match cs with
  | [b] => simp [chompMark, hcs b (by simp), Chomp.mark]
  | b :: b' :: bs => exact chompMark_of_two [] hcs

theorem Chomp.mark_injective : Function.Injective Chomp.mark := by
  intro k k' h
  cases k <;> cases k' <;> first | rfl | cases h

theorem exists_mark (cs : List Char) : ∃ k : Chomp, chompMark cs = k.mark := by
  rw [chompMark]
  split
  · exact ⟨.strip, rfl⟩
  · split
    · exact ⟨.strip, rfl⟩
    · split
      · exact ⟨.keep, rfl⟩
      · split
        · exact ⟨.keep, rfl⟩
        · exact ⟨.clip, rfl⟩

theorem exists_chomp {body : List Char} {b : Char} (h : Ending cs body b bs) (hne : body ≠ []) :
    ∃ k : Chomp, chompMark cs = k.mark ∧ body ++ k.tail [b] bs = cs := by
  obtain ⟨front, d, rfl⟩ := (List.eq_nil_or_concat body).resolve_left hne
  rw [List.concat_eq_append] at h ⊢
  cases h with
  | opened hlast =>
    have hd : isBreak d = false := hlast d (by simp)
    exact ⟨.strip, by simp [chompMark, hd, Chomp.mark], by simp [Chomp.tail]⟩
  | closed hlast hb hbs =>
    have hd : isBreak d = false := hlast d (by simp)
    cases bs with
    | nil => exact ⟨.clip, by simp [chompMark, hb, hd, Chomp.mark], by simp [Chomp.tail]⟩
    | cons b' bs =>
      refine ⟨.keep, ?_, by simp [Chomp.tail]⟩
      exact chompMark_of_two _ (List.forall_mem_cons.mpr ⟨hb, hbs⟩)

/-- The indentation is marked. -/
def isMarked (cs : List Char) : Bool := cs.head?.any fun ch ↦ Writer.isSpace ch || isBreak ch

theorem block_eq {k : Chomp} {marked : Bool} {parent : Nat} (hparent : 0 < parent)
    (hrest : c.rest = (if marked then ['2'] else []) ++ k.mark ++ '\n' :: r) :
    ∃ d : Cursor, d.rest = r ∧ d.col = 0 ∧ d.line = c.line + 1 ∧
      block true parent c =
        blockBreaks parent (if marked then parent + 1 else 0) d >>= fun start ↦
          blockLines true start.1 (start.2.2.rest.length + 1)
            { trailing := start.2.1, cursor := start.2.2 } >>= fun s ↦
              .ok (s.text ++ k.tail s.leading s.trailing, { s.cursor with fresh := true }) := by
  let e := c.advance ((if marked then ['2'] else []) ++ k.mark).length
  have he : e.rest = '\n' :: r := by
    show c.rest.drop _ = _
    rw [hrest, List.drop_left]
  have hspaces : e.spaces isSpaceOrTab = e := by
    rw [Cursor.spaces, he]
    rfl
  have hcomment : e.dropComment = e := Cursor.dropComment_of_ne (by simp [he])
  have hempty : e.rest.isEmpty = false := by rw [he]; rfl
  have hstarts : startsBreak e.rest = true := by rw [he]; rfl
  refine ⟨e.newline, Cursor.newline_of_feed he, rfl, rfl, ?_⟩
  have hheader : blockHeader c.rest = .ok (k, if marked then some 2 else none,
      ((if marked then ['2'] else []) ++ k.mark).length) := by
    rw [hrest]
    exact blockHeader_mark marked k r
  have hindent : (if parent = 0 then 2 else parent - 1 + 2) = parent + 1 := by
    rw [if_neg (by omega)]
    omega
  have hadvance : c.advance ((if marked then ['2'] else []) ++ k.mark).length = e := rfl
  rw [block, hheader]
  simp only [bind, Except.bind, hadvance, hspaces, hcomment, hempty, hstarts]
  cases marked with
  | true =>
    simp only [if_true, hindent]
    cases k <;> rfl
  | false => cases k <;> rfl

/-! The whole block. -/

/-- A literal block whose lines stand in `t`. -/
def blockText (cs t : List Char) : List Char :=
  '|' :: ((if isMarked cs then ['2'] else []) ++ chompMark cs ++ '\n' :: t)

theorem literal_eq (n : Nat) (cs : List Char) :
    Writer.literal n cs = blockText cs (Writer.indented n true cs) := by
  rw [Writer.literal]
  rfl

section Literal

variable {parent : Nat} {ch : Char} {t₁ t₂ : List Char} {d : Cursor}

/-- The breaks a text starts with; behind them the column of its lines is known. -/
theorem blockBreaks_start (cs : List Char) (hbs : ∀ b ∈ bs, isBreak b = true)
    (hbreak : isBreak ch = false) (htab : ch ≠ '\t') (hpadded : Padded (parent + 1) bs t₁)
    (hrest : d.rest = t₁ ++ (spaces (parent + 1) ++ ch :: t₂)) (hcol : d.col = 0) :
    ∃ e, blockBreaks parent (if isMarked (bs ++ ch :: cs) then parent + 1 else 0) d =
        .ok (parent + 1, bs, e) ∧
      e.rest = ch :: t₂ ∧ e.col = parent + 1 ∧ d.line ≤ e.line := by
  cases hmarked : isMarked (bs ++ ch :: cs) with
  | true =>
    rw [if_pos rfl]
    obtain ⟨e, he, herest, hecol, heline⟩ := blockBreaks_line parent hpadded hrest hcol
      hbreak (Nat.succ_pos _)
    exact ⟨e, he, herest, hecol, by omega⟩
  | false =>
    -- the text starts with its first line, and that with no space
    have hnil : bs = [] := by
      cases bs with
      | nil => rfl
      | cons b bs => simp [isMarked, hbs b List.mem_cons_self] at hmarked
    subst hnil
    cases hpadded
    have hspace : ch ≠ ' ' := by
      rintro rfl
      simp [isMarked, Writer.isSpace] at hmarked
    have hgap : isGap ch = false := by simp [isGap, isSpaceOrTab, hbreak, hspace, htab]
    rw [if_neg Bool.false_ne_true]
    refine ⟨d.advance (parent + 1), blockBreaks_first hrest hcol hgap (by omega) (by omega), ?_, ?_,
      Nat.le_refl _⟩
    · rw [Cursor.advance_rest, hrest]
      exact List.drop_left' (length_spaces _)
    · rw [Cursor.advance_col, hcol, Nat.zero_add]

/-- A literal block is read as the text it was written for. -/
theorem block_literal (hne : cs ≠ []) (htabs : ∀ ch ∈ cs, ch ≠ '\t') (hparent : 0 < parent)
    (ht : Indented (parent + 1) true cs t) (hr : Onward parent unindented r)
    (hrest : c.rest = blockText cs t ++ (lastFeed cs ++ r)) :
    ∃ next, block true parent (c.advance 1) = .ok (cs, next) ∧ Behind c.line r next := by
  have hstart : (c.advance 1).rest = (if isMarked cs then ['2'] else []) ++ chompMark cs ++
      '\n' :: (t ++ (lastFeed cs ++ r)) := by
    rw [blockText, List.cons_append] at hrest
    rw [Cursor.advance_one_rest hrest]
    simp
  obtain ⟨bs, rest, rfl, hbs, hhead⟩ := exists_span isBreak cs
  obtain ⟨t₁, t₂, rfl, hpadded, hlines⟩ := ht.breaks hbs
  cases rest with
  | nil =>
    -- nothing but breaks
    rw [List.append_nil] at hne hstart ⊢
    have hmarked : isMarked bs = true := by
      obtain ⟨b, bs, rfl⟩ := List.exists_cons_of_ne_nil hne
      simp [isMarked, hbs b List.mem_cons_self]
    rw [chompMark_of_breaks hne hbs, lastFeed_of_breaks hne hbs, hlines.eq_nil, List.append_nil]
      at hstart
    obtain ⟨d, hd, hdcol, hdline, hblock⟩ := block_eq hparent hstart
    obtain ⟨e, hbreaks, hleaves⟩ := blockBreaks_onward parent c.line hpadded hd
      hdcol hr (Nat.succ_pos parent) (Nat.le_succ parent) (by
        rw [hdline]
        exact Nat.lt_of_lt_of_le (Nat.lt_succ_self _) (Nat.le_add_right _ _))
    rw [hblock, hmarked, if_pos rfl, hbreaks]
    simp only [bind, Except.bind]
    rw [blockLines_of_leaves hleaves]
    exact ⟨_, rfl, hleaves.behind⟩
  | cons ch rest =>
    have hbreak : isBreak ch = false := hhead ch rfl
    obtain ⟨k, hmark⟩ := exists_mark (bs ++ ch :: rest)
    obtain ⟨t₂, rfl, hfirst⟩ := hlines.first hbreak
    have hsplit : t₁ ++ (spaces (parent + 1) ++ ch :: t₂) ++ (lastFeed (ch :: rest) ++ r) =
        t₁ ++ (spaces (parent + 1) ++ ch :: (t₂ ++ (lastFeed (ch :: rest) ++ r))) := by simp
    rw [hmark, lastFeed_append (List.cons_ne_nil ch rest), hsplit] at hstart
    obtain ⟨d, hd, hdcol, hdline, hblock⟩ := block_eq hparent hstart
    obtain ⟨e, hbreaks, he, hecol, heline⟩ := blockBreaks_start rest hbs hbreak
      (htabs ch (by simp)) hpadded hd hdcol
    have hline : c.line ≤ e.line := by
      have hnext : d.line = c.line + 1 := hdline
      omega
    obtain ⟨s, body, b, bs', hread, hbody, hending, htaken⟩ :=
      blockLines_eq c.line (s := { trailing := bs, cursor := e }) (lines (ch :: rest))
        (List.cons_ne_nil ch rest) hhead hfirst hr (Nat.succ_pos parent) (Nat.le_succ parent) he
        hecol hline (Nat.lt_succ_self _)
    obtain ⟨k', hmark', htail⟩ := exists_chomp (hending.prepend hbody bs) (by simp [hbody])
    obtain rfl : k = k' := Chomp.mark_injective (hmark.symm.trans hmark')
    rw [hblock, hbreaks]
    simp only [bind, Except.bind, hread]
    refine ⟨_, ?_, htaken.leaves.behind⟩
    rw [htaken.text, htaken.leading, htaken.trailing]
    exact congrArg (fun text ↦ Except.ok (text, _)) htail

end Literal

end DeliveryCharts.Yaml
