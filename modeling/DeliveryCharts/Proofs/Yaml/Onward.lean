import DeliveryCharts.Proofs.Yaml.Entry
import DeliveryCharts.Yaml.Writer

/-!
Going on to the next line. What a node inside collections is followed by is a token further to the
left, on a line of its own, or the end of the text.
-/

namespace DeliveryCharts.Yaml

open Writer (spaces)

variable {ch : Char} {r bs : List Char} {c d : Cursor} {n : Nat}

/-- A break that is one character and stands for itself. -/
def IsFeed (ch : Char) : Prop := ch = '\n' ∨ ch = '\u2028' ∨ ch = '\u2029'

theorem IsFeed.isBreak (h : IsFeed ch) : isBreak ch = true := by
  rcases h with rfl | rfl | rfl <;> rfl

theorem IsFeed.isSpaceOrTab (h : IsFeed ch) : isSpaceOrTab ch = false := by
  rcases h with rfl | rfl | rfl <;> rfl

theorem IsFeed.breakText (h : IsFeed ch) (hrest : c.rest = ch :: r) : c.breakText = [ch] := by
  rcases h with rfl | rfl | rfl <;> simp [Cursor.breakText, hrest]

theorem IsFeed.breakLength (h : IsFeed ch) (r : List Char) : breakLength (ch :: r) = 1 := by
  rcases h with rfl | rfl | rfl <;> rfl

theorem IsFeed.newline_rest (h : IsFeed ch) (hrest : c.rest = ch :: r) : c.newline.rest = r := by
  rw [Cursor.newline_rest, hrest, h.breakLength]
  rfl

@[simp]
theorem length_spaces (n : Nat) : (spaces n).length = n := List.length_replicate

theorem eq_space_of_mem (h : ch ∈ spaces n) : ch = ' ' := (List.mem_replicate.mp h).2

theorem takeWhile_spaces (p : Char → Bool) (hp : p ' ' = true) (hr : ∀ ch ∈ r.head?, p ch = false)
    (n : Nat) : (spaces n ++ r).takeWhile p = spaces n := by
  rw [List.takeWhile_append_of_pos fun ch hch ↦ by rw [eq_space_of_mem hch, hp]]
  cases r with
  | nil => rw [List.takeWhile_nil, List.append_nil]
  | cons ch r => rw [List.takeWhile_cons_of_neg (by simp [hr ch rfl]), List.append_nil]

/-- A token left of `margin` on a line of its own, or the end of the text. Where hyphens may stand at
the column of the keys, the token is none. -/
inductive Onward (margin : Nat) (unindented : Bool) : List Char → Prop
  | nil : Onward margin unindented []
  | token {n : Nat} {ch : Char} {r : List Char} (hpos : 0 < n) (hn : n < margin)
      (hgap : isGap ch = false) (hsign : ch ≠ '#')
      (hhyphen : unindented = true → n + 1 = margin → ch = '-' → endsWord r = false) :
      Onward margin unindented (spaces n ++ ch :: r)

theorem Onward.mono {margin margin' : Nat} {unindented : Bool} (h : Onward margin unindented r)
    (hlt : margin < margin') (unindented' : Bool) : Onward margin' unindented' r := by
  cases h with
  | nil => exact .nil
  | token hpos hn hgap hsign => exact .token hpos (by omega) hgap hsign (by omega)

/-- At the start of a line, with `r` behind. -/
structure AtLine (r : List Char) (c : Cursor) : Prop where
  rest : c.rest = r
  col : c.col = 0
  fresh : c.fresh = true

/-- The next token is the first of `r`, which stands on a line below `line`. -/
def Behind (line : Nat) (r : List Char) (c : Cursor) : Prop :=
  ∃ d, AtLine r d ∧ line < d.line ∧ c.skip false = d.skip false

/-- The cursor is at a token: `ch` in the column `n`, where a key or an entry may start. -/
structure AtToken (n : Nat) (r : List Char) (c : Cursor) : Prop where
  rest : c.rest = r
  col : c.col = n
  fresh : c.fresh = true

theorem skip_at (hrest : c.rest = ch :: r) (hgap : isGap ch = false) (hsign : ch ≠ '#') :
    c.skip false = c :=
  skip_of_token [] (by simp) hrest hgap hsign false

theorem AtLine.skip (h : AtLine (spaces n ++ ch :: r) d) (hgap : isGap ch = false)
    (hsign : ch ≠ '#') : d.skip false = d.advance n := by
  have hskip := skip_of_token (spaces n) (fun _ ↦ eq_space_of_mem) h.rest hgap hsign false
  rwa [length_spaces] at hskip

theorem AtLine.advance (h : AtLine (spaces n ++ r) d) : AtToken n r (d.advance n) where
  rest := by rw [Cursor.advance_rest, h.rest, List.drop_left' (length_spaces n)]
  col := by rw [Cursor.advance_col, h.col, Nat.zero_add]
  fresh := h.fresh

variable {line : Nat}

theorem AtLine.behind (h : AtLine r d) (hline : line < d.line) : Behind line r d :=
  ⟨d, h, hline, rfl⟩

/-- At the next token. -/
theorem AtLine.behind_advance (h : AtLine (spaces n ++ ch :: r) d) (hgap : isGap ch = false)
    (hsign : ch ≠ '#') (hline : line < d.line) : Behind line (spaces n ++ ch :: r) (d.advance n) := by
  refine ⟨d, h, hline, ?_⟩
  rw [skip_at h.advance.rest hgap hsign, h.skip hgap hsign]

/-- At the end of a line. -/
theorem behind_of_feed (hrest : c.rest = '\n' :: r) : Behind c.line r c := by
  refine ⟨{ c.newline with fresh := true }, ⟨Cursor.newline_of_feed hrest, rfl, rfl⟩,
    Nat.lt_succ_self _, ?_⟩
  have hlength : c.rest.length = r.length + 1 := by rw [hrest, List.length_cons]
  have hnext : { c.newline with fresh := true : Cursor }.rest.length = r.length := by
    show c.newline.rest.length = _
    rw [Cursor.newline_of_feed hrest]
  rw [Cursor.skip, Cursor.skip, hlength, hnext, Cursor.skip_go_of_feed hrest, Bool.not_false,
    Bool.or_true]

theorem Behind.mono {line' : Nat} (h : Behind line r c) (hline : line' ≤ line) :
    Behind line' r c := by
  obtain ⟨d, hd, hlt, hskip⟩ := h
  exact ⟨d, hd, Nat.lt_of_le_of_lt hline hlt, hskip⟩

theorem Behind.skip_eq (h : Behind line r c) (hskip : d.skip false = c.skip false) :
    Behind line r d := by
  obtain ⟨e, he, hlt, hcskip⟩ := h
  exact ⟨e, he, hlt, hskip.trans hcskip⟩

/-- Skipping ends at the token. -/
theorem Behind.atToken (h : Behind line (spaces n ++ ch :: r) c) (hgap : isGap ch = false)
    (hsign : ch ≠ '#') :
    AtToken n (ch :: r) (c.skip false) ∧ line < (c.skip false).line := by
  obtain ⟨d, hd, hlt, hskip⟩ := h
  rw [hskip, hd.skip hgap hsign]
  exact ⟨hd.advance, hlt⟩

theorem Behind.atEnd (h : Behind line [] c) :
    (c.skip false).rest = [] ∧ (c.skip false).fresh = true ∧ line < (c.skip false).line := by
  obtain ⟨d, hd, hlt, hskip⟩ := h
  rw [hskip, skip_of_nil hd.rest]
  exact ⟨hd.rest, hd.fresh, hlt⟩

/-! The gap behind a line of a scalar. -/

theorem gap_go_spaces {indent fuel : Nat} {leading trailing : List Char}
    (hr : ∀ ch ∈ r.head?, isGap ch = false) (hrest : c.rest = spaces n ++ r) (hfuel : n ≤ fuel) :
    gap.go indent fuel ⟨[], some leading, trailing, c⟩ =
      .ok ⟨[], some leading, trailing, c.advance n⟩ := by
  induction n generalizing c fuel with
  | zero =>
    cases fuel with
    | zero => rfl
    | succ fuel =>
      rw [gap.go, hrest]
      cases r with
      | nil => rfl
      | cons ch r =>
        obtain ⟨hspace, hbreak⟩ := Bool.or_eq_false_iff.mp (hr ch rfl)
        simp only [spaces, List.replicate_zero, List.nil_append, hspace, hbreak, Bool.false_eq_true,
          if_false]
        rfl
  | succ n ih =>
    obtain ⟨k, rfl⟩ : ∃ k, fuel = k + 1 := ⟨fuel - 1, by omega⟩
    have hcons : c.rest = ' ' :: (spaces n ++ r) := hrest
    have hnext := ih (Cursor.advance_one_rest hcons) (Nat.le_of_succ_le_succ hfuel)
    rw [gap.go, hcons]
    show gap.go indent k ⟨[], some leading, trailing, c.advance 1⟩ = _
    rw [hnext]
    simp [Cursor.advance, Nat.add_comm, Nat.add_left_comm]

theorem gap_go_feeds {indent fuel : Nat} {leading trailing : List Char}
    (hbs : ∀ ch ∈ bs, IsFeed ch) (hr : ∀ ch ∈ r.head?, isGap ch = false)
    (hrest : c.rest = bs ++ (spaces n ++ r)) (hcol : c.col = 0) (hfuel : bs.length + n ≤ fuel) :
    ∃ d : Cursor, gap.go indent fuel ⟨[], some leading, trailing, c⟩ =
        .ok ⟨[], some leading, trailing ++ bs, d.advance n⟩ ∧
      d.rest = spaces n ++ r ∧ d.col = 0 ∧ d.line = c.line + bs.length := by
  induction bs generalizing c fuel trailing with
  | nil =>
    refine ⟨c, ?_, hrest, hcol, rfl⟩
    rw [gap_go_spaces hr hrest (by simpa using hfuel), List.append_nil]
  | cons b bs ih =>
    obtain ⟨hb, hbs⟩ := List.forall_mem_cons.mp hbs
    rw [List.length_cons] at hfuel
    obtain ⟨k, rfl⟩ : ∃ k, fuel = k + 1 := ⟨fuel - 1, by omega⟩
    rw [List.cons_append] at hrest
    obtain ⟨d, hgo, hd, hdcol, hdline⟩ := @ih c.newline k (trailing ++ [b]) hbs
      (hb.newline_rest hrest) rfl (by omega)
    refine ⟨d, ?_, hd, hdcol, ?_⟩
    · rw [gap.go, hrest]
      simp only [hb.isSpaceOrTab, hb.isBreak, hb.breakText hrest, Bool.false_eq_true, if_false,
        if_true]
      rw [hgo, List.append_assoc, List.singleton_append]
    · rw [hdline, Cursor.newline_line, List.length_cons]
      omega

/-- Breaks, and the spaces in front of the next line. -/
theorem gap_feeds {b : Char} (indent : Nat) (hb : IsFeed b) (hbs : ∀ ch ∈ bs, IsFeed ch)
    (hr : ∀ ch ∈ r.head?, isGap ch = false) (hrest : c.rest = b :: (bs ++ (spaces n ++ r))) :
    ∃ d : Cursor, gap indent none c = .ok ⟨[], some [b], bs, d.advance n⟩ ∧
      d.rest = spaces n ++ r ∧ d.col = 0 ∧ d.line = c.line + (b :: bs).length := by
  have hlength : c.rest.length = (bs ++ (spaces n ++ r)).length + 1 := by
    rw [hrest, List.length_cons]
  obtain ⟨d, hgo, hd, hcol, hline⟩ := @gap_go_feeds r bs c.newline n indent
    (bs ++ (spaces n ++ r)).length [b] [] hbs hr (hb.newline_rest hrest) rfl (by simp)
  refine ⟨d, ?_, hd, hcol, ?_⟩
  · rw [gap, hlength, gap.go, hrest]
    simp only [hb.isSpaceOrTab, hb.isBreak, hb.breakText hrest, Bool.false_eq_true, if_false, if_true]
    exact hgo
  · rw [hline, Cursor.newline_line, List.length_cons]
    omega

/-! Lines of a text. -/

theorem exists_span (p : Char → Bool) (cs : List Char) :
    ∃ w r, cs = w ++ r ∧ (∀ ch ∈ w, p ch = true) ∧ ∀ ch ∈ r.head?, p ch = false := by
  induction cs with
  | nil => exact ⟨[], [], rfl, by simp, by simp⟩
  | cons ch cs ih =>
    cases hch : p ch with
    | false => exact ⟨[], ch :: cs, rfl, by simp, by simpa using hch⟩
    | true =>
      obtain ⟨w, r, rfl, hw, hr⟩ := ih
      exact ⟨ch :: w, r, rfl, List.forall_mem_cons.mpr ⟨hch, hw⟩, hr⟩

/-- A text as its lines and the breaks between them. The first line and the last one may be
empty. -/
inductive Lines : List Char → Prop
  | last {line : List Char} (hline : ∀ ch ∈ line, isBreak ch = false) : Lines line
  | more {line cs : List Char} {b : Char} {bs : List Char}
      (hline : ∀ ch ∈ line, isBreak ch = false) (hb : isBreak b = true)
      (hbs : ∀ ch ∈ bs, isBreak ch = true) (hhead : ∀ ch ∈ cs.head?, isBreak ch = false)
      (hcs : Lines cs) : Lines (line ++ b :: (bs ++ cs))

theorem lines (cs : List Char) : Lines cs := by
  induction hn : cs.length using Nat.strongRecOn generalizing cs with
  | ind n ih =>
    subst hn
    obtain ⟨line, tail, rfl, hline, htail⟩ := exists_span (!isBreak ·) cs
    replace hline : ∀ ch ∈ line, isBreak ch = false := by simpa using hline
    cases tail with
    | nil =>
      rw [List.append_nil]
      exact .last hline
    | cons b tail =>
      obtain ⟨bs, rest, rfl, hbs, hrest⟩ := exists_span isBreak tail
      exact .more hline (by simpa using htail b rfl) hbs hrest
        (ih rest.length (by simp; omega) rest rfl)

end DeliveryCharts.Yaml
