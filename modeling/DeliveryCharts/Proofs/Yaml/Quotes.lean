import DeliveryCharts.Proofs.Text.Lines
import DeliveryCharts.Proofs.Yaml.Onward

/-!
Scalars in quotes. They are read character by character: each has a spelling, and breaks together
with the spaces behind them are folded.
-/

namespace DeliveryCharts.Yaml

open Writer (spaces)

variable {double : Bool} {ch d : Char} {e r bs cs text : List Char} {c next : Cursor}

/-! Spellings. -/

/-- The character `ch` is written as `e` in quotes. -/
structure Spells (double : Bool) (e : List Char) (ch : Char) : Prop where
  ne_nil : e ≠ []
  gapless : ∀ d ∈ e.head?, isGap d = false
  run : ∀ fuel r, quotedRun double (fuel + 1) (e ++ r) =
    (quotedRun double fuel r).map fun p ↦ (ch :: p.1, p.2.1, p.2.2 + e.length)

theorem spells_self (hgap : isGap ch = false) (hsingle : double = false → ch ≠ '\'')
    (hdouble : double = true → ch ≠ '"' ∧ ch ≠ '\\') : Spells double [ch] ch where
  ne_nil := List.cons_ne_nil _ _
  gapless := by simpa using hgap
  run fuel r := by
    cases double with
    | false => simp [quotedRun, hgap, hsingle rfl]
    | true =>
      obtain ⟨hquote, hslash⟩ := hdouble rfl
      simp [quotedRun, hgap, hquote, hslash]

theorem spells_quote : Spells false ['\'', '\''] '\'' where
  ne_nil := List.cons_ne_nil _ _
  gapless := by simp; decide
  run _ _ := rfl

theorem spells_escape (h : escape? d = some ch) (hbreak : isBreak d = false) :
    Spells true ['\\', d] ch where
  ne_nil := List.cons_ne_nil _ _
  gapless := by simp; decide
  run fuel r := by
    have hslash : isGap '\\' = false := by decide
    simp only [List.cons_append, List.nil_append, quotedRun, hslash, hbreak, h]
    rfl

theorem spells_digits {n : Nat} {digits : List Char} (h : escape? d = none)
    (hdigits : escapeDigits? d = some n) (hbreak : isBreak d = false) (hlength : digits.length = n)
    (hvalue : (Text.readUnsigned? 16 digits).bind scalarValue? = some ch) :
    Spells true ('\\' :: d :: digits) ch where
  ne_nil := List.cons_ne_nil _ _
  gapless := by simp; decide
  run fuel r := by
    have hslash : isGap '\\' = false := by decide
    have hlong : ¬ (digits ++ r).length < n := by
      rw [List.length_append]
      omega
    simp only [List.cons_append, quotedRun, hslash, hbreak, h, hdigits, hlong,
      List.take_left' hlength, List.drop_left' hlength, hvalue, List.length_cons, hlength]
    simp [Nat.add_comm, Nat.add_left_comm]

/-! Stretches of a scalar. -/

/-- In a scalar in quotes, the text from `c` up to `next` is read as `text`. -/
def Passes (double : Bool) (text : List Char) (c next : Cursor) : Prop :=
  ∀ fuel, c.rest.length < fuel → ∃ fuel', next.rest.length < fuel' ∧
    quoted.go double fuel c =
      (quoted.go double fuel' next).map fun p ↦ (text ++ p.1, p.2)

namespace Passes

theorem refl (double : Bool) (c : Cursor) : Passes double [] c c := by
  intro fuel hfuel
  refine ⟨fuel, hfuel, ?_⟩
  cases quoted.go double fuel c <;> rfl

theorem trans {text' : List Char} {c₁ c₂ : Cursor} (h : Passes double text c c₁)
    (h' : Passes double text' c₁ c₂) : Passes double (text ++ text') c c₂ := by
  intro fuel hfuel
  obtain ⟨fuel₁, hfuel₁, hgo⟩ := h fuel hfuel
  obtain ⟨fuel₂, hfuel₂, hgo'⟩ := h' fuel₁ hfuel₁
  refine ⟨fuel₂, hfuel₂, ?_⟩
  rw [hgo, hgo']
  cases quoted.go double fuel₂ c₂ with
  | error e => rfl
  | ok p => simp [Except.map]

end Passes

theorem atEnd_eq_false (hrest : c.rest = ch :: r) (hcol : 0 < c.col) : c.atEnd = false := by
  simp [Cursor.atEnd, Cursor.atMarker, hrest, Nat.ne_of_gt hcol]

theorem quotedRun_congr {fuel fuel' : Nat} (hfuel : r.length < fuel) (hfuel' : r.length < fuel') :
    quotedRun double fuel' r = quotedRun double fuel r := by
  have happend := @quotedRun_append r [] double fuel fuel' (.inl rfl) hfuel (by simpa using hfuel')
  rwa [List.append_nil] at happend

theorem Spells.passes (h : Spells double e ch) (hrest : c.rest = e ++ r) (hcol : 0 < c.col) :
    Passes double [ch] c (c.advance e.length) := by
  intro fuel hfuel
  obtain ⟨d, e', rfl⟩ := List.exists_cons_of_ne_nil h.ne_nil
  have hnext : (c.advance (d :: e').length).rest = r := by
    rw [Cursor.advance_rest, hrest, List.drop_left]
  have hlength : c.rest.length = (d :: e').length + r.length := by rw [hrest, List.length_append]
  refine ⟨fuel, by rw [hnext]; omega, ?_⟩
  cases fuel with
  | zero => rfl
  | succ fuel =>
    have hrun : quotedRun double (c.rest.length + 1) c.rest =
        (quotedRun double (r.length + 1) r).map fun p ↦
          (ch :: p.1, p.2.1, p.2.2 + (d :: e').length) := by
      rw [hrest, h.run, ← hrest, @quotedRun_congr double r (r.length + 1) c.rest.length
        (Nat.lt_succ_self _) (by rw [hlength, List.length_cons]; omega)]
    rw [quoted.go.eq_2, quoted.go.eq_2, atEnd_eq_false hrest hcol, hrun, hnext]
    by_cases hnil : r = []
    · -- the scalar is not closed
      have hend : (c.advance (d :: e').length).atEnd = true := atEnd_of_nil (hnext.trans hnil)
      rw [hend, hnil]
      have hout : ((c.advance (0 + (d :: e').length)).rest).isEmpty = true := by
        rw [Nat.zero_add, hnext, hnil]
        rfl
      simp only [quotedRun, Except.map, bind, Except.bind, hout]
      rfl
    · obtain ⟨d', r', rfl⟩ := List.exists_cons_of_ne_nil hnil
      have hbehind : (c.advance (d :: e').length).atEnd = false :=
        atEnd_eq_false hnext (by rw [Cursor.advance_col]; omega)
      rw [hbehind]
      have hadvance (n : Nat) :
          c.advance (n + (d :: e').length) = (c.advance (d :: e').length).advance n := by
        simp [Cursor.advance, Nat.add_comm, Nat.add_left_comm]
      cases quotedRun double ((d' :: r').length + 1) (d' :: r') with
      | error f => rfl
      | ok p =>
        obtain ⟨text, ending, n⟩ := p
        simp only [Except.map, bind, Except.bind, hadvance]
        cases ending with
        | quote => rfl
        | gap =>
          simp only [Bool.false_eq_true, if_false]
          split
          · rfl
          · cases gap 0 none ((c.advance (d :: e').length).advance n) with
            | error f => rfl
            | ok g =>
              simp only
              cases quoted.go double fuel g.cursor <;> rfl
        | escapedBreak =>
          simp only [Bool.false_eq_true, if_false]
          cases gap 0 (some []) ((c.advance (d :: e').length).advance n).newline with
          | error f => rfl
          | ok g =>
            simp only
            cases quoted.go double fuel g.cursor <;> rfl

/-- A gap up to the next character of the scalar. -/
theorem passes_gap {g : Gap} (hrest : c.rest = d :: r) (hd : isGap d = true) (hcol : 0 < c.col)
    (hgap : gap 0 none c = .ok g) (hlength : g.cursor.rest.length < c.rest.length) :
    Passes double g.text c g.cursor := by
  intro fuel hfuel
  obtain ⟨k, rfl⟩ : ∃ k, fuel = k + 1 := ⟨fuel - 1, by omega⟩
  refine ⟨k, by omega, ?_⟩
  have hrun : quotedRun double (c.rest.length + 1) c.rest = .ok ([], .gap, 0) := by
    simp only [hrest, quotedRun, hd, if_true]
  have hzero : c.advance 0 = c := rfl
  have hempty : c.rest.isEmpty = false := by rw [hrest]; rfl
  rw [quoted.go.eq_2, atEnd_eq_false hrest hcol, hrun]
  simp only [bind, Except.bind, hzero, hempty, hgap, Bool.false_eq_true, if_false]
  cases quoted.go double k g.cursor <;> rfl

theorem passes_blanks (hne : bs ≠ []) (hbs : ∀ ch ∈ bs, isSpaceOrTab ch = true)
    (hr : ∀ ch ∈ r.head?, isGap ch = false) (hrest : c.rest = bs ++ r) (hcol : 0 < c.col) :
    Passes double bs c (c.advance bs.length) := by
  obtain ⟨b, bs, rfl⟩ := List.exists_cons_of_ne_nil hne
  have hb : isGap b = true := by simp [isGap, hbs b List.mem_cons_self]
  have hgap : gap 0 none c = .ok ⟨b :: bs, none, [], c.advance (b :: bs).length⟩ :=
    gap_go_blanks hbs hr hrest (by rw [hrest, List.length_append]; omega)
  have hlength : (c.advance (b :: bs).length).rest.length < c.rest.length := by
    rw [Cursor.advance_rest, hrest, List.drop_left, List.length_append, List.length_cons]
    omega
  exact passes_gap hrest hb hcol hgap hlength

/-- Breaks and the spaces behind them. -/
theorem passes_feeds (double : Bool) {b : Char} {n : Nat} (hb : IsFeed b) (hne : b ≠ '\n')
    (hbs : ∀ ch ∈ bs, IsFeed ch) (hr : ∀ ch ∈ r.head?, isGap ch = false)
    (hrest : c.rest = b :: (bs ++ (spaces n ++ r))) (hcol : 0 < c.col) :
    ∃ d : Cursor, Passes double (b :: bs) c (d.advance n) ∧ d.rest = spaces n ++ r ∧ d.col = 0 ∧
      c.line ≤ d.line := by
  obtain ⟨d, hgap, hd, hdcol, hdline⟩ := gap_feeds 0 hb hbs hr hrest
  have hgapped : isGap b = true := by simp [isGap, hb.isBreak]
  have hlength : (d.advance n).rest.length < c.rest.length := by
    rw [Cursor.advance_rest, hd, List.drop_left' (length_spaces n), hrest]
    simp
    omega
  have htext : Gap.text ⟨[], some [b], bs, d.advance n⟩ = b :: bs := by
    simp [Gap.text, fold, hne]
  have hpasses : Passes double (Gap.text ⟨[], some [b], bs, d.advance n⟩) c (d.advance n) :=
    passes_gap hrest hgapped hcol hgap hlength
  rw [htext] at hpasses
  exact ⟨d, hpasses, hd, hdcol, by omega⟩

/-! Lines. -/

/-- A character has a spelling in quotes, or is a blank as it is. -/
def Written (double : Bool) (enc : Char → List Char) (ch : Char) : Prop :=
  Spells double (enc ch) ch ∨ (isSpaceOrTab ch = true ∧ enc ch = [ch])

/-- Blanks at the head of a text, and what is behind them. -/
theorem exists_blanks {enc : Char → List Char} (hcs : ∀ ch ∈ cs, Written double enc ch) :
    ∃ bs rest, cs = bs ++ rest ∧ (∀ ch ∈ bs, isSpaceOrTab ch = true ∧ enc ch = [ch]) ∧
      (∀ ch ∈ rest, Written double enc ch) ∧ ∀ ch ∈ rest.head?, Spells double (enc ch) ch := by
  induction cs with
  | nil => exact ⟨[], [], rfl, by simp, by simp, by simp⟩
  | cons ch cs ih =>
    obtain ⟨hch, htail⟩ := List.forall_mem_cons.mp hcs
    cases hch with
    | inl hspells => exact ⟨[], ch :: cs, rfl, by simp, hcs, by simpa using hspells⟩
    | inr hblank =>
      obtain ⟨bs, rest, rfl, hbs, hrest⟩ := ih htail
      exact ⟨ch :: bs, rest, rfl, List.forall_mem_cons.mpr ⟨hblank, hbs⟩, hrest⟩

theorem passes_blanks' (hbs : ∀ ch ∈ bs, isSpaceOrTab ch = true)
    (hr : (∀ ch ∈ r.head?, isGap ch = false) ∨ bs = []) (hrest : c.rest = bs ++ r)
    (hcol : 0 < c.col) : Passes double bs c (c.advance bs.length) := by
  by_cases hnil : bs = []
  · subst hnil
    exact .refl double c
  · exact passes_blanks hnil hbs (hr.resolve_right hnil) hrest hcol

/-- A stretch without breaks. Where a break is behind it, it does not end with a blank. -/
theorem passes_line {enc : Char → List Char} (hcs : ∀ ch ∈ cs, Written double enc ch)
    (hr : (∀ ch ∈ r.head?, isGap ch = false) ∨ ∀ d ∈ cs.getLast?, isSpaceOrTab d = false)
    (hrest : c.rest = cs.flatMap enc ++ r) (hcol : 0 < c.col) :
    Passes double cs c (c.advance (cs.flatMap enc).length) := by
  induction hn : cs.length using Nat.strongRecOn generalizing cs c with
  | ind n ih =>
    subst hn
    obtain ⟨bs, rest, rfl, hbs, hwritten, hhead⟩ := exists_blanks hcs
    have hflat : bs.flatMap enc = bs := Text.flatMap_of_forall fun ch hch ↦ (hbs ch hch).2
    have hblanks : ∀ ch ∈ bs, isSpaceOrTab ch = true := fun ch hch ↦ (hbs ch hch).1
    rw [List.flatMap_append, hflat, List.append_assoc] at hrest
    cases rest with
    | nil =>
      rw [List.append_nil] at hr ⊢
      rw [hflat]
      refine passes_blanks' hblanks (hr.imp_right fun hlast ↦ ?_) hrest hcol
      refine Decidable.byContradiction fun hne ↦ ?_
      have hblank := hblanks _ (List.getLast_mem hne)
      rw [hlast _ (List.getLast?_eq_some_getLast hne)] at hblank
      cases hblank
    | cons ch rest =>
      have hspells : Spells double (enc ch) ch := hhead ch rfl
      obtain ⟨d, e, he⟩ := List.exists_cons_of_ne_nil hspells.ne_nil
      rw [List.flatMap_cons, List.append_assoc] at hrest
      have hgapless : ∀ d ∈ (enc ch ++ (rest.flatMap enc ++ r)).head?, isGap d = false := by
        rw [he]
        have hgap := hspells.gapless
        rwa [he] at hgap
      have hfirst : Passes double bs c _ := passes_blanks' hblanks (.inl hgapless) hrest hcol
      have hrest₁ : (c.advance bs.length).rest = enc ch ++ (rest.flatMap enc ++ r) := by
        rw [Cursor.advance_rest, hrest, List.drop_left]
      have hsecond := hspells.passes hrest₁ (by rw [Cursor.advance_col]; omega)
      have hrest₂ : ((c.advance bs.length).advance (enc ch).length).rest =
          rest.flatMap enc ++ r := by
        rw [Cursor.advance_rest, hrest₁, List.drop_left]
      have hlast : (∀ ch ∈ r.head?, isGap ch = false) ∨
          ∀ d ∈ rest.getLast?, isSpaceOrTab d = false := by
        refine hr.imp_right fun hlast d hd ↦ hlast d ?_
        obtain ⟨front, rfl⟩ := List.getLast?_eq_some_iff.mp hd
        have happend : bs ++ ch :: (front ++ [d]) = bs ++ ch :: front ++ [d] := by simp
        rw [happend, List.getLast?_concat]
        rfl
      have hthird := ih rest.length (by simp; omega)
        (List.forall_mem_cons.mp hwritten).2 hlast hrest₂
        (by rw [Cursor.advance_col, Cursor.advance_col]; omega) rfl
      have hall := (hfirst.trans hsecond).trans hthird
      simpa [hflat, Cursor.advance, Nat.add_assoc] using hall

def quoteOf (double : Bool) : Char := if double then '"' else '\''

theorem quotedRun_quote (hr : r.head? ≠ some '\'') (fuel : Nat) :
    quotedRun double (fuel + 1) (quoteOf double :: r) = .ok ([], .quote, 0) := by
  cases double with
  | true => rfl
  | false =>
    cases r with
    | nil => rfl
    | cons ch r =>
      have hne : ch ≠ '\'' := by simpa using hr
      have hquote : isGap '\'' = false := by decide
      simp [quoteOf, quotedRun, hquote, hne]

/-- The closing quote ends the scalar. -/
theorem Passes.quoted_eq (h : Passes double text c.unfresh next)
    (hnext : next.rest = quoteOf double :: r) (hr : r.head? ≠ some '\'') (hcol : 0 < next.col) :
    quoted double c = .ok (text, next.advance 1) := by
  obtain ⟨fuel, hfuel, hgo⟩ := h (c.rest.length + 1) (Nat.lt_succ_self _)
  obtain ⟨k, rfl⟩ : ∃ k, fuel = k + 1 := ⟨fuel - 1, by omega⟩
  have hlast : quoted.go double (k + 1) next = .ok ([], next.advance 1) := by
    rw [quoted.go.eq_2, atEnd_eq_false hnext hcol]
    simp only [hnext, quotedRun_quote hr, bind, Except.bind]
    rfl
  rw [quoted, hgo, hlast]
  show Except.ok (text ++ [], next.advance 1) = _
  rw [List.append_nil]

/-! The two ways to write a text in quotes. -/

open Writer (escapeChar hexUpper hasPair isPrintable isSpace singleBody)

/-- Two hexadecimal digits are read as they are written. -/
theorem readUnsigned?_hexUpper : ∀ n < 256, (hexUpper 2 n).length = 2 ∧
    Text.readUnsigned? 16 (hexUpper 2 n) = some n := by
  decide +kernel

theorem scalarValue?_toNat (ch : Char) : scalarValue? ch.toNat = some ch := by
  have hvalid : ch.toNat < 0xD800 ∨ (0xDFFF < ch.toNat ∧ ch.toNat < 0x110000) := ch.valid
  rw [scalarValue?, if_pos (by omega), Char.ofNat_toNat]

theorem spells_hex (h : ch.toNat < 256) :
    Spells true ('\\' :: 'x' :: hexUpper 2 ch.toNat) ch := by
  obtain ⟨hlength, hread⟩ := readUnsigned?_hexUpper ch.toNat h
  refine spells_digits rfl rfl rfl hlength ?_
  rw [hread]
  exact scalarValue?_toNat ch

/-- The characters that have a letter of their own behind a backslash. -/
def lettered : List Char :=
  ['\x00', '\x07', '\x08', '\t', '\n', '\x0b', '\x0c', '\r', '\x1b', '"', '\\', '\u0085', '\u2028',
    '\u2029']

theorem spells_lettered (h : ch ∈ lettered) : Spells true (escapeChar ch) ch := by
  simp only [lettered, List.mem_cons, List.not_mem_nil, or_false] at h
  rcases h with rfl | rfl | rfl | rfl | rfl | rfl | rfl | rfl | rfl | rfl | rfl | rfl | rfl | rfl <;>
    exact spells_escape rfl rfl

theorem escapeChar_of_not_mem (h : ch ∉ lettered) : escapeChar ch =
    if isPrintable ch then [ch]
    else if ch.toNat ≤ 0xFF then '\\' :: 'x' :: hexUpper 2 ch.toNat
    else if ch.toNat ≤ 0xFFFF then '\\' :: 'u' :: hexUpper 4 ch.toNat
    else '\\' :: 'U' :: hexUpper 8 ch.toNat := by
  unfold escapeChar
  split <;> first | rfl | exact absurd (by decide) h

theorem toNat_of_not_isPrintable (h : isPrintable ch = false) :
    ch.toNat < 256 ∨ ch.toNat = 0xFEFF ∨ ch.toNat = 0xFFFE ∨ ch.toNat = 0xFFFF := by
  simp only [isPrintable, Bool.or_eq_false_iff, Bool.and_eq_false_iff, decide_eq_false_iff_not,
    beq_eq_false_iff_ne, bne_eq_false_iff_eq] at h
  omega

theorem isGap_of_not_mem (hspace : ch ≠ ' ') (h : ch ∉ lettered) : isGap ch = false := by
  have hne (d : Char) (hd : d ∈ lettered) : ch ≠ d := by
    rintro rfl
    exact h hd
  simp [isGap, isSpaceOrTab, isBreak, hspace, hne '\t' (by decide), hne '\n' (by decide),
    hne '\r' (by decide), hne '\u0085' (by decide), hne '\u2028' (by decide),
    hne '\u2029' (by decide)]

theorem written_double (ch : Char) : Written true escapeChar ch := by
  by_cases hlettered : ch ∈ lettered
  · exact .inl (spells_lettered hlettered)
  · rw [Written, escapeChar_of_not_mem hlettered]
    cases hprintable : isPrintable ch with
    | true =>
      rw [if_pos rfl]
      by_cases hspace : ch = ' '
      · exact .inr ⟨by rw [hspace]; rfl, rfl⟩
      · refine .inl (spells_self (isGap_of_not_mem hspace hlettered) (by simp) fun _ ↦ ?_)
        constructor
        · rintro rfl
          exact hlettered (by decide)
        · rintro rfl
          exact hlettered (by decide)
    | false =>
      left
      have hfour {n : Nat} (hnat : ch.toNat = n) (hlong : ¬ n ≤ 0xFF) (hshort : n ≤ 0xFFFF)
          (hlength : (hexUpper 4 n).length = 4)
          (hread : Text.readUnsigned? 16 (hexUpper 4 n) = some n) :
          Spells true ('\\' :: 'u' :: hexUpper 4 n) ch := by
        refine spells_digits rfl rfl rfl hlength ?_
        rw [hread, ← hnat]
        exact scalarValue?_toNat ch
      obtain hnat | hnat | hnat | hnat := toNat_of_not_isPrintable hprintable
      · rw [if_neg Bool.false_ne_true, if_pos (Nat.le_of_lt_succ hnat)]
        exact spells_hex hnat
      all_goals
        rw [if_neg Bool.false_ne_true, hnat, if_neg (by decide), if_pos (by decide)]
        exact hfour hnat (by decide) (by decide) (by decide) (by decide)

/-- A character in single quotes. -/
def singleChar (ch : Char) : List Char := if ch == '\'' then ['\'', '\''] else [ch]

theorem written_single (h : isBreak ch = false) : Written false singleChar ch := by
  by_cases hquote : ch = '\''
  · subst hquote
    exact .inl spells_quote
  · have hself : singleChar ch = [ch] := by simp [singleChar, hquote]
    rw [Written, hself]
    by_cases hblank : isSpaceOrTab ch = true
    · exact .inr ⟨hblank, rfl⟩
    · refine .inl (spells_self ?_ (fun _ ↦ hquote) (by simp))
      simp [isGap, h, hblank]

section Pairs

variable {p q : Char → Bool}

theorem hasPair_of_suffix (h : hasPair p q (bs ++ cs) = false) : hasPair p q cs = false := by
  induction bs with
  | nil => exact h
  | cons a bs ih =>
    apply ih
    cases hbs : bs ++ cs with
    | nil => rfl
    | cons b r =>
      rw [List.cons_append, hbs, hasPair] at h
      exact (Bool.or_eq_false_iff.mp h).2

theorem pair_of_append {a b : Char} (h : hasPair p q (bs ++ a :: b :: cs) = false) (ha : p a = true) :
    q b = false := by
  have hpair := hasPair_of_suffix h
  rw [hasPair, ha, Bool.true_and] at hpair
  exact (Bool.or_eq_false_iff.mp hpair).1

theorem last_of_pair {b : Char} (h : hasPair p q (bs ++ b :: cs) = false) (hb : q b = true) :
    ∀ d ∈ bs.getLast?, p d = false := by
  intro d hd
  obtain ⟨front, rfl⟩ := List.getLast?_eq_some_iff.mp hd
  rw [List.append_assoc] at h
  refine Bool.eq_false_iff.mpr fun hp ↦ ?_
  rw [pair_of_append h hp] at hb
  cases hb

theorem head_of_pair (h : hasPair p q (bs ++ cs) = false) (hne : bs ≠ [])
    (hbs : ∀ d ∈ bs, p d = true) : ∀ ch ∈ cs.head?, q ch = false := by
  intro ch hch
  obtain ⟨cs, rfl⟩ := List.head?_eq_some_iff.mp hch
  obtain ⟨front, d, rfl⟩ := (List.eq_nil_or_concat bs).resolve_left hne
  rw [List.concat_eq_append, List.append_assoc] at h
  exact pair_of_append h (hbs d (by simp))

end Pairs

section Single

variable {n : Nat} {line : List Char}

theorem singleBody_line (hline : ∀ ch ∈ line, isBreak ch = false) (cs : List Char) :
    singleBody n false (line ++ cs) = line.flatMap singleChar ++ singleBody n false cs := by
  induction line with
  | nil => rfl
  | cons ch line ih =>
    obtain ⟨hch, hline⟩ := List.forall_mem_cons.mp hline
    rw [List.cons_append, singleBody, hch, ih hline]
    simp [singleChar]

theorem singleBody_behind (hcs : ∀ ch ∈ cs.head?, isBreak ch = false) :
    singleBody n true cs = spaces n ++ singleBody n false cs := by
  cases cs with
  | nil => simp [singleBody]
  | cons ch cs => simp [singleBody, hcs ch rfl]

theorem singleBody_breaks (hbs : ∀ ch ∈ bs, isBreak ch = true) (b : Char) (hb : isBreak b = true)
    (hcs : ∀ ch ∈ cs.head?, isBreak ch = false) (behind : Bool) :
    singleBody n behind (b :: bs ++ cs) = b :: bs ++ (spaces n ++ singleBody n false cs) := by
  induction bs generalizing b behind with
  | nil =>
    rw [List.singleton_append, singleBody, if_pos hb, singleBody_behind hcs]
    rfl
  | cons b' bs ih =>
    obtain ⟨hb', hbs⟩ := List.forall_mem_cons.mp hbs
    rw [List.cons_append, singleBody, if_pos hb, ih hbs b' hb']
    rfl

theorem isSpaceOrTab_of_ne (hspace : isSpace ch = false) (htab : ch ≠ '\t') :
    isSpaceOrTab ch = false := by
  simpa [isSpaceOrTab, htab, isSpace] using hspace

theorem singleBody_head (hcs : ∀ ch ∈ cs.head?, isGap ch = false) :
    ∀ ch ∈ (singleBody n false cs ++ '\'' :: r).head?, isGap ch = false := by
  have hquote : isGap '\'' = false := by decide
  cases cs with
  | nil => simpa [singleBody] using hquote
  | cons ch cs =>
    have hch : isGap ch = false := hcs ch rfl
    by_cases hsame : ch = '\''
    · subst hsame
      simp [singleBody, isBreak_of_not_isGap hch, hquote]
    · simp [singleBody, isBreak_of_not_isGap hch, hsame, hch]

/-- A text in single quotes that has breaks but no line feeds. -/
theorem passes_single (hcs : Lines cs)
    (hfeeds : ∀ ch ∈ cs, isBreak ch = true → IsFeed ch ∧ ch ≠ '\n')
    (hbefore : hasPair isSpace isBreak cs = false) (hafter : hasPair isBreak isSpace cs = false)
    (htabs : ∀ ch ∈ cs, ch ≠ '\t') (hn : 0 < n)
    (hrest : c.rest = singleBody n false cs ++ '\'' :: r) (hcol : 0 < c.col) :
    ∃ next, Passes false cs c next ∧ next.rest = '\'' :: r ∧ 0 < next.col ∧
      c.line ≤ next.line := by
  induction hcs generalizing c with
  | @last line hline =>
    have hbody : singleBody n false line = line.flatMap singleChar := by
      have happend := singleBody_line (n := n) hline []
      simpa [singleBody] using happend
    rw [hbody] at hrest
    refine ⟨c.advance (line.flatMap singleChar).length, ?_, ?_, ?_, Nat.le_refl _⟩
    · exact passes_line (fun ch hch ↦ written_single (hline ch hch)) (.inl (by simp; decide)) hrest
        hcol
    · rw [Cursor.advance_rest, hrest, List.drop_left]
    · rw [Cursor.advance_col]
      omega
  | @more line cs b bs hline hb hbs hhead hcs ih =>
    have hbody : singleBody n false (line ++ b :: (bs ++ cs)) =
        line.flatMap singleChar ++ (b :: bs ++ (spaces n ++ singleBody n false cs)) := by
      rw [singleBody_line hline, ← List.cons_append, singleBody_breaks hbs b hb hhead]
    rw [hbody] at hrest
    simp only [List.append_assoc, List.cons_append] at hrest
    -- the line up to its break
    have hlast : ∀ d ∈ line.getLast?, isSpaceOrTab d = false := fun d hd ↦
      isSpaceOrTab_of_ne (last_of_pair hbefore hb d hd)
        (htabs d (List.mem_append_left _ (List.mem_of_getLast? hd)))
    have hwritten : ∀ ch ∈ line, Written false singleChar ch := fun ch hch ↦
      written_single (hline ch hch)
    have hfirst := passes_line hwritten (.inr hlast) hrest hcol
    have hrest₁ : (c.advance (line.flatMap singleChar).length).rest =
        b :: (bs ++ (spaces n ++ (singleBody n false cs ++ '\'' :: r))) := by
      rw [Cursor.advance_rest, hrest, List.drop_left]
    -- the breaks
    have hgapless : ∀ ch ∈ cs.head?, isGap ch = false := by
      intro ch hch
      have hpairs : hasPair isBreak isSpace (b :: bs ++ cs) = false := hasPair_of_suffix hafter
      have hspace : isSpace ch = false :=
        head_of_pair hpairs (List.cons_ne_nil b bs) (List.forall_mem_cons.mpr ⟨hb, hbs⟩) ch hch
      have htab : ch ≠ '\t' := htabs ch (by simp [List.mem_of_mem_head? hch])
      simp [isGap, isSpaceOrTab_of_ne hspace htab, hhead ch hch]
    obtain ⟨hfeed, hne⟩ := hfeeds b (by simp) hb
    have hfeeds' : ∀ ch ∈ bs, IsFeed ch := fun ch hch ↦ (hfeeds ch (by simp [hch]) (hbs ch hch)).1
    obtain ⟨d, hsecond, hd, hdcol, hdline⟩ := passes_feeds false hfeed hne hfeeds'
      (singleBody_head hgapless) hrest₁ (by rw [Cursor.advance_col]; omega)
    -- the lines below
    have hrest₂ : (d.advance n).rest = singleBody n false cs ++ '\'' :: r := by
      rw [Cursor.advance_rest, hd, List.drop_left' (length_spaces n)]
    have hsuffix : line ++ b :: (bs ++ cs) = line ++ b :: bs ++ cs := by simp
    rw [hsuffix] at hbefore hafter
    obtain ⟨next, hthird, hnext, hncol, hnline⟩ := ih (fun ch hch ↦ hfeeds ch (by simp [hch]))
      (hasPair_of_suffix hbefore) (hasPair_of_suffix hafter) (fun ch hch ↦ htabs ch (by simp [hch]))
      hrest₂ (by rw [Cursor.advance_col]; omega)
    refine ⟨next, ?_, hnext, hncol, Nat.le_trans hdline hnline⟩
    have hall := (hfirst.trans hsecond).trans hthird
    simpa using hall

end Single

end DeliveryCharts.Yaml
