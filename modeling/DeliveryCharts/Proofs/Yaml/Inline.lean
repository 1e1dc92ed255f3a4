import DeliveryCharts.Proofs.Yaml.Quotes

/-!
Scalars that start in the middle of a line. One may be the key in front of a colon, or a value with
which its line ends.
-/

namespace DeliveryCharts.Yaml

open Writer (spaces)

variable {e r t cs : List Char} {c : Cursor} {node : Node} {margin : Nat} {unindented : Bool}

/-- A token with which `flowContent` starts. -/
def StartsContent (e : List Char) : Prop :=
  ∃ ch r, e = ch :: r ∧ isGap ch = false ∧ ch ∉ ['#', '&', '!', '|', '>'] ∧
    (ch = '-' ∨ ch = '?' → endsWord r = false)

theorem endsWord_append_of_false (h : endsWord r = false) (t : List Char) :
    endsWord (r ++ t) = false := by
  cases r with
  | nil => cases h
  | cons ch r => exact h

namespace StartsContent

theorem append (h : StartsContent e) (t : List Char) : StartsContent (e ++ t) := by
  obtain ⟨ch, r, rfl, hgap, hhead, hends⟩ := h
  exact ⟨ch, r ++ t, rfl, hgap, hhead, fun hch ↦ endsWord_append_of_false (hends hch) t⟩

theorem atContent (h : StartsContent c.rest) (hcol : 0 < c.col) (hmargin : margin ≤ c.col) :
    AtContent margin c := by
  obtain ⟨ch, r, hrest, hgap, hhead, hends⟩ := h
  have hindicator {d : Char} (hd : d = '-' ∨ d = '?') : atIndicator d c = false := by
    rw [atIndicator, hrest]
    by_cases hch : ch = d
    · subst hch
      simp [hends hd]
    · simp [hch]
  refine ⟨hmargin, ?_, ?_, hindicator (.inl rfl), hindicator (.inr rfl)⟩
  · rw [Cursor.atClose, atEnd_eq_false hrest hcol]
    simp [Cursor.atDirective, Nat.ne_of_gt hcol]
  · rintro d hd hch
    rw [hrest] at hch
    obtain rfl : ch = d := Option.some.inj hch
    exact hhead (List.mem_cons_of_mem _ hd)

end StartsContent

/-- The text `e` is read as `node`, as a key and as a value. -/
structure Inline (e : List Char) (node : Node) : Prop where
  starts : StartsContent e
  attach : node.attach? {} = some node
  value : ∀ (handles : Handles) (n : Nat) {margin : Nat} {unindented : Bool} {c : Cursor}
    {r : List Char}, c.rest = e ++ '\n' :: r → 0 < c.col → 0 < margin → margin ≤ c.col →
    Onward margin unindented r → ∃ next,
      flowContent handles (n + 2) margin false c = .ok (node, next) ∧ Behind c.line r next

/-- A key on one line. -/
structure InlineKey (e : List Char) (node : Node) : Prop extends Inline e node where
  key : ∀ (handles : Handles) (n : Nat) {margin : Nat} {c : Cursor} {r : List Char},
    c.rest = e ++ ':' :: r → endsWord r = true → 0 < c.col → margin ≤ c.col + 1 →
      flowContent handles (n + 1) margin false c = .ok (node, (c.advance e.length).unfresh)

/-! Plain scalars. -/

namespace PlainLine

variable (h : PlainLine cs)
include h

theorem startsContent : StartsContent cs := by
  have hheads : ∀ d ∈ ['#', '&', '!', '|', '>'], d ∈ indicators ∧ d ∉ ['-', '?', ':'] :=
    Text.forall_mem_of_all (by decide)
  obtain ⟨ch, r, rfl, hgap, hfirst⟩ := h.exists_cons
  refine ⟨ch, r, rfl, hgap, ?_, ?_⟩
  · intro hmem
    exact h.head_ne (hheads ch hmem).1 (hheads ch hmem).2 rfl
  · rintro (rfl | rfl)
    · exact (hfirst (by decide)).2
    · exact (hfirst (by decide)).2

theorem startsPlain_append (t : List Char) : startsPlain false (cs ++ t) = true := by
  have hstarts := h.startsPlain_eq
  obtain ⟨ch, r, rfl, hgap, -⟩ := h.exists_cons
  have hends (he : (!endsWord r) = true) : (!endsWord (r ++ t)) = true := by
    rw [Bool.not_eq_true'] at he ⊢
    exact endsWord_append_of_false he t
  simp only [List.cons_append, startsPlain, hgap, Bool.false_eq_true, if_false, Bool.not_false,
    Bool.true_and] at hstarts ⊢
  split
  · rename_i hhyphen
    rw [if_pos hhyphen] at hstarts
    exact hends hstarts
  · rename_i hhyphen
    rw [if_neg hhyphen] at hstarts
    split
    · rename_i hmark
      rw [if_pos hmark] at hstarts
      exact hends hstarts
    · rename_i hmark
      rwa [if_neg hmark] at hstarts

/-- The content is the scalar, wherever that ends. -/
theorem flowContent_of_plain {next : Cursor} (hrest : c.rest = cs ++ t) (hcol : 0 < c.col)
    (hplain : plain false margin c = .ok (cs, next)) (handles : Handles) (n : Nat) :
    flowContent handles (n + 1) margin false c =
      .ok (.scalar {} true (.ofList cs), next) := by
  have hmarker : c.atMarker = false := by simp [Cursor.atMarker, Nat.ne_of_gt hcol]
  have hstarts := h.startsPlain_append t
  obtain ⟨ch, r, hcons, -⟩ := h.exists_cons
  have hne {d : Char} (hd : d ∈ indicators) (hd' : d ∉ ['-', '?', ':']) : ch ≠ d := fun he ↦
    h.head_ne hd hd' (by rw [hcons, he]; rfl)
  have hrest' : c.rest = ch :: (r ++ t) := by rw [hrest, hcons, List.cons_append]
  rw [← hrest] at hstarts
  rw [Sequel.flowContent_of_cons hrest', if_neg (hne (by decide) (by decide)),
    if_neg (hne (by decide) (by decide)), if_neg (hne (by decide) (by decide)),
    if_neg (hne (by decide) (by decide)), if_neg (hne (by decide) (by decide)), hmarker,
    hstarts, hplain]
  rfl

theorem plain_of_colon (hrest : c.rest = cs ++ ':' :: r) (hr : endsWord r = true)
    (hcol : 0 < c.col) (hmargin : margin ≤ c.col + 1) :
    plain false margin c = .ok (cs, (c.advance cs.length).unfresh) :=
  h.words.plain_go (c := c.unfresh) hrest (.inr ⟨r, rfl, hr⟩)
    (by rw [hrest, List.length_append]; omega) (h.head_ne (by decide) (by decide)) hcol hmargin

theorem plain_of_feed (hrest : c.rest = cs ++ '\n' :: r) (hcol : 0 < c.col) (hpos : 0 < margin)
    (hmargin : margin ≤ c.col) (hr : Onward margin unindented r) :
    ∃ next, plain false margin c = .ok (cs, next) ∧ Behind c.line r next := by
  have hfuel : cs.length < c.rest.length + 1 := by
    rw [hrest, List.length_append]
    omega
  obtain ⟨w, fuel, text, between, d, hw, hsign, hd, hdcol, htext, hend, hgo⟩ :=
    h.words.plain_go_last (c := c.unfresh) [] [] hrest hfuel
      (h.head_ne (by decide) (by decide)) hcol (Nat.le_succ_of_le hmargin)
  -- behind the last word there is the gap up to the next token
  have hbehind : (d.advance w.length).unfresh.rest = '\n' :: r := by
    show d.rest.drop w.length = _
    rw [hd, List.drop_left]
  have hplain : plain false margin c =
      gap margin none (d.advance w.length).unfresh >>= fun g ↦
        if g.cursor.col < margin then .ok (cs, { g.cursor with fresh := g.leading.isSome })
        else
          plain.go false margin fuel (text ++ between ++ w) g.text
            { g.cursor with fresh := g.leading.isSome } := by
    rw [plain, hgo, plain_go_word hw hd (.inl rfl) hsign hdcol,
      if_neg (by simp [endsWord, isGap, isBreak]), htext]
    rfl
  have hgap (n : Nat) (tail : List Char) (hsplit : r = spaces n ++ tail) (hn : n < margin)
      (htail : ∀ ch ∈ tail.head?, isGap ch = false) :
      ∃ e, AtLine (spaces n ++ tail) e ∧ c.line < e.line ∧
        plain false margin c = .ok (cs, e.advance n) := by
    obtain ⟨e, hg, he, hecol, heline⟩ := gap_feeds margin (.inl rfl) (List.forall_mem_nil IsFeed) htail
      (hbehind.trans (congrArg _ hsplit))
    refine ⟨{ e with fresh := true }, ⟨he, hecol, rfl⟩, ?_, ?_⟩
    · rw [hend] at heline
      show c.line < e.line
      rw [heline]
      exact Nat.lt_succ_self _
    · have hleft : (e.advance n).col < margin := by
        rw [Cursor.advance_col, hecol]
        omega
      rw [hplain, hg]
      exact if_pos hleft
  cases hr with
  | nil =>
    obtain ⟨e, he, hline, hok⟩ := hgap 0 [] rfl hpos (by simp)
    exact ⟨_, hok, he.behind hline⟩
  | @token n ch r _ hn hgapless hsign' =>
    obtain ⟨e, he, hline, hok⟩ := hgap _ _ rfl hn (by simpa using hgapless)
    exact ⟨_, hok, he.behind_advance hgapless hsign' hline⟩

theorem inlineKey : InlineKey cs (.scalar {} true (.ofList cs)) where
  starts := h.startsContent
  attach := rfl
  value handles n := by
    intro margin unindented c r hrest hcol hpos hmargin hr
    obtain ⟨next, hplain, hbehind⟩ := h.plain_of_feed hrest hcol hpos hmargin hr
    exact ⟨next, h.flowContent_of_plain hrest hcol hplain handles (n + 1), hbehind⟩
  key handles n := by
    intro margin c r hrest hr hcol hmargin
    exact h.flowContent_of_plain hrest hcol (h.plain_of_colon hrest hr hcol hmargin) handles n

end PlainLine

/-! Scalars in quotes, and empty brackets. -/

section Quoted

open Writer (escapeChar hasPair isSpace)

theorem flowContent_quote {double : Bool} (hrest : c.rest = quoteOf double :: r)
    (handles : Handles) (n : Nat) :
    flowContent handles (n + 1) margin false c =
      (quoted double (c.advance 1)).map fun p ↦ (.scalar {} false (.ofList p.1), p.2) := by
  rw [Sequel.flowContent_of_cons hrest]
  cases double with
  | true => rw [if_neg (by decide), if_pos (show quoteOf true = '"' from rfl)]
  | false =>
    rw [if_neg (by decide), if_neg (by decide), if_pos (show quoteOf false = '\'' from rfl)]

theorem flowContent_of_quoted {double : Bool} {next : Cursor}
    (hrest : c.rest = quoteOf double :: r)
    (hquoted : quoted double (c.advance 1) = .ok (cs, next)) (handles : Handles) (n : Nat) :
    flowContent handles (n + 1) margin false c = .ok (.scalar {} false (.ofList cs), next) := by
  rw [flowContent_quote hrest, hquoted]
  rfl

theorem startsContent_quote (double : Bool) (e : List Char) :
    StartsContent (quoteOf double :: e) := by
  refine ⟨quoteOf double, e, rfl, ?_, ?_, ?_⟩
  · cases double <;> decide
  · cases double <;> decide
  · cases double <;> simp [quoteOf]

/-- A text in quotes that is written character by character. -/
theorem inlineKey_quoted {double : Bool} {enc : Char → List Char}
    (hcs : ∀ ch ∈ cs, Written double enc ch) :
    InlineKey (quoteOf double :: cs.flatMap enc ++ [quoteOf double])
      (.scalar {} false (.ofList cs)) := by
  let e : List Char := quoteOf double :: cs.flatMap enc ++ [quoteOf double]
  have hread {c : Cursor} {t : List Char} (ht : t.head? ≠ some '\'') (hrest : c.rest = e ++ t)
      (handles : Handles) (margin n : Nat) :
      flowContent handles (n + 1) margin false c =
        .ok (.scalar {} false (.ofList cs), (c.advance e.length).unfresh) := by
    simp only [e, List.append_assoc, List.cons_append, List.nil_append] at hrest
    have hstart : (c.advance 1).unfresh.rest = cs.flatMap enc ++ quoteOf double :: t :=
      Cursor.advance_one_rest hrest
    have hgapless : ∀ ch ∈ (quoteOf double :: t).head?, isGap ch = false := by
      cases double <;> simp [quoteOf, isGap, isSpaceOrTab, isBreak]
    have hpasses := passes_line hcs (.inl hgapless) hstart (Nat.succ_pos _)
    have hclose : ((c.advance 1).unfresh.advance (cs.flatMap enc).length).rest =
        quoteOf double :: t := by
      rw [Cursor.advance_rest, hstart, List.drop_left]
    have hquoted := hpasses.quoted_eq hclose ht (Nat.add_pos_left (Nat.succ_pos _) _)
    have hnext : ((c.advance 1).unfresh.advance (cs.flatMap enc).length).advance 1 =
        (c.advance e.length).unfresh := by
      have hlength : e.length = 1 + (cs.flatMap enc).length + 1 := by
        simp only [e, List.length_append, List.length_cons, List.length_nil]
        omega
      simp only [hlength, Cursor.advance, Cursor.unfresh, List.drop_drop, Nat.add_assoc]
    rw [← hnext]
    exact flowContent_of_quoted hrest hquoted handles n
  exact {
    starts := startsContent_quote double _
    attach := rfl
    value := by
      intro handles n margin unindented c r hrest hcol hpos hmargin hr
      refine ⟨_, hread (by simp) hrest handles margin (n + 1), ?_⟩
      apply behind_of_feed (c := (c.advance e.length).unfresh)
      show c.rest.drop e.length = _
      rw [hrest, List.drop_left]
    key := by
      intro handles n margin c r hrest hr hcol hmargin
      exact hread (by simp) hrest handles margin n }

theorem inlineKey_double (cs : List Char) :
    InlineKey (Writer.double cs) (.scalar {} false (.ofList cs)) :=
  inlineKey_quoted fun ch _ ↦ written_double ch

theorem single_of_line (n : Nat) (hcs : ∀ ch ∈ cs, isBreak ch = false) :
    Writer.single n cs = quoteOf false :: cs.flatMap singleChar ++ [quoteOf false] := by
  have hbody := singleBody_line (n := n) hcs []
  rw [List.append_nil] at hbody
  rw [Writer.single, hbody]
  simp [Writer.singleBody, quoteOf]

theorem inlineKey_single (n : Nat) (hcs : ∀ ch ∈ cs, isBreak ch = false) :
    InlineKey (Writer.single n cs) (.scalar {} false (.ofList cs)) := by
  rw [single_of_line n hcs]
  exact inlineKey_quoted fun ch hch ↦ written_single (hcs ch hch)

/-- A text in single quotes on several lines. -/
theorem inline_single {n : Nat} (hn : 0 < n)
    (hfeeds : ∀ ch ∈ cs, isBreak ch = true → IsFeed ch ∧ ch ≠ '\n')
    (hbefore : hasPair isSpace isBreak cs = false) (hafter : hasPair isBreak isSpace cs = false)
    (htabs : ∀ ch ∈ cs, ch ≠ '\t') :
    Inline (Writer.single n cs) (.scalar {} false (.ofList cs)) where
  starts := startsContent_quote false _
  attach := rfl
  value := by
    intro handles m margin unindented c r hrest hcol hpos hmargin hr
    simp only [Writer.single, List.append_assoc, List.cons_append, List.nil_append] at hrest
    have hstart : (c.advance 1).unfresh.rest =
        Writer.singleBody n false cs ++ '\'' :: '\n' :: r := Cursor.advance_one_rest hrest
    obtain ⟨next, hpasses, hnext, hncol, hline⟩ := passes_single (lines cs) hfeeds hbefore hafter
      htabs hn hstart (Nat.succ_pos _)
    have hquoted := hpasses.quoted_eq hnext (by simp) hncol
    refine ⟨_, flowContent_of_quoted hrest hquoted handles (m + 1), ?_⟩
    exact (behind_of_feed (Cursor.advance_one_rest hnext)).mono hline

end Quoted

/-! Brackets with nothing in them. -/

section Brackets

variable {handles : Handles} {n : Nat}

theorem flowItems_of_close (hrest : c.rest = ']' :: r) :
    flowItems handles (n + 1) margin true c = .ok ([], c.advance 1) := by
  have hskip : c.skip true = c := skip_of_token [] (by simp) hrest (by decide) (by decide) true
  rw [flowItems.eq_2, hskip, hrest]
  rfl

theorem flowEntries_of_close (hrest : c.rest = '\x7d' :: r) :
    flowEntries handles (n + 1) margin true c = .ok ([], c.advance 1) := by
  have hskip : c.skip true = c := skip_of_token [] (by simp) hrest (by decide) (by decide) true
  rw [flowEntries.eq_2, hskip, hrest]
  rfl

theorem inline_items : Inline ['[', ']'] (.seq {} []) where
  starts := ⟨'[', [']'], rfl, by decide, by decide, by decide⟩
  attach := rfl
  value := by
    intro handles n margin unindented c r hrest hcol hpos hmargin hr
    have hopen : c.rest = '[' :: ']' :: '\n' :: r := hrest
    have hclose : (c.advance 1).rest = ']' :: '\n' :: r := Cursor.advance_one_rest hopen
    refine ⟨((c.advance 1).advance 1).unfresh, ?_, ?_⟩
    · rw [Sequel.flowContent_of_cons hopen, flowItems_of_close hclose]
      rfl
    · exact behind_of_feed (c := ((c.advance 1).advance 1).unfresh) (Cursor.advance_one_rest hclose)

theorem inline_entries : Inline ['\x7b', '\x7d'] (.map {} []) where
  starts := ⟨'\x7b', ['\x7d'], rfl, by decide, by decide, by decide⟩
  attach := rfl
  value := by
    intro handles n margin unindented c r hrest hcol hpos hmargin hr
    have hopen : c.rest = '\x7b' :: '\x7d' :: '\n' :: r := hrest
    have hclose : (c.advance 1).rest = '\x7d' :: '\n' :: r := Cursor.advance_one_rest hopen
    refine ⟨((c.advance 1).advance 1).unfresh, ?_, ?_⟩
    · rw [Sequel.flowContent_of_cons hopen, flowEntries_of_close hclose]
      rfl
    · exact behind_of_feed (c := ((c.advance 1).advance 1).unfresh) (Cursor.advance_one_rest hclose)

end Brackets

end DeliveryCharts.Yaml
