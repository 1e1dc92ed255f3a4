import DeliveryCharts.Proofs.Yaml.Sequel

/-!
The scalars of a text with something behind it. They are those of the text alone, also where they
run to its end.
-/

namespace DeliveryCharts.Yaml

namespace Sequel

variable {K : Sequel} {c₀ c : Cursor} {x : List Char}

/-- What is read from `x` on is the same, and ends at the same place. -/
structure Reads {α : Type} (K : Sequel) (x : List Char) (p q : α × Cursor) : Prop where
  value : q.1 = p.1
  place : K.SamePlace p.2 q.2
  suffix : p.2.rest <:+ x

/-- Two gaps that end at the same place. Their texts are the same where something follows. -/
structure SameGap (K : Sequel) (x : List Char) (g₀ g : Gap) : Prop where
  place : K.SamePlace g₀.cursor g.cursor
  suffix : g₀.cursor.rest <:+ x
  isSome : g.leading.isSome = g₀.leading.isSome
  text : g₀.cursor.rest ≠ [] → g.text = g₀.text

theorem gap_go_of_hyphen {indent : Nat} {g : Gap}
    (h : g.cursor.rest = [] ∨ ∃ r, g.cursor.rest = '-' :: r) (fuel : Nat) :
    gap.go indent fuel g = .ok g := by
  cases fuel with
  | zero => rfl
  | succ fuel =>
    rw [gap.go]
    rcases h with h | ⟨r, h⟩ <;> simp [h, isSpaceOrTab, isBreak]

theorem SamePlace.breakText_eq (h : K.SamePlace c₀ c) (hended : Ended c₀.rest K.tail) :
    c.breakText = c₀.breakText := by
  have hrest := h.append_of_ended hended
  unfold Cursor.breakText
  cases hr : c₀.rest with
  | nil =>
    rw [hr] at hended hrest
    rw [hrest, hended.resolve_right List.not_mem_nil]
    rfl
  | cons ch r =>
    rw [hrest, hr]
    split <;> simp_all

/-- The blank line belongs to the gap. -/
theorem Brink.gap_go (h : K.Brink c₀ c) {indent fuel fuel' : Nat} {blanks trailing l : List Char}
    (hfuel : c.rest.length ≤ fuel') :
    Agree (K.SameGap x) (gap.go indent fuel ⟨blanks, some l, trailing, c₀⟩)
      (gap.go indent fuel' ⟨blanks, some l, trailing, c⟩) := by
  obtain ⟨k, rfl⟩ : ∃ k, fuel' = k + 1 :=
    ⟨fuel' - 1, by rw [h.rest, List.length_cons] at hfuel; omega⟩
  have hfinal : c.newline.rest = K.final := h.newline.rest_nil h.rest₀
  rw [gap_go_of_hyphen (.inl h.rest₀), gap.go]
  simp only [h.rest, show isSpaceOrTab '\n' = false from rfl, show isBreak '\n' = true from rfl,
    Bool.false_eq_true, if_false, if_true]
  rw [gap_go_of_hyphen (by rw [hfinal]; exact K.final_hyphen)]
  exact .ok ⟨h.newline, h.rest₀ ▸ List.nil_suffix, rfl, fun hne ↦ absurd h.rest₀ hne⟩

/-- The gap ends in `x`, also if that starts behind the first character of the gap. -/
theorem SamePlace.gap_go (h : K.SamePlace c₀ c)
    (hx : c₀.rest <:+ x ∨ ∃ ch r, c₀.rest = ch :: r ∧ isGap ch = true ∧ r <:+ x)
    {indent fuel fuel' : Nat} {blanks trailing : List Char} {leading : Option (List Char)}
    (hfuel : c₀.rest.length ≤ fuel) (hfuel' : c.rest.length ≤ fuel') :
    Agree (K.SameGap x) (gap.go indent fuel ⟨blanks, leading, trailing, c₀⟩)
      (gap.go indent fuel' ⟨blanks, leading, trailing, c⟩) := by
  induction fuel generalizing fuel' c₀ c blanks leading trailing with
  | zero =>
    have hnil := List.length_eq_zero_iff.mp (Nat.le_zero.mp hfuel)
    rw [gap_go_of_hyphen (.inl hnil),
      gap_go_of_hyphen (by rw [h.rest_nil hnil]; exact K.final_hyphen)]
    exact .ok ⟨h, hnil ▸ List.nil_suffix, rfl, fun _ ↦ rfl⟩
  | succ fuel ih =>
    cases hrest : c₀.rest with
    | nil =>
      rw [gap_go_of_hyphen (.inl hrest),
        gap_go_of_hyphen (by rw [h.rest_nil hrest]; exact K.final_hyphen)]
      exact .ok ⟨h, hrest ▸ List.nil_suffix, rfl, fun _ ↦ rfl⟩
    | cons ch r =>
      have hrest' := h.cons hrest
      rw [hrest] at hx hfuel
      rw [hrest', List.length_cons] at hfuel'
      obtain ⟨k, rfl⟩ : ∃ k, fuel' = k + 1 := ⟨fuel' - 1, by omega⟩
      have hne : c₀.rest ≠ [] := by simp [hrest]
      have hr : r <:+ x := by
        rcases hx with hx | ⟨_, _, hr, -, hx⟩
        · exact (List.suffix_cons ch r).trans hx
        · cases hr
          exact hx
      rw [gap.go, gap.go]
      simp only [hrest, hrest', h.col, h.breakText_eq (h.ended hne)]
      by_cases hspace : isSpaceOrTab ch = true
      · have hstep := h.step hrest (isBreak_of_isSpaceOrTab hspace)
        have hadvance := Cursor.advance_one_rest hrest
        have hlength' : (c.advance 1).rest.length ≤ k := by
          rw [Cursor.advance_one_rest hrest']
          omega
        have hgo {blanks leading trailing} := @ih _ _ hstep (.inl (hadvance ▸ hr)) k blanks trailing
          leading (by rw [hadvance]; exact Nat.le_of_succ_le_succ hfuel) hlength'
        simp only [hspace, if_true]
        cases leading with
        | none => exact hgo
        | some l => exact .ite Iff.rfl (fun _ ↦ .error _) fun _ ↦ hgo
      · simp only [hspace, Bool.false_eq_true, if_false]
        refine .ite Iff.rfl (fun hbreak ↦ ?_) fun hbreak ↦ .ok ⟨h, ?_, rfl, fun _ ↦ rfl⟩
        · have hbreak : startsBreak c₀.rest = true := by rw [hrest]; exact hbreak
          have hlength := Cursor.newline_length hbreak
          have hlength' := Cursor.newline_length (h.startsBreak_eq.trans hbreak)
          have hsuffix : c₀.newline.rest <:+ x := by
            refine (List.suffix_of_suffix_length_le c₀.newline_suffix
              (hrest ▸ List.suffix_cons ch r) ?_).trans hr
            rw [hrest, List.length_cons] at hlength
            omega
          rw [hrest] at hlength
          rw [hrest', List.length_cons] at hlength'
          -- Behind the last break of the text there may be the blank line, which joins the gap.
          have hgo {blanks l trailing : List Char} :
              Agree (K.SameGap x) (gap.go indent fuel ⟨blanks, some l, trailing, c₀.newline⟩)
                (gap.go indent k ⟨blanks, some l, trailing, c.newline⟩) := by
            rcases h.newline hbreak with hsame | hbrink
            · exact ih hsame (.inl hsuffix) (by omega) (by omega)
            · exact hbrink.gap_go (by omega)
          cases leading with
          | none => exact hgo
          | some l => exact hgo
        · rcases hx with hx | ⟨_, _, hr, hgap, -⟩
          · exact hrest ▸ hx
          · cases hr
            simp [isGap, hspace, hbreak] at hgap

theorem SamePlace.gap (h : K.SamePlace c₀ c) (indent : Nat) (leading : Option (List Char)) :
    Agree (K.SameGap c₀.rest) (gap indent leading c₀) (gap indent leading c) :=
  h.gap_go (.inl (List.suffix_refl _)) (Nat.le_refl _) (Nat.le_refl _)

theorem plain_go_of_atEnd (h : c.atEnd = true) (inFlow : Bool) (indent fuel : Nat)
    (text between : List Char) :
    plain.go inFlow indent (fuel + 1) text between c = .ok (text, c) := by
  rw [plain.go]
  rw [Cursor.atEnd, Bool.or_eq_true, List.isEmpty_iff] at h
  rcases h with h | h
  · rw [h]
    simp [plainWord, pure, Except.pure, bind, Except.bind]
  · rw [h]
    rfl

theorem SamePlace.plain_go (h : K.SamePlace c₀ c) (hx : c₀.rest <:+ x) {inFlow : Bool}
    {indent fuel fuel' : Nat} {text between₀ between : List Char}
    (hbetween : c₀.rest ≠ [] → between = between₀) (hfuel : c₀.rest.length < fuel)
    (hfuel' : c.rest.length < fuel') :
    Agree (K.Reads x) (plain.go inFlow indent fuel text between₀ c₀)
      (plain.go inFlow indent fuel' text between c) := by
  induction fuel generalizing fuel' c₀ c text between₀ between with
  | zero => omega
  | succ fuel ih =>
    obtain ⟨k, rfl⟩ : ∃ k, fuel' = k + 1 := ⟨fuel' - 1, by omega⟩
    -- Where the text ends the two gaps may differ, but no word comes behind them.
    by_cases hnil : c₀.rest = []
    · rw [plain_go_of_atEnd (by simp [Cursor.atEnd, hnil]),
        plain_go_of_atEnd (h.atEnd_of_nil hnil)]
      exact .ok ⟨rfl, h, hx⟩
    · have hended := h.ended hnil
      rw [plain.go, plain.go, h.atMarker_eq hnil, h.rest_eq hnil, head?_append hended,
        plainWord_append hended, hbetween hnil]
      split
      · exact .ok ⟨rfl, h, hx⟩
      · refine .andThen fun word hword ↦ ?_
        obtain ⟨r, hr, hgaps⟩ := plainWord_spec hword
        have hdrop : c₀.rest.drop word.length = r := by rw [hr, List.drop_left]
        have halong : Along c₀.rest (c₀.rest.drop word.length) := by
          rw [hdrop]
          exact ⟨word, hr, fun ch hch ↦ isBreak_of_not_isGap (hgaps ch hch)⟩
        have hplace := (h.advance halong (by simp [hr])).withFresh false
        have hsuffix : (c₀.advance word.length).rest <:+ x := (List.drop_suffix _ _).trans hx
        have hended' : Ended (c₀.advance word.length).rest K.tail := halong.ended hended
        have hends : endsWord (c.advance word.length).rest =
            endsWord (c₀.advance word.length).rest := by
          rw [← endsWord_append hended']
          exact congrArg endsWord (hplace.append_of_ended hended')
        have hempty : (c.advance word.length).rest.isEmpty =
            (c₀.advance word.length).rest.isEmpty := hplace.isEmpty_eq hended'
        split
        · exact .ok ⟨rfl, h, hx⟩
        · rename_i hword'
          dsimp only
          rw [hends, hempty]
          split
          · exact .ok ⟨rfl, hplace, hsuffix⟩
          · refine (hplace.gap indent none).bind fun g₀ g hg ↦ ?_
            rw [hg.isSome]
            have hplace' := hg.place.withFresh g₀.leading.isSome
            have hsuffix' : g₀.cursor.rest <:+ x := hg.suffix.trans hsuffix
            refine .ite (by rw [hplace'.col]) (fun _ ↦ .ok ⟨rfl, hplace', hsuffix'⟩) fun _ ↦ ?_
            have hlength : g₀.cursor.rest.length < c₀.rest.length := by
              have hle : g₀.cursor.rest.length ≤ r.length := by
                simpa [hdrop] using hg.suffix.length_le
              have hpos := List.length_pos_iff.mpr (by simpa using hword')
              rw [hr, List.length_append]
              omega
            have hlength' := h.length_lt hplace' hlength
            exact ih hplace' hsuffix' hg.text (by dsimp only; omega) (by dsimp only at *; omega)

theorem SamePlace.plain (h : K.SamePlace c₀ c) (inFlow : Bool) (indent : Nat) :
    Agree (K.Reads c₀.rest) (plain inFlow indent c₀) (plain inFlow indent c) :=
  h.unfresh.plain_go (List.suffix_refl _) (fun _ ↦ rfl) (Nat.lt_succ_self _) (Nat.lt_succ_self _)

theorem quoted_go_of_atEnd (h : c.atEnd = true) (double : Bool) (fuel : Nat) :
    quoted.go double fuel c = .error .malformed := by
  cases fuel with
  | zero => rfl
  | succ fuel => rw [quoted.go, if_pos h]

/-- What is in quotes behind a gap, where the rest is read alike. Nothing is, where the text ends
in the gap: the texts of the two gaps may differ there. -/
theorem quoted_behindGap {y : List Char} {m m' : Except Fault Gap} {double : Bool}
    {fuel fuel' : Nat} (hgap : Agree (K.SameGap y) m m')
    (hread : ∀ {d₀ d : Cursor}, K.SamePlace d₀ d → d₀.rest <:+ y →
      Agree (K.Reads x) (quoted.go double fuel d₀) (quoted.go double fuel' d))
    (text : List Char) :
    Agree (K.Reads x)
      (do
        let g ← m
        let more ← quoted.go double fuel g.cursor
        return (text ++ g.text ++ more.1, more.2))
      (do
        let g ← m'
        let more ← quoted.go double fuel' g.cursor
        return (text ++ g.text ++ more.1, more.2)) := by
  refine hgap.bind fun g₀ g hg ↦ ?_
  by_cases hend : g₀.cursor.rest = []
  · rw [quoted_go_of_atEnd (by simp [Cursor.atEnd, hend]),
      quoted_go_of_atEnd (hg.place.atEnd_of_nil hend)]
    exact .error _
  · rw [hg.text hend]
    refine (hread hg.place hg.suffix).bind fun p q hpq ↦ .ok ⟨?_, hpq.place, hpq.suffix⟩
    rw [hpq.value]

theorem SamePlace.quoted_go (h : K.SamePlace c₀ c) (hx : c₀.rest <:+ x) {double : Bool}
    {fuel fuel' : Nat} (hfuel : c₀.rest.length < fuel) (hfuel' : c.rest.length < fuel') :
    Agree (K.Reads x) (quoted.go double fuel c₀) (quoted.go double fuel' c) := by
  induction fuel generalizing fuel' c₀ c with
  | zero => omega
  | succ fuel ih =>
    obtain ⟨k, rfl⟩ : ∃ k, fuel' = k + 1 := ⟨fuel' - 1, by omega⟩
    by_cases hnil : c₀.rest = []
    · rw [quoted_go_of_atEnd (by simp [Cursor.atEnd, hnil]),
        quoted_go_of_atEnd (h.atEnd_of_nil hnil)]
      exact .error _
    · have hended := h.ended hnil
      rw [quoted.go, quoted.go, h.atEnd_eq]
      split
      · exact .error _
      · rw [h.rest_eq hnil, quotedRun_append hended (Nat.lt_succ_self _) (Nat.lt_succ_self _)]
        refine .andThen fun run hrun ↦ ?_
        obtain ⟨text, ending, n⟩ := run
        have hover := runOver_of_quotedRun hrun
        have hplace := h.advance hover.along hover.length_le
        have hsuffix : (c₀.advance n).rest <:+ c₀.rest := List.drop_suffix _ _
        have hread {y : List Char} (hy : y <:+ c₀.rest) (hlength : y.length < c₀.rest.length)
            {d₀ d : Cursor} (hd : K.SamePlace d₀ d) (hsuffix : d₀.rest <:+ y) :
            Agree (K.Reads x) (quoted.go double fuel d₀) (quoted.go double k d) := by
          have hle := hsuffix.length_le
          have hlt := h.length_lt hd (Nat.lt_of_le_of_lt hle hlength)
          exact ih hd (hsuffix.trans (hy.trans hx)) (by omega) (by omega)
        have hends := hover.ends
        cases ending with
        | quote =>
          obtain ⟨ch, r, hr, hch⟩ := hends
          exact .ok ⟨rfl, hplace.step hr hch, (List.drop_suffix _ _).trans (hsuffix.trans hx)⟩
        | gap =>
          dsimp only
          rw [hplace.isEmpty_eq (hover.along.ended hended)]
          split
          · exact .error _
          · rename_i hne
            obtain ⟨ch, r, hr, hch⟩ := hends.resolve_left (by simpa using hne)
            have hr' : r <:+ (c₀.advance n).rest := by
              rw [c₀.advance_rest, hr]
              exact List.suffix_cons ch r
            have hlength := hsuffix.length_le
            rw [c₀.advance_rest, hr, List.length_cons] at hlength
            exact quoted_behindGap (hplace.gap_go (.inr ⟨ch, r, hr, hch, List.suffix_refl r⟩)
              (Nat.le_refl _) (Nat.le_refl _)) (hread (hr'.trans hsuffix) (by omega)) text
        | escapedBreak =>
          have hlength := Cursor.newline_length (c := c₀.advance n) hends
          have hsuffix' : (c₀.advance n).newline.rest <:+ c₀.rest :=
            (Cursor.newline_suffix _).trans hsuffix
          refine quoted_behindGap ?_
            (hread hsuffix' (Nat.lt_of_lt_of_le hlength hsuffix.length_le)) text
          rcases hplace.newline hends with hsame | hbrink
          · exact hsame.gap 0 (some [])
          · exact hbrink.gap_go (Nat.le_refl _)

theorem SamePlace.quoted (h : K.SamePlace c₀ c) (double : Bool) :
    Agree (K.Reads c₀.rest) (quoted double c₀) (quoted double c) :=
  h.unfresh.quoted_go (List.suffix_refl _) (Nat.lt_succ_self _) (Nat.lt_succ_self _)

/-- Past the indentation of a line of a block, as far as it is known. -/
def indented (indent : Nat) (c : Cursor) : Cursor :=
  let n := (c.rest.takeWhile (· == ' ')).length
  c.advance (if indent = 0 then n else min n (indent - c.col))

theorem blockBreaks_go_eq (least indent fuel deepest : Nat) (breaks : List Char) (c : Cursor) :
    blockBreaks.go least indent fuel deepest breaks c =
      if (indent = 0 ∨ (indented indent c).col < indent) ∧
          (indented indent c).rest.head? = some '\t' then .error .malformed
      else
        match fuel, startsBreak (indented indent c).rest with
        | fuel + 1, true =>
          blockBreaks.go least indent fuel (max deepest (indented indent c).col)
            (breaks ++ (indented indent c).breakText) (indented indent c).newline
        | _, _ =>
          .ok (if indent = 0 then max (max (max deepest (indented indent c).col) least) 1
            else indent, breaks, indented indent c) := by
  rw [blockBreaks.go.eq_def]
  rfl

theorem indented_of_head {indent : Nat} (h : c.rest.head? ≠ some ' ') : indented indent c = c := by
  have hzero : (c.rest.takeWhile (· == ' ')).length = 0 := by
    cases hrest : c.rest with
    | nil => rfl
    | cons ch r =>
      have hch : (ch == ' ') = false := by simpa [hrest] using h
      simp [hch]
  simp only [indented, hzero, Nat.zero_min, ite_self]
  rfl

theorem indented_of_hyphen {indent : Nat} (h : c.rest = [] ∨ ∃ r, c.rest = '-' :: r) :
    indented indent c = c :=
  indented_of_head (by rcases h with h | ⟨r, h⟩ <;> simp [h])

theorem blockBreaks_go_of_hyphen (least indent fuel deepest : Nat) (breaks : List Char)
    (h : c.rest = [] ∨ ∃ r, c.rest = '-' :: r) :
    blockBreaks.go least indent fuel deepest breaks c =
      .ok (if indent = 0 then max (max (max deepest c.col) least) 1 else indent, breaks, c) := by
  have hbreak : startsBreak c.rest = false := by
    rcases h with h | ⟨r, h⟩
    · rw [h]
      rfl
    · rw [h]
      rfl
  have htab : c.rest.head? ≠ some '\t' := by rcases h with h | ⟨r, h⟩ <;> simp [h]
  rw [blockBreaks_go_eq, indented_of_hyphen h, hbreak, if_neg fun hc ↦ htab hc.2]
  cases fuel <;> rfl

theorem SamePlace.indented (h : K.SamePlace c₀ c) (indent : Nat) :
    K.SamePlace (indented indent c₀) (indented indent c) := by
  by_cases hnil : c₀.rest = []
  · rw [indented_of_hyphen (.inl hnil),
      indented_of_hyphen (by rw [h.rest_nil hnil]; exact K.final_hyphen)]
    exact h
  · have htake : c.rest.takeWhile (· == ' ') = c₀.rest.takeWhile (· == ' ') := by
      rw [h.rest_eq hnil, takeWhile_append (h.ended hnil) (by decide)]
    rw [Sequel.indented, Sequel.indented, htake, h.col]
    have hle {n : Nat} (hn : n ≤ (c₀.rest.takeWhile (· == ' ')).length) :
        K.SamePlace (c₀.advance n) (c.advance n) := by
      have hspaces := List.takeWhile_prefix (· == ' ') (l := c₀.rest)
      refine h.advance ⟨c₀.rest.take n, (List.take_append_drop n _).symm, fun ch hch ↦ ?_⟩
        (Nat.le_trans hn hspaces.length_le)
      obtain ⟨r, hr⟩ := hspaces
      rw [← hr, List.take_append_of_le_length hn] at hch
      have hspace := List.all_eq_true.mp List.all_takeWhile ch (List.mem_of_mem_take hch)
      rw [beq_iff_eq.mp hspace]
      rfl
    exact hle (by split <;> omega)

/-- The breaks in front of a line of a block. They are the same where the line is there. -/
structure SameBreaks (K : Sequel) (x : List Char) (p q : Nat × List Char × Cursor) : Prop where
  indent : q.1 = p.1
  pos : 1 ≤ p.1
  place : K.SamePlace p.2.2 q.2.2
  suffix : p.2.2.rest <:+ x
  breaks : p.2.2.rest ≠ [] ∨ K.blanks = [] → q.2.1 = p.2.1

theorem Brink.blockBreaks_go (h : K.Brink c₀ c) {least indent fuel fuel' deepest : Nat}
    {breaks : List Char} (hfuel : c.rest.length ≤ fuel') :
    Agree (K.SameBreaks x) (blockBreaks.go least indent fuel deepest breaks c₀)
      (blockBreaks.go least indent fuel' deepest breaks c) := by
  obtain ⟨k, rfl⟩ : ∃ k, fuel' = k + 1 :=
    ⟨fuel' - 1, by rw [h.rest, List.length_cons] at hfuel; omega⟩
  have hindented : Sequel.indented indent c = c := indented_of_head (by simp [h.rest])
  have htab : ¬ ((indent = 0 ∨ c.col < indent) ∧ c.rest.head? = some '\t') := by simp [h.rest]
  have hbreak : startsBreak c.rest = true := by
    rw [h.rest]
    rfl
  have hfinal : c.newline.rest = K.final := h.newline.rest_nil h.rest₀
  rw [blockBreaks_go_of_hyphen _ _ _ _ _ (.inl h.rest₀), blockBreaks_go_eq, hindented, hbreak,
    if_neg htab]
  dsimp only
  rw [blockBreaks_go_of_hyphen _ _ _ _ _ (by rw [hfinal]; exact K.final_hyphen), h.col, h.col₀]
  refine .ok ⟨by simp, by dsimp only; split <;> omega, h.newline, h.rest₀ ▸ List.nil_suffix,
    fun hlast ↦ ?_⟩
  rcases hlast with hne | hblanks
  · exact absurd h.rest₀ hne
  · simp [h.blanks] at hblanks

theorem SamePlace.blockBreaks_go (h : K.SamePlace c₀ c) (hx : c₀.rest <:+ x)
    {least indent fuel fuel' deepest : Nat} {breaks : List Char}
    (hfuel : c₀.rest.length ≤ fuel) (hfuel' : c.rest.length ≤ fuel') :
    Agree (K.SameBreaks x) (blockBreaks.go least indent fuel deepest breaks c₀)
      (blockBreaks.go least indent fuel' deepest breaks c) := by
  have hend {c₀ c : Cursor} (h : K.SamePlace c₀ c) (hnil : c₀.rest = []) (fuel fuel' deepest : Nat)
      (breaks : List Char) :
      Agree (K.SameBreaks x) (blockBreaks.go least indent fuel deepest breaks c₀)
        (blockBreaks.go least indent fuel' deepest breaks c) := by
    rw [blockBreaks_go_of_hyphen _ _ _ _ _ (.inl hnil),
      blockBreaks_go_of_hyphen _ _ _ _ _ (by rw [h.rest_nil hnil]; exact K.final_hyphen), h.col]
    exact .ok ⟨rfl, by dsimp only; split <;> omega, h, hnil ▸ List.nil_suffix, fun _ ↦ rfl⟩
  induction fuel generalizing fuel' c₀ c deepest breaks with
  | zero => exact hend h (List.length_eq_zero_iff.mp (Nat.le_zero.mp hfuel)) _ _ _ _
  | succ fuel ih =>
    by_cases hnil : c₀.rest = []
    · exact hend h hnil _ _ _ _
    · have hlength := h.length_le
      have hpos := List.length_pos_iff.mpr hnil
      obtain ⟨k, rfl⟩ : ∃ k, fuel' = k + 1 := ⟨fuel' - 1, by omega⟩
      have hplace := h.indented indent
      have hsuffix : (Sequel.indented indent c₀).rest <:+ c₀.rest := List.drop_suffix _ _
      have hsuffix' : (Sequel.indented indent c).rest <:+ c.rest := List.drop_suffix _ _
      rw [blockBreaks_go_eq, blockBreaks_go_eq, hplace.col, hplace.startsBreak_eq]
      refine .ite (by rw [hplace.head?_eq_some_iff (by decide)]) (fun _ ↦ .error _) fun _ ↦ ?_
      by_cases hbreak : startsBreak (Sequel.indented indent c₀).rest = true
      · have hne : (Sequel.indented indent c₀).rest ≠ [] := fun hnil ↦ by
          simp [hnil, startsBreak] at hbreak
        have hlt := Cursor.newline_length hbreak
        have hlt' := Cursor.newline_length (hplace.startsBreak_eq.trans hbreak)
        have hle := hsuffix.length_le
        have hle' := hsuffix'.length_le
        rw [hbreak, hplace.breakText_eq (hplace.ended hne)]
        rcases hplace.newline hbreak with hsame | hbrink
        · exact ih hsame ((Cursor.newline_suffix _).trans (hsuffix.trans hx)) (by omega) (by omega)
        · exact hbrink.blockBreaks_go (by omega)
      · rw [Bool.eq_false_iff.mpr hbreak]
        exact .ok ⟨rfl, by dsimp only; split <;> omega, hplace, hsuffix.trans hx, fun _ ↦ rfl⟩

/-- Behind the break that ends a line, if there is one. -/
def lineEnd (c : Cursor) : Cursor := if c.rest.isEmpty then c else c.newline

theorem lineEnd_suffix (c : Cursor) : (lineEnd c).rest <:+ c.rest := by
  unfold lineEnd
  split
  · exact List.suffix_refl _
  · exact c.newline_suffix

theorem lineEnd_of_startsBreak (h : startsBreak c.rest = true) : lineEnd c = c.newline := by
  rw [lineEnd, if_neg]
  intro hnil
  simp [List.isEmpty_iff.mp hnil, startsBreak] at h

theorem length_lineEnd_lt {y : List Char} (hsuffix : c.rest <:+ y) (hne : y ≠ [])
    (h : c.rest = [] ∨ startsBreak c.rest = true) : (lineEnd c).rest.length < y.length := by
  rcases h with hnil | hbreak
  · have hle := (lineEnd_suffix c).length_le
    rw [hnil] at hle
    exact Nat.lt_of_le_of_lt hle (List.length_pos_iff.mpr hne)
  · rw [lineEnd_of_startsBreak hbreak]
    exact Nat.lt_of_lt_of_le (Cursor.newline_length hbreak) hsuffix.length_le

theorem SamePlace.lineEnd (h : K.SamePlace c₀ c) (hended : Ended c₀.rest K.tail)
    (hbreak : c₀.rest = [] ∨ startsBreak c₀.rest = true) :
    K.SamePlace (lineEnd c₀) (lineEnd c) ∨ K.Brink (lineEnd c₀) (lineEnd c) := by
  rcases hbreak with hnil | hbreak
  · have hempty : c₀.rest.isEmpty = true := List.isEmpty_iff.mpr hnil
    rw [Sequel.lineEnd, Sequel.lineEnd, h.isEmpty_eq hended, if_pos hempty, if_pos hempty]
    exact .inl h
  · rw [lineEnd_of_startsBreak hbreak, lineEnd_of_startsBreak (h.startsBreak_eq.trans hbreak)]
    exact h.newline hbreak

theorem SamePlace.blockBreaks (h : K.SamePlace c₀ c ∨ K.Brink c₀ c) (least indent : Nat) :
    Agree (K.SameBreaks c₀.rest) (blockBreaks least indent c₀) (blockBreaks least indent c) := by
  rcases h with h | h
  · exact h.blockBreaks_go (List.suffix_refl _) (Nat.le_refl _) (Nat.le_refl _)
  · exact h.blockBreaks_go (Nat.le_refl _)

/-- The lines of a block as far as they have been read. -/
structure SameBlock (K : Sequel) (x : List Char) (s₀ s : BlockState) : Prop where
  text : s.text = s₀.text
  leading : s.leading = s₀.leading
  leadingBlank : s.leadingBlank = s₀.leadingBlank
  place : K.SamePlace s₀.cursor s.cursor
  suffix : s₀.cursor.rest <:+ x
  trailing : s₀.cursor.rest ≠ [] ∨ K.blanks = [] → s.trailing = s₀.trailing

theorem SameBlock.lines {s₀ s : BlockState} (h : K.SameBlock x s₀ s) {literal : Bool}
    {indent fuel fuel' : Nat} (hindent : 1 ≤ indent) (hfuel : s₀.cursor.rest.length < fuel)
    (hfuel' : s.cursor.rest.length < fuel') :
    Agree (K.SameBlock x) (blockLines literal indent fuel s₀)
      (blockLines literal indent fuel' s) := by
  induction fuel generalizing fuel' s₀ s with
  | zero => omega
  | succ fuel ih =>
    obtain ⟨k, rfl⟩ : ∃ k, fuel' = k + 1 := ⟨fuel' - 1, by omega⟩
    have hplace := h.place
    by_cases hnil : s₀.cursor.rest = []
    · -- The hyphens of the next document start their line, left of every line of the block.
      have hstop : (s.cursor.col ≠ indent || s.cursor.rest.isEmpty) = true := by
        rcases hplace.edge hnil with hcol | hend
        · simp only [hplace.col, hcol, Bool.or_eq_true, decide_eq_true_eq]
          exact .inl (Nat.ne_of_lt hindent)
        · simp [hplace.rest_nil hnil, hend.2]
      rw [blockLines, blockLines, if_pos (by simp [hnil]), if_pos hstop]
      exact .ok h
    · have hended := hplace.ended hnil
      obtain ⟨line, hline₀⟩ : ∃ line, s₀.cursor.rest.takeWhile (fun ch ↦ !isBreak ch) = line :=
        ⟨_, rfl⟩
      have hline : s.cursor.rest.takeWhile (fun ch ↦ !isBreak ch) = line := by
        rw [hplace.rest_eq hnil, takeWhile_append hended (by decide), hline₀]
      have hhead : s.cursor.rest.head? = s₀.cursor.rest.head? := by
        rw [hplace.rest_eq hnil, head?_append hended]
      have hinitial := List.takeWhile_prefix (fun ch ↦ !isBreak ch) (l := s₀.cursor.rest)
      rw [hline₀] at hinitial
      have hdrop : (s₀.cursor.advance line.length).rest =
          s₀.cursor.rest.dropWhile fun ch ↦ !isBreak ch := by
        rw [← hline₀, s₀.cursor.advance_rest, drop_takeWhile]
      have halong : Along s₀.cursor.rest (s₀.cursor.advance line.length).rest :=
        hdrop ▸ .dropWhile (by simp)
      have hplace' := hplace.advance halong (hinitial.length_le)
      have hended' := halong.ended hended
      have hbreak : (s₀.cursor.advance line.length).rest = [] ∨
          startsBreak (s₀.cursor.advance line.length).rest = true := by
        rw [hdrop]
        exact (Classical.em _).imp_right startsBreak_dropWhile
      have hshort := length_lineEnd_lt halong.suffix hnil hbreak
      rw [blockLines, blockLines, hplace.col, hplace.isEmpty_eq hended, hhead, hline, hline₀,
        h.leading, h.leadingBlank, h.trailing (.inl hnil), h.text]
      dsimp only
      rw [hplace'.breakText_eq hended']
      refine .ite Iff.rfl (fun _ ↦ .ok h) fun _ ↦ ?_
      refine (SamePlace.blockBreaks (hplace'.lineEnd hended' hbreak) indent indent).bind
        fun p q hpq ↦ ?_
      obtain ⟨i₀, trailing₀, d₀⟩ := p
      obtain ⟨i, trailing, d⟩ := q
      have hle := hpq.suffix.length_le
      have hlt := hplace.length_lt hpq.place (Nat.lt_of_le_of_lt hle hshort)
      have hsuffix := hpq.suffix.trans ((lineEnd_suffix _).trans (halong.suffix.trans h.suffix))
      dsimp only at hle hlt ⊢
      refine ih ?_ ?_ ?_
      · exact ⟨rfl, rfl, rfl, hpq.place, hsuffix, hpq.breaks⟩
      · dsimp only
        omega
      · dsimp only
        omega

/-- A block scalar. Its text is the same unless it keeps its final breaks and runs to the end. -/
structure SameScalar (K : Sequel) (header x : List Char) (p q : List Char × Cursor) : Prop where
  place : K.SamePlace p.2 q.2
  suffix : p.2.rest <:+ x
  text : (p.2.rest ≠ [] ∨ K.blanks = []) ∨ (∀ given n, blockHeader header ≠ .ok (.keep, given, n)) →
    q.1 = p.1

theorem SamePlace.block_scalar (h : K.SamePlace c₀ c) (hended : Ended c₀.rest K.tail)
    (literal : Bool) (parent : Nat) :
    Agree (K.SameScalar c₀.rest c₀.rest) (block literal parent c₀) (block literal parent c) := by
  rw [block, block, h.append_of_ended hended, blockHeader_append hended]
  refine .andThen fun header hheader ↦ ?_
  obtain ⟨chomp, given, n⟩ := header
  obtain ⟨halong, hle, hgiven⟩ := blockHeader_spec hheader
  have hblank (ch : Char) (hch : isSpaceOrTab ch = true) := isBreak_of_isSpaceOrTab hch
  have hplace := ((h.advance halong hle).spaces hblank fun _ ↦ rfl).dropComment
  have halong' := halong.trans (((c₀.advance n).along_spaces hblank).trans
    (Cursor.along_dropComment _))
  have hended' := halong'.ended hended
  dsimp only
  rw [hplace.isEmpty_eq hended', hplace.startsBreak_eq]
  generalize hd₀ : ((c₀.advance n).spaces isSpaceOrTab).dropComment = d₀ at *
  generalize hd : ((c.advance n).spaces isSpaceOrTab).dropComment = d at *
  refine .ite Iff.rfl (fun _ ↦ .error _) fun hbreak ↦ ?_
  have hbreak : d₀.rest = [] ∨ startsBreak d₀.rest = true := by
    simpa [Classical.or_iff_not_imp_left] using hbreak
  have hsuffix : (Sequel.lineEnd d₀).rest <:+ c₀.rest := (lineEnd_suffix d₀).trans halong'.suffix
  have hline := hplace.lineEnd hended' hbreak
  rw [Sequel.lineEnd, Sequel.lineEnd, hplace.isEmpty_eq hended'] at hline
  refine (SamePlace.blockBreaks hline parent _).bind fun p q hpq ↦ ?_
  obtain ⟨i₀, trailing₀, e₀⟩ := p
  obtain ⟨i, trailing, e⟩ := q
  obtain ⟨hi, hpos, hplace', hsuffix', hbreaks⟩ := hpq
  dsimp only at hi hpos hplace' hsuffix' hbreaks ⊢
  subst hi
  have hstart :
      K.SameBlock c₀.rest { trailing := trailing₀, cursor := e₀ } { trailing, cursor := e } :=
    ⟨rfl, rfl, rfl, hplace', hsuffix'.trans hsuffix, hbreaks⟩
  refine (hstart.lines hpos (Nat.lt_succ_self _) (Nat.lt_succ_self _)).bind fun s₀ s hs ↦ ?_
  refine .ok ⟨hs.place.withFresh true, hs.suffix, fun htext ↦ ?_⟩
  dsimp only
  rw [hs.text, hs.leading]
  cases chomp with
  | strip => rfl
  | clip => rfl
  | keep =>
    rcases htext with htext | hkeep
    · rw [hs.trailing htext]
    · exact absurd hheader (hkeep given n)

/-- A block behind its indicator is the same. -/
theorem SamePlace.block (h : K.SamePlace c₀ c) (hended : Ended c₀.rest K.tail) {ch : Char}
    (hbehind : ch :: c₀.rest <:+ K.text) (hch : ch = '|' ∨ ch = '>') (literal : Bool)
    (parent : Nat) :
    Agree (K.Reads c₀.rest) (block literal parent c₀) (block literal parent c) := by
  have hscalar := h.block_scalar hended literal parent
  generalize hblock : Yaml.block literal parent c₀ = p at hscalar ⊢
  generalize Yaml.block literal parent c = q at hscalar ⊢
  cases hscalar with
  | error e => exact .error e
  | @ok p q hscalar =>
    refine .ok ⟨hscalar.text ?_, hscalar.place, hscalar.suffix⟩
    rcases K.keeps with hblanks | hkeeps
    · exact .inl (.inr hblanks)
    · by_cases hend : p.2.rest = []
      · exact .inr fun given n hheader ↦ hkeeps
          ⟨ch, _, literal, parent, given, n, c₀, p.1, p.2, hbehind, hch, rfl, hheader, hblock, hend⟩
      · exact .inl (.inl hend)

end Sequel

end DeliveryCharts.Yaml
