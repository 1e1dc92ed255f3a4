import DeliveryCharts.Proofs.Yaml.Line

/-!
A text and what follows it: perhaps a blank line, and then the hyphens of another document. The text
is read there as it is read alone.
-/

namespace DeliveryCharts.Yaml

variable {x t r : List Char} {ch : Char}

/-- Line breaks, a carriage return and a line feed being one. -/
def breaks : List Char → Nat
  | '\r' :: '\n' :: r => breaks r + 1
  | ch :: r => if isBreak ch then breaks r + 1 else breaks r
  | [] => 0

theorem breaks_cons (h : isBreak ch = false) (r : List Char) : breaks (ch :: r) = breaks r := by
  rw [breaks.eq_2 ch r fun _ hch _ ↦ by subst hch; revert h; decide, h]
  rfl

theorem breaks_along (h : Along x r) : breaks x = breaks r := by
  obtain ⟨w, rfl, hw⟩ := h
  induction w with
  | nil => rfl
  | cons ch w ih =>
    obtain ⟨hch, hw⟩ := List.forall_mem_cons.mp hw
    exact (breaks_cons hch _).trans (ih hw)

/-- The number of characters of the break at the head of a text. -/
def breakLength : List Char → Nat
  | '\r' :: '\n' :: _ => 2
  | _ => 1

theorem breaks_drop (h : startsBreak x = true) :
    breaks x = breaks (x.drop (breakLength x)) + 1 := by
  cases x with
  | nil => cases h
  | cons ch r =>
    by_cases hfeed : ∃ s, ch = '\r' ∧ r = '\n' :: s
    · obtain ⟨s, rfl, rfl⟩ := hfeed
      rw [breaks]
      rfl
    · have hlength : breakLength (ch :: r) = 1 := by
        unfold breakLength
        split <;> simp_all
      rw [breaks.eq_2 ch r fun s hch hr ↦ hfeed ⟨s, hch, hr⟩, hlength,
        if_pos (show isBreak ch = true from h)]
      rfl

theorem breakLength_le (h : x ≠ []) : breakLength x ≤ x.length := by
  unfold breakLength
  split
  · simp
  · exact List.length_pos_iff.mpr h

theorem breakLength_pos (x : List Char) : 0 < breakLength x := by
  unfold breakLength
  split <;> simp

theorem breakLength_append (h : Ended x t) (hx : x ≠ []) :
    breakLength (x ++ t) = breakLength x := by
  rcases h with rfl | h
  · rw [List.append_nil]
  · match x, h with
    | [a], h =>
      obtain rfl := List.mem_singleton.mp h
      rfl
    | a :: b :: r, h =>
      unfold breakLength
      split <;> split <;> simp_all

theorem breaks_pos (h : '\n' ∈ x) : 0 < breaks x := by
  fun_induction breaks x with
  | case1 r => exact Nat.succ_pos _
  | case2 ch r => exact Nat.succ_pos _
  | case3 ch r _ hch ih =>
    refine ih ((List.mem_cons.mp h).resolve_left fun he ↦ hch ?_)
    subst he
    decide
  | case4 => exact absurd h List.not_mem_nil

/-- A block that keeps its final breaks runs to the end of the text. -/
def KeepsEnd (text : List Char) : Prop :=
  ∃ ch r literal parent given n c scalar after, ch :: r <:+ text ∧ (ch = '|' ∨ ch = '>') ∧
    c.rest = r ∧ blockHeader r = .ok (.keep, given, n) ∧
    block literal parent c = .ok (scalar, after) ∧ after.rest = []

theorem not_keepsEnd_of_not_mem {text : List Char} (hliteral : '|' ∉ text) (hfolded : '>' ∉ text) :
    ¬ KeepsEnd text := by
  rintro ⟨ch, r, literal, parent, given, n, c, scalar, after, hsuffix, hch, -⟩
  have hmem : ch ∈ text := hsuffix.subset List.mem_cons_self
  rcases hch with rfl | rfl
  · exact hliteral hmem
  · exact hfolded hmem

/-- A text with what follows it. -/
structure Sequel where
  text : List Char
  /-- A blank line, or nothing. -/
  blanks : List Char
  /-- The hyphens of a document and all behind them, or nothing. -/
  final : List Char
  /-- How many lines and characters there are in front of the text. -/
  line : Nat
  index : Nat
  /-- The position of the end in the text alone. -/
  lines : Nat
  length : Nat
  blanks_eq : blanks = [] ∨ blanks = ['\n']
  final_eq : final = [] ∨ ∃ r, final = '-' :: '-' :: '-' :: r ∧ endsWord r = true
  ended : (blanks = [] ∧ final = []) ∨ text.getLast? = some '\n'
  keeps : blanks = [] ∨ ¬ KeepsEnd text

namespace Cursor

variable (c : Cursor) (n : Nat)

@[simp]
theorem advance_rest : (c.advance n).rest = c.rest.drop n := rfl

@[simp]
theorem advance_line : (c.advance n).line = c.line := rfl

@[simp]
theorem advance_col : (c.advance n).col = c.col + n := rfl

@[simp]
theorem advance_index : (c.advance n).index = c.index + n := rfl

@[simp]
theorem advance_fresh : (c.advance n).fresh = c.fresh := rfl

@[simp]
theorem newline_rest : c.newline.rest = c.rest.drop (breakLength c.rest) := rfl

@[simp]
theorem newline_line : c.newline.line = c.line + 1 := rfl

@[simp]
theorem newline_col : c.newline.col = 0 := rfl

@[simp]
theorem newline_index : c.newline.index = c.index + breakLength c.rest := rfl

@[simp]
theorem newline_fresh : c.newline.fresh = c.fresh := rfl

theorem advance_one_rest {c : Cursor} (h : c.rest = ch :: r) : (c.advance 1).rest = r := by
  rw [advance_rest, h, List.drop_one, List.tail_cons]

theorem dropComment_of_cons {c : Cursor} (h : c.rest = '#' :: r) :
    c.dropComment = c.spaces fun d ↦ !isBreak d := by
  rw [dropComment, h]
  rfl

theorem dropComment_of_ne {c : Cursor} (h : c.rest.head? ≠ some '#') : c.dropComment = c := by
  unfold dropComment
  split
  · simp_all
  · rfl

/-- Past what may stand in front of a break that is skipped. -/
def lead (inFlow : Bool) (c : Cursor) : Cursor :=
  (c.spaces fun d ↦ d == ' ' || ((inFlow || !c.fresh) && d == '\t')).dropComment

theorem skip_go_succ (inFlow : Bool) (fuel : Nat) (c : Cursor) :
    skip.go inFlow (fuel + 1) c =
      if startsBreak (c.lead inFlow).rest then
        skip.go inFlow fuel
          { (c.lead inFlow).newline with fresh := (c.lead inFlow).fresh || !inFlow }
      else c.lead inFlow := rfl

theorem spaces_of_hyphen {c : Cursor} {p : Char → Bool} (hp : p '-' = false)
    (h : c.rest = [] ∨ ∃ r, c.rest = '-' :: r) : c.spaces p = c := by
  have hzero : (c.rest.takeWhile p).length = 0 := by
    rcases h with h | ⟨r, h⟩ <;> simp [h, hp]
  rw [spaces, hzero]
  rfl

theorem lead_of_hyphen {c : Cursor} (h : c.rest = [] ∨ ∃ r, c.rest = '-' :: r) (inFlow : Bool) :
    c.lead inFlow = c := by
  rw [lead, spaces_of_hyphen (by simp) h, dropComment_of_ne]
  rcases h with h | ⟨r, h⟩ <;> simp [h]

theorem skip_go_of_hyphen {c : Cursor} (h : c.rest = [] ∨ ∃ r, c.rest = '-' :: r) (inFlow : Bool)
    (fuel : Nat) : skip.go inFlow fuel c = c := by
  cases fuel with
  | zero => rfl
  | succ fuel =>
    have hbreak : startsBreak c.rest = false := by
      rcases h with h | ⟨r, h⟩
      · rw [h]
        rfl
      · rw [h]
        rfl
    rw [skip_go_succ, lead_of_hyphen h, hbreak]
    rfl

theorem lead_of_feed {c : Cursor} (h : c.rest = '\n' :: r) (inFlow : Bool) : c.lead inFlow = c := by
  have hspaces : c.spaces (fun d ↦ d == ' ' || ((inFlow || !c.fresh) && d == '\t')) = c := by
    rw [Cursor.spaces, h]
    simp [Cursor.advance]
  rw [lead, hspaces, dropComment_of_ne (by simp [h])]

theorem newline_of_feed {c : Cursor} (h : c.rest = '\n' :: r) : c.newline.rest = r := by
  rw [newline_rest, h]
  rfl

theorem skip_go_of_feed {c : Cursor} (h : c.rest = '\n' :: r) (inFlow : Bool) (fuel : Nat) :
    skip.go inFlow (fuel + 1) c =
      skip.go inFlow fuel { c.newline with fresh := c.fresh || !inFlow } := by
  rw [skip_go_succ, lead_of_feed h, h]
  rfl

theorem spaces_suffix (c : Cursor) (p : Char → Bool) : (c.spaces p).rest <:+ c.rest :=
  List.drop_suffix _ _

theorem along_spaces (c : Cursor) {p : Char → Bool} (hp : ∀ ch, p ch = true → isBreak ch = false) :
    Along c.rest (c.spaces p).rest := by
  rw [spaces, advance_rest, drop_takeWhile]
  exact .dropWhile hp

theorem along_dropComment (c : Cursor) : Along c.rest c.dropComment.rest := by
  unfold dropComment
  split
  · exact c.along_spaces (by simp)
  · exact .refl _

theorem dropComment_suffix (c : Cursor) : c.dropComment.rest <:+ c.rest := by
  unfold dropComment
  split
  · exact c.spaces_suffix _
  · exact List.suffix_refl _

theorem lead_suffix (inFlow : Bool) (c : Cursor) : (c.lead inFlow).rest <:+ c.rest :=
  (dropComment_suffix _).trans (c.spaces_suffix _)

theorem newline_suffix (c : Cursor) : c.newline.rest <:+ c.rest := List.drop_suffix _ _

theorem newline_length {c : Cursor} (h : startsBreak c.rest = true) :
    c.newline.rest.length < c.rest.length := by
  have hpos := breakLength_pos c.rest
  cases hrest : c.rest with
  | nil => simp [hrest, startsBreak] at h
  | cons ch r =>
    rw [hrest] at hpos
    simp only [newline_rest, hrest, List.length_drop, List.length_cons]
    omega

theorem skip_go_suffix (inFlow : Bool) (fuel : Nat) (c : Cursor) :
    (skip.go inFlow fuel c).rest <:+ c.rest := by
  induction fuel generalizing c with
  | zero => exact List.suffix_refl _
  | succ fuel ih =>
    rw [skip_go_succ]
    split
    · exact (ih _).trans ((newline_suffix _).trans (c.lead_suffix inFlow))
    · exact c.lead_suffix inFlow

theorem skip_suffix (inFlow : Bool) (c : Cursor) : (c.skip inFlow).rest <:+ c.rest :=
  skip_go_suffix inFlow _ c

end Cursor

namespace Sequel

variable {K : Sequel} {c₀ c : Cursor}

def tail (K : Sequel) : List Char := K.blanks ++ K.final

/-- Nothing follows. -/
def IsEnd (K : Sequel) : Prop := K.blanks = [] ∧ K.final = []

/-- What stands where the text alone goes on with `x`. At its end the blank line has been passed. -/
def extend (K : Sequel) (x : List Char) : List Char := if x = [] then K.final else x ++ K.tail

def passed (K : Sequel) (x : List Char) : Nat := if x = [] then K.blanks.length else 0

/-- The second cursor is at the place in the whole where the first one is in the text alone. -/
structure SamePlace (K : Sequel) (c₀ c : Cursor) : Prop where
  suffix : c₀.rest <:+ K.text
  rest : c.rest = K.extend c₀.rest
  line : c.line = c₀.line + K.line + K.passed c₀.rest
  index : c.index = c₀.index + K.index + K.passed c₀.rest
  col : c.col = c₀.col
  fresh : c.fresh = c₀.fresh
  lines : c₀.line + breaks c₀.rest = K.lines
  length : c₀.index + c₀.rest.length = K.length
  edge : c₀.rest = [] → c₀.col = 0 ∨ K.IsEnd

/-- The text is at its end, and the blank line comes next. -/
structure Brink (K : Sequel) (c₀ c : Cursor) : Prop where
  rest₀ : c₀.rest = []
  rest : c.rest = '\n' :: K.final
  blanks : K.blanks = ['\n']
  line : c.line = c₀.line + K.line
  index : c.index = c₀.index + K.index
  col₀ : c₀.col = 0
  col : c.col = 0
  fresh : c.fresh = c₀.fresh
  lines : c₀.line = K.lines
  length : c₀.index = K.length

theorem tail_eq_nil (h : K.IsEnd) : K.tail = [] := by rw [tail, h.1, h.2, List.append_nil]

theorem isEnd_of_tail (h : K.tail = []) : K.IsEnd := List.append_eq_nil_iff.mp h

theorem ended_of_suffix (K : Sequel) (hx : x <:+ K.text) (hne : x ≠ []) : Ended x K.tail := by
  refine K.ended.imp tail_eq_nil fun h ↦ ?_
  obtain ⟨w, hw⟩ := hx
  rw [← hw, List.getLast?_append, Option.or_eq_some_iff] at h
  rcases h with h | ⟨h, -⟩
  · exact List.mem_of_getLast? h
  · exact absurd (List.getLast?_eq_none_iff.mp h) hne

theorem extend_of_ended (h : Ended x K.tail) : K.extend x = x ++ K.tail ∧ K.passed x = 0 := by
  by_cases hnil : x = []
  · subst hnil
    have hend := isEnd_of_tail (h.resolve_right List.not_mem_nil)
    simp [extend, passed, tail_eq_nil hend, hend.1, hend.2]
  · simp [extend, passed, hnil]

namespace SamePlace

variable (h : K.SamePlace c₀ c)
include h

theorem ended (hne : c₀.rest ≠ []) : Ended c₀.rest K.tail := K.ended_of_suffix h.suffix hne

theorem rest_eq (hne : c₀.rest ≠ []) : c.rest = c₀.rest ++ K.tail := h.rest.trans (if_neg hne)

theorem rest_nil (hnil : c₀.rest = []) : c.rest = K.final := h.rest.trans (if_pos hnil)

theorem length_le : c₀.rest.length ≤ c.rest.length := by
  by_cases hne : c₀.rest = []
  · simp [hne]
  · simp [h.rest_eq hne]

theorem length_lt {d₀ d : Cursor} (h' : K.SamePlace d₀ d)
    (hlt : d₀.rest.length < c₀.rest.length) : d.rest.length < c.rest.length := by
  have hne : c₀.rest ≠ [] := List.length_pos_iff.mp (Nat.zero_lt_of_lt hlt)
  rw [h.rest_eq hne, List.length_append]
  by_cases hnil : d₀.rest = []
  · rw [h'.rest_nil hnil, tail, List.length_append]
    have hpos := List.length_pos_iff.mpr hne
    omega
  · rw [h'.rest_eq hnil, List.length_append]
    omega

/-- What does not change with what follows a line is the same at both places. -/
theorem observe {α : Type} {f : List Char → α}
    (happend : ∀ {x t}, Ended x t → f (x ++ t) = f x)
    (hfinal : ∀ r, f ('-' :: '-' :: '-' :: r) = f []) : f c.rest = f c₀.rest := by
  by_cases hnil : c₀.rest = []
  · rw [h.rest_nil hnil, hnil]
    rcases K.final_eq with hf | ⟨r, hf, -⟩
    · rw [hf]
    · rw [hf, hfinal]
  · rw [h.rest_eq hnil, happend (h.ended hnil)]

theorem startsBreak_eq : startsBreak c.rest = startsBreak c₀.rest :=
  h.observe startsBreak_append fun _ ↦ rfl

theorem advance {n : Nat} (hn : Along c₀.rest (c₀.rest.drop n)) (hle : n ≤ c₀.rest.length) :
    K.SamePlace (c₀.advance n) (c.advance n) := by
  by_cases hnil : c₀.rest = []
  · obtain rfl : n = 0 := by simpa [hnil] using hle
    exact h
  · have hended := h.ended hnil
    obtain ⟨hextend, hpassed⟩ := K.extend_of_ended (hn.ended hended)
    have hzero : K.passed c₀.rest = 0 := if_neg hnil
    have hindex := h.index
    have hlength := h.length
    have hline := h.line
    have hlines := breaks_along hn ▸ h.lines
    refine {
      suffix := (List.drop_suffix n _).trans h.suffix
      rest := ?_
      line := ?_
      index := ?_
      col := congrArg (· + n) h.col
      fresh := h.fresh
      lines := hlines
      length := ?_
      edge := fun hdrop ↦ .inr (isEnd_of_tail ?_) }
    · rw [c₀.advance_rest, hextend, c.advance_rest, h.rest_eq hnil]
      exact List.drop_append_of_le_length hle
    · rw [c₀.advance_rest, hpassed, ← hzero]
      exact hline
    · simp only [Cursor.advance_rest, Cursor.advance_index]
      omega
    · simp only [Cursor.advance_rest, Cursor.advance_index, List.length_drop]
      omega
    · rw [c₀.advance_rest] at hdrop
      exact (hdrop ▸ hn.ended hended).resolve_right List.not_mem_nil

/-- Past a character that is no break. -/
theorem step (hrest : c₀.rest = ch :: r) (hch : isBreak ch = false) :
    K.SamePlace (c₀.advance 1) (c.advance 1) :=
  h.advance (hrest ▸ .cons hch (.refl r)) (by simp [hrest])

theorem withFresh (fresh : Bool) :
    K.SamePlace { c₀ with fresh } { c with fresh } :=
  { h with fresh := rfl }

theorem unfresh : K.SamePlace c₀.unfresh c.unfresh := h.withFresh false

theorem spaces {p : Char → Bool} (hp : ∀ ch, p ch = true → isBreak ch = false)
    (hhyphen : c₀.rest = [] → p '-' = false) : K.SamePlace (c₀.spaces p) (c.spaces p) := by
  have hfeed : p '\n' = false :=
    Bool.eq_false_iff.mpr fun hfeed ↦ absurd (hp _ hfeed) (by decide)
  have htake : c.rest.takeWhile p = c₀.rest.takeWhile p := by
    by_cases hnil : c₀.rest = []
    · rw [h.rest_nil hnil, hnil]
      rcases K.final_eq with hf | ⟨r, hf, -⟩ <;> simp [hf, hhyphen hnil]
    · rw [h.rest_eq hnil, takeWhile_append (h.ended hnil) hfeed]
  rw [Cursor.spaces, Cursor.spaces, htake]
  refine h.advance ?_ (List.takeWhile_prefix p).length_le
  rw [drop_takeWhile]
  exact .dropWhile hp

theorem cons (hrest : c₀.rest = ch :: r) : c.rest = ch :: (r ++ K.tail) := by
  rw [h.rest_eq (by simp [hrest]), hrest, List.cons_append]

theorem head?_eq_some_iff (hch : ch ≠ '-') :
    c.rest.head? = some ch ↔ c₀.rest.head? = some ch := by
  by_cases hnil : c₀.rest = []
  · rw [h.rest_nil hnil, hnil]
    rcases K.final_eq with hf | ⟨r, hf, -⟩ <;> simp [hf, hch.symm]
  · rw [h.rest_eq hnil, head?_append (h.ended hnil)]

theorem dropComment : K.SamePlace c₀.dropComment c.dropComment := by
  by_cases hhead : c₀.rest.head? = some '#'
  · obtain ⟨r, hr⟩ := List.head?_eq_some_iff.mp hhead
    rw [Cursor.dropComment_of_cons hr, Cursor.dropComment_of_cons (h.cons hr)]
    exact h.spaces (by simp) fun hnil ↦ by simp [hnil] at hr
  · rw [Cursor.dropComment_of_ne hhead,
      Cursor.dropComment_of_ne fun he ↦ hhead ((h.head?_eq_some_iff (by decide)).mp he)]
    exact h

/-- Behind a break, the text may be at its end and the blank line come next. -/
theorem newline (hbreak : startsBreak c₀.rest = true) :
    K.SamePlace c₀.newline c.newline ∨ K.Brink c₀.newline c.newline := by
  have hnil : c₀.rest ≠ [] := by
    intro hnil
    simp [hnil, startsBreak] at hbreak
  have hended := h.ended hnil
  have hlength := breakLength_append hended hnil
  have hle := breakLength_le hnil
  have hdrop : c.newline.rest = c₀.newline.rest ++ K.tail := by
    rw [c.newline_rest, h.rest_eq hnil, hlength, List.drop_append_of_le_length hle]
    rfl
  have hpassed : K.passed c₀.rest = 0 := if_neg hnil
  have hline : c.newline.line = c₀.newline.line + K.line := by
    rw [c.newline_line, c₀.newline_line, h.line, hpassed]
    omega
  have hindex : c.newline.index = c₀.newline.index + K.index := by
    rw [c.newline_index, c₀.newline_index, h.index, hpassed, h.rest_eq hnil, hlength]
    omega
  have hlines : c₀.newline.line + breaks c₀.newline.rest = K.lines := by
    rw [← h.lines, breaks_drop hbreak, c₀.newline_line, c₀.newline_rest]
    omega
  have hlast : c₀.newline.index + c₀.newline.rest.length = K.length := by
    rw [← h.length, c₀.newline_index, c₀.newline_rest, List.length_drop]
    omega
  by_cases hbrink : c₀.newline.rest = [] ∧ K.blanks = ['\n']
  · obtain ⟨hrest, hblanks⟩ := hbrink
    refine .inr ⟨hrest, ?_, hblanks, hline, hindex, rfl, rfl, h.fresh, ?_, ?_⟩
    · rw [hdrop, hrest, tail, hblanks]
      rfl
    · exact (hrest ▸ hlines : c₀.newline.line + breaks [] = K.lines)
    · exact (hrest ▸ hlast : c₀.newline.index + ([] : List Char).length = K.length)
  · have hextend : K.extend c₀.newline.rest = c₀.newline.rest ++ K.tail ∧
        K.passed c₀.newline.rest = 0 := by
      by_cases hrest : c₀.newline.rest = []
      · have hblanks := K.blanks_eq.resolve_right fun hb ↦ hbrink ⟨hrest, hb⟩
        rw [hrest]
        simp [extend, passed, tail, hblanks]
      · exact ⟨if_neg hrest, if_neg hrest⟩
    refine .inl ⟨(List.drop_suffix _ _).trans h.suffix, hdrop.trans hextend.1.symm, ?_, ?_, rfl,
      h.fresh, hlines, hlast, fun _ ↦ .inl rfl⟩
    · rw [hline, hextend.2, Nat.add_zero]
    · rw [hindex, hextend.2, Nat.add_zero]

end SamePlace

theorem Brink.newline (h : K.Brink c₀ c) : K.SamePlace c₀ c.newline := by
  have hlength : breakLength c.rest = 1 := by rw [h.rest]; rfl
  have hpassed : K.passed c₀.rest = 1 := by rw [passed, if_pos h.rest₀, h.blanks]; rfl
  refine ⟨h.rest₀ ▸ List.nil_suffix, ?_, ?_, ?_, h.col₀.symm, h.fresh, ?_, ?_, fun _ ↦ .inl h.col₀⟩
  · rw [c.newline_rest, hlength, h.rest, extend, if_pos h.rest₀]
    rfl
  · rw [c.newline_line, h.line, hpassed]
  · rw [c.newline_index, hlength, h.index, hpassed]
  · rw [h.rest₀]
    exact h.lines
  · rw [h.rest₀]
    exact h.length

theorem final_hyphen (K : Sequel) : K.final = [] ∨ ∃ r, K.final = '-' :: r :=
  K.final_eq.imp_right fun ⟨_, hr, _⟩ ↦ ⟨_, hr⟩

theorem SamePlace.lead (h : K.SamePlace c₀ c) (inFlow : Bool) :
    K.SamePlace (c₀.lead inFlow) (c.lead inFlow) := by
  unfold Cursor.lead
  rw [h.fresh]
  refine (h.spaces (fun ch hch ↦ ?_) fun _ ↦ by simp).dropComment
  simp only [Bool.or_eq_true, Bool.and_eq_true, beq_iff_eq] at hch
  rcases hch with rfl | ⟨-, rfl⟩ <;> decide

theorem Brink.withFresh (h : K.Brink c₀ c) (fresh : Bool) :
    K.Brink { c₀ with fresh } { c with fresh } :=
  { h with fresh := rfl }

/-- The blank line is skipped where breaks are. -/
theorem Brink.skip_go (h : K.Brink c₀ c) {inFlow : Bool} (hfresh : (c.fresh || !inFlow) = c.fresh)
    {fuel fuel' : Nat} (hfuel : c.rest.length ≤ fuel') :
    K.SamePlace (Cursor.skip.go inFlow fuel c₀) (Cursor.skip.go inFlow fuel' c) := by
  rw [Cursor.skip_go_of_hyphen (.inl h.rest₀)]
  obtain ⟨k, rfl⟩ : ∃ k, fuel' = k + 1 :=
    ⟨fuel' - 1, by rw [h.rest, List.length_cons] at hfuel; omega⟩
  have hfinal : c.newline.rest = K.final := h.newline.rest_nil h.rest₀
  rw [Cursor.skip_go_of_feed h.rest, hfresh,
    Cursor.skip_go_of_hyphen (by rw [hfinal]; exact K.final_hyphen)]
  exact h.newline

theorem SamePlace.skip_go (h : K.SamePlace c₀ c) {inFlow : Bool} {fuel fuel' : Nat}
    (hfuel : c₀.rest.length ≤ fuel) (hfuel' : c.rest.length ≤ fuel') :
    K.SamePlace (Cursor.skip.go inFlow fuel c₀) (Cursor.skip.go inFlow fuel' c) := by
  have hend {c₀ c : Cursor} (h : K.SamePlace c₀ c) (hnil : c₀.rest = []) (fuel fuel' : Nat) :
      K.SamePlace (Cursor.skip.go inFlow fuel c₀) (Cursor.skip.go inFlow fuel' c) := by
    rw [Cursor.skip_go_of_hyphen (.inl hnil),
      Cursor.skip_go_of_hyphen (by rw [h.rest_nil hnil]; exact K.final_hyphen)]
    exact h
  induction fuel generalizing fuel' c₀ c with
  | zero => exact hend h (List.length_eq_zero_iff.mp (Nat.le_zero.mp hfuel)) _ _
  | succ fuel ih =>
    by_cases hnil : c₀.rest = []
    · exact hend h hnil _ _
    · have hlength := h.length_le
      have hpos := List.length_pos_iff.mpr hnil
      obtain ⟨k, rfl⟩ : ∃ k, fuel' = k + 1 := ⟨fuel' - 1, by omega⟩
      have hlead := h.lead inFlow
      rw [Cursor.skip_go_succ, Cursor.skip_go_succ, hlead.startsBreak_eq, hlead.fresh]
      split
      · rename_i hbreak
        have hle₀ := (c₀.lead_suffix inFlow).length_le
        have hle := (c.lead_suffix inFlow).length_le
        have hlt₀ := Cursor.newline_length hbreak
        have hlt := Cursor.newline_length (hlead.startsBreak_eq.trans hbreak)
        rcases hlead.newline hbreak with hsame | hbrink
        · exact ih (hsame.withFresh _) (by dsimp only; omega) (by dsimp only; omega)
        · exact (hbrink.withFresh _).skip_go (by simp) (by dsimp only; omega)
      · exact hlead

/-- Skipping ends at the same place. -/
theorem SamePlace.skip (h : K.SamePlace c₀ c) (inFlow : Bool) :
    K.SamePlace (c₀.skip inFlow) (c.skip inFlow) :=
  h.skip_go (Nat.le_refl _) (Nat.le_refl _)

namespace SamePlace

variable (h : K.SamePlace c₀ c)
include h

theorem append_of_ended (hended : Ended c₀.rest K.tail) : c.rest = c₀.rest ++ K.tail :=
  h.rest.trans (K.extend_of_ended hended).1

theorem isEmpty_eq (hended : Ended c₀.rest K.tail) : c.rest.isEmpty = c₀.rest.isEmpty := by
  rw [h.append_of_ended hended]
  cases hrest : c₀.rest with
  | nil =>
    rw [hrest] at hended
    rw [hended.resolve_right List.not_mem_nil, List.append_nil]
  | cons ch r => rfl

theorem atMarker_eq (hne : c₀.rest ≠ []) : c.atMarker = c₀.atMarker := by
  rw [Cursor.atMarker, Cursor.atMarker, h.col, h.rest_eq hne, isMarker_append (h.ended hne)]

/-- At the end of the text the document ends in any case. -/
theorem atEnd_of_nil (hnil : c₀.rest = []) : c.atEnd = true := by
  rw [Cursor.atEnd, h.rest_nil hnil]
  rcases K.final_eq with hf | ⟨r, hf, hr⟩
  · rw [hf]
    rfl
  · have hcol : c.col = 0 := h.col.trans ((h.edge hnil).resolve_right fun hend ↦ by
      simpa [hf] using hend.2)
    rw [Cursor.atMarker, h.rest_nil hnil, hf, isMarker_cons, hr, hcol]
    rfl

theorem atEnd_eq : c.atEnd = c₀.atEnd := by
  by_cases hnil : c₀.rest = []
  · rw [h.atEnd_of_nil hnil, Cursor.atEnd, hnil]
    rfl
  · rw [Cursor.atEnd, Cursor.atEnd, h.atMarker_eq hnil, h.isEmpty_eq (h.ended hnil)]

theorem atDirective_eq : c.atDirective = c₀.atDirective := by
  have hhead : c.rest.head? = some '%' ↔ c₀.rest.head? = some '%' :=
    h.head?_eq_some_iff (by decide)
  rw [Cursor.atDirective, Cursor.atDirective, h.col, Bool.eq_iff_iff]
  simp [hhead]

theorem atClose_eq : c.atClose = c₀.atClose := by
  rw [Cursor.atClose, Cursor.atClose, h.atEnd_eq, h.atDirective_eq]

end SamePlace

end Sequel

end DeliveryCharts.Yaml
