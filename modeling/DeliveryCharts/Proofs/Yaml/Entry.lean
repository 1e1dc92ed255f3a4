import DeliveryCharts.Proofs.Text.Numeral
import DeliveryCharts.Proofs.Yaml.Documents

/-!
A text that is one entry: a key, and behind its colon a plain scalar on the same line. Such a scalar
consists of words with blanks between them.
-/

namespace DeliveryCharts.Yaml

variable {w bs cs r : List Char} {c : Cursor}

/-- Colons and number signs stand inside words, a number sign at the end of one as well. -/
structure IsWord (w : List Char) : Prop where
  ne_nil : w ≠ []
  gapless : ∀ ch ∈ w, isGap ch = false
  last : w.getLast? ≠ some ':'

inductive Words : List Char → Prop
  | word {w : List Char} (h : IsWord w) : Words w
  | more {w bs cs : List Char} (h : IsWord w) (hne : bs ≠ [])
      (hbs : ∀ ch ∈ bs, isSpaceOrTab ch = true) (hcs : Words cs) (hsign : cs.head? ≠ some '#') :
      Words (w ++ bs ++ cs)

/-- No plain scalar starts with these, but with one of the first three in a word of more. -/
def indicators : List Char :=
  ['-', '?', ':', ',', '[', ']', '\x7b', '\x7d', '#', '&', '*', '!', '|', '>', '\'', '"', '%', '@',
    '`']

/-- A plain scalar on one line. -/
structure PlainLine (cs : List Char) : Prop where
  allowed : ∀ ch ∈ cs, isAllowed ch = true
  words : Words cs
  first : ∀ ch r, cs = ch :: r → ch ∈ indicators → ch ∈ ['-', '?', ':'] ∧ endsWord r = false

/-! Words and what is between them. -/

/-- No word of a plain scalar goes on here. -/
def Stops (r : List Char) : Prop := endsWord r = true ∨ ∃ t, r = ':' :: t ∧ endsWord t = true

theorem Stops.plainWord_eq (h : Stops r) : plainWord false r = .ok [] := by
  rcases h with hr | ⟨t, rfl, ht⟩
  · cases r with
    | nil => rfl
    | cons ch r => rw [plainWord, show isGap ch = true from hr, if_pos rfl]
  · simp [plainWord, ht, isGap, isSpaceOrTab, isBreak]

theorem plainWord_append_of_isWord (h : ∀ ch ∈ w, isGap ch = false) (hlast : w.getLast? ≠ some ':')
    (hr : Stops r) : plainWord false (w ++ r) = .ok w := by
  induction w with
  | nil => exact hr.plainWord_eq
  | cons ch w ih =>
    obtain ⟨hch, hw⟩ := List.forall_mem_cons.mp h
    have hcolon : (ch == ':' && endsWord (w ++ r)) = false := by
      cases w with
      | nil =>
        have hne : ch ≠ ':' := fun he ↦ hlast (by rw [he]; rfl)
        simp [hne]
      | cons d w =>
        have hd : isGap d = false := hw d List.mem_cons_self
        simp [endsWord, hd]
    have hrest := ih hw fun hw' ↦ hlast (by
      cases w with
      | nil => cases hw'
      | cons d w => rwa [List.getLast?_cons_cons])
    simp only [List.cons_append, plainWord, hch, hcolon, hrest, Bool.and_false, Bool.false_and,
      Bool.false_eq_true, if_false]
    rfl

theorem gap_go_blanks {indent fuel : Nat} {blanks : List Char}
    (hbs : ∀ ch ∈ bs, isSpaceOrTab ch = true) (hr : ∀ ch ∈ r.head?, isGap ch = false)
    (hrest : c.rest = bs ++ r) (hfuel : bs.length ≤ fuel) :
    gap.go indent fuel ⟨blanks, none, [], c⟩ =
      .ok ⟨blanks ++ bs, none, [], c.advance bs.length⟩ := by
  induction bs generalizing c fuel blanks with
  | nil =>
    rw [List.append_nil]
    cases fuel with
    | zero => rfl
    | succ fuel =>
      cases r with
      | nil => rw [gap.go, hrest]; rfl
      | cons ch r =>
        have hch : isGap ch = false := hr ch rfl
        obtain ⟨hspace, hbreak⟩ := Bool.or_eq_false_iff.mp hch
        rw [gap.go, hrest]
        simp only [List.nil_append, hspace, hbreak, Bool.false_eq_true, if_false]
        rfl
  | cons ch bs ih =>
    obtain ⟨hch, hbs⟩ := List.forall_mem_cons.mp hbs
    obtain ⟨k, rfl⟩ : ∃ k, fuel = k + 1 := ⟨fuel - 1, by rw [List.length_cons] at hfuel; omega⟩
    rw [List.cons_append] at hrest
    have hnext : gap.go indent k ⟨blanks ++ [ch], none, [], c.advance 1⟩ =
        .ok ⟨blanks ++ [ch] ++ bs, none, [], (c.advance 1).advance bs.length⟩ :=
      ih hbs (Cursor.advance_one_rest hrest) (Nat.le_of_succ_le_succ hfuel)
    rw [gap.go, hrest]
    simp only [hch, if_true]
    rw [hnext, List.append_assoc, List.length_cons]
    simp [Cursor.advance, Nat.add_comm, Nat.add_left_comm]

theorem Words.ne_nil (h : Words cs) : cs ≠ [] := by
  cases h with
  | word h => exact h.ne_nil
  | more h => simp [h.ne_nil]

theorem Words.head_gapless (h : Words cs) : ∀ ch ∈ cs.head?, isGap ch = false := by
  have hword {w : List Char} (h : IsWord w) (r : List Char) :
      ∀ ch ∈ (w ++ r).head?, isGap ch = false := by
    cases w with
    | nil => exact absurd rfl h.ne_nil
    | cons d w =>
      rintro ch ⟨⟩
      exact h.gapless d List.mem_cons_self
  cases h with
  | word h => simpa using hword h []
  | more h =>
    rw [List.append_assoc]
    exact hword h _

/-- A word behind what has been read, up to a blank, a colon or the end. -/
theorem plain_go_word (h : IsWord w) {indent fuel : Nat} {text between : List Char}
    (hrest : c.rest = w ++ r) (hr : Stops r) (hsign : w.head? ≠ some '#') (hcol : 0 < c.col) :
    plain.go false indent (fuel + 1) text between c =
      if !endsWord r || r.isEmpty then .ok (text ++ between ++ w, (c.advance w.length).unfresh)
      else
        gap indent none (c.advance w.length).unfresh >>= fun g ↦
          if g.cursor.col < indent then
            .ok (text ++ between ++ w, { g.cursor with fresh := g.leading.isSome })
          else
            plain.go false indent fuel (text ++ between ++ w) g.text
              { g.cursor with fresh := g.leading.isSome } := by
  have hmarker : c.atMarker = false := by simp [Cursor.atMarker, Nat.ne_of_gt hcol]
  have hhead : (c.rest.head? == some '#') = false := by
    obtain ⟨ch, w, rfl⟩ := List.exists_cons_of_ne_nil h.ne_nil
    rw [hrest]
    simpa using hsign
  have hword : plainWord false c.rest = .ok w := by
    rw [hrest]
    exact plainWord_append_of_isWord h.gapless h.last hr
  have hempty : w.isEmpty = false := List.isEmpty_eq_false_iff.mpr h.ne_nil
  have hbehind : (c.advance w.length).rest = r := by
    rw [Cursor.advance_rest, hrest, List.drop_left]
  have hends : endsWord (c.advance w.length).rest = endsWord r := by rw [hbehind]
  have hnil : (c.advance w.length).rest.isEmpty = r.isEmpty := by rw [hbehind]
  rw [plain.go, hmarker, hhead, hword]
  simp only [Bool.or_self, Bool.false_eq_true, if_false, bind, Except.bind, hempty, hends, hnil,
    Bool.not_false, Bool.true_and, decide_eq_true_eq]
  rfl

/-- All words but the last one are read. -/
theorem Words.plain_go_last (h : Words cs) {indent fuel : Nat} (text between : List Char)
    (hrest : c.rest = cs ++ r) (hfuel : cs.length < fuel) (hsign : cs.head? ≠ some '#')
    (hcol : 0 < c.col) (hindent : indent ≤ c.col + 1) :
    ∃ w fuel' text' between' d, IsWord w ∧ w.head? ≠ some '#' ∧ d.rest = w ++ r ∧ 0 < d.col ∧
      text' ++ between' ++ w = text ++ between ++ cs ∧
      (d.advance w.length).unfresh = (c.advance cs.length).unfresh ∧
      plain.go false indent fuel text between c =
        plain.go false indent (fuel' + 1) text' between' d := by
  induction h generalizing c fuel text between with
  | @word w h =>
    obtain ⟨k, rfl⟩ : ∃ k, fuel = k + 1 := ⟨fuel - 1, by omega⟩
    exact ⟨w, k, text, between, c, h, hsign, hrest, hcol, rfl, rfl, rfl⟩
  | @more w bs cs h hne hbs hcs hsign' ih =>
    obtain ⟨k, rfl⟩ : ∃ k, fuel = k + 1 := ⟨fuel - 1, by omega⟩
    have hends : endsWord (bs ++ (cs ++ r)) = true := by
      obtain ⟨ch, bs, rfl⟩ := List.exists_cons_of_ne_nil hne
      have hch := hbs ch List.mem_cons_self
      simp [endsWord, isGap, hch]
    have hhead : w.head? ≠ some '#' := by
      obtain ⟨ch, w, rfl⟩ := List.exists_cons_of_ne_nil h.ne_nil
      simpa using hsign
    have hpos : 0 < w.length := List.length_pos_iff.mpr h.ne_nil
    have hlength : w.length + (bs.length + cs.length) < k + 1 := by simpa using hfuel
    rw [List.append_assoc, List.append_assoc] at hrest
    have hbehind : (c.advance w.length).rest = bs ++ (cs ++ r) := by
      rw [Cursor.advance_rest, hrest, List.drop_left]
    have hgapless : ∀ ch ∈ (cs ++ r).head?, isGap ch = false := by
      obtain ⟨ch, cs, rfl⟩ := List.exists_cons_of_ne_nil hcs.ne_nil
      exact hcs.head_gapless
    have hgap : gap indent none (c.advance w.length).unfresh =
        .ok ⟨bs, none, [], (c.advance w.length).unfresh.advance bs.length⟩ :=
      gap_go_blanks hbs hgapless hbehind (by
        show bs.length ≤ (c.advance w.length).rest.length
        rw [hbehind, List.length_append]
        omega)
    have hleft : ¬ c.col + w.length + bs.length < indent := by omega
    have hmore : (!endsWord (bs ++ (cs ++ r)) || (bs ++ (cs ++ r)).isEmpty) = false := by
      rw [hends]
      simp [hne]
    let next := (c.advance (w.length + bs.length)).unfresh
    have hnextRest : next.rest = cs ++ r := by
      show c.rest.drop (w.length + bs.length) = cs ++ r
      rw [← List.drop_drop, hrest, List.drop_left, List.drop_left]
    obtain ⟨w', fuel', text', between', d, hw', hsign'', hd, hdcol, htext, hend, hgo⟩ :=
      @ih next k (text ++ between ++ w) bs hnextRest (by omega) hsign'
        (by show 0 < c.col + _; omega) (by show indent ≤ c.col + _ + 1; omega)
    refine ⟨w', fuel', text', between', d, hw', hsign'', hd, hdcol, ?_, ?_, ?_⟩
    · rw [htext]
      simp
    · rw [hend]
      simp [next, Cursor.advance, Cursor.unfresh, Nat.add_assoc]
    · rw [plain_go_word h hrest (.inl hends) hhead hcol, hgap, hmore, ← hgo]
      refine (if_neg hleft).trans ?_
      simp [next, Cursor.advance, Cursor.unfresh, Gap.text, Nat.add_assoc]

/-- A plain scalar is read to the end of its line, or up to a colon. -/
theorem Words.plain_go (h : Words cs) {indent fuel : Nat} {text between : List Char}
    (hrest : c.rest = cs ++ r) (hr : r = [] ∨ ∃ t, r = ':' :: t ∧ endsWord t = true)
    (hfuel : cs.length < fuel) (hsign : cs.head? ≠ some '#') (hcol : 0 < c.col)
    (hindent : indent ≤ c.col + 1) :
    plain.go false indent fuel text between c =
      .ok (text ++ between ++ cs, (c.advance cs.length).unfresh) := by
  obtain ⟨w, fuel', text', between', d, hw, hsign', hd, hdcol, htext, hend, hgo⟩ :=
    h.plain_go_last text between hrest hfuel hsign hcol hindent
  have hstops : Stops r := hr.imp (fun hnil ↦ by rw [hnil]; rfl) id
  have hlast : (!endsWord r || r.isEmpty) = true := by
    rcases hr with rfl | ⟨t, rfl, -⟩ <;> rfl
  rw [hgo, plain_go_word hw hd hstops hsign' hdcol, if_pos hlast, htext, hend]

/-! A node that is neither a block nor has properties. -/

/-- A token with which `flowContent` starts, inside a collection at `margin`. -/
structure AtContent (margin : Nat) (c : Cursor) : Prop where
  margin : margin ≤ c.col
  close : c.atClose = false
  head : ∀ d ∈ ['&', '!', '|', '>'], c.rest.head? ≠ some d
  hyphen : atIndicator '-' c = false
  question : atIndicator '?' c = false

namespace AtContent

variable {margin n : Nat} {handles : Handles} {content : Node} {next : Cursor}
variable (h : AtContent margin c)
  (hcontent : flowContent handles n margin false c = .ok (content, next))
  (hattach : orFault (content.attach? {}) = .ok content) (unindented : Bool)
include h

theorem isOutside_eq : isOutside margin unindented c = false := by
  simp [isOutside, Nat.not_lt.mpr h.margin]

theorem readFront_eq (handles : Handles) :
    readFront handles false (isOutside margin unindented) c = .ok { start := c, cursor := c } := by
  cases hrest : c.rest with
  | nil =>
    have hclose := h.close
    simp [Cursor.atClose, Cursor.atEnd, hrest] at hclose
  | cons ch r =>
    have hne {d : Char} (hd : d ∈ ['&', '!', '|', '>']) : ch ≠ d := fun he ↦
      h.head d hd (by rw [hrest, he]; rfl)
    rw [readFront, Sequel.readFront_go_of_cons hrest,
      if_neg (by simp [h.close, h.isOutside_eq unindented]), if_neg (hne (by decide)),
      if_neg (hne (by decide))]

include hcontent hattach

theorem blockNode_eq (hcolon : atColon false (next.skip false) = false) :
    blockNode handles (n + 1) margin unindented c = .ok (content, next) := by
  have hand : orFault (Properties.and? {} {}) = .ok {} := rfl
  rw [blockNode.eq_2, h.readFront_eq]
  simp only [bind, Except.bind, h.close, h.isOutside_eq unindented, h.hyphen, h.question,
    h.head '|' (by decide), h.head '>' (by decide), hcontent, hcolon, hand, hattach]
  rfl

theorem blockNode_of_colon (hcolon : atColon false (next.skip false) = true)
    (hfresh : c.fresh = true) (hkey : isKeyFrom c (next.skip false) = true) :
    blockNode handles (n + 1) margin unindented c =
      blockValue handles n (c.col + 1) ((next.skip false).advance 1).unfresh >>= fun v ↦
        blockEntries handles n c.col v.2 >>= fun es ↦
          .ok (.map {} ((content, v.1) :: es.1), es.2) := by
  rw [blockNode.eq_2, h.readFront_eq]
  simp only [bind, Except.bind, h.close, h.isOutside_eq unindented, h.hyphen, h.question,
    h.head '|' (by decide), h.head '>' (by decide), hcontent, hcolon, hfresh, hkey, hattach]
  rfl

omit hcontent hattach in
theorem blockNode_of_error {e : Fault}
    (hcontent : flowContent handles n margin false c = .error e) :
    blockNode handles (n + 1) margin unindented c = .error e := by
  rw [blockNode.eq_2, h.readFront_eq]
  simp only [bind, Except.bind, h.close, h.isOutside_eq unindented, h.hyphen, h.question,
    h.head '|' (by decide), h.head '>' (by decide), hcontent]
  rfl

end AtContent

/-! The scalar as a node. -/

namespace PlainLine

variable (h : PlainLine cs)
include h

theorem exists_cons : ∃ ch r, cs = ch :: r ∧ isGap ch = false ∧
    (ch ∈ indicators → ch ∈ ['-', '?', ':'] ∧ endsWord r = false) := by
  obtain ⟨ch, r, rfl⟩ := List.exists_cons_of_ne_nil h.words.ne_nil
  exact ⟨ch, r, rfl, h.words.head_gapless ch rfl, h.first ch r rfl⟩

/-- The first character is none that only other nodes start with. -/
theorem head_ne {d : Char} (hd : d ∈ indicators) (hd' : d ∉ ['-', '?', ':']) :
    cs.head? ≠ some d := by
  intro hhead
  obtain ⟨r, rfl⟩ := List.head?_eq_some_iff.mp hhead
  exact hd' (h.first d r rfl hd).1

theorem startsPlain_eq : startsPlain false cs = true := by
  obtain ⟨ch, r, rfl, hgap, hfirst⟩ := h.exists_cons
  rw [startsPlain, if_neg (by simp [hgap])]
  split
  · rename_i hch
    obtain rfl := beq_iff_eq.mp hch
    simp [(hfirst (by decide)).2]
  · split
    · rename_i hch
      have hmem : ch ∈ indicators := by
        rcases Bool.or_eq_true_iff.mp hch with hch | hch <;> obtain rfl := beq_iff_eq.mp hch <;>
          decide
      simp [(hfirst hmem).2]
    · rename_i hhyphen hch
      simp only [decide_eq_true_eq]
      intro hmem
      have hind : ch ∈ indicators := by
        simp only [indicators, List.mem_cons] at hmem ⊢
        simp only [hmem, or_true]
      have hthree := (hfirst hind).1
      simp_all

theorem plain_eq (hrest : c.rest = cs) (hcol : 0 < c.col) {indent : Nat}
    (hindent : indent ≤ c.col) : plain false indent c = .ok (cs, (c.advance cs.length).unfresh) :=
  h.words.plain_go (c := c.unfresh) (r := []) (by rw [List.append_nil]; exact hrest) (.inl rfl)
    (by rw [hrest]; exact Nat.lt_succ_self _) (h.head_ne (by decide) (by decide)) hcol
    (Nat.le_succ_of_le hindent)

theorem flowContent_eq (hrest : c.rest = cs) (hcol : 0 < c.col) (handles : Handles) (n : Nat)
    {margin : Nat} (hmargin : margin ≤ c.col) :
    flowContent handles (n + 1) margin false c =
      .ok (.scalar {} true (.ofList cs), (c.advance cs.length).unfresh) := by
  have hmarker : c.atMarker = false := by simp [Cursor.atMarker, Nat.ne_of_gt hcol]
  obtain ⟨ch, r, hcons, -⟩ := h.exists_cons
  have hne {d : Char} (hd : d ∈ indicators) (hd' : d ∉ ['-', '?', ':']) : ch ≠ d := fun he ↦
    h.head_ne hd hd' (by rw [hcons, he]; rfl)
  rw [Sequel.flowContent_of_cons (hrest.trans hcons), if_neg (hne (by decide) (by decide)),
    if_neg (hne (by decide) (by decide)), if_neg (hne (by decide) (by decide)),
    if_neg (hne (by decide) (by decide)), if_neg (hne (by decide) (by decide)), hmarker, hrest,
    h.startsPlain_eq, h.plain_eq hrest hcol hmargin]
  rfl

theorem atContent (hrest : c.rest = cs) (hcol : 0 < c.col) {margin : Nat}
    (hmargin : margin ≤ c.col) : AtContent margin c := by
  obtain ⟨ch, r, hcons, -, hfirst⟩ := h.exists_cons
  have hindicator {d : Char} (hd : d ∈ indicators) : atIndicator d c = false := by
    rw [atIndicator, hrest, hcons]
    by_cases hch : ch = d
    · subst hch
      simp [(hfirst hd).2]
    · simp [hch]
  refine ⟨hmargin, ?_, fun d hd ↦ ?_, hindicator (by decide), hindicator (by decide)⟩
  · simp [Cursor.atClose, Cursor.atEnd, Cursor.atMarker, Cursor.atDirective, Nat.ne_of_gt hcol,
      hrest, hcons]
  · rw [hrest]
    simp only [List.mem_cons, List.not_mem_nil, or_false] at hd
    rcases hd with rfl | rfl | rfl | rfl <;> exact h.head_ne (by decide) (by decide)

theorem blockNode_eq (hrest : c.rest = cs) (hcol : 0 < c.col) (handles : Handles) (n : Nat)
    {margin : Nat} (hmargin : margin ≤ c.col) (unindented : Bool) :
    blockNode handles (n + 2) margin unindented c =
      .ok (.scalar {} true (.ofList cs), (c.advance cs.length).unfresh) := by
  have hend : (c.advance cs.length).unfresh.rest = [] := by
    show c.rest.drop cs.length = []
    rw [hrest, List.drop_length]
  have hskip : (c.advance cs.length).unfresh.skip false = (c.advance cs.length).unfresh :=
    Cursor.skip_go_of_hyphen (.inl hend) false _
  refine (h.atContent hrest hcol hmargin).blockNode_eq
    (h.flowContent_eq hrest hcol handles n hmargin) rfl unindented ?_
  rw [hskip, atColon, hend]

end PlainLine

/-! The entry. -/

/-- Spaces in front of a token are skipped. -/
theorem skip_of_token (bs : List Char) {ch : Char} (hbs : ∀ d ∈ bs, d = ' ')
    (hrest : c.rest = bs ++ ch :: r) (hgap : isGap ch = false) (hsign : ch ≠ '#') (inFlow : Bool) :
    c.skip inFlow = c.advance bs.length := by
  obtain ⟨hblank, hbreak⟩ := Bool.or_eq_false_iff.mp hgap
  obtain ⟨hspace, htab⟩ := Bool.or_eq_false_iff.mp hblank
  have hnext : (c.advance bs.length).rest = ch :: r := by
    rw [Cursor.advance_rest, hrest, List.drop_left]
  have hlead : c.lead inFlow = c.advance bs.length := by
    have hspaces : c.spaces (fun d ↦ d == ' ' || ((inFlow || !c.fresh) && d == '\t')) =
        c.advance bs.length := by
      rw [Cursor.spaces, hrest, List.takeWhile_append_of_pos (fun d hd ↦ by simp [hbs d hd]),
        List.takeWhile_cons_of_neg (by simp [hspace, htab]), List.append_nil]
    rw [Cursor.lead, hspaces, Cursor.dropComment_of_ne (by rw [hnext]; simpa using hsign)]
  obtain ⟨n, hn⟩ : ∃ n, c.rest.length = n + 1 := ⟨bs.length + r.length, by simp [hrest]; omega⟩
  rw [Cursor.skip, hn, Cursor.skip_go_succ, hlead, hnext, if_neg (by simp [startsBreak, hbreak])]

/-- A text with the key `k`. -/
def keyed (cs : List Char) : Cursor := { rest := 'k' :: ':' :: cs }

/-- Behind the key and its colon. -/
def behindKey (cs : List Char) : Cursor := ⟨cs, 0, 2, 2, false⟩

theorem atMarker_keyed (cs : List Char) : (keyed cs).atMarker = false := by
  rw [Cursor.atMarker, keyed, isMarker]
  all_goals simp

theorem skip_keyed (cs : List Char) : (keyed cs).skip false = keyed cs :=
  skip_of_token [] (by simp) rfl (by decide) (by decide) false

theorem flowContent_keyed (h : endsWord cs = true) (handles : Handles) (n : Nat) :
    flowContent handles (n + 1) 0 false (keyed cs) =
      .ok (.scalar {} true "k", ⟨':' :: cs, 0, 1, 1, false⟩) := by
  have hword : plainWord false (keyed cs).rest = .ok ['k'] := by
    simp [keyed, plainWord, isGap, isSpaceOrTab, isBreak, isFlowIndicator, h, Except.map]
  have hmarker := atMarker_keyed cs
  have hplain : plain false 0 (keyed cs) = .ok (['k'], ⟨':' :: cs, 0, 1, 1, false⟩) := by
    have hmarker' : (keyed cs).unfresh.atMarker = false := hmarker
    have hword' : plainWord false (keyed cs).unfresh.rest = .ok ['k'] := hword
    rw [plain, plain.go, hmarker', hword']
    rfl
  rw [Sequel.flowContent_of_cons (c := keyed cs) rfl, hplain, hmarker]
  rfl

theorem atContent_keyed (cs : List Char) : AtContent 0 (keyed cs) where
  margin := Nat.zero_le _
  close := by
    rw [Cursor.atClose, Cursor.atEnd, atMarker_keyed]
    rfl
  head d hd he := by
    obtain rfl : 'k' = d := Option.some.inj he
    exact absurd hd (by decide)
  hyphen := rfl
  question := rfl

theorem blockNode_keyed (h : endsWord cs = true) (handles : Handles) (n : Nat) :
    blockNode handles (n + 2) 0 false (keyed cs) =
      blockValue handles (n + 1) 1 (behindKey cs) >>= fun v ↦
        blockEntries handles (n + 1) 0 v.2 >>= fun es ↦
          .ok (.map {} ((.scalar {} true "k", v.1) :: es.1), es.2) := by
  have hskip : Cursor.skip false ⟨':' :: cs, 0, 1, 1, false⟩ = ⟨':' :: cs, 0, 1, 1, false⟩ :=
    skip_of_token [] (by simp) rfl (by decide) (by decide) false
  rw [(atContent_keyed cs).blockNode_of_colon (flowContent_keyed h handles n) rfl false
    (by rw [hskip]; exact h) rfl (by rw [hskip]; rfl), hskip]
  rfl

theorem atEnd_of_nil (h : c.rest = []) : c.atEnd = true := by rw [Cursor.atEnd, h]; rfl

theorem skip_of_nil (h : c.rest = []) : c.skip false = c :=
  Cursor.skip_go_of_hyphen (.inl h) false _

theorem fuelFor_keyed (cs : List Char) : fuelFor (keyed cs) = 4 * cs.length + 22 + 2 := by
  rw [fuelFor, keyed, List.length_cons, List.length_cons]
  omega

theorem documentsFrom_keyed (n : Nat) (cs : List Char) :
    documentsFrom (n + 1) true (keyed cs) = upon n (document defaultHandles (keyed cs)) := by
  have hplace : Cursor.place true (keyed cs) = keyed cs := skip_keyed cs
  have hopened : opened true {} (keyed cs) = document defaultHandles (keyed cs) := by
    rw [opened, atMarker_keyed]
    rfl
  rw [documentsFrom_succ, hplace, directives_of_not_atDirective (by rfl), ← hopened]
  rfl

theorem documents_keyed (hallowed : ∀ ch ∈ cs, isAllowed ch = true) :
    documents (.ofList ('k' :: ':' :: cs)) =
      upon (cs.length + 2) (document defaultHandles (keyed cs)) := by
  have hall : (String.ofList ('k' :: ':' :: cs)).toList.all isAllowed = true := by
    rw [String.toList_ofList, List.all_cons, List.all_cons, List.all_eq_true.mpr hallowed]
    rfl
  have htext : Cursor.ofText ('k' :: ':' :: cs) = keyed cs := rfl
  rw [documents, hall, String.toList_ofList, htext, documentsFrom_keyed, String.length_ofList]
  cases document defaultHandles (keyed cs) <;> rfl

section Alone

variable {value : Node} {next : Cursor} (h : endsWord cs = true)
include h

section Read

variable (hend : (next.skip false).rest = [])
  (hvalue : blockValue defaultHandles (4 * cs.length + 23) 1 (behindKey cs) = .ok (value, next))
include hend hvalue

theorem document_keyed : document defaultHandles (keyed cs) =
    (Graph.ofNode (.map {} [(.scalar {} true "k", value)])).map (·, next.skip false) := by
  have hentries : blockEntries defaultHandles (4 * cs.length + 23) 0 next =
      .ok ([], next.skip false) := by
    rw [blockEntries.eq_2, Cursor.atClose, atEnd_of_nil hend]
    rfl
  have hnode : blockNode defaultHandles (fuelFor (keyed cs)) 0 false (keyed cs) =
      .ok (.map {} [(.scalar {} true "k", value)], next.skip false) := by
    rw [fuelFor_keyed, blockNode_keyed h, hvalue]
    show (blockEntries defaultHandles (4 * cs.length + 23) 0 next >>= _) = _
    rw [hentries]
    rfl
  rw [document, hnode]
  simp only [bind, Except.bind, skip_of_nil hend, strays, atEnd_of_nil hend]
  cases Graph.ofNode (.map {} [(.scalar {} true "k", value)]) <;> rfl

/-- A text that is one entry. -/
theorem parse_entry (hallowed : ∀ ch ∈ cs, isAllowed ch = true) :
    parse (.ofList ('k' :: ':' :: cs)) =
      Graph.ofNode (.map {} [(.scalar {} true "k", value)]) >>= Graph.toJson := by
  rw [parse, single, documents_keyed hallowed, document_keyed h hend hvalue]
  cases Graph.ofNode (.map {} [(.scalar {} true "k", value)]) with
  | error e => rfl
  | ok g =>
    have hlast (n : Nat) : documentsFrom n false (next.skip false) = [] :=
      documentsFrom_of_nil _ false (place_of_nil hend false)
    simp only [Except.map, upon, hlast]

end Read

/-- A fault in the value is one of the text. -/
theorem parse_of_error {e : Fault}
    (hvalue : blockValue defaultHandles (4 * cs.length + 23) 1 (behindKey cs) = .error e)
    (hallowed : ∀ ch ∈ cs, isAllowed ch = true) : parse (.ofList ('k' :: ':' :: cs)) = .error e := by
  have hnode : blockNode defaultHandles (fuelFor (keyed cs)) 0 false (keyed cs) = .error e := by
    rw [fuelFor_keyed, blockNode_keyed h, hvalue]
    rfl
  have hdocument : document defaultHandles (keyed cs) = .error e := by
    rw [document, hnode]
    rfl
  rw [parse, single, documents_keyed hallowed, hdocument]
  rfl

end Alone

theorem valueOf_scalar (g : Graph) (depth : Nat) (isPlain : Bool) (text : String) :
    g.valueOf depth (.scalar none isPlain text) = liftM (scalarValue none isPlain text) := by
  cases depth <;> rw [Graph.valueOf] <;> rfl

theorem toJson_entry (isPlain : Bool) (text : String) :
    (Graph.ofNode (.map {} [(.scalar {} true "k", .scalar {} isPlain text)]) >>= Graph.toJson) =
      (scalarValue none isPlain text).map fun v ↦ .obj [("k", v)] := by
  have hvalue (g : Graph) :
      g.valueOf maxDepth (.map none [(.scalar none true "k", .scalar none isPlain text)]) =
        (fun v ↦ .obj [("k", v)]) <$>
          (liftM (scalarValue none isPlain text) : Graph.Walk Json) := by
    rw [maxDepth, Graph.valueOf]
    show (do
      let members ← List.mapM (fun e : Tree × Tree ↦ do
        let key ← g.keyText e.1
        return (key, ← g.valueOf 127 e.2)) [(.scalar none true "k", .scalar none isPlain text)]
      return Json.ofMembers members) = _
    simp only [List.mapM_cons, List.mapM_nil, valueOf_scalar]
    cases scalarValue none isPlain text <;> rfl
  show Graph.toJson _ = _
  rw [Graph.toJson, hvalue]
  cases scalarValue none isPlain text <;> rfl

/-- The value of an entry is that of its scalar. -/
theorem PlainLine.parse_eq (h : PlainLine cs) :
    parse (.ofList ('k' :: ':' :: ' ' :: cs)) =
      (plainValue (.ofList cs)).map fun v ↦ .obj [("k", v)] := by
  obtain ⟨ch, r, hcons, hgap, -⟩ := h.exists_cons
  have hsign : ch ≠ '#' := fun he ↦
    h.head_ne (d := '#') (by decide) (by decide) (by rw [hcons, he]; rfl)
  let start : Cursor := ⟨cs, 0, 3, 3, false⟩
  have hskip : (behindKey (' ' :: cs)).skip false = start :=
    skip_of_token [' '] (by simp) (by rw [behindKey, hcons]; rfl) hgap hsign false
  have hvalue : blockValue defaultHandles (4 * (' ' :: cs).length + 23) 1 (behindKey (' ' :: cs)) =
      .ok (.scalar {} true (.ofList cs), (start.advance cs.length).unfresh) := by
    have hfuel : 4 * (' ' :: cs).length + 23 = 4 * cs.length + 24 + 2 + 1 := by
      rw [List.length_cons]
      omega
    rw [hfuel, blockValue.eq_2, hskip]
    exact h.blockNode_eq (c := start) rfl (Nat.zero_lt_succ _) _ _ (Nat.succ_pos _) true
  have hallowed : ∀ ch ∈ ' ' :: cs, isAllowed ch = true :=
    List.forall_mem_cons.mpr ⟨rfl, h.allowed⟩
  have hnext : (start.advance cs.length).unfresh.rest = [] := List.drop_length
  have hend : ((start.advance cs.length).unfresh.skip false).rest = [] := by
    rw [skip_of_nil hnext, hnext]
  rw [parse_entry rfl hend hvalue hallowed, toJson_entry]
  rfl

end DeliveryCharts.Yaml
