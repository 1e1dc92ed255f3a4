import DeliveryCharts.Proofs.Yaml.Inline

/-!
Line feeds in quotes. Those of a gap are folded, and one of them is lost: a text in quotes is read as
itself only where all its line feeds are escaped.
-/

namespace DeliveryCharts.Yaml

variable {double : Bool} {enc : Char → List Char} {ch : Char} {cs bs word text r : List Char}
  {c next : Cursor} {n : Nat}

/-! Gaps with line feeds. -/

/-- Of the gap, `n` line feeds have been passed. -/
def Gap.Fed (g : Gap) : Nat → Prop
  | 0 => g.leading = none ∧ '\n' ∉ g.blanks
  | n + 1 => g.leading = some ['\n'] ∧ g.trailing = List.replicate n '\n'

theorem Gap.Fed.count_text {g : Gap} (h : g.Fed n) : g.text.count '\n' = n - 1 := by
  cases n with
  | zero =>
    obtain ⟨hleading, hblanks⟩ := h
    rw [Gap.text, hleading]
    exact List.count_eq_zero.mpr hblanks
  | succ n =>
    obtain ⟨hleading, htrailing⟩ := h
    rw [Gap.text, hleading, htrailing]
    cases n with
    | zero => rfl
    | succ n =>
      show List.count '\n' (List.replicate (n + 1) '\n') = n + 1
      rw [List.count_replicate_self]

/-- One more character of a gap. -/
theorem Gap.Fed.step {g : Gap} (h : g.Fed n) (hch : isSpaceOrTab ch = true ∨ ch = '\n')
    (hrest : g.cursor.rest = ch :: r) (fuel : Nat) :
    ∃ g' : Gap, gap.go 0 (fuel + 1) g = gap.go 0 fuel g' ∧ g'.cursor.rest = r ∧
      g'.Fed (n + if ch = '\n' then 1 else 0) := by
  rcases hch with hblank | rfl
  · have hne : ch ≠ '\n' := by
      rintro rfl
      cases hblank
    rw [if_neg hne]
    cases n with
    | zero =>
      obtain ⟨hleading, hblanks⟩ := h
      refine ⟨{ g with blanks := g.blanks ++ [ch], cursor := g.cursor.advance 1 }, ?_,
        Cursor.advance_one_rest hrest, hleading, by simp [hblanks, Ne.symm hne]⟩
      rw [gap.go, hrest]
      simp only [hblank, if_true, hleading]
    | succ n =>
      obtain ⟨hleading, htrailing⟩ := h
      refine ⟨{ g with cursor := g.cursor.advance 1 }, ?_, Cursor.advance_one_rest hrest, hleading,
        htrailing⟩
      rw [gap.go, hrest]
      simp [hblank, hleading]
  · have hfeed : IsFeed '\n' := .inl rfl
    have hnext : g.cursor.newline.rest = r := hfeed.newline_rest hrest
    have htext : g.cursor.breakText = ['\n'] := hfeed.breakText hrest
    rw [if_pos rfl]
    cases n with
    | zero =>
      refine ⟨⟨[], some ['\n'], [], g.cursor.newline⟩, ?_, hnext, rfl, rfl⟩
      rw [gap.go, hrest]
      simp only [htext, h.1]
      rfl
    | succ n =>
      obtain ⟨hleading, htrailing⟩ := h
      refine ⟨⟨g.blanks, some ['\n'], g.trailing ++ ['\n'], g.cursor.newline⟩, ?_, hnext, rfl, ?_⟩
      · rw [gap.go, hrest]
        simp only [htext, hleading]
        rfl
      · rw [htrailing, List.replicate_succ']

theorem Gap.Fed.run {g : Gap} (h : g.Fed n) (hbs : ∀ ch ∈ bs, isSpaceOrTab ch = true ∨ ch = '\n')
    (hr : ∀ ch ∈ r.head?, isGap ch = false) (hrest : g.cursor.rest = bs ++ r) {fuel : Nat}
    (hfuel : bs.length ≤ fuel) :
    ∃ g' : Gap, gap.go 0 fuel g = .ok g' ∧ g'.cursor.rest = r ∧ g'.Fed (n + bs.count '\n') := by
  induction bs generalizing g n fuel with
  | nil =>
    refine ⟨g, ?_, hrest, h⟩
    cases fuel with
    | zero => rfl
    | succ fuel =>
      cases r with
      | nil => rw [gap.go, hrest]; rfl
      | cons ch r =>
        obtain ⟨hblank, hbreak⟩ := Bool.or_eq_false_iff.mp (hr ch rfl)
        rw [gap.go, hrest]
        simp [hblank, hbreak]
  | cons ch bs ih =>
    obtain ⟨hch, hbs⟩ := List.forall_mem_cons.mp hbs
    obtain ⟨k, rfl⟩ : ∃ k, fuel = k + 1 := ⟨fuel - 1, by rw [List.length_cons] at hfuel; omega⟩
    obtain ⟨g', hstep, hrest', hfed⟩ := h.step hch hrest k
    obtain ⟨g'', hrun, hrest'', hfed'⟩ := ih hfed hbs hrest' (Nat.le_of_succ_le_succ hfuel)
    refine ⟨g'', hstep.trans hrun, hrest'', ?_⟩
    have hcount : n + (ch :: bs).count '\n' =
        n + (if ch = '\n' then 1 else 0) + bs.count '\n' := by
      rw [List.count_cons]
      simp only [beq_iff_eq]
      omega
    rwa [hcount]

/-! Texts whose gaps are not escaped. -/

/-- Blanks and line feeds stand in the text as they are, everything else has a spelling. -/
def Plainly (double : Bool) (enc : Char → List Char) (ch : Char) : Prop :=
  (isGap ch = false ∧ Spells double (enc ch) ch) ∨
    ((isSpaceOrTab ch = true ∨ ch = '\n') ∧ enc ch = [ch])

theorem Plainly.spells (h : Plainly double enc ch) (hgap : isGap ch = false) :
    Spells double (enc ch) ch := by
  rcases h with ⟨-, hspells⟩ | ⟨hblank | rfl, -⟩
  · exact hspells
  · simp [isGap, hblank] at hgap
  · cases hgap

theorem Plainly.gap (h : Plainly double enc ch) (hgap : isGap ch = true) :
    (isSpaceOrTab ch = true ∨ ch = '\n') ∧ enc ch = [ch] := by
  rcases h with ⟨hfalse, -⟩ | h
  · rw [hgap] at hfalse
    cases hfalse
  · exact h

/-- Without line feeds the text is written as it is read. -/
theorem Plainly.written (h : Plainly double enc ch) (hne : ch ≠ '\n') : Written double enc ch := by
  rcases h with ⟨-, hspells⟩ | ⟨hblank | rfl, henc⟩
  · exact .inl hspells
  · exact .inr ⟨hblank, henc⟩
  · exact absurd rfl hne

theorem head_plainly (hcs : ∀ ch ∈ cs, Plainly double enc ch)
    (hhead : ∀ ch ∈ cs.head?, isGap ch = false) :
    ∀ ch ∈ (cs.flatMap enc ++ [quoteOf double]).head?, isGap ch = false := by
  cases cs with
  | nil => cases double <;> simp [quoteOf, isGap, isSpaceOrTab, isBreak]
  | cons ch cs =>
    have hspells := (hcs ch List.mem_cons_self).spells (hhead ch rfl)
    obtain ⟨d, e, he⟩ := List.exists_cons_of_ne_nil hspells.ne_nil
    have hgapless := hspells.gapless
    rw [he] at hgapless
    simpa [List.flatMap_cons, he] using hgapless

theorem quotedRun_word (hword : ∀ ch ∈ word, Spells double (enc ch) ch) (fuel : Nat)
    (r : List Char) :
    quotedRun double (fuel + word.length) (word.flatMap enc ++ r) =
      (quotedRun double fuel r).map fun p ↦
        (word ++ p.1, p.2.1, p.2.2 + (word.flatMap enc).length) := by
  induction word with
  | nil => cases h : quotedRun double fuel r <;> simp [Except.map, h]
  | cons ch word ih =>
    obtain ⟨hch, hword⟩ := List.forall_mem_cons.mp hword
    rw [List.flatMap_cons, List.append_assoc, List.length_cons, ← Nat.add_assoc, hch.run, ih hword]
    cases quotedRun double fuel r with
    | error e => rfl
    | ok p => simp [Except.map, Nat.add_comm, Nat.add_left_comm]

theorem length_le_length_flatMap (hword : ∀ ch ∈ word, Spells double (enc ch) ch) :
    word.length ≤ (word.flatMap enc).length := by
  induction word with
  | nil => exact Nat.le_refl _
  | cons ch word ih =>
    obtain ⟨hch, hword⟩ := List.forall_mem_cons.mp hword
    have hpos : 0 < (enc ch).length := List.length_pos_iff.mpr hch.ne_nil
    have hle := ih hword
    rw [List.flatMap_cons, List.length_append, List.length_cons]
    omega

theorem quotedRun_of_word (hword : ∀ ch ∈ word, Spells double (enc ch) ch)
    (hrest : c.rest = word.flatMap enc ++ ch :: r) :
    quotedRun double (c.rest.length + 1) c.rest =
      (quotedRun double (r.length + 2) (ch :: r)).map fun p ↦
        (word ++ p.1, p.2.1, p.2.2 + (word.flatMap enc).length) := by
  have hle := length_le_length_flatMap hword
  obtain ⟨k, hk⟩ : ∃ k, c.rest.length + 1 = k + word.length := by
    refine ⟨c.rest.length + 1 - word.length, ?_⟩
    rw [hrest, List.length_append]
    omega
  have hlong : (ch :: r).length < k := by
    rw [hrest, List.length_append] at hk
    omega
  rw [hk, hrest, quotedRun_word hword, quotedRun_congr (Nat.lt_succ_self _) hlong]
  rfl

section Go

variable {fuel : Nat} (hword : ∀ ch ∈ word, Spells double (enc ch) ch) (hopen : c.atEnd = false)
include hword hopen

theorem quoted_go_quote (hrest : c.rest = word.flatMap enc ++ [quoteOf double]) :
    quoted.go double (fuel + 1) c = .ok (word, (c.advance (word.flatMap enc).length).advance 1) := by
  have hrun := quotedRun_of_word hword hrest
  have hquote : quotedRun double (([] : List Char).length + 2) [quoteOf double] =
      .ok ([], .quote, 0) := quotedRun_quote (by simp) _
  rw [hquote] at hrun
  rw [quoted.go.eq_2, hopen, hrun]
  simp only [Except.map, bind, Except.bind, List.append_nil, Nat.zero_add]
  rfl

/-- A word, and a gap behind it. -/
theorem quoted_go_gap (fuel : Nat) (hne : bs ≠ []) (hbs : ∀ ch ∈ bs, isSpaceOrTab ch = true ∨ ch = '\n')
    (hr : ∀ ch ∈ r.head?, isGap ch = false) (hrest : c.rest = word.flatMap enc ++ (bs ++ r)) :
    ∃ g : Gap, g.cursor.rest = r ∧ g.Fed (bs.count '\n') ∧
      quoted.go double (fuel + 1) c =
        (quoted.go double fuel g.cursor).map fun p ↦ (word ++ g.text ++ p.1, p.2) := by
  obtain ⟨b, bs, rfl⟩ := List.exists_cons_of_ne_nil hne
  have hb : isGap b = true := by
    rcases hbs b List.mem_cons_self with hblank | rfl
    · simp [isGap, hblank]
    · rfl
  have hrun := quotedRun_of_word hword hrest
  have hgap : quotedRun double ((bs ++ r).length + 2) (b :: (bs ++ r)) = .ok ([], .gap, 0) := by
    simp only [quotedRun, hb, if_true]
  rw [List.append_eq, hgap] at hrun
  let start : Cursor := c.advance (word.flatMap enc).length
  have hstart : start.rest = b :: bs ++ r := by
    show c.rest.drop _ = _
    rw [hrest, List.drop_left]
  have hfed : Gap.Fed ⟨[], none, [], start⟩ 0 := ⟨rfl, List.not_mem_nil⟩
  have hlong : (b :: bs).length ≤ start.rest.length := by
    rw [hstart, List.length_append]
    omega
  obtain ⟨g, hgo, hgrest, hgfed⟩ := hfed.run hbs hr hstart hlong
  rw [Nat.zero_add] at hgfed
  have hskipped : gap 0 none start = .ok g := hgo
  have hadvance : c.advance (0 + (word.flatMap enc).length) = start := by rw [Nat.zero_add]
  have hempty : start.rest.isEmpty = false := by rw [hstart]; rfl
  refine ⟨g, hgrest, hgfed, ?_⟩
  rw [quoted.go.eq_2, hopen, hrun]
  simp only [Except.map, bind, Except.bind, hadvance, hempty, hskipped, Bool.false_eq_true, if_false,
    List.append_nil]
  cases quoted.go double fuel g.cursor <;> rfl

end Go

/-- What is read has fewer line feeds than what is written, if that has any. -/
theorem count_of_quoted_go (hcs : ∀ ch ∈ cs, Plainly double enc ch)
    (hrest : c.rest = cs.flatMap enc ++ [quoteOf double]) {fuel : Nat}
    (h : quoted.go double fuel c = .ok (text, next)) :
    next.rest = [] ∧ text.count '\n' ≤ cs.count '\n' - 1 := by
  induction fuel generalizing cs c text with
  | zero => cases h
  | succ fuel ih =>
    have hopen : c.atEnd = false := by
      cases hend : c.atEnd with
      | false => rfl
      | true =>
        rw [quoted.go.eq_2, hend] at h
        cases h
    obtain ⟨word, tail, rfl, hword, htail⟩ := exists_span (!isGap ·) cs
    obtain ⟨bs, rest, rfl, hbs, hhead⟩ := exists_span isGap tail
    obtain ⟨hcs, hgaps⟩ := List.forall_mem_append.mp hcs
    obtain ⟨hgaps, hrests⟩ := List.forall_mem_append.mp hgaps
    have hgapless : ∀ ch ∈ word, isGap ch = false := by simpa using hword
    have hspells : ∀ ch ∈ word, Spells double (enc ch) ch := fun ch hch ↦
      (hcs ch hch).spells (hgapless ch hch)
    have hfolded : ∀ ch ∈ bs, (isSpaceOrTab ch = true ∨ ch = '\n') ∧ enc ch = [ch] :=
      fun ch hch ↦ (hgaps ch hch).gap (hbs ch hch)
    have hcount : word.count '\n' = 0 :=
      List.count_eq_zero.mpr fun hmem ↦ by cases hgapless _ hmem
    rw [List.flatMap_append, List.flatMap_append, Text.flatMap_of_forall fun ch hch ↦
      (hfolded ch hch).2, List.append_assoc, List.append_assoc] at hrest
    by_cases hne : bs = []
    · -- behind the word stands the closing quote
      subst hne
      obtain rfl : rest = [] := by
        cases rest with
        | nil => rfl
        | cons ch rest =>
          have hgap : isGap ch = true := by simpa using htail ch rfl
          rw [hhead ch rfl] at hgap
          cases hgap
      rw [quoted_go_quote hspells hopen hrest] at h
      obtain ⟨rfl, rfl⟩ := Prod.mk.inj (Except.ok.inj h)
      refine ⟨?_, by simp [hcount]⟩
      show ((c.rest.drop _).drop 1) = []
      rw [hrest, List.drop_left]
      rfl
    · obtain ⟨g, hgrest, hfed, hgo⟩ := quoted_go_gap hspells hopen fuel hne
        (fun ch hch ↦ (hfolded ch hch).1) (head_plainly hrests hhead) hrest
      rw [hgo] at h
      cases hmore : quoted.go double fuel g.cursor with
      | error e =>
        rw [hmore] at h
        cases h
      | ok p =>
        obtain ⟨more, last⟩ := p
        rw [hmore] at h
        obtain ⟨rfl, rfl⟩ := Prod.mk.inj (Except.ok.inj h)
        obtain ⟨hlast, hle⟩ := ih hrests hgrest hmore
        refine ⟨hlast, ?_⟩
        simp only [List.count_append, hcount, hfed.count_text]
        omega

/-! An entry whose value is in quotes. -/

/-- Behind a key of one letter, its colon, a space and a quote. -/
def inQuotes (t : List Char) : Cursor := ⟨t, 0, 4, 4, false⟩

section Entry

variable {t : List Char}

theorem blockValue_quoted (double : Bool) (t : List Char) (n : Nat) :
    blockValue defaultHandles (n + 1) 1 (behindKey (' ' :: quoteOf double :: t)) =
      blockNode defaultHandles n 1 true ⟨quoteOf double :: t, 0, 3, 3, false⟩ := by
  have hskip : (behindKey (' ' :: quoteOf double :: t)).skip false =
      ⟨quoteOf double :: t, 0, 3, 3, false⟩ :=
    skip_of_token [' '] (by simp) rfl (by cases double <;> rfl) (by cases double <;> decide) false
  rw [blockValue.eq_2, hskip]

theorem atContent_quoted (double : Bool) (t : List Char) :
    AtContent 1 ⟨quoteOf double :: t, 0, 3, 3, false⟩ :=
  (startsContent_quote double t).atContent (Nat.succ_pos 2) (Nat.le_add_left 1 2)

theorem allowed_quoted (hallowed : ∀ ch ∈ t, isAllowed ch = true) :
    ∀ ch ∈ ' ' :: quoteOf double :: t, isAllowed ch = true :=
  List.forall_mem_cons.mpr ⟨rfl, List.forall_mem_cons.mpr ⟨by cases double <;> rfl, hallowed⟩⟩

theorem parse_quoted (hallowed : ∀ ch ∈ t, isAllowed ch = true)
    (hread : quoted double (inQuotes t) = .ok (text, next)) (hnext : next.rest = []) :
    parse (.ofList ('k' :: ':' :: ' ' :: quoteOf double :: t)) =
      .ok (.obj [("k", .str (.ofList text))]) := by
  have hcontent (n : Nat) : flowContent defaultHandles (n + 1) 1 false
      ⟨quoteOf double :: t, 0, 3, 3, false⟩ = .ok (.scalar {} false (.ofList text), next) :=
    flowContent_of_quoted rfl hread defaultHandles n
  have hcolon : atColon false (next.skip false) = false := by
    rw [skip_of_nil hnext, atColon, hnext]
  have hvalue : blockValue defaultHandles (4 * (' ' :: quoteOf double :: t).length + 23) 1
      (behindKey (' ' :: quoteOf double :: t)) = .ok (.scalar {} false (.ofList text), next) := by
    rw [blockValue_quoted]
    exact (atContent_quoted double t).blockNode_eq (hcontent _) rfl true hcolon
  rw [parse_entry rfl (by rw [skip_of_nil hnext, hnext]) hvalue (allowed_quoted hallowed),
    toJson_entry]
  rfl

theorem parse_quoted_of_error {e : Fault} (hallowed : ∀ ch ∈ t, isAllowed ch = true)
    (hread : quoted double (inQuotes t) = .error e) :
    parse (.ofList ('k' :: ':' :: ' ' :: quoteOf double :: t)) = .error e := by
  have hcontent (n : Nat) : flowContent defaultHandles (n + 1) 1 false
      ⟨quoteOf double :: t, 0, 3, 3, false⟩ = .error e := by
    have hread' : quoted double (Cursor.advance ⟨quoteOf double :: t, 0, 3, 3, false⟩ 1) = .error e :=
      hread
    rw [flowContent_quote rfl, hread']
    rfl
  refine parse_of_error rfl ?_ (allowed_quoted hallowed)
  rw [blockValue_quoted]
  exact (atContent_quoted double t).blockNode_of_error true (hcontent _)

end Entry

/-- A text in quotes is read as it was, exactly if it has no line feed. -/
theorem parse_quoted_eq_iff (hcs : ∀ ch ∈ cs, Plainly double enc ch)
    (hallowed : ∀ ch ∈ cs.flatMap enc, isAllowed ch = true) :
    parse (.ofList ('k' :: ':' :: ' ' :: quoteOf double :: (cs.flatMap enc ++ [quoteOf double]))) =
      .ok (.obj [("k", .str (.ofList cs))]) ↔ '\n' ∉ cs := by
  have hall : ∀ ch ∈ cs.flatMap enc ++ [quoteOf double], isAllowed ch = true :=
    List.forall_mem_append.mpr ⟨hallowed, List.forall_mem_singleton.mpr (by cases double <;> rfl)⟩
  have hrest : (inQuotes (cs.flatMap enc ++ [quoteOf double])).rest =
      cs.flatMap enc ++ [quoteOf double] := rfl
  constructor
  · intro h hmem
    cases hread : quoted double (inQuotes (cs.flatMap enc ++ [quoteOf double])) with
    | error e =>
      rw [parse_quoted_of_error hall hread] at h
      cases h
    | ok p =>
      obtain ⟨text, next⟩ := p
      obtain ⟨hnext, hcount⟩ := count_of_quoted_go (c := (inQuotes _).unfresh) hcs hrest hread
      rw [parse_quoted hall hread hnext] at h
      have htext : text = cs := String.ofList_injective (by simpa using h)
      have hpos : 0 < cs.count '\n' := List.count_pos_iff.mpr hmem
      rw [htext] at hcount
      omega
  · intro hmem
    have hwritten : ∀ ch ∈ cs, Written double enc ch := fun ch hch ↦
      (hcs ch hch).written fun he ↦ hmem (he ▸ hch)
    have hclose : ∀ ch ∈ [quoteOf double].head?, isGap ch = false := by
      cases double <;> simp [quoteOf, isGap, isSpaceOrTab, isBreak]
    have hpasses := passes_line (c := (inQuotes (cs.flatMap enc ++ [quoteOf double])).unfresh)
      hwritten (.inl hclose) hrest (Nat.succ_pos 3)
    have hbehind : ((inQuotes (cs.flatMap enc ++ [quoteOf double])).unfresh.advance
        (cs.flatMap enc).length).rest = [quoteOf double] := by
      rw [Cursor.advance_rest]
      exact List.drop_left
    have hread := hpasses.quoted_eq hbehind (by simp) (Nat.add_pos_left (Nat.succ_pos 3) _)
    refine parse_quoted hall hread ?_
    rw [Cursor.advance_rest, hbehind]
    rfl

end DeliveryCharts.Yaml
