import DeliveryCharts.Proofs.Yaml.Blocks
import DeliveryCharts.Proofs.Yaml.Numbers

/-!
The style in which a text is written, and the node that is read for it: a text is written plain only
where that is read as the same text.
-/

namespace DeliveryCharts.Yaml

open Writer

variable {ch : Char} {cs bs r : List Char} {s : String}

/-! Printable characters. -/

theorem isAllowed_of_isPrintable (h : isPrintable ch = true) : isAllowed ch = true := by
  simp only [isPrintable, isAllowed, Bool.or_eq_true, Bool.and_eq_true, decide_eq_true_eq,
    beq_iff_eq] at h ⊢
  omega

theorem ne_tab_of_isPrintable (h : isPrintable ch = true) : ch ≠ '\t' := by
  rintro rfl
  revert h
  decide

theorem isFeed_of_isPrintable (h : isPrintable ch = true) (hbreak : isBreak ch = true) :
    IsFeed ch := by
  simp only [isBreak, Bool.or_eq_true, beq_iff_eq] at hbreak
  obtain (((rfl | rfl) | rfl) | rfl) | rfl := hbreak
  · exact .inl rfl
  · exact absurd h (by decide)
  · exact absurd h (by decide)
  · exact .inr (.inl rfl)
  · exact .inr (.inr rfl)

/-! A text that may be written plain. -/

theorem hasInnerIndicator_of_suffix (h : hasInnerIndicator (bs ++ cs) = false) :
    hasInnerIndicator cs = false := by
  induction bs with
  | nil => exact h
  | cons b bs ih =>
    apply ih
    rw [List.cons_append, hasInnerIndicator] at h
    exact (Bool.or_eq_false_iff.mp h).2

theorem inner_of_append (h : hasInnerIndicator (bs ++ ch :: cs) = false) :
    (ch = ':' → endsWord cs = false) ∧ (isGap ch = true → cs.head? ≠ some '#') := by
  have hinner := hasInnerIndicator_of_suffix h
  simp only [hasInnerIndicator, Bool.or_eq_false_iff, Bool.and_eq_false_iff, beq_eq_false_iff_ne]
    at hinner
  obtain ⟨⟨hcolon, hsign⟩, -⟩ := hinner
  exact ⟨hcolon.resolve_left ∘ fun he hne ↦ hne he, fun hgap ↦ hsign.resolve_left (by simp [hgap])⟩

/-- What a plain text consists of: words, and spaces between them. -/
structure Bare (cs : List Char) : Prop where
  ne_nil : cs ≠ []
  spaces : ∀ ch ∈ cs, isGap ch = true → ch = ' '
  first : cs.head? ≠ some ' '
  last : cs.getLast? ≠ some ' '
  inner : hasInnerIndicator cs = false

section Words

variable {w tail rest : List Char}

theorem Bare.isWord (h : Bare (w ++ tail)) (hw : ∀ ch ∈ w, isGap ch = false)
    (htail : ∀ ch ∈ tail.head?, isGap ch = true) : IsWord w := by
  refine ⟨?_, hw, ?_⟩
  · rintro rfl
    cases tail with
    | nil => exact h.ne_nil rfl
    | cons ch tail =>
      have hspace : ch = ' ' := h.spaces ch (by simp) (htail ch rfl)
      exact h.first (by simp [hspace])
  · intro hlast
    obtain ⟨front, rfl⟩ := List.getLast?_eq_some_iff.mp hlast
    have hinner := h.inner
    rw [List.append_assoc] at hinner
    have hends : endsWord tail = false := (inner_of_append hinner).1 rfl
    cases tail with
    | nil => cases hends
    | cons ch tail =>
      have hgap : isGap ch = true := htail ch rfl
      rw [endsWord, hgap] at hends
      cases hends

/-- Behind the spaces that follow a word the text goes on. -/
theorem Bare.behind (h : Bare (w ++ (bs ++ rest))) (hne : bs ≠ [])
    (hbs : ∀ ch ∈ bs, isSpaceOrTab ch = true) (hrest : ∀ ch ∈ rest.head?, isSpaceOrTab ch = false) :
    Bare rest ∧ rest.head? ≠ some '#' := by
  have hgap : ∀ ch ∈ bs, isGap ch = true := fun ch hch ↦ by simp [isGap, hbs ch hch]
  obtain ⟨front, b, rfl⟩ := (List.eq_nil_or_concat bs).resolve_left hne
  rw [List.concat_eq_append] at h hgap
  have hspace : b = ' ' := h.spaces b (by simp) (hgap b (by simp))
  have hrestne : rest ≠ [] := by
    rintro rfl
    have hlast : (w ++ (front ++ [b] ++ [])).getLast? = some b := by
      rw [List.append_nil, ← List.append_assoc, List.getLast?_concat]
    exact h.last (by rw [hlast, hspace])
  have hsplit : w ++ (front ++ [b] ++ rest) = w ++ front ++ b :: rest := by simp
  have hinner := h.inner
  rw [hsplit] at hinner
  refine ⟨⟨hrestne, fun ch hch ↦ h.spaces ch (by simp [hch]), ?_, ?_, ?_⟩,
    (inner_of_append hinner).2 (hgap b (by simp))⟩
  · intro hfirst
    cases hrest ' ' hfirst
  · intro hlast
    apply h.last
    rwa [← List.append_assoc, List.getLast?_append_of_ne_nil _ hrestne]
  · rw [List.append_cons] at hinner
    exact hasInnerIndicator_of_suffix hinner

theorem Bare.words (h : Bare cs) : Words cs := by
  induction hn : cs.length using Nat.strongRecOn generalizing cs with
  | ind n ih =>
    subst hn
    obtain ⟨w, tail, rfl, hw, htail⟩ := exists_span (!isGap ·) cs
    replace hw : ∀ ch ∈ w, isGap ch = false := by simpa using hw
    replace htail : ∀ ch ∈ tail.head?, isGap ch = true := by simpa using htail
    have hword := h.isWord hw htail
    cases tail with
    | nil =>
      rw [List.append_nil]
      exact .word hword
    | cons ch tail =>
      obtain ⟨bs, rest, hsplit, hbs, hrest⟩ := exists_span isSpaceOrTab (ch :: tail)
      have hne : bs ≠ [] := by
        rintro rfl
        have hspace : ch = ' ' := h.spaces ch (by simp) (htail ch rfl)
        rw [List.nil_append] at hsplit
        have hother := hrest ch (by rw [← hsplit]; rfl)
        rw [hspace] at hother
        cases hother
      rw [hsplit] at h ih ⊢
      obtain ⟨hbare, hsign⟩ := h.behind hne hbs hrest
      have hpos : 0 < w.length := List.length_pos_iff.mpr hword.ne_nil
      rw [← List.append_assoc]
      exact .more hword hne hbs (ih rest.length (by simp; omega) hbare rfl) hsign

end Words

theorem plainLine_of_allowsPlain (h : allowsPlain cs = true) (hne : cs ≠ []) : PlainLine cs := by
  simp only [allowsPlain, isMultiline, Bool.and_eq_true, Bool.not_eq_true', decide_eq_true_eq,
    List.all_eq_true, List.any_eq_false, ne_eq, Bool.not_eq_true] at h
  obtain ⟨⟨⟨⟨hprintable, hbreaks⟩, hfirst⟩, hlast⟩, hindicator⟩ := h
  simp only [hasIndicator, Bool.or_eq_false_iff] at hindicator
  obtain ⟨⟨-, hhead⟩, hinner⟩ := hindicator
  refine ⟨fun ch hch ↦ isAllowed_of_isPrintable (hprintable ch hch), Bare.words ?_, ?_⟩
  · refine ⟨hne, fun ch hch hgap ↦ ?_, hfirst, hlast, hinner⟩
    have htab : ch ≠ '\t' := ne_tab_of_isPrintable (hprintable ch hch)
    simpa [isGap, hbreaks ch hch, isSpaceOrTab, htab] using hgap
  · rintro ch r rfl hmem
    simp only [Bool.or_eq_false_iff, Bool.and_eq_false_iff] at hhead
    have hsplit : ∀ d ∈ indicators, isIndicator d = false → d = '-' ∨ d = '?' ∨ d = ':' :=
      Text.forall_mem_of_all (by decide)
    obtain rfl | rfl | rfl := hsplit ch hmem hhead.1
    · exact ⟨by decide, by simpa using hhead.2⟩
    · exact ⟨by decide, by simpa using hhead.2⟩
    · exact ⟨by decide, (@inner_of_append _ _ [] hinner).1 rfl⟩

theorem real?_ne_str {t : String} : real? cs ≠ some (.str t) := by
  intro h
  unfold real? at h
  extract_lets unsigned at h
  split at h
  · cases h
  · split at h
    · cases h
    · split at h
      · split at h <;> cases h
      · cases h

theorem eq_of_plainValue_str {t : String} (h : plainValue s = .ok (.str t)) : t = s ∧ s ≠ "" := by
  by_cases hempty : s = ""
  · subst hempty
    cases h
  refine ⟨?_, hempty⟩
  simp only [plainValue] at h
  split at h
  · cases h
  · split at h
    · cases h
    · obtain ⟨o, ho, h⟩ := Except.bind_eq_ok_iff.mp h
      split at h
      · cases h
      · split at h
        · split at h
          · rename_i hr
            cases h
            exact absurd hr real?_ne_str
          · cases h
            rfl
        · cases h
          rfl

theorem plainValue_of_looksTyped (h : looksTyped s = false) : plainValue s = .ok (.str s) ∧ s ≠ "" := by
  rw [looksTyped] at h
  split at h
  · rename_i t ht
    obtain ⟨rfl, hne⟩ := eq_of_plainValue_str ht
    exact ⟨ht, hne⟩
  · cases h

/-! The styles of a text. -/

/-- The node that a text is written as. -/
def textNode (s : String) : Node := .scalar {} (decide (styleOf s = .plain)) s

theorem textNode_plain (h : styleOf s = .plain) :
    textNode s = .scalar {} true (.ofList s.toList) := by
  rw [textNode, h, String.ofList_toList]
  rfl

theorem textNode_other (h : styleOf s ≠ .plain) :
    textNode s = .scalar {} false (.ofList s.toList) := by
  rw [textNode, decide_eq_false h, String.ofList_toList]

theorem allowsPlain_of_styleOf (h : styleOf s = .plain) :
    looksTyped s = false ∧ allowsPlain s.toList = true := by
  simp only [styleOf] at h
  split at h
  · split at h <;> cases h
  · split at h
    · rename_i hplain
      simpa using hplain
    · split at h <;> cases h

theorem inlineKey_plain (h : styleOf s = .plain) (n : Nat) :
    InlineKey (textOf n s) (textNode s) ∧ plainValue s = .ok (.str s) := by
  obtain ⟨htyped, hplain⟩ := allowsPlain_of_styleOf h
  obtain ⟨hvalue, hne⟩ := plainValue_of_looksTyped htyped
  have hline : PlainLine s.toList := plainLine_of_allowsPlain hplain (by simpa using hne)
  rw [textNode_plain h, textOf, h]
  exact ⟨hline.inlineKey, hvalue⟩

theorem allowsSingle_of_styleOf (h : styleOf s = .single) :
    allowsSingle s.toList = true ∧ '\n' ∉ s.toList := by
  simp only [styleOf] at h
  split at h
  · split at h <;> cases h
  · rename_i hfeed
    split at h
    · cases h
    · split at h
      · rename_i hsingle
        exact ⟨hsingle, by simpa using hfeed⟩
      · cases h

theorem allowsBlock_of_styleOf (h : styleOf s = .literal) :
    allowsBlock s.toList = true ∧ '\n' ∈ s.toList := by
  simp only [styleOf] at h
  split at h
  · rename_i hfeed
    split at h
    · rename_i hblock
      exact ⟨hblock, by simpa using hfeed⟩
    · cases h
  · split at h
    · cases h
    · split at h <;> cases h

theorem inline_text (h : styleOf s ≠ .literal) {n : Nat} (hn : 0 < n) :
    Inline (textOf n s) (textNode s) := by
  cases hstyle : styleOf s with
  | plain => exact (inlineKey_plain hstyle n).1.toInline
  | single =>
    obtain ⟨hsingle, hfeed⟩ := allowsSingle_of_styleOf hstyle
    simp only [allowsSingle, Bool.and_eq_true, List.all_eq_true, Bool.not_eq_true'] at hsingle
    obtain ⟨⟨hprintable, hbefore⟩, hafter⟩ := hsingle
    rw [textNode_other (by rw [hstyle]; decide), textOf, hstyle]
    refine inline_single hn (fun ch hch hbreak ↦ ?_) hbefore hafter
      (fun ch hch ↦ ne_tab_of_isPrintable (hprintable ch hch))
    exact ⟨isFeed_of_isPrintable (hprintable ch hch) hbreak, fun he ↦ hfeed (he ▸ hch)⟩
  | double =>
    rw [textNode_other (by rw [hstyle]; decide), textOf, hstyle]
    exact (inlineKey_double s.toList).toInline
  | literal => exact absurd hstyle h

/-- Printable characters on one line. -/
def OneLine (cs : List Char) : Prop := ∀ ch ∈ cs, isPrintable ch = true ∧ ch ≠ '\n'

instance (cs : List Char) : Decidable (OneLine cs) :=
  decidable_of_iff (cs.all fun ch ↦ isPrintable ch && ch != '\n') (by simp [OneLine])

theorem OneLine.append (h : OneLine cs) (h' : OneLine r) : OneLine (cs ++ r) := fun ch hch ↦
  (List.mem_append.mp hch).elim (h ch) (h' ch)

theorem oneLine_spaces (n : Nat) : OneLine (spaces n) := fun ch hch ↦ by
  rw [eq_space_of_mem hch]
  decide

theorem oneLine_escapeChar (ch : Char) : OneLine (escapeChar ch) := by
  by_cases hlettered : ch ∈ lettered
  · have hall : ∀ ch ∈ lettered, OneLine (escapeChar ch) := Text.forall_mem_of_all (by decide)
    exact hall ch hlettered
  · rw [escapeChar_of_not_mem hlettered]
    cases hprintable : isPrintable ch with
    | true =>
      have hne : ch ≠ '\n' := by
        rintro rfl
        exact hlettered (by decide)
      intro d hd
      obtain rfl := List.mem_singleton.mp hd
      exact ⟨hprintable, hne⟩
    | false =>
      have hhex : ∀ n < 256, OneLine ('\\' :: 'x' :: hexUpper 2 n) := by decide +kernel
      obtain hnat | hnat | hnat | hnat := toNat_of_not_isPrintable hprintable
      · rw [if_neg Bool.false_ne_true, if_pos (Nat.le_of_lt_succ hnat)]
        exact hhex _ hnat
      all_goals
        rw [if_neg Bool.false_ne_true, hnat]
        decide

theorem oneLine_singleBody {n : Nat} (h : OneLine cs) (behind : Bool) :
    OneLine (singleBody n behind cs) := by
  have hspaces (behind : Bool) : OneLine (if behind then spaces n else []) := by
    cases behind with
    | true => exact oneLine_spaces n
    | false => exact fun _ hd ↦ absurd hd List.not_mem_nil
  induction cs generalizing behind with
  | nil => exact hspaces behind
  | cons ch cs ih =>
    obtain ⟨hch, hcs⟩ := List.forall_mem_cons.mp h
    have hquoted : OneLine (if ch == '\'' then ['\'', '\''] else [ch]) := by
      split
      · decide
      · exact List.forall_mem_singleton.mpr hch
    rw [singleBody]
    split
    · exact List.forall_mem_cons.mpr ⟨hch, ih hcs true⟩
    · exact ((hspaces behind).append hquoted).append (ih hcs false)

/-- But for a literal block, no line feed is written as such. -/
theorem oneLine_textOf (h : styleOf s ≠ .literal) (n : Nat) : OneLine (textOf n s) := by
  cases hstyle : styleOf s with
  | plain =>
    have hplain := (allowsPlain_of_styleOf hstyle).2
    simp only [allowsPlain, isMultiline, Bool.and_eq_true, Bool.not_eq_true', List.any_eq_false,
      List.all_eq_true] at hplain
    rw [textOf, hstyle]
    refine fun ch hch ↦ ⟨hplain.1.1.1.1 ch hch, ?_⟩
    rintro rfl
    exact absurd rfl (hplain.1.1.1.2 '\n' hch)
  | single =>
    obtain ⟨hsingle, hfeed⟩ := allowsSingle_of_styleOf hstyle
    simp only [allowsSingle, Bool.and_eq_true, List.all_eq_true] at hsingle
    have hbody : OneLine (singleBody n false s.toList) := by
      refine oneLine_singleBody (fun ch hch ↦ ⟨hsingle.1.1 ch hch, ?_⟩) false
      rintro rfl
      exact hfeed hch
    rw [textOf, hstyle]
    show OneLine (['\''] ++ singleBody n false s.toList ++ ['\''])
    exact (OneLine.append (by decide) hbody).append (by decide)
  | double =>
    rw [textOf, hstyle]
    show OneLine (['"'] ++ s.toList.flatMap escapeChar ++ ['"'])
    refine (OneLine.append (by decide) fun d hd ↦ ?_).append (by decide)
    obtain ⟨ch, -, hd⟩ := List.mem_flatMap.mp hd
    exact oneLine_escapeChar ch d hd
  | literal => exact absurd hstyle h

/-- The text of a literal block has the breaks of the text, and no other characters than printable
ones. -/
theorem isPrintable_of_mem_indented {n : Nat} (h : ∀ ch ∈ cs, isPrintable ch = true) (atStart : Bool) :
    ∀ ch ∈ indented n atStart cs, isPrintable ch = true := by
  induction cs generalizing atStart with
  | nil => exact fun _ hd ↦ absurd hd List.not_mem_nil
  | cons ch cs ih =>
    obtain ⟨hch, hcs⟩ := List.forall_mem_cons.mp h
    rw [indented]
    split
    · exact List.forall_mem_cons.mpr ⟨hch, ih hcs true⟩
    · refine List.forall_mem_append.mpr ⟨fun d hd ↦ ?_, List.forall_mem_cons.mpr ⟨hch, ih hcs false⟩⟩
      split at hd
      · exact (oneLine_spaces n d hd).1
      · exact absurd hd List.not_mem_nil

/-- A text as a leaf, wherever what follows it starts. -/
theorem leaf_text (h : styleOf s ≠ .literal) {n : Nat} (hn : 0 < n) (col : Nat) :
    Leaf col (textOf n s ++ ['\n']) (textNode s) :=
  (inline_text h hn).leaf col

theorem leaf_block (h : styleOf s = .literal) {col : Nat} {t : List Char}
    (ht : Indented (col + 2) true s.toList t) :
    Leaf col (blockText s.toList t ++ lastFeed s.toList) (textNode s) := by
  obtain ⟨hblock, hfeed⟩ := allowsBlock_of_styleOf h
  simp only [allowsBlock, Bool.and_eq_true, List.all_eq_true] at hblock
  obtain ⟨⟨hprintable, -⟩, -⟩ := hblock
  rw [textNode_other (by rw [h]; decide)]
  exact leaf_literal (List.ne_nil_of_mem hfeed)
    (fun ch hch ↦ ne_tab_of_isPrintable (hprintable ch hch)) ht

/-! Keys. -/

theorem length_escapeChar_le (ch : Char) : (escapeChar ch).length ≤ 6 := by
  by_cases hlettered : ch ∈ lettered
  · have hall : ∀ ch ∈ lettered, (escapeChar ch).length ≤ 6 := Text.forall_mem_of_all (by decide)
    exact hall ch hlettered
  · rw [escapeChar_of_not_mem hlettered]
    cases hprintable : isPrintable ch with
    | true => simp
    | false =>
      obtain hnat | hnat | hnat | hnat := toNat_of_not_isPrintable hprintable
      · rw [if_neg Bool.false_ne_true, if_pos (Nat.le_of_lt_succ hnat), List.length_cons,
          List.length_cons, (readUnsigned?_hexUpper _ hnat).1]
        decide
      all_goals
        rw [if_neg Bool.false_ne_true, hnat]
        decide

theorem length_flatMap_le {enc : Char → List Char} {k : Nat} (h : ∀ ch, (enc ch).length ≤ k)
    (cs : List Char) : (cs.flatMap enc).length ≤ k * cs.length := by
  induction cs with
  | nil => simp
  | cons ch cs ih =>
    have hch := h ch
    rw [List.flatMap_cons, List.length_append, List.length_cons, Nat.mul_succ]
    omega

theorem length_singleChar_le (ch : Char) : (singleChar ch).length ≤ 6 := by
  rw [singleChar]
  split <;> simp

theorem length_le_utf8ByteSize (cs : List Char) : cs.length ≤ (String.ofList cs).utf8ByteSize := by
  induction cs with
  | nil => exact Nat.zero_le _
  | cons ch cs ih =>
    have hch := ch.utf8Size_pos
    rw [String.ofList_cons, String.utf8ByteSize_append, String.utf8ByteSize_singleton,
      List.length_cons]
    omega

theorem styleOf_of_isSimpleKey (h : isSimpleKey s = true) : styleOf s ≠ .literal := by
  intro hstyle
  have hfeed := (allowsBlock_of_styleOf hstyle).2
  have hmultiline : isMultiline s.toList = true := List.any_eq_true.mpr ⟨'\n', hfeed, rfl⟩
  rw [isSimpleKey, hmultiline] at h
  cases h

/-- A simple key is read as one, and it is not too long for that. -/
theorem inlineKey_text (h : isSimpleKey s = true) (n : Nat) :
    InlineKey (textOf n s) (textNode s) ∧ (textOf n s).length ≤ 1024 := by
  have hkey := h
  simp only [isSimpleKey, isMultiline, Bool.and_eq_true, Bool.not_eq_true', List.any_eq_false,
    Bool.not_eq_true] at hkey
  obtain ⟨hbreaks, hsize⟩ := hkey
  have hsize : s.utf8ByteSize ≤ 128 := of_decide_eq_true hsize
  have hlength : s.toList.length ≤ s.utf8ByteSize := by
    have hle := length_le_utf8ByteSize s.toList
    rwa [String.ofList_toList] at hle
  cases hstyle : styleOf s with
  | plain =>
    refine ⟨(inlineKey_plain hstyle n).1, ?_⟩
    rw [textOf, hstyle]
    show s.toList.length ≤ 1024
    omega
  | single =>
    have hflat := length_flatMap_le length_singleChar_le s.toList
    rw [textNode_other (by rw [hstyle]; decide), textOf, hstyle]
    refine ⟨inlineKey_single n hbreaks, ?_⟩
    show (Writer.single n s.toList).length ≤ 1024
    rw [single_of_line n hbreaks, List.length_append, List.length_cons, List.length_cons,
      List.length_nil]
    omega
  | double =>
    have hflat := length_flatMap_le length_escapeChar_le s.toList
    rw [textNode_other (by rw [hstyle]; decide), textOf, hstyle]
    refine ⟨inlineKey_double s.toList, ?_⟩
    show (double s.toList).length ≤ 1024
    rw [double, List.length_append, List.length_cons, List.length_cons, List.length_nil]
    omega
  | literal => exact absurd hstyle (styleOf_of_isSimpleKey h)

/-! Null, booleans and integers. -/

theorem isGap_of_isDigit (h : Text.isDigit ch = true) : isGap ch = false := by
  have hne (d : Char) (hd : Text.isDigit d = false) : ch ≠ d := by
    rintro rfl
    rw [h] at hd
    cases hd
  simp [isGap, isSpaceOrTab, isBreak, hne ' ' (by decide), hne '\t' (by decide),
    hne '\n' (by decide), hne '\r' (by decide), hne '\u0085' (by decide),
    hne '\u2028' (by decide), hne '\u2029' (by decide)]

theorem plainLine_word (h : cs ∈ [['n', 'u', 'l', 'l'], Json.boolText true, Json.boolText false]) :
    PlainLine cs := by
  have hall : ∀ cs ∈ [['n', 'u', 'l', 'l'], Json.boolText true, Json.boolText false],
      cs ≠ [] ∧ cs.getLast? ≠ some ':' ∧
        cs.all (fun ch ↦ isAllowed ch ∧ isGap ch = false ∧ ch ∉ indicators) = true := by decide
  obtain ⟨hne, hlast, hchars⟩ := hall cs h
  have hchars := Text.forall_mem_of_all hchars
  refine ⟨fun ch hch ↦ (hchars ch hch).1, .word ⟨hne, fun ch hch ↦ (hchars ch hch).2.1, hlast⟩, ?_⟩
  rintro ch r rfl hmem
  exact absurd hmem (hchars ch List.mem_cons_self).2.2

theorem isAllowed_of_isDigit (h : Text.isDigit ch = true) : isAllowed ch = true := by
  obtain ⟨hle, hge⟩ := Text.isDigit_iff.mp h
  simp only [isAllowed, Bool.or_eq_true, Bool.and_eq_true, decide_eq_true_eq, beq_iff_eq]
  omega

theorem not_mem_indicators_of_isDigit (h : Text.isDigit ch = true) : ch ∉ indicators := by
  intro hmem
  have hall : ∀ ch ∈ indicators, Text.isDigit ch = false := Text.forall_mem_of_all (by decide)
  rw [hall ch hmem] at h
  cases h

theorem plainLine_decimalInt (z : Int) : PlainLine (Text.decimalInt z) where
  allowed ch hch := by
    obtain hdigit | rfl := Text.isDigit_or_hyphen_of_mem_decimalInt hch
    · exact isAllowed_of_isDigit hdigit
    · decide
  words := by
    refine .word ⟨Text.decimalInt_ne_nil z, fun ch hch ↦ ?_, fun hlast ↦ ?_⟩
    · obtain hdigit | rfl := Text.isDigit_or_hyphen_of_mem_decimalInt hch
      · exact isGap_of_isDigit hdigit
      · decide
    · obtain hdigit | hhyphen :=
        Text.isDigit_or_hyphen_of_mem_decimalInt (List.mem_of_getLast? hlast)
      · cases hdigit
      · exact absurd hhyphen (by decide)
  first ch r hcons hmem := by
    cases z with
    | ofNat n =>
      have hdigit : Text.isDigit ch = true :=
        Text.isDigit_of_mem_decimal n ch (show ch ∈ Text.decimalInt (.ofNat n) by rw [hcons]; simp)
      exact absurd hmem (not_mem_indicators_of_isDigit hdigit)
    | negSucc n =>
      obtain ⟨rfl, rfl⟩ := List.cons.inj hcons
      refine ⟨by decide, ?_⟩
      obtain ⟨d, ds, hd⟩ := List.exists_cons_of_ne_nil (Text.digits_ne_nil 10 (n + 1))
      have hdigit : Text.isDigit d = true :=
        Text.isDigit_of_mem_decimal (n + 1) d (by rw [Text.decimal, hd]; simp)
      rw [Text.decimal, hd]
      exact isGap_of_isDigit hdigit

end DeliveryCharts.Yaml
