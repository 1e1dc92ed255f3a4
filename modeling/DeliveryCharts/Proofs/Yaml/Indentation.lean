import DeliveryCharts.Proofs.Json.Reading
import DeliveryCharts.Proofs.Json.Tree
import DeliveryCharts.Proofs.Yaml.Styles

/-!
The text of a tree, moved to the right: spaces are put in front of its lines. It stays the text of
the tree, as long as no line of it ends with another break than a line feed.
-/

namespace DeliveryCharts.Yaml

open Writer

variable {n i : Nat} {ch : Char} {cs w w' t t' l r : List Char}

/-- A text with `n` spaces in front of each line that is not empty. -/
def shift (n : Nat) : Bool → List Char → List Char
  | _, [] => []
  | atStart, ch :: cs =>
    if ch = '\n' then '\n' :: shift n true cs
    else (if atStart then spaces n else []) ++ ch :: shift n false cs

@[simp]
theorem shift_feed (n : Nat) (atStart : Bool) (cs : List Char) :
    shift n atStart ('\n' :: cs) = '\n' :: shift n true cs := by
  rw [shift, if_pos rfl]

theorem shift_char (h : ch ≠ '\n') (n : Nat) (atStart : Bool) (cs : List Char) :
    shift n atStart (ch :: cs) = (if atStart then spaces n else []) ++ ch :: shift n false cs := by
  rw [shift, if_neg h]

theorem shift_line (h : OneLine l) (n : Nat) (cs : List Char) :
    shift n false (l ++ cs) = l ++ shift n false cs := by
  induction l with
  | nil => rfl
  | cons ch l ih =>
    obtain ⟨hch, hl⟩ := List.forall_mem_cons.mp h
    rw [List.cons_append, shift_char hch.2, ih hl]
    rfl

theorem spaces_add (n i : Nat) : spaces (n + i) = spaces n ++ spaces i :=
  List.replicate_append_replicate.symm

theorem shift_spaces (h : ch ≠ '\n') (n i : Nat) (cs : List Char) :
    shift n true (spaces i ++ ch :: cs) = spaces (n + i) ++ shift n false (ch :: cs) := by
  cases i with
  | zero =>
    rw [shift_char h]
    show shift n true (ch :: cs) = _
    rw [shift_char h]
    rfl
  | succ i =>
    have hspace : (' ' : Char) ≠ '\n' := by decide
    show shift n true (' ' :: (spaces i ++ ch :: cs)) = _
    rw [shift_char hspace, shift_line (oneLine_spaces i), spaces_add]
    simp [spaces, List.replicate_succ]

/-! Texts that end with a line feed, or whose lines go on with what follows. -/

/-- The text `w` is printable. Moved to the right it is `t`, and a new line starts behind it. -/
structure Moves (n : Nat) (atStart : Bool) (w t : List Char) : Prop where
  printable : ∀ ch ∈ w, isPrintable ch = true
  shift_eq : ∀ r, shift n atStart (w ++ r) = t ++ shift n true r

namespace Moves

variable {atStart : Bool}

theorem append (h : Moves n atStart w t) (h' : Moves n true w' t') :
    Moves n atStart (w ++ w') (t ++ t') where
  printable := List.forall_mem_append.mpr ⟨h.printable, h'.printable⟩
  shift_eq r := by rw [List.append_assoc, h.shift_eq, h'.shift_eq, List.append_assoc]

theorem line (hl : OneLine l) (h : Moves n false w t) : Moves n false (l ++ w) (l ++ t) where
  printable := List.forall_mem_append.mpr ⟨fun ch hch ↦ (hl ch hch).1, h.printable⟩
  shift_eq r := by rw [List.append_assoc, shift_line hl, h.shift_eq, List.append_assoc]

theorem feed (h : Moves n true w t) : Moves n atStart ('\n' :: w) ('\n' :: t) where
  printable := List.forall_mem_cons.mpr ⟨by decide, h.printable⟩
  shift_eq r := by
    rw [List.cons_append, shift_feed, h.shift_eq]
    rfl

theorem nil : Moves n true [] [] := ⟨fun _ hch ↦ absurd hch List.not_mem_nil, fun _ ↦ rfl⟩

theorem ended (hl : OneLine l) : Moves n false (l ++ ['\n']) (l ++ ['\n']) := nil.feed.line hl

/-- A text that is a token's does not start with a line feed. -/
theorem exists_cons (h : Moves n false w t) (ht : StartsToken t) :
    ∃ ch w', w = ch :: w' ∧ ch ≠ '\n' := by
  obtain ⟨ch, t, rfl, hgap, -⟩ := ht
  have hw := h.shift_eq []
  cases w with
  | nil => cases hw
  | cons d w =>
    refine ⟨d, w, rfl, ?_⟩
    rintro rfl
    rw [List.cons_append, shift_feed] at hw
    obtain rfl : '\n' = ch := (List.cons.inj hw).1
    cases hgap

theorem spaces (h : Moves n false w t) (ht : StartsToken t) (i : Nat) :
    Moves n true (Writer.spaces i ++ w) (Writer.spaces (n + i) ++ t) where
  printable := List.forall_mem_append.mpr ⟨fun ch hch ↦ (oneLine_spaces i ch hch).1, h.printable⟩
  shift_eq r := by
    have hw := h.shift_eq r
    obtain ⟨ch, w, rfl, hch⟩ := h.exists_cons ht
    rw [List.append_assoc, List.cons_append, shift_spaces hch, ← List.cons_append, hw,
      List.append_assoc]

end Moves

/-! Literal blocks. -/

/-- Line and paragraph separators stand directly in front of other breaks only. -/
def separatorsAtBreaks : List Char → Bool
  | [] => true
  | ch :: cs => ((ch != '\u2028' && ch != '\u2029') || startsBreak cs) && separatorsAtBreaks cs

theorem lastFeed_cons (hne : cs ≠ []) (ch : Char) : lastFeed (ch :: cs) = lastFeed cs :=
  lastFeed_append hne [ch]

theorem lastFeed_char (hch : isBreak ch = false) (cs : List Char) :
    lastFeed (ch :: cs) = lastFeed cs := by
  by_cases hnil : cs = []
  · subst hnil
    simp [lastFeed, hch]
  · exact lastFeed_cons hnil ch

theorem indented_break (hch : isBreak ch = true) (i : Nat) (a : Bool) (cs : List Char) :
    indented i a (ch :: cs) = ch :: indented i true cs := by
  rw [indented, if_pos hch]

theorem indented_char (hch : isBreak ch = false) (i : Nat) (a : Bool) (cs : List Char) :
    indented i a (ch :: cs) = (if a then spaces i else []) ++ ch :: indented i false cs := by
  rw [indented, if_neg (by simp [hch])]

theorem Indented.behindBreak {indent : Nat} {a : Bool} {b : Char} (hb : IsFeed b)
    (h : Indented indent true cs t) : Indented indent a (b :: cs) (b :: t) := by
  cases a with
  | false => exact .feed hb h
  | true => exact .blank (n := 0) hb (Nat.zero_le _) h

/-- The lines of a literal block, from the start of a line (`a`) or from inside one, are moved to
the right and are such lines again. Behind a separator they are moved as if the line went on: then
`a'` is not `a`. -/
def Shifted (n i : Nat) (a a' : Bool) (cs : List Char) : Prop :=
  ∃ t, Indented (n + i) a cs t ∧
    ∀ r, shift n a' (indented i a cs ++ (lastFeed cs ++ r)) = t ++ (lastFeed cs ++ shift n true r)

section Shifted

variable {a a' : Bool}

theorem shifted_nil (n i : Nat) : Shifted n i false false [] :=
  ⟨[], .nil false, fun r ↦ shift_feed n false r⟩

theorem Shifted.feed (h : cs = [] ∨ Shifted n i true true cs) : Shifted n i a a' ('\n' :: cs) := by
  have hfeed : IsFeed '\n' := .inl rfl
  by_cases hnil : cs = []
  · subst hnil
    exact ⟨['\n'], .behindBreak hfeed (.nil true), fun r ↦ shift_feed n a' r⟩
  · obtain ⟨t, ht, hshift⟩ := h.resolve_left hnil
    refine ⟨'\n' :: t, .behindBreak hfeed ht, fun r ↦ ?_⟩
    rw [lastFeed_cons hnil, indented_break hfeed.isBreak, List.cons_append, shift_feed, hshift]
    rfl

/-- A blank line of a separator becomes one with spaces in it. -/
theorem Shifted.separator (hfeed : IsFeed ch) (hline : ch ≠ '\n') (hne : cs ≠ [])
    (h : Shifted n i true false cs) (ha : a' = true → a = true) : Shifted n i a a' (ch :: cs) := by
  obtain ⟨t, ht, hshift⟩ := h
  refine ⟨(if a' then spaces n else []) ++ ch :: t, ?_, fun r ↦ ?_⟩
  · cases a' with
    | false => exact .behindBreak hfeed ht
    | true =>
      obtain rfl := ha rfl
      exact .blank hfeed (Nat.le_add_right n i) ht
  · rw [lastFeed_cons hne, indented_break hfeed.isBreak, List.cons_append, shift_char hline, hshift]
    simp

theorem Shifted.char (hch : isBreak ch = false) (h : Shifted n i false false cs) (a : Bool) :
    Shifted n i a a (ch :: cs) := by
  obtain ⟨t, ht, hshift⟩ := h
  have hline : ch ≠ '\n' := by
    rintro rfl
    cases hch
  have hgo (r : List Char) : shift n false (ch :: (indented i false cs ++ (lastFeed cs ++ r))) =
      ch :: t ++ (lastFeed cs ++ shift n true r) := by
    rw [shift_char hline, hshift]
    rfl
  rw [Shifted, lastFeed_char hch, indented_char hch]
  cases a with
  | false => exact ⟨ch :: t, .char hch ht, hgo⟩
  | true =>
    refine ⟨spaces (n + i) ++ ch :: t, .start hch (.char hch ht), fun r ↦ ?_⟩
    rw [if_pos rfl, List.append_assoc, List.cons_append, shift_spaces hline, hgo, List.append_assoc]

theorem shifted (hfeeds : ∀ ch ∈ cs, isBreak ch = true → IsFeed ch)
    (hseparators : separatorsAtBreaks cs = true) (hnil : cs = [] → a = false)
    (ha : a' = a ∨ a = true ∧ a' = false ∧ startsBreak cs = true) : Shifted n i a a' cs := by
  induction cs generalizing a a' with
  | nil =>
    obtain rfl := hnil rfl
    obtain rfl := ha.resolve_right (by simp)
    exact shifted_nil n i
  | cons ch cs ih =>
    obtain ⟨hch, hbelow⟩ := List.forall_mem_cons.mp hfeeds
    rw [separatorsAtBreaks, Bool.and_eq_true, Bool.or_eq_true, Bool.and_eq_true] at hseparators
    obtain ⟨hseparator, hseparators⟩ := hseparators
    cases hbreak : isBreak ch with
    | false =>
      obtain rfl : a' = a := ha.resolve_right fun h ↦ by
        have hstarts : isBreak ch = true := h.2.2
        rw [hbreak] at hstarts
        cases hstarts
      exact .char hbreak (ih hbelow hseparators (fun _ ↦ rfl) (.inl rfl)) a'
    | true =>
      have hfeed := hch hbreak
      by_cases hline : ch = '\n'
      · subst hline
        by_cases hnil : cs = []
        · exact .feed (.inl hnil)
        · exact .feed (.inr (ih hbelow hseparators (fun h ↦ absurd h hnil) (.inl rfl)))
      · -- a separator, with a break directly behind it
        have hstarts : startsBreak cs = true := by
          refine hseparator.resolve_left fun h ↦ ?_
          obtain rfl | rfl | rfl := hfeed
          · exact hline rfl
          · exact absurd h.1 (by decide)
          · exact absurd h.2 (by decide)
        have hnil : cs ≠ [] := by
          rintro rfl
          cases hstarts
        refine .separator hfeed hline hnil
          (ih hbelow hseparators (fun h ↦ absurd h hnil) (.inr ⟨rfl, rfl, hstarts⟩)) fun ha' ↦ ?_
        exact ha.elim (fun h ↦ h.symm.trans ha') fun h ↦ h.1

end Shifted

/-! Texts and scalars. -/

/-- Where the text is written as a literal block, its separators are kept in front of breaks. -/
def keepsSeparators (s : String) : Bool :=
  decide (styleOf s ≠ .literal) || separatorsAtBreaks s.toList

theorem moves_textLine {s : String} (h : keepsSeparators s = true) (n i : Nat) :
    ∃ t, Leaf (n + i) t (textNode s) ∧ Moves n false (textLine (i + 2) s) t := by
  by_cases hstyle : styleOf s = .literal
  · obtain ⟨hblock, hfeed⟩ := allowsBlock_of_styleOf hstyle
    simp only [allowsBlock, Bool.and_eq_true, List.all_eq_true] at hblock
    have hseparators : separatorsAtBreaks s.toList = true := by
      simpa [keepsSeparators, hstyle] using h
    have hfeeds : ∀ ch ∈ s.toList, isBreak ch = true → IsFeed ch := fun ch hch ↦
      isFeed_of_isPrintable (hblock.1.1 ch hch)
    obtain ⟨t, ht, hshift⟩ : Shifted n (i + 2) true true s.toList :=
      shifted hfeeds hseparators (fun h ↦ absurd h (List.ne_nil_of_mem hfeed)) (.inl rfl)
    have hline : textLine (i + 2) s =
        blockText s.toList (indented (i + 2) true s.toList) ++ lastFeed s.toList := by
      have htext : textOf (i + 2) s = literal (i + 2) s.toList := by rw [textOf, hstyle]
      rw [textLine, lastFeed, htext, literal_eq]
      by_cases hlast : s.toList.getLast?.any isBreak = true
      · rw [if_pos ⟨hstyle, hlast⟩, if_pos hlast, List.append_nil]
      · rw [if_neg fun h ↦ hlast h.2, if_neg hlast]
    have hheader : OneLine ('|' :: ((if isMarked s.toList then ['2'] else []) ++
        chompMark s.toList)) := by
      obtain ⟨k, hk⟩ := exists_mark s.toList
      rw [hk]
      cases k <;> cases isMarked s.toList <;> decide
    have hblockText (t : List Char) : blockText s.toList t ++ lastFeed s.toList =
        '|' :: ((if isMarked s.toList then ['2'] else []) ++ chompMark s.toList) ++
          '\n' :: (t ++ lastFeed s.toList) := by
      rw [blockText]
      simp
    have hlines : Moves n true (indented (i + 2) true s.toList ++ lastFeed s.toList)
        (t ++ lastFeed s.toList) := by
      refine ⟨List.forall_mem_append.mpr ⟨isPrintable_of_mem_indented hblock.1.1 true, ?_⟩, fun r ↦ ?_⟩
      · rw [lastFeed]
        split
        · exact List.forall_mem_nil _
        · exact List.forall_mem_singleton.mpr (by decide)
      · rw [List.append_assoc, hshift, List.append_assoc]
    refine ⟨_, leaf_block hstyle (show Indented (n + i + 2) true s.toList t from ht), ?_⟩
    rw [hline, hblockText, hblockText]
    exact hlines.feed.line hheader
  · have hline : textLine (i + 2) s = textOf (i + 2) s ++ ['\n'] := by
      rw [textLine, if_neg fun h ↦ hstyle h.1]
    rw [hline]
    exact ⟨_, leaf_text hstyle (Nat.succ_pos _) (n + i),
      Moves.ended (oneLine_textOf hstyle (i + 2))⟩

/-! Trees. -/

mutual

/-- The node that a tree is written as. -/
def nodeOf : Json → Node
  | .null => .scalar {} true "null"
  | .bool b => .scalar {} true (.ofList (Json.boolText b))
  | .num x => .scalar {} true (.ofList (numberText x))
  | .str s => textNode s
  | .arr vs => .seq {} (itemNodes vs)
  | .obj ms => .map {} (entryNodes ms)

def itemNodes : List Json → List Node
  | [] => []
  | v :: vs => nodeOf v :: itemNodes vs

def entryNodes : List (String × Json) → List (Node × Node)
  | [] => []
  | (k, v) :: ms => (textNode k, nodeOf v) :: entryNodes ms

end

theorem startsToken_of_items {col : Nat} {vs : List Node} (h : Spelled col (.items vs) t) :
    StartsToken t := by
  obtain ⟨t, rfl⟩ := h.starts
  exact ⟨'-', _, rfl, by decide, by decide⟩

/-- Moved to the right by `n`, the text `w`, which is written for the column `i`, is that of the
part. -/
def Places (n i : Nat) (p : Part) (w : List Char) : Prop :=
  ∃ t, Spelled (n + i) p t ∧ Moves n false w t

section Places

variable {v : Json} {vs : List Json} {k : String} {ms : List (String × Json)}

theorem Places.list (h : Places n (i + 2) (.items (itemNodes vs)) w) :
    Places n i (.content (nodeOf (.arr vs))) w := by
  obtain ⟨t, ht, hmoves⟩ := h
  exact ⟨t, .list ht, hmoves⟩

theorem Places.map (h : Places n (i + 2) (.entries (entryNodes ms)) w) :
    Places n i (.content (nodeOf (.obj ms))) w := by
  obtain ⟨t, ht, hmoves⟩ := h
  exact ⟨t, .map ht, hmoves⟩

theorem Places.listBelow (h : Places n i (.items (itemNodes vs)) w) :
    Places n i (.value (nodeOf (.arr vs))) ('\n' :: (spaces i ++ w)) := by
  obtain ⟨t, ht, hmoves⟩ := h
  exact ⟨_, .listBelow ht, (hmoves.spaces (startsToken_of_items ht) i).feed⟩

theorem Places.mapBelow (h : Places n (i + 2) (.entries (entryNodes ms)) w) :
    Places n i (.value (nodeOf (.obj ms))) ('\n' :: (spaces (i + 2) ++ w)) := by
  obtain ⟨t, ht, hmoves⟩ := h
  exact ⟨_, .mapBelow ht, (hmoves.spaces ht.starts.startsToken (i + 2)).feed⟩

/-- What is behind the colon or on the line of a hyphen. -/
def PlacesAll (n : Nat) (v : Json) : Prop :=
  ∀ i, Places n i (.content (nodeOf v)) (inline i v) ∧ Places n i (.value (nodeOf v)) (value i v)

theorem places_items (hv : PlacesAll n v) (hvs : ∀ v ∈ vs, PlacesAll n v) (i : Nat) :
    Places n i (.items (itemNodes (v :: vs))) ('-' :: ' ' :: (inline i v ++ items i vs)) := by
  induction vs generalizing v with
  | nil =>
    obtain ⟨t, ht, hmoves⟩ := (hv i).1
    refine ⟨'-' :: ' ' :: t, .lastItem ht, ?_⟩
    rw [items, List.append_nil]
    exact hmoves.line (l := ['-', ' ']) (by decide)
  | cons v' vs ih =>
    obtain ⟨hv', hvs⟩ := List.forall_mem_cons.mp hvs
    obtain ⟨t, ht, hmoves⟩ := (hv i).1
    obtain ⟨t', ht', hmoves'⟩ := ih hv' hvs
    refine ⟨'-' :: ' ' :: (t ++ (spaces (n + i) ++ t')), .item ht ht', ?_⟩
    have hrows : items i (v' :: vs) = spaces i ++ '-' :: ' ' :: (inline i v' ++ items i vs) := by
      rw [items]
      simp
    rw [hrows]
    exact (hmoves.append (hmoves'.spaces (startsToken_of_items ht') i)).line (l := ['-', ' '])
      (by decide)

/-- An entry without the spaces in front. -/
def entryText (i : Nat) (k : String) (v : Json) : List Char :=
  keyText i k ++ (if isSimpleKey k then value i v else ' ' :: inline i v)

theorem places_entry (hk : keepsSeparators k = true) (hv : PlacesAll n v) (i : Nat) :
    Places n i (.entry (textNode k, nodeOf v)) (entryText i k v) := by
  rw [entryText, keyText]
  by_cases hsimple : isSimpleKey k = true
  · obtain ⟨hkey, hlength⟩ := inlineKey_text hsimple (i + 2)
    obtain ⟨t, ht, hmoves⟩ := (hv i).2
    refine ⟨_, .simple hkey hlength ht, ?_⟩
    rw [if_pos hsimple, if_pos hsimple, List.append_assoc]
    have hkey := oneLine_textOf (styleOf_of_isSimpleKey hsimple) (i + 2)
    exact (hmoves.line (l := [':']) (by decide)).line hkey
  · obtain ⟨tk, hkey, hmovesKey⟩ := moves_textLine hk n i
    obtain ⟨t, ht, hmoves⟩ := (hv i).1
    refine ⟨_, .marked hkey ht, ?_⟩
    rw [if_neg hsimple, if_neg hsimple]
    have hvalue : Moves n false (':' :: ' ' :: inline i v) (':' :: ' ' :: t) :=
      hmoves.line (l := [':', ' ']) (by decide)
    have hcolon : StartsToken (':' :: ' ' :: t) := ⟨':', _, rfl, by decide, by decide⟩
    have hall := (hmovesKey.append (hvalue.spaces hcolon i)).line (l := ['?', ' ']) (by decide)
    simpa using hall

theorem places_entries (hk : keepsSeparators k = true) (hv : PlacesAll n v)
    (hms : ∀ m ∈ ms, keepsSeparators m.1 = true ∧ PlacesAll n m.2) (i : Nat) :
    Places n i (.entries (entryNodes ((k, v) :: ms))) (entryText i k v ++ entries i ms) := by
  induction ms generalizing k v with
  | nil =>
    obtain ⟨t, ht, hmoves⟩ := places_entry hk hv i
    refine ⟨t, .lastEntry ht, ?_⟩
    rw [entries, List.append_nil]
    exact hmoves
  | cons m ms ih =>
    obtain ⟨⟨hk', hv'⟩, hms⟩ := List.forall_mem_cons.mp hms
    obtain ⟨t, ht, hmoves⟩ := places_entry hk hv i
    obtain ⟨t', ht', hmoves'⟩ := ih hk' hv' hms
    refine ⟨t ++ (spaces (n + i) ++ t'), .entries ht ht', ?_⟩
    have hrows : entries i (m :: ms) = spaces i ++ (entryText i m.1 m.2 ++ entries i ms) := by
      rw [entries, entryText]
      simp
    rw [hrows]
    exact hmoves.append (hmoves'.spaces ht'.starts.startsToken i)

/-- What is no collection in a block stands on the line that has been started. -/
theorem placesAll_of_leaf
    (hleaf : ∀ i, ∃ t, Leaf (n + i) t (nodeOf v) ∧ Moves n false (inline i v) t)
    (hvalue : ∀ i, value i v = ' ' :: inline i v) : PlacesAll n v := by
  intro i
  obtain ⟨t, hleaf, hmoves⟩ := hleaf i
  rw [hvalue]
  exact ⟨⟨t, .leaf hleaf, hmoves⟩, ⟨' ' :: t, .beside hleaf, hmoves.line (l := [' ']) (by decide)⟩⟩

theorem placesAll_of_inline (h : Inline cs (nodeOf v)) (hline : OneLine cs)
    (hinline : ∀ i, inline i v = cs ++ ['\n']) (hvalue : ∀ i, value i v = ' ' :: inline i v) :
    PlacesAll n v := by
  refine placesAll_of_leaf (fun i ↦ ⟨_, h.leaf (n + i), ?_⟩) hvalue
  rw [hinline]
  exact Moves.ended hline

theorem placesAll_list (hv : PlacesAll n v) (hvs : ∀ v ∈ vs, PlacesAll n v) :
    PlacesAll n (.arr (v :: vs)) := by
  intro i
  constructor
  · rw [Writer.inline]
    exact (places_items hv hvs (i + 2)).list
  · rw [value]
    have hbelow := (places_items hv hvs i).listBelow
    simpa using hbelow

theorem placesAll_map (hk : keepsSeparators k = true) (hv : PlacesAll n v)
    (hms : ∀ m ∈ ms, keepsSeparators m.1 = true ∧ PlacesAll n m.2) :
    PlacesAll n (.obj ((k, v) :: ms)) := by
  intro i
  constructor
  · rw [Writer.inline]
    exact (places_entries hk hv hms (i + 2)).map
  · have hbelow := (places_entries hk hv hms (i + 2)).mapBelow
    rw [value]
    simpa [entryText] using hbelow

theorem oneLine_decimalInt (z : Int) : OneLine (Text.decimalInt z) := by
  intro ch hch
  obtain hdigit | rfl := Text.isDigit_or_hyphen_of_mem_decimalInt hch
  · obtain ⟨hle, hge⟩ := Text.isDigit_iff.mp hdigit
    refine ⟨?_, ?_⟩
    · simp only [isPrintable, Bool.or_eq_true, Bool.and_eq_true, decide_eq_true_eq, beq_iff_eq]
      omega
    · rintro rfl
      cases hdigit
  · decide

/-- A tree of integers, moved to the right. -/
theorem placesAll {d : Nat} (hv : v.Within d) (hint : v.isIntegral = true)
    (htexts : v.allTexts keepsSeparators = true) (n : Nat) : PlacesAll n v := by
  induction hv with
  | null =>
    have hline : PlainLine ['n', 'u', 'l', 'l'] := plainLine_word (by decide)
    exact placesAll_of_inline hline.inlineKey.toInline (by decide) (fun _ ↦ rfl) (fun _ ↦ rfl)
  | bool d b =>
    have hline : PlainLine (Json.boolText b) := plainLine_word (by cases b <;> decide)
    exact placesAll_of_inline hline.inlineKey.toInline (by cases b <;> decide) (fun _ ↦ rfl)
      (fun _ ↦ rfl)
  | @num d x _ =>
    cases x with
    | int z =>
      exact placesAll_of_inline (plainLine_decimalInt z).inlineKey.toInline (oneLine_decimalInt z)
        (fun _ ↦ rfl) (fun _ ↦ rfl)
    | float x => cases hint
  | str d s => exact placesAll_of_leaf (moves_textLine htexts n) fun _ ↦ rfl
  | @arr d vs _ ih =>
    have hvs : ∀ v ∈ vs, PlacesAll n v := fun v hv ↦
      ih v hv (Json.isIntegral_arr.mp hint v hv) (Json.allTexts_arr.mp htexts v hv)
    cases vs with
    | nil => exact placesAll_of_inline inline_items (by decide) (fun _ ↦ rfl) (fun _ ↦ rfl)
    | cons v vs =>
      obtain ⟨hv, hvs⟩ := List.forall_mem_cons.mp hvs
      exact placesAll_list hv hvs
  | @obj d ms _ _ ih =>
    have hms : ∀ m ∈ ms, keepsSeparators m.1 = true ∧ PlacesAll n m.2 := fun m hm ↦
      ⟨(Json.allTexts_obj.mp htexts m hm).1,
        ih m hm (Json.isIntegral_obj.mp hint m hm) (Json.allTexts_obj.mp htexts m hm).2⟩
    cases ms with
    | nil => exact placesAll_of_inline inline_entries (by decide) (fun _ ↦ rfl) (fun _ ↦ rfl)
    | cons m ms =>
      obtain ⟨⟨hk, hv⟩, hms⟩ := List.forall_mem_cons.mp hms
      exact placesAll_map hk hv hms

end Places

end DeliveryCharts.Yaml
