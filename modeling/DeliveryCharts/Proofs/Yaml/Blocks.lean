import DeliveryCharts.Proofs.Yaml.Inline
import DeliveryCharts.Proofs.Yaml.Literal

/-!
Lists and maps in blocks. What a list or a map holds stands two columns further to the right, but a
list behind a key stands in the column of the key.
-/

namespace DeliveryCharts.Yaml

open Writer (spaces)

variable {col margin : Nat} {unindented : Bool} {e e' r t : List Char} {c d : Cursor} {v : Node}
variable {handles : Handles}

/-! Places in a text. -/

/-- A text starts with a token. -/
def StartsToken (e : List Char) : Prop :=
  ∃ ch t, e = ch :: t ∧ isGap ch = false ∧ ch ≠ '#'

theorem StartsToken.append (h : StartsToken e) (t : List Char) : StartsToken (e ++ t) := by
  obtain ⟨ch, e, rfl, hgap, hsign⟩ := h
  exact ⟨ch, e ++ t, rfl, hgap, hsign⟩

theorem StartsContent.startsToken (h : StartsContent e) : StartsToken e := by
  obtain ⟨ch, t, rfl, hgap, hhead, -⟩ := h
  exact ⟨ch, t, rfl, hgap, fun hch ↦ hhead (by simp [hch])⟩

theorem AtToken.skip (h : AtToken col r c) (hr : StartsToken r) : c.skip false = c := by
  obtain ⟨ch, t, rfl, hgap, hsign⟩ := hr
  exact skip_at h.rest hgap hsign

/-- Behind spaces on the same line. -/
theorem skip_spaces {n : Nat} (hrest : c.rest = spaces n ++ r) (hr : StartsToken r) :
    c.skip false = c.advance n ∧ (c.advance n).rest = r := by
  obtain ⟨ch, t, rfl, hgap, hsign⟩ := hr
  have hskip := skip_of_token (spaces n) (fun _ ↦ eq_space_of_mem) hrest hgap hsign false
  rw [length_spaces] at hskip
  exact ⟨hskip, by rw [Cursor.advance_rest, hrest, List.drop_left' (length_spaces n)]⟩

theorem Behind.atToken' {line n : Nat} (h : Behind line (spaces n ++ r) c) (hr : StartsToken r) :
    AtToken n r (c.skip false) ∧ line < (c.skip false).line := by
  obtain ⟨ch, t, rfl, hgap, hsign⟩ := hr
  exact h.atToken hgap hsign

theorem Behind.below {line : Nat} (h : Behind line r c) (hr : Onward margin unindented r) :
    line < (c.skip false).line ∧ (c.skip false).fresh = true := by
  cases hr with
  | nil => exact ⟨h.atEnd.2.2, h.atEnd.2.1⟩
  | token hpos hn hgap hsign hhyphen =>
    obtain ⟨htoken, hline⟩ := h.atToken hgap hsign
    exact ⟨hline, htoken.fresh⟩

theorem Onward.weaken {margin' : Nat} (h : Onward margin unindented r) (hle : margin ≤ margin') :
    Onward margin' false r := by
  cases h with
  | nil => exact .nil
  | token hpos hn hgap hsign => exact .token hpos (by omega) hgap hsign (by simp)

theorem Onward.of_token (hpos : 0 < col) (hlt : col < margin) (hr : StartsToken r)
    (hhyphen : unindented = true → ∀ t, r = '-' :: t → endsWord t = false) :
    Onward margin unindented (spaces col ++ r) := by
  obtain ⟨ch, t, rfl, hgap, hsign⟩ := hr
  exact .token hpos hlt hgap hsign fun hu _ hch ↦ hhyphen hu t (by rw [hch])

/-- A node starts here, which has no properties. -/
theorem readFront_of_token {p : Cursor → Bool} {ch : Char} (hrest : c.rest = ch :: r)
    (hanchor : ch ≠ '&') (htag : ch ≠ '!') :
    readFront handles false p c = .ok { start := c, cursor := c } := by
  rw [readFront, Sequel.readFront_go_of_cons hrest, if_neg hanchor, if_neg htag, ite_self]

theorem atClose_eq_false {ch : Char} (hrest : c.rest = ch :: r) (hcol : 0 < c.col) :
    c.atClose = false := by
  rw [Cursor.atClose, atEnd_eq_false hrest hcol]
  simp [Cursor.atDirective, Nat.ne_of_gt hcol]

/-! Values that are no collections in blocks. -/

theorem AtContent.blockNode_of_below {n : Nat} {content : Node} {next : Cursor}
    (h : AtContent margin c)
    (hcontent : flowContent handles n margin false c = .ok (content, next))
    (hattach : orFault (content.attach? {}) = .ok content) (unindented : Bool)
    (hline : c.line < (next.skip false).line) (hfresh : (next.skip false).fresh = true) :
    blockNode handles (n + 1) margin unindented c = .ok (content, next) := by
  cases hcolon : atColon false (next.skip false) with
  | false => exact h.blockNode_eq hcontent hattach unindented hcolon
  | true =>
    have hkey : isKeyFrom c (next.skip false) = false := by simp [isKeyFrom, Nat.ne_of_gt hline]
    have hand : orFault (Properties.and? {} {}) = .ok {} := rfl
    rw [blockNode.eq_2, h.readFront_eq]
    simp only [bind, Except.bind, h.close, h.isOutside_eq unindented, h.hyphen, h.question,
      h.head '|' (by decide), h.head '>' (by decide), hcontent, hcolon, hkey, hfresh, hand, hattach,
      Bool.and_false]
    rfl

/-- The text `e` is read as `v` inside a collection at the column `col`. -/
structure Leaf (col : Nat) (e : List Char) (v : Node) : Prop where
  starts : StartsToken e
  read : ∀ (handles : Handles) (n : Nat) {unindented : Bool} {c : Cursor} {r : List Char},
    c.rest = e ++ r → col < c.col → Onward (col + 1) unindented r → ∃ next,
      blockNode handles (n + 3) (col + 1) unindented c = .ok (v, next) ∧ Behind c.line r next

theorem Inline.leaf (h : Inline e v) (col : Nat) : Leaf col (e ++ ['\n']) v where
  starts := h.starts.startsToken.append _
  read handles n := by
    intro unindented c r hrest hcol hr
    rw [List.append_assoc, List.singleton_append] at hrest
    have hpos : 0 < c.col := Nat.zero_lt_of_lt hcol
    obtain ⟨next, hflow, hbehind⟩ := h.value handles n hrest hpos (Nat.succ_pos col) hcol hr
    have hcontent : AtContent (col + 1) c :=
      StartsContent.atContent (by rw [hrest]; exact h.starts.append _) hpos hcol
    have hattach : orFault (v.attach? {}) = .ok v := by rw [h.attach]; rfl
    obtain ⟨hline, hfresh⟩ := hbehind.below hr
    exact ⟨next, hcontent.blockNode_of_below hflow hattach unindented hline hfresh, hbehind⟩

theorem leaf_literal {cs t : List Char} (hne : cs ≠ []) (htabs : ∀ ch ∈ cs, ch ≠ '\t')
    (ht : Indented (col + 2) true cs t) :
    Leaf col (blockText cs t ++ lastFeed cs) (.scalar {} false (.ofList cs)) where
  starts := StartsToken.append ⟨'|', _, rfl, by decide, by decide⟩ _
  read handles n := by
    intro unindented c r hrest hcol hr
    rw [List.append_assoc] at hrest
    obtain ⟨next, hblock, hbehind⟩ := block_literal hne htabs (Nat.succ_pos col) ht hr hrest
    refine ⟨next, ?_, hbehind⟩
    rw [blockText, List.cons_append] at hrest
    have hpos : 0 < c.col := Nat.zero_lt_of_lt hcol
    have houtside : isOutside (col + 1) unindented c = false := by
      simp [isOutside, Nat.not_lt.mpr hcol]
    have hindicator {ch : Char} (hch : ch ≠ '|') : atIndicator ch c = false := by
      rw [atIndicator, hrest]
      simp [Ne.symm hch]
    have hhead : c.rest.head? = some '|' := by rw [hrest]; rfl
    have hand : orFault (Properties.and? {} {}) = .ok {} := rfl
    rw [blockNode.eq_2, readFront_of_token hrest (by decide) (by decide)]
    simp only [bind, Except.bind, atClose_eq_false hrest hpos, houtside,
      hindicator (show '-' ≠ '|' by decide), hindicator (show '?' ≠ '|' by decide), hhead, hand,
      decide_true, hblock]
    rfl

/-! The texts of blocks, part by part. -/

/-- What a text may be read as: a node in a collection, what stands behind the colon of a key, and
the rows of a list and of a map. -/
inductive Part where
  | content (v : Node)
  | value (v : Node)
  | items (vs : List Node)
  | entry (m : Node × Node)
  | entries (ms : List (Node × Node))

/-- The text of a part, in or of a collection at the column `col`. A row starts at its column. -/
inductive Spelled : Nat → Part → List Char → Prop
  | leaf {col : Nat} {e : List Char} {v : Node} (h : Leaf col e v) : Spelled col (.content v) e
  | list {col : Nat} {e : List Char} {vs : List Node} (h : Spelled (col + 2) (.items vs) e) :
      Spelled col (.content (.seq {} vs)) e
  | map {col : Nat} {e : List Char} {ms : List (Node × Node)}
      (h : Spelled (col + 2) (.entries ms) e) : Spelled col (.content (.map {} ms)) e
  | beside {col : Nat} {e : List Char} {v : Node} (h : Leaf col e v) :
      Spelled col (.value v) (' ' :: e)
  | listBelow {col : Nat} {e : List Char} {vs : List Node} (h : Spelled col (.items vs) e) :
      Spelled col (.value (.seq {} vs)) ('\n' :: (spaces col ++ e))
  | mapBelow {col : Nat} {e : List Char} {ms : List (Node × Node)}
      (h : Spelled (col + 2) (.entries ms) e) :
      Spelled col (.value (.map {} ms)) ('\n' :: (spaces (col + 2) ++ e))
  | lastItem {col : Nat} {e : List Char} {v : Node} (h : Spelled col (.content v) e) :
      Spelled col (.items [v]) ('-' :: ' ' :: e)
  | item {col : Nat} {e e' : List Char} {v : Node} {vs : List Node}
      (h : Spelled col (.content v) e) (h' : Spelled col (.items vs) e') :
      Spelled col (.items (v :: vs)) ('-' :: ' ' :: (e ++ (spaces col ++ e')))
  | simple {col : Nat} {e e' : List Char} {k v : Node} (h : InlineKey e k) (hlength : e.length ≤ 1024)
      (h' : Spelled col (.value v) e') : Spelled col (.entry (k, v)) (e ++ ':' :: e')
  | marked {col : Nat} {e e' : List Char} {k v : Node} (h : Leaf col e k)
      (h' : Spelled col (.content v) e') :
      Spelled col (.entry (k, v)) ('?' :: ' ' :: (e ++ (spaces col ++ ':' :: ' ' :: e')))
  | lastEntry {col : Nat} {e : List Char} {m : Node × Node} (h : Spelled col (.entry m) e) :
      Spelled col (.entries [m]) e
  | entries {col : Nat} {e e' : List Char} {m : Node × Node} {ms : List (Node × Node)}
      (h : Spelled col (.entry m) e) (h' : Spelled col (.entries ms) e') :
      Spelled col (.entries (m :: ms)) (e ++ (spaces col ++ e'))

/-- How the parts are read, given what follows. The bound on the steps is by the length of the text. -/
def Reads (col : Nat) (e : List Char) : Part → Prop
  | .content v => ∀ (handles : Handles) {fuel : Nat} {unindented : Bool} {c : Cursor} {r : List Char},
      4 * e.length + 3 ≤ fuel → AtToken (col + 2) (e ++ r) c → Onward (col + 1) unindented r →
      ∃ next, blockNode handles fuel (col + 1) unindented c = .ok (v, next) ∧ Behind c.line r next
  | .value v => ∀ (handles : Handles) {fuel : Nat} {c : Cursor} {r : List Char},
      4 * e.length + 4 ≤ fuel → c.rest = e ++ r → col < c.col → Onward (col + 1) true r →
      ∃ next, blockValue handles fuel (col + 1) c = .ok (v, next) ∧ Behind c.line r next
  | .items vs => ∀ (handles : Handles) {fuel margin : Nat} {unindented : Bool} {c : Cursor}
      {r : List Char}, 4 * e.length + 2 ≤ fuel → AtToken col (e ++ r) (c.skip false) →
      (margin ≤ col ∨ margin = col + 1 ∧ unindented = true) → Onward margin unindented r →
      ∃ next, blockItems handles fuel margin col c = .ok (vs, next) ∧
        Behind (c.skip false).line r next
  | .entry m => ∀ (handles : Handles) {fuel : Nat} {d : Cursor} {r : List Char},
      4 * e.length + 2 ≤ fuel + 1 → AtToken col (e ++ r) d → Onward (col + 1) true r →
      ∃ next, Behind d.line r next ∧
        (∀ c : Cursor, c.skip false = d → blockEntries handles (fuel + 1) col c =
          blockEntries handles fuel col next >>= fun ms ↦ .ok (m :: ms.1, ms.2)) ∧
        ∀ {margin : Nat} (unindented : Bool), margin ≤ col →
          (blockNode handles (fuel + 1) margin unindented d =
            blockEntries handles fuel col next >>= fun ms ↦ .ok (.map {} (m :: ms.1), ms.2)) ∨
          blockNode handles (fuel + 1) margin unindented d =
            blockEntries handles fuel col d >>= fun ms ↦ .ok (.map {} ms.1, ms.2)
  | .entries ms =>
    (∀ (handles : Handles) {fuel : Nat} {unindented : Bool} {c : Cursor} {r : List Char},
      4 * e.length + 2 ≤ fuel → AtToken col (e ++ r) (c.skip false) → Onward col unindented r →
      ∃ next, blockEntries handles fuel col c = .ok (ms, next) ∧
        Behind (c.skip false).line r next) ∧
    ∀ (handles : Handles) {fuel margin : Nat} {unindented : Bool} (unindented' : Bool) {c : Cursor}
      {r : List Char}, 4 * e.length + 3 ≤ fuel → AtToken col (e ++ r) c → margin ≤ col →
      Onward col unindented r →
      ∃ next, blockNode handles fuel margin unindented' c = .ok (.map {} ms, next) ∧
        Behind c.line r next

/-! One row, and the end of the rows. -/

section Rows

variable {ch : Char} {fuel line : Nat} {next : Cursor}

theorem Behind.skip_skip (h : Behind line r c) (hr : Onward margin unindented r) :
    Behind line r (c.skip false) := by
  refine h.skip_eq ?_
  cases hr with
  | nil => exact skip_of_nil h.atEnd.1
  | token hpos hn hgap hsign hhyphen => exact skip_at (h.atToken hgap hsign).1.rest hgap hsign

/-- The rows end at a token further to the left; those of a list behind a key also end at the next
key. -/
theorem blockItems_end (hmargin : margin ≤ col ∨ margin = col + 1 ∧ unindented = true)
    (hr : Onward margin unindented r) (h : Behind line r c) :
    blockItems handles (fuel + 1) margin col c = .ok ([], c.skip false) := by
  rw [blockItems.eq_2]
  cases hr with
  | nil =>
    rw [Cursor.atClose, atEnd_of_nil h.atEnd.1]
    rfl
  | @token n ch r hpos hn hgap hsign hhyphen =>
    have htoken := (h.atToken hgap hsign).1
    have hclose := atClose_eq_false htoken.rest (by rw [htoken.col]; exact hpos)
    rw [hclose, htoken.col]
    by_cases hlt : n < col
    · simp only [decide_eq_true hlt, Bool.or_true, if_true]
      rfl
    · obtain ⟨hcol, hu⟩ := hmargin.resolve_left (by omega)
      have hhyphen' : atIndicator '-' (c.skip false) = false := by
        rw [atIndicator, htoken.rest]
        by_cases hch : ch = '-'
        · simp [hhyphen hu (by omega) hch]
        · simp [hch]
      have hright : decide (col < margin) = true := decide_eq_true (by omega)
      simp only [decide_eq_false hlt, hhyphen', hright, Bool.or_self, Bool.not_false, Bool.and_self,
        Bool.false_eq_true, if_false, if_true]
      rfl

theorem blockEntries_end (hr : Onward col unindented r) (h : Behind line r c) :
    blockEntries handles (fuel + 1) col c = .ok ([], c.skip false) := by
  rw [blockEntries.eq_2]
  cases hr with
  | nil =>
    rw [Cursor.atClose, atEnd_of_nil h.atEnd.1]
    rfl
  | token hpos hn hgap hsign hhyphen =>
    rw [(h.atToken hgap hsign).1.col, decide_eq_true hn, Bool.or_true]
    rfl

/-- Behind a hyphen, a question mark or a colon that stands alone. -/
theorem AtToken.behindIndicator (h : AtToken col (ch :: ' ' :: r) d) (hr : StartsToken r) :
    ∃ d', Cursor.skip false { d.advance 1 with fresh := true } = d' ∧ AtToken (col + 2) r d' ∧
      d'.line = d.line := by
  obtain ⟨hskip, hrest⟩ := skip_spaces (n := 1) (c := { d.advance 1 with fresh := true })
    (Cursor.advance_one_rest h.rest) hr
  refine ⟨_, hskip, ⟨hrest, ?_, rfl⟩, rfl⟩
  show d.col + 1 + 1 = col + 2
  rw [h.col]

theorem atIndicator_of_token (h : AtToken col (ch :: ' ' :: r) d) (ch' : Char) :
    atIndicator ch' d = (ch == ch') := by
  rw [atIndicator, h.rest]
  simp [endsWord, isGap, isSpaceOrTab]

theorem blockItems_item (handles : Handles) (hpos : 0 < col)
    (h : AtToken col ('-' :: ' ' :: r) (c.skip false)) (hr : StartsToken r) :
    ∃ d, AtToken (col + 2) r d ∧ d.line = (c.skip false).line ∧ ∀ fuel margin,
      blockItems handles (fuel + 1) margin col c =
        blockNode handles fuel (col + 1) false d >>= fun v ↦
          blockItems handles fuel margin col v.2 >>= fun vs ↦ .ok (v.1 :: vs.1, vs.2) := by
  obtain ⟨d, hd, htoken, hline⟩ := h.behindIndicator hr
  refine ⟨d, htoken, hline, fun fuel margin ↦ ?_⟩
  have hclose := atClose_eq_false h.rest (by rw [h.col]; exact hpos)
  have hhyphen : atIndicator '-' (c.skip false) = true := atIndicator_of_token h '-'
  rw [blockItems.eq_2]
  simp only [bind, Except.bind, hclose, h.col, h.fresh, hhyphen, hd, Nat.lt_irrefl, ne_eq,
    not_true_eq_false]
  rfl

/-- A list starts here. -/
theorem blockNode_list (hpos : 0 < col) (h : AtToken col ('-' :: ' ' :: r) c)
    (houtside : isOutside margin unindented c = false) :
    blockNode handles (fuel + 1) margin unindented c =
      blockItems handles fuel margin col c >>= fun vs ↦ .ok (.seq {} vs.1, vs.2) := by
  have hclose := atClose_eq_false h.rest (by rw [h.col]; exact hpos)
  have hhyphen : atIndicator '-' c = true := atIndicator_of_token h '-'
  have hand : orFault (Properties.and? {} {}) = .ok {} := rfl
  rw [blockNode.eq_2, readFront_of_token h.rest (by decide) (by decide)]
  simp only [bind, Except.bind, hclose, houtside, hhyphen, h.fresh, h.col, hand]
  rfl

/-- A map starts here, with a key behind a question mark. -/
theorem blockNode_marked (hpos : 0 < col) (h : AtToken col ('?' :: ' ' :: r) c)
    (hmargin : margin ≤ col) (unindented : Bool) :
    blockNode handles (fuel + 1) margin unindented c =
      blockEntries handles fuel col c >>= fun ms ↦ .ok (.map {} ms.1, ms.2) := by
  have hclose := atClose_eq_false h.rest (by rw [h.col]; exact hpos)
  have hhyphen : atIndicator '-' c = false := atIndicator_of_token h '-'
  have hmark : atIndicator '?' c = true := atIndicator_of_token h '?'
  have houtside : isOutside margin unindented c = false := by
    simp [isOutside, h.col, Nat.not_lt.mpr hmargin]
  have hand : orFault (Properties.and? {} {}) = .ok {} := rfl
  rw [blockNode.eq_2, readFront_of_token h.rest (by decide) (by decide)]
  simp only [bind, Except.bind, hclose, houtside, hhyphen, hmark, h.fresh, h.col, hand]
  rfl

/-- Behind a key, at its colon. -/
def atKeysColon (e : List Char) (d : Cursor) : Cursor := (d.advance e.length).unfresh

/-- Behind a key and its colon. -/
def behindKeysColon (e : List Char) (d : Cursor) : Cursor := ((atKeysColon e d).advance 1).unfresh

theorem atKeysColon_rest (h : d.rest = e ++ ':' :: r) : (atKeysColon e d).rest = ':' :: r := by
  show d.rest.drop e.length = _
  rw [h, List.drop_left]

theorem colon_of_key (hrest : d.rest = e ++ ':' :: r) (hr : endsWord r = true)
    (hlength : e.length ≤ 1024) : (atKeysColon e d).skip false = atKeysColon e d ∧
      atColon false (atKeysColon e d) = true ∧ isKeyFrom d (atKeysColon e d) = true := by
  have hcolon := atKeysColon_rest hrest
  refine ⟨skip_at hcolon (by decide) (by decide), ?_, ?_⟩
  · rw [atColon, hcolon]
    simpa using hr
  · simp [isKeyFrom, atKeysColon, Cursor.unfresh, hlength]

section Simple

variable {k : Node} (hkey : InlineKey e k) (hlength : e.length ≤ 1024) (hpos : 0 < col)
  (hr : endsWord r = true) (h : AtToken col (e ++ ':' :: r) d)
include hkey hlength hpos hr h

theorem blockEntries_simple (hd : c.skip false = d) (fuel : Nat) :
    blockEntries handles (fuel + 2) col c =
      blockValue handles (fuel + 1) (col + 1) (behindKeysColon e d) >>= fun v ↦
        blockEntries handles (fuel + 1) col v.2 >>= fun ms ↦ .ok ((k, v.1) :: ms.1, ms.2) := by
  have hcontent : AtContent 0 d := StartsContent.atContent
    (by rw [h.rest]; exact hkey.starts.append _) (by rw [h.col]; exact hpos) (Nat.zero_le _)
  have hclose := hcontent.close
  have hquestion := hcontent.question
  obtain ⟨ch, t, hrest⟩ : ∃ ch t, d.rest = ch :: t := by
    obtain ⟨ch, t, he, -⟩ := hkey.starts
    exact ⟨ch, _, by rw [h.rest, he]; rfl⟩
  have hne {i : Char} (hi : i ∈ ['&', '!', '|', '>']) : ch ≠ i := fun hch ↦
    hcontent.head i hi (by rw [hrest, hch]; rfl)
  obtain ⟨hskip, hcolon, hfrom⟩ := colon_of_key h.rest hr hlength
  have hflow : flowContent handles (fuel + 1) (col + 1) false d = .ok (k, atKeysColon e d) :=
    hkey.key handles fuel h.rest hr (by rw [h.col]; exact hpos)
      (Nat.le_of_eq (congrArg (· + 1) h.col.symm))
  have hattach : orFault (k.attach? {}) = .ok k := by rw [hkey.attach]; rfl
  rw [blockEntries.eq_2, hd, hclose, hquestion, h.col, h.fresh,
    readFront_of_token hrest (hne (by decide)) (hne (by decide))]
  simp only [bind, Except.bind, Nat.lt_irrefl, ne_eq, not_true_eq_false, hflow, hskip, hcolon, hfrom,
    hattach]
  rfl

theorem blockNode_simple (hmargin : margin ≤ col) (unindented : Bool) (fuel : Nat) :
    blockNode handles (fuel + 2) margin unindented d =
      blockValue handles (fuel + 1) (col + 1) (behindKeysColon e d) >>= fun v ↦
        blockEntries handles (fuel + 1) col v.2 >>= fun ms ↦ .ok (.map {} ((k, v.1) :: ms.1), ms.2) := by
  have hcontent : AtContent margin d := StartsContent.atContent
    (by rw [h.rest]; exact hkey.starts.append _) (by rw [h.col]; exact hpos)
    (by rw [h.col]; exact hmargin)
  obtain ⟨hskip, hcolon, hfrom⟩ := colon_of_key h.rest hr hlength
  have hflow : flowContent handles (fuel + 1) margin false d = .ok (k, atKeysColon e d) :=
    hkey.key handles fuel h.rest hr (by rw [h.col]; exact hpos)
      (by rw [h.col]; exact Nat.le_succ_of_le hmargin)
  have hattach : orFault (k.attach? {}) = .ok k := by rw [hkey.attach]; rfl
  rw [hcontent.blockNode_of_colon hflow hattach unindented (by rw [hskip]; exact hcolon) h.fresh
    (by rw [hskip]; exact hfrom), hskip, h.col]
  rfl

end Simple

/-- A key behind a question mark, and the colon on a line below. -/
theorem blockEntries_marked (handles : Handles) (hpos : 0 < col)
    (h : AtToken col ('?' :: ' ' :: r) d) (hr : StartsToken r) :
    ∃ start, AtToken (col + 2) r start ∧ start.line = d.line ∧ ∀ {k next colon t fuel c},
      blockNode handles fuel (col + 1) true start = .ok (k, next) → next.skip false = colon →
      AtToken col (':' :: ' ' :: t) colon → c.skip false = d →
      blockEntries handles (fuel + 1) col c =
        blockValue handles fuel (col + 1) { colon.advance 1 with fresh := true } >>= fun v ↦
          blockEntries handles fuel col v.2 >>= fun ms ↦ .ok ((k, v.1) :: ms.1, ms.2) := by
  obtain ⟨start, hstart, htoken, hline⟩ := h.behindIndicator hr
  refine ⟨start, htoken, hline, ?_⟩
  intro k next colon t fuel c hnode hskip hcolon hd
  have hclose := atClose_eq_false h.rest (by rw [h.col]; exact hpos)
  have hmark : atIndicator '?' d = true := atIndicator_of_token h '?'
  have hclose' := atClose_eq_false hcolon.rest (by rw [hcolon.col]; exact hpos)
  have hmark' : atIndicator ':' colon = true := atIndicator_of_token hcolon ':'
  rw [blockEntries.eq_2, hd]
  simp only [bind, Except.bind, hclose, hmark, h.col, h.fresh, hstart, Nat.lt_irrefl, ne_eq,
    not_true_eq_false, hnode, hskip, hclose', hmark', hcolon.col, hcolon.fresh, BEq.rfl]
  rfl

end Rows

/-! Reading the parts. -/

/-- A row of a map starts with a token that is no hyphen of a list. -/
def StartsKey (e : List Char) : Prop :=
  ∃ ch t, e = ch :: t ∧ isGap ch = false ∧ ch ≠ '#' ∧ (ch = '-' → endsWord t = false)

theorem StartsKey.append (h : StartsKey e) (t : List Char) : StartsKey (e ++ t) := by
  obtain ⟨ch, e, rfl, hgap, hsign, hends⟩ := h
  exact ⟨ch, e ++ t, rfl, hgap, hsign, fun hch ↦ endsWord_append_of_false (hends hch) t⟩

theorem StartsContent.startsKey (h : StartsContent e) : StartsKey e := by
  obtain ⟨ch, t, rfl, hgap, hhead, hends⟩ := h
  exact ⟨ch, t, rfl, hgap, fun hch ↦ hhead (by simp [hch]), fun hch ↦ hends (.inl hch)⟩

theorem StartsKey.startsToken (h : StartsKey e) : StartsToken e := by
  obtain ⟨ch, t, rfl, hgap, hsign, -⟩ := h
  exact ⟨ch, t, rfl, hgap, hsign⟩

theorem StartsKey.onward (h : StartsKey e) (hpos : 0 < col) :
    Onward (col + 1) true (spaces col ++ e) := by
  obtain ⟨ch, t, rfl, hgap, hsign, hends⟩ := h
  exact .token hpos (Nat.lt_succ_self col) hgap hsign fun _ _ ↦ hends

/-- How the text of a part starts. -/
def Part.Starts : Part → List Char → Prop
  | .content _, e => StartsToken e
  | .value _, e => ∃ ch t, e = ch :: t ∧ isGap ch = true
  | .items _, e => ∃ t, e = '-' :: ' ' :: t
  | .entry _, e => StartsKey e
  | .entries _, e => StartsKey e

theorem Spelled.starts {p : Part} (h : Spelled col p e) : p.Starts e := by
  induction h with
  | leaf h => exact h.starts
  | list h ih =>
    obtain ⟨t, rfl⟩ := ih
    exact ⟨'-', _, rfl, by decide, by decide⟩
  | map h ih => exact ih.startsToken
  | beside h => exact ⟨' ', _, rfl, rfl⟩
  | listBelow h => exact ⟨'\n', _, rfl, rfl⟩
  | mapBelow h => exact ⟨'\n', _, rfl, rfl⟩
  | lastItem h => exact ⟨_, rfl⟩
  | item h h' => exact ⟨_, rfl⟩
  | simple h => exact h.starts.startsKey.append _
  | marked h => exact ⟨'?', _, rfl, by decide, by decide, fun hch ↦ absurd hch (by decide)⟩
  | lastEntry h ih => exact ih
  | entries h h' ih => exact ih.append _

section Reads

variable {vs : List Node} {ms : List (Node × Node)} {m : Node × Node} {k : Node}

theorem Leaf.reads (h : Leaf col e v) : Reads col e (.content v) := by
  intro handles fuel unindented c r hfuel hc hr
  obtain ⟨n, rfl⟩ : ∃ n, fuel = n + 3 := ⟨fuel - 3, by omega⟩
  exact h.read handles n hc.rest (by rw [hc.col]; omega) hr

/-- A list with its rows to the right of the column, or behind a key in it. -/
theorem Reads.node_of_items (h : Reads col e (.items vs)) (hpos : 0 < col)
    (hstarts : (Part.items vs).Starts e) {fuel : Nat} (hfuel : 4 * e.length + 3 ≤ fuel)
    (hmargin : margin ≤ col ∨ margin = col + 1 ∧ unindented = true) (hc : AtToken col (e ++ r) c)
    (hr : Onward margin unindented r) (handles : Handles) :
    ∃ next, blockNode handles fuel margin unindented c = .ok (.seq {} vs, next) ∧
      Behind c.line r next := by
  obtain ⟨fuel, rfl⟩ : ∃ n, fuel = n + 1 := ⟨fuel - 1, by omega⟩
  obtain ⟨t, rfl⟩ := hstarts
  have hskip : c.skip false = c := hc.skip ⟨'-', _, rfl, by decide, by decide⟩
  have houtside : isOutside margin unindented c = false := by
    have hhyphen : atIndicator '-' c = true := atIndicator_of_token hc '-'
    rw [isOutside, hhyphen, hc.col]
    obtain hle | ⟨rfl, hu⟩ := hmargin
    · simp [Nat.not_lt.mpr hle]
    · simp [hu]
  obtain ⟨next, hitems, hbehind⟩ := h handles (show _ ≤ fuel by omega)
    (by rw [hskip]; exact hc) hmargin hr
  rw [hskip] at hbehind
  refine ⟨next, ?_, hbehind⟩
  rw [blockNode_list hpos hc houtside, hitems]
  rfl

theorem Reads.list (h : Reads (col + 2) e (.items vs)) (hstarts : (Part.items vs).Starts e) :
    Reads col e (.content (.seq {} vs)) := by
  intro handles fuel unindented c r hfuel hc hr
  exact h.node_of_items (Nat.succ_pos _) hstarts hfuel (.inl (by omega)) hc hr handles

theorem Reads.map (h : Reads (col + 2) e (.entries ms)) : Reads col e (.content (.map {} ms)) := by
  intro handles fuel unindented c r hfuel hc hr
  exact h.2 handles unindented hfuel hc (by omega) (hr.weaken (by omega))

theorem Leaf.reads_beside (h : Leaf col e v) : Reads col (' ' :: e) (.value v) := by
  intro handles fuel c r hfuel hrest hcol hr
  obtain ⟨n, rfl⟩ : ∃ n, fuel = n + 3 + 1 := ⟨fuel - 4, by omega⟩
  obtain ⟨hskip, hnext⟩ := skip_spaces (n := 1) hrest (h.starts.append r)
  rw [blockValue.eq_2, hskip]
  exact h.read handles n hnext (by rw [Cursor.advance_col]; omega) hr

/-- The value of a key starts on the next line. -/
theorem skip_below {n : Nat} (hrest : c.rest = '\n' :: (spaces n ++ r)) (hr : StartsToken r) :
    AtToken n r (c.skip false) ∧ c.line < (c.skip false).line :=
  (behind_of_feed hrest).atToken' hr

theorem Reads.listBelow (h : Reads col e (.items vs)) (hpos : 0 < col)
    (hstarts : (Part.items vs).Starts e) :
    Reads col ('\n' :: (spaces col ++ e)) (.value (.seq {} vs)) := by
  intro handles fuel c r hfuel hrest hcol hr
  obtain ⟨fuel, rfl⟩ : ∃ n, fuel = n + 1 := ⟨fuel - 1, by omega⟩
  have htoken : StartsToken (e ++ r) := by
    obtain ⟨t, rfl⟩ := hstarts
    exact ⟨'-', _, rfl, by decide, by decide⟩
  rw [List.cons_append, List.append_assoc] at hrest
  obtain ⟨hc, hline⟩ := skip_below hrest htoken
  rw [List.length_cons, List.length_append] at hfuel
  obtain ⟨next, hnode, hbehind⟩ := h.node_of_items hpos hstarts (show _ ≤ fuel by omega)
    (.inr ⟨rfl, rfl⟩) hc hr handles
  exact ⟨next, by rw [blockValue.eq_2, hnode], hbehind.mono (Nat.le_of_lt hline)⟩

theorem Reads.mapBelow (h : Reads (col + 2) e (.entries ms)) (hstarts : StartsToken e) :
    Reads col ('\n' :: (spaces (col + 2) ++ e)) (.value (.map {} ms)) := by
  intro handles fuel c r hfuel hrest hcol hr
  obtain ⟨fuel, rfl⟩ : ∃ n, fuel = n + 1 := ⟨fuel - 1, by omega⟩
  rw [List.cons_append, List.append_assoc] at hrest
  obtain ⟨hc, hline⟩ := skip_below hrest (hstarts.append r)
  rw [List.length_cons, List.length_append] at hfuel
  obtain ⟨next, hnode, hbehind⟩ := h.map handles (show _ ≤ fuel by omega) hc hr
  exact ⟨next, by rw [blockValue.eq_2, hnode], hbehind.mono (Nat.le_of_lt hline)⟩

theorem Reads.lastItem (h : Reads col e (.content v)) (hpos : 0 < col) (hstarts : StartsToken e) :
    Reads col ('-' :: ' ' :: e) (.items [v]) := by
  intro handles fuel margin unindented c r hfuel hc hmargin hr
  rw [List.length_cons, List.length_cons] at hfuel
  obtain ⟨fuel, rfl⟩ : ∃ n, fuel = n + 2 := ⟨fuel - 2, by omega⟩
  obtain ⟨d, hd, hline, hitems⟩ := blockItems_item handles hpos hc (hstarts.append r)
  have hle : margin ≤ col + 1 := by omega
  obtain ⟨next, hnode, hbehind⟩ := h handles (show _ ≤ fuel + 1 by omega) hd
    (hr.weaken hle)
  refine ⟨next.skip false, ?_, ?_⟩
  · rw [hitems, hnode]
    show blockItems handles (fuel + 1) margin col next >>= _ = _
    rw [blockItems_end hmargin hr hbehind]
    rfl
  · rw [← hline]
    exact hbehind.skip_skip hr

theorem Reads.item (h : Reads col e (.content v)) (h' : Reads col e' (.items vs)) (hpos : 0 < col)
    (hstarts : StartsToken e) (hstarts' : (Part.items vs).Starts e') :
    Reads col ('-' :: ' ' :: (e ++ (spaces col ++ e'))) (.items (v :: vs)) := by
  intro handles fuel margin unindented c r hfuel hc hmargin hr
  rw [List.length_cons, List.length_cons, List.length_append, List.length_append] at hfuel
  obtain ⟨fuel, rfl⟩ : ∃ n, fuel = n + 1 := ⟨fuel - 1, by omega⟩
  have htoken : StartsToken (e' ++ r) := by
    obtain ⟨t, rfl⟩ := hstarts'
    exact ⟨'-', _, rfl, by decide, by decide⟩
  simp only [List.cons_append, List.append_assoc] at hc
  obtain ⟨d, hd, hline, hitems⟩ := blockItems_item handles hpos hc (hstarts.append _)
  have hsequel : Onward (col + 1) false (spaces col ++ (e' ++ r)) :=
    .of_token hpos (Nat.lt_succ_self col) htoken (by simp)
  obtain ⟨next, hnode, hbehind⟩ := h handles (show _ ≤ fuel by omega) hd hsequel
  obtain ⟨hnext, hbelow⟩ := hbehind.atToken' htoken
  obtain ⟨last, hmore, hlast⟩ := h' handles (show _ ≤ fuel by omega) hnext hmargin hr
  refine ⟨last, ?_, hlast.mono (by omega)⟩
  rw [hitems, hnode]
  show blockItems handles fuel margin col next >>= _ = _
  rw [hmore]
  rfl

theorem Reads.simple (h : Reads col e' (.value v)) (hpos : 0 < col) (hkey : InlineKey e k)
    (hlength : e.length ≤ 1024) (hstarts : (Part.value v).Starts e') :
    Reads col (e ++ ':' :: e') (.entry (k, v)) := by
  intro handles fuel d r hfuel hd hr
  rw [List.length_append, List.length_cons] at hfuel
  obtain ⟨fuel, rfl⟩ : ∃ n, fuel = n + 1 := ⟨fuel - 1, by omega⟩
  have hends : endsWord (e' ++ r) = true := by
    obtain ⟨ch, t, rfl, hgap⟩ := hstarts
    exact hgap
  rw [List.append_assoc, List.cons_append] at hd
  have hbehind : (behindKeysColon e d).rest = e' ++ r :=
    Cursor.advance_one_rest (atKeysColon_rest hd.rest)
  have hcol : col < (behindKeysColon e d).col := by
    show col < d.col + e.length + 1
    rw [hd.col]
    omega
  obtain ⟨next, hvalue, hnext⟩ := h handles (show _ ≤ fuel + 1 by omega) hbehind hcol hr
  refine ⟨next, hnext, fun c hc ↦ ?_, fun unindented hmargin ↦ .inl ?_⟩
  · rw [blockEntries_simple hkey hlength hpos hends hd hc fuel, hvalue]
    rfl
  · rw [blockNode_simple hkey hlength hpos hends hd hmargin unindented fuel, hvalue]
    rfl

theorem Reads.marked (h : Reads col e' (.content v)) (hpos : 0 < col) (hkey : Leaf col e k)
    (hstarts : StartsToken e') :
    Reads col ('?' :: ' ' :: (e ++ (spaces col ++ ':' :: ' ' :: e'))) (.entry (k, v)) := by
  intro handles fuel d r hfuel hd hr
  simp only [List.length_append, List.length_cons] at hfuel
  obtain ⟨fuel, rfl⟩ : ∃ n, fuel = n + 3 := ⟨fuel - 3, by omega⟩
  simp only [List.cons_append, List.append_assoc] at hd
  have hcolon : StartsToken (':' :: ' ' :: (e' ++ r)) := ⟨':', _, rfl, by decide, by decide⟩
  have hsequel : Onward (col + 1) true (spaces col ++ ':' :: ' ' :: (e' ++ r)) :=
    .of_token hpos (Nat.lt_succ_self col) hcolon (by simp)
  obtain ⟨start, hstart, hline, hentries⟩ := blockEntries_marked handles hpos hd
    (hkey.starts.append _)
  obtain ⟨next, hnode, hnext⟩ := hkey.read handles fuel hstart.rest
    (by rw [hstart.col]; omega) hsequel
  obtain ⟨hat, hbelow⟩ := hnext.atToken' hcolon
  obtain ⟨place, hplace, htoken, hline'⟩ := hat.behindIndicator (hstarts.append r)
  obtain ⟨last, hvalue, hlast⟩ := h handles (show _ ≤ fuel + 2 by omega) htoken hr
  refine ⟨last, hlast.mono (by omega), fun c hc ↦ ?_, fun unindented hmargin ↦ .inr ?_⟩
  · rw [hentries hnode rfl hat hc, blockValue.eq_2, hplace, hvalue]
    rfl
  · exact blockNode_marked hpos hd hmargin unindented

section Tail

/-- The rows behind the first one are read: they stand in `t`, and `r` follows them. -/
def ReadsTail (handles : Handles) (col bound : Nat) (ms : List (Node × Node)) (t r : List Char) :
    Prop :=
  ∀ {fuel line : Nat} {next : Cursor}, bound ≤ fuel → Behind line t next →
    ∃ last, blockEntries handles fuel col next = .ok (ms, last) ∧ Behind line r last

variable {bound fuel : Nat} (h : Reads col e (.entry m)) (ht : Onward (col + 1) true t)
  (htail : ReadsTail handles col bound ms t r) (hfuel : 4 * e.length + 2 ≤ fuel)
  (hbound : bound < fuel)
include h ht htail hfuel hbound

theorem Reads.rows (hc : AtToken col (e ++ t) (c.skip false)) : ∃ last,
    blockEntries handles fuel col c = .ok (m :: ms, last) ∧ Behind (c.skip false).line r last := by
  obtain ⟨fuel, rfl⟩ : ∃ n, fuel = n + 1 := ⟨fuel - 1, by omega⟩
  obtain ⟨next, hnext, hentries, -⟩ := h handles hfuel hc ht
  obtain ⟨last, hmore, hlast⟩ := htail (Nat.le_of_lt_succ hbound) hnext
  refine ⟨last, ?_, hlast⟩
  rw [hentries c rfl, hmore]
  rfl

theorem Reads.mapOfRows (hstarts : StartsToken e) (hc : AtToken col (e ++ t) c)
    (hmargin : margin ≤ col) (unindented : Bool) :
    ∃ last, blockNode handles (fuel + 1) margin unindented c = .ok (.map {} (m :: ms), last) ∧
      Behind c.line r last := by
  have hskip : c.skip false = c := hc.skip (hstarts.append t)
  obtain ⟨next, hnext, -, hnode⟩ := h handles (Nat.le_succ_of_le hfuel) hc ht
  obtain hnode | hnode := hnode unindented hmargin
  · obtain ⟨last, hmore, hlast⟩ := htail (Nat.le_of_lt hbound) hnext
    refine ⟨last, ?_, hlast⟩
    rw [hnode, hmore]
    rfl
  · obtain ⟨last, hrows, hlast⟩ := h.rows ht htail hfuel hbound (c := c) (by rw [hskip]; exact hc)
    rw [hskip] at hlast
    refine ⟨last, ?_, hlast⟩
    rw [hnode, hrows]
    rfl

end Tail

theorem readsTail_nil (hr : Onward col unindented r) : ReadsTail handles col 1 [] r r := by
  intro fuel line next hfuel hnext
  obtain ⟨fuel, rfl⟩ : ∃ n, fuel = n + 1 := ⟨fuel - 1, by omega⟩
  exact ⟨_, blockEntries_end hr hnext, hnext.skip_skip hr⟩

theorem Reads.tail (h : Reads col e (.entries ms)) (hstarts : StartsToken e)
    (hr : Onward col unindented r) :
    ReadsTail handles col (4 * e.length + 2) ms (spaces col ++ (e ++ r)) r := by
  intro fuel line next hfuel hnext
  obtain ⟨hat, hbelow⟩ := hnext.atToken' (hstarts.append r)
  obtain ⟨last, hrows, hlast⟩ := h.1 handles hfuel hat hr
  exact ⟨last, hrows, hlast.mono (Nat.le_of_lt hbelow)⟩

theorem Reads.lastEntry (h : Reads col e (.entry m)) (hstarts : StartsToken e) :
    Reads col e (.entries [m]) := by
  constructor
  · intro handles fuel unindented c r hfuel hc hr
    exact h.rows (hr.mono (Nat.lt_succ_self col) true) (readsTail_nil hr) hfuel (by omega) hc
  · intro handles fuel margin unindented unindented' c r hfuel hc hmargin hr
    obtain ⟨fuel, rfl⟩ : ∃ n, fuel = n + 1 := ⟨fuel - 1, by omega⟩
    exact h.mapOfRows (hr.mono (Nat.lt_succ_self col) true) (readsTail_nil hr) (by omega) (by omega)
      hstarts hc hmargin unindented'

theorem Reads.entries (h : Reads col e (.entry m)) (h' : Reads col e' (.entries ms)) (hpos : 0 < col)
    (hstarts : StartsToken e) (hstarts' : StartsKey e') :
    Reads col (e ++ (spaces col ++ e')) (.entries (m :: ms)) := by
  have hlength : (e ++ (spaces col ++ e')).length = e.length + (col + e'.length) := by
    rw [List.length_append, List.length_append, length_spaces]
  constructor
  · intro handles fuel unindented c r hfuel hc hr
    rw [List.append_assoc, List.append_assoc] at hc
    exact h.rows ((hstarts'.append r).onward hpos) (h'.tail hstarts'.startsToken hr) (by omega)
      (by omega) hc
  · intro handles fuel margin unindented unindented' c r hfuel hc hmargin hr
    obtain ⟨fuel, rfl⟩ : ∃ n, fuel = n + 1 := ⟨fuel - 1, by omega⟩
    rw [List.append_assoc, List.append_assoc] at hc
    exact h.mapOfRows ((hstarts'.append r).onward hpos) (h'.tail hstarts'.startsToken hr) (by omega)
      (by omega) hstarts hc hmargin unindented'

end Reads

theorem Spelled.reads {p : Part} (h : Spelled col p e) (hpos : 0 < col) : Reads col e p := by
  induction h with
  | leaf h => exact h.reads
  | list h ih => exact (ih (Nat.succ_pos _)).list h.starts
  | map h ih => exact (ih (Nat.succ_pos _)).map
  | beside h => exact h.reads_beside
  | listBelow h ih => exact (ih hpos).listBelow hpos h.starts
  | mapBelow h ih => exact (ih (Nat.succ_pos _)).mapBelow h.starts.startsToken
  | lastItem h ih => exact (ih hpos).lastItem hpos h.starts
  | item h h' ih ih' => exact (ih hpos).item (ih' hpos) hpos h.starts h'.starts
  | simple hkey hlength h ih => exact (ih hpos).simple hpos hkey hlength h.starts
  | marked hkey h ih => exact (ih hpos).marked hpos hkey h.starts
  | lastEntry h ih => exact (ih hpos).lastEntry h.starts.startsToken
  | entries h h' ih ih' => exact (ih hpos).entries (ih' hpos) hpos h.starts.startsToken h'.starts

end DeliveryCharts.Yaml
