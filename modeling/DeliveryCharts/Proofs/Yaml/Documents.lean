import DeliveryCharts.Proofs.Record
import DeliveryCharts.Proofs.Yaml.Nodes

/-!
The documents of a text with something behind it: those of the text alone, and then what comes of
its end, where directives may be pending.
-/

namespace DeliveryCharts.Yaml

variable {x t : List Char}

theorem versionNumber_continued (h : Ended x t) :
    Agree (Continued x t) (versionNumber x) (versionNumber (x ++ t)) := by
  have htake := takeWhile_append h (p := Text.isDigit) (by decide)
  have halong : Along x (x.drop (x.takeWhile Text.isDigit).length) := by
    rw [drop_takeWhile]
    exact .dropWhile fun _ ↦ isBreak_of_isDigit
  have hle := (List.takeWhile_prefix Text.isDigit (l := x)).length_le
  rw [versionNumber, versionNumber, htake, List.drop_append_of_le_length hle]
  cases Text.readUnsigned? 10 (x.takeWhile Text.isDigit) with
  | none => exact .error _
  | some n => exact .ite Iff.rfl (fun _ ↦ .ok ⟨rfl, rfl, halong⟩) fun _ ↦ .error _

theorem directiveHandle_continued (h : Ended x t) :
    Agree (Continued x t) (directiveHandle x) (directiveHandle (x ++ t)) := by
  rcases head_cases h '!' with ⟨r, rfl, happend⟩ | ⟨hx, hxt⟩
  · have hr := h.of_cons (by decide)
    have halong : Along r (r.dropWhile isNameChar) := .dropWhile fun _ ↦ isBreak_of_isNameChar
    have hbang {s : List Char} (hs : Along r s) : Along ('!' :: r) s := .cons (by decide) hs
    rw [happend, directiveHandle, directiveHandle, takeWhile_append hr (by decide),
      dropWhile_append hr (by decide)]
    rcases head_cases (halong.ended hr) '!' with ⟨s, hs, happend⟩ | ⟨hx, hxt⟩
    · rw [happend, hs]
      exact .ok ⟨rfl, rfl, hbang (halong.trans (hs ▸ .cons (by decide) (.refl s)))⟩
    · split
      · rename_i he
        exact absurd he (hx _)
      · exact .ite Iff.rfl (fun _ ↦ .ok ⟨rfl, rfl, hbang halong⟩) fun _ ↦ .error _
  · rw [directiveHandle.eq_2 _ fun _ ↦ hx _, directiveHandle.eq_2 _ fun _ ↦ hxt _]
    exact .error _

theorem directive_continued (d : Directives) (h : Ended x t) :
    Agree (Continued x t) (directive d x) (directive d (x ++ t)) := by
  have htake := takeWhile_append h (p := isNameChar) (by decide)
  have hname : Along x (x.drop (x.takeWhile isNameChar).length) := by
    rw [drop_takeWhile]
    exact .dropWhile fun _ ↦ isBreak_of_isNameChar
  have hle := (List.takeWhile_prefix isNameChar (l := x)).length_le
  rw [directive, directive, htake, List.drop_append_of_le_length hle]
  generalize x.takeWhile isNameChar = name at hname
  generalize x.drop name.length = r at hname
  have hr := hname.ended h
  have hblank : Along r (r.dropWhile isSpaceOrTab) := .dropWhile fun _ ↦ isBreak_of_isSpaceOrTab
  dsimp only
  rw [endsWord_append hr, dropWhile_append hr (by decide)]
  refine .ite Iff.rfl (fun _ ↦ .error _) fun _ ↦ .ite Iff.rfl (fun _ ↦ ?_) fun _ ↦
    .ite Iff.rfl (fun _ ↦ ?_) fun _ ↦ .error _
  · refine (versionNumber_continued (hblank.ended hr)).bind_line fun major s halong ↦ ?_
    have hs := (hname.trans (hblank.trans halong))
    dsimp only
    rcases head_cases (hs.ended h) '.' with ⟨u, rfl, happend⟩ | ⟨hx, hxt⟩
    · rw [happend]
      have hu := hs.trans (.cons (by decide) (.refl u))
      refine (versionNumber_continued (hu.ended h)).bind_line fun minor v halong ↦ ?_
      exact .ite Iff.rfl (fun _ ↦ .error _) fun _ ↦ .ok ⟨rfl, rfl, hu.trans halong⟩
    · split
      · rename_i he
        exact absurd rfl (hx _)
      · exact .error _
  · refine (directiveHandle_continued (hblank.ended hr)).bind_line fun handle s halong ↦ ?_
    have hs := (hname.trans (hblank.trans halong))
    dsimp only
    have hended := hs.ended h
    have hhead : ((s ++ t).isEmpty || !isSpaceOrTab ((s ++ t).headD ' ')) =
        (s.isEmpty || !isSpaceOrTab (s.headD ' ')) := by
      cases s with
      | nil => rw [hended.resolve_right List.not_mem_nil, List.append_nil]
      | cons ch s => rfl
    rw [hhead, dropWhile_append hended (by decide)]
    have hblank' : Along s (s.dropWhile isSpaceOrTab) := .dropWhile fun _ ↦ isBreak_of_isSpaceOrTab
    have hs' := hs.trans hblank'
    refine .ite Iff.rfl (fun _ ↦ .error _) fun _ ↦ ?_
    refine (tagText_line (hs'.ended h)).bind_line fun text u halong ↦ ?_
    dsimp only
    have hu := hs'.trans halong
    rw [endsWord_append (hu.ended h)]
    exact .ite Iff.rfl (fun _ ↦ .error _) fun _ ↦ .ok ⟨rfl, rfl, hu⟩

/-- One directive, and what follows its line. -/
def directiveLine (d : Directives) (c : Cursor) : Except Fault (Directives × Cursor) := do
  let (d, rest) ← directive d (c.rest.drop 1)
  let c := ((c.advance (c.rest.length - rest.length)).spaces isSpaceOrTab).dropComment
  if !c.rest.isEmpty && !startsBreak c.rest then throw .malformed
  return (d, c.unfresh.skip false)

theorem directives_succ {d : Directives} {c : Cursor} (h : c.atDirective = true) (n : Nat) :
    directives (n + 1) d c = directiveLine d c >>= fun p ↦ directives n p.1 p.2 := by
  rw [directives, h, if_neg (by simp), directiveLine]
  cases directive d (c.rest.drop 1) with
  | error e => rfl
  | ok p =>
    dsimp only [bind, Except.bind]
    split <;> rfl

theorem directives_one {d : Directives} {c : Cursor} (h : c.atDirective = true) :
    directives 1 d c = directiveLine d c := by
  rw [directives_succ h]
  cases directiveLine d c <;> rfl

theorem directives_of_not_atDirective {c : Cursor} (h : c.atDirective = false) (n : Nat)
    (d : Directives) : directives n d c = .ok (d, c) := by
  cases n with
  | zero => rfl
  | succ n => rw [directives, h, Bool.not_false, if_pos rfl]

theorem atDirective_spec {c : Cursor} (h : c.atDirective = true) : ∃ r, c.rest = '%' :: r := by
  rw [Cursor.atDirective, Bool.and_eq_true, beq_iff_eq, beq_iff_eq] at h
  exact List.head?_eq_some_iff.mp h.2

theorem skipPoints_of_head {c : Cursor} (h : c.rest.head? ≠ some '.') (n : Nat) :
    skipPoints n c = c := by
  cases n with
  | zero => rfl
  | succ n => rw [skipPoints, if_neg (by simp [h])]

theorem isMarker_spec (h : isMarker x = true) :
    (∃ r, x = '-' :: '-' :: '-' :: r ∧ endsWord r = true) ∨
      ∃ r, x = '.' :: '.' :: '.' :: r ∧ endsWord r = true := by
  unfold isMarker at h
  split at h
  · exact .inl ⟨_, rfl, h⟩
  · exact .inr ⟨_, rfl, h⟩
  · cases h

namespace Sequel

variable {K : Sequel} {c₀ c : Cursor}

/-- A directive leaves the same, and the next token is at the same place. -/
theorem SamePlace.directiveLine (h : K.SamePlace c₀ c) (hat : c₀.atDirective = true)
    (d : Directives) :
    Agree (K.Reads (c₀.rest.drop 1)) (directiveLine d c₀) (directiveLine d c) := by
  obtain ⟨r, hr⟩ := atDirective_spec hat
  have hended : Ended r K.tail :=
    (hr ▸ h.ended (by simp [hr]) : Ended ('%' :: r) K.tail).of_cons rfl
  have hdrop : c₀.rest.drop 1 = r := by rw [hr, List.drop_one, List.tail_cons]
  have hdrop' : c.rest.drop 1 = r ++ K.tail := by rw [h.cons hr, List.drop_one, List.tail_cons]
  rw [Yaml.directiveLine, Yaml.directiveLine, hdrop, hdrop']
  refine (directive_continued d hended).bind_line fun d s halong ↦ ?_
  have halong' : Along c₀.rest s := hr ▸ .cons rfl halong
  have hlength : c.rest.length - (s ++ K.tail).length = c₀.rest.length - s.length := by
    rw [h.rest_eq (by simp [hr]), List.length_append, List.length_append]
    omega
  dsimp only
  rw [hlength]
  have hplace := h.advance (n := c₀.rest.length - s.length) (halong'.drop_eq.symm ▸ halong')
    (Nat.sub_le _ _)
  have hrest₀ : (c₀.advance (c₀.rest.length - s.length)).rest = s := halong'.drop_eq
  have hplace' := (hplace.spaces (p := isSpaceOrTab) (fun _ ↦ isBreak_of_isSpaceOrTab)
    fun _ ↦ rfl).dropComment
  have hbehind : Along s ((c₀.advance (c₀.rest.length - s.length)).spaces
      isSpaceOrTab).dropComment.rest := by
    have hspaces := (c₀.advance (c₀.rest.length - s.length)).along_spaces
      (p := isSpaceOrTab) fun _ ↦ isBreak_of_isSpaceOrTab
    rw [hrest₀] at hspaces
    exact hspaces.trans (Cursor.along_dropComment _)
  rw [hplace'.isEmpty_eq ((halong.trans hbehind).ended hended), hplace'.startsBreak_eq]
  refine .ite Iff.rfl (fun _ ↦ .error _) fun _ ↦ .ok ⟨rfl, hplace'.unfresh.skip false, ?_⟩
  exact (Cursor.skip_suffix false _).trans (hbehind.suffix.trans halong.suffix)

theorem SamePlace.directives (h : K.SamePlace c₀ c) {d : Directives} {n n' : Nat}
    (hn : c₀.rest.length ≤ n) (hn' : c.rest.length ≤ n') :
    Agree (K.Reads c₀.rest) (directives n d c₀) (directives n' d c) := by
  induction n generalizing n' c₀ c d with
  | zero =>
    have hat : c₀.atDirective = false := by
      simp [Cursor.atDirective, List.length_eq_zero_iff.mp (Nat.le_zero.mp hn)]
    rw [directives_of_not_atDirective hat,
      directives_of_not_atDirective (h.atDirective_eq.trans hat)]
    exact .ok ⟨rfl, h, List.suffix_refl _⟩
  | succ n ih =>
    by_cases hat : c₀.atDirective = true
    · obtain ⟨r, hr⟩ := atDirective_spec hat
      have hle := h.length_le
      rw [hr, List.length_cons] at hn hle
      obtain ⟨k, rfl⟩ : ∃ k, n' = k + 1 := ⟨n' - 1, by omega⟩
      rw [directives_succ hat, directives_succ (h.atDirective_eq.trans hat)]
      refine bind_read (h.directiveLine hat d) fun d d₀ d' hd hsuffix ↦ ?_
      have hlt : d₀.rest.length < c₀.rest.length := by
        have hle' := hsuffix.length_le
        rw [hr, List.length_drop] at hle'
        rw [hr]
        simp only [List.length_cons] at hle' ⊢
        omega
      have hlt' := h.length_lt hd hlt
      rw [hr, List.length_cons] at hlt
      refine (ih hd (by omega) (by omega)).mono fun p q hpq ↦ ?_
      exact ⟨hpq.value, hpq.place, hpq.suffix.trans (hsuffix.trans (List.drop_suffix 1 _))⟩
    · have hat := Bool.eq_false_iff.mpr hat
      rw [directives_of_not_atDirective hat,
        directives_of_not_atDirective (h.atDirective_eq.trans hat)]
      exact .ok ⟨rfl, h, List.suffix_refl _⟩

theorem SamePlace.skipPoints (h : K.SamePlace c₀ c) {n n' : Nat} (hn : c₀.rest.length ≤ n)
    (hn' : c.rest.length ≤ n') :
    K.SamePlace (skipPoints n c₀) (skipPoints n' c) ∧ (skipPoints n c₀).rest <:+ c₀.rest := by
  induction n generalizing n' c₀ c with
  | zero =>
    have hnil := List.length_eq_zero_iff.mp (Nat.le_zero.mp hn)
    rw [skipPoints_of_head (by simp [hnil]), skipPoints_of_head]
    · exact ⟨h, List.suffix_refl _⟩
    · rw [ne_eq, h.head?_eq_some_iff (by decide), hnil]
      simp
  | succ n ih =>
    by_cases hhead : c₀.rest.head? = some '.'
    · have hne : c₀.rest ≠ [] := by
        intro hnil
        simp [hnil] at hhead
      have hpos := List.length_pos_iff.mpr hne
      have hle := h.length_le
      obtain ⟨k, rfl⟩ : ∃ k, n' = k + 1 := ⟨n' - 1, by omega⟩
      rw [Yaml.skipPoints, Yaml.skipPoints, h.atMarker_eq hne]
      simp only [h.head?_eq_some_iff (show '.' ≠ '-' by decide)]
      split
      · rename_i hmarker
        have hmarker : isMarker c₀.rest = true := by
          rw [Cursor.atMarker] at hmarker
          simp_all
        obtain ⟨r, hr⟩ : ∃ r, c₀.rest = '.' :: '.' :: '.' :: r := by
          rcases isMarker_spec hmarker with ⟨r, hr, -⟩ | ⟨r, hr, -⟩
          · simp [hr] at hhead
          · exact ⟨r, hr⟩
        have hdrop : c₀.rest.drop 3 = r := by rw [hr]; rfl
        have halong : Along c₀.rest (c₀.rest.drop 3) := by
          rw [hdrop, hr]
          exact .cons rfl (.cons rfl (.cons rfl (.refl r)))
        have hplace := ((h.advance halong (by simp [hr])).unfresh).skip false
        have hsuffix : ((c₀.advance 3).unfresh.skip false).rest <:+ r :=
          (Cursor.skip_suffix false _).trans (hdrop ▸ List.suffix_refl _)
        have hlt : ((c₀.advance 3).unfresh.skip false).rest.length < c₀.rest.length := by
          have hle := hsuffix.length_le
          rw [hr, List.length_cons, List.length_cons, List.length_cons]
          omega
        have hlt' := h.length_lt hplace hlt
        obtain ⟨hplace', hsuffix'⟩ := ih hplace (by omega) (show _ ≤ k by omega)
        refine ⟨hplace', hsuffix'.trans (hsuffix.trans ?_)⟩
        exact hdrop ▸ List.drop_suffix 3 _
      · exact ⟨h, List.suffix_refl _⟩
    · rw [skipPoints_of_head hhead, skipPoints_of_head
        fun he ↦ hhead ((h.head?_eq_some_iff (by decide)).mp he)]
      exact ⟨h, List.suffix_refl _⟩

def fails : Except Fault Cursor → Bool
  | .error _ => true
  | .ok _ => false

theorem fails_eq {α β : Type} {R : α × Cursor → β × Cursor → Prop}
    {m : Except Fault (α × Cursor)} {m' : Except Fault (β × Cursor)} (h : Agree R m m') :
    fails (m'.map Prod.snd) = fails (m.map Prod.snd) := by
  cases h <;> rfl

theorem strays_of_cons {ch : Char} {r : List Char} (hrest : c.rest = ch :: r) :
    strays c =
      if c.atEnd then false
      else if ch = '%' then !c.atDirective || fails ((directives 1 {} c).map Prod.snd)
      else if ch = '"' then fails ((quoted true (c.advance 1)).map Prod.snd)
      else if ch = '\'' then fails ((quoted false (c.advance 1)).map Prod.snd)
      else if ch = '&' ∨ ch = '*' then fails ((readName (c.advance 1)).map Prod.snd)
      else if ch = '!' then fails ((readTag defaultHandles false c).map Prod.snd)
      else if ch = '|' then fails ((block true 0 (c.advance 1)).map Prod.snd)
      else if ch = '>' then fails ((block false 0 (c.advance 1)).map Prod.snd)
      else ch ∈ ['@', '`', '\t'] || (ch ∈ ['-', '?', ':'] && endsWord r && !c.fresh) := by
  rw [strays]
  refine ite_congr rfl (fun _ ↦ rfl) fun _ ↦ ?_
  split
  case h_1 heq => simp [hrest] at heq
  case h_10 d s hdirective hdouble hsingle hanchor halias htag hliteral hfolded heq =>
    obtain ⟨rfl, rfl⟩ := List.cons.inj (hrest.symm.trans heq)
    rw [if_neg hdirective, if_neg hdouble, if_neg hsingle,
      if_neg (not_or.mpr ⟨hanchor, halias⟩), if_neg htag, if_neg hliteral, if_neg hfolded]
  all_goals
    rename_i heq
    obtain ⟨rfl, -⟩ := List.cons.inj (hrest.symm.trans heq)
    rfl

theorem SamePlace.strays_eq (h : K.SamePlace c₀ c) : strays c = strays c₀ := by
  cases hrest : c₀.rest with
  | nil =>
    have hend : c₀.atEnd = true := by simp [Cursor.atEnd, hrest]
    rw [strays, strays, h.atEnd_eq, hend]
    rfl
  | cons ch r =>
    have hended : Ended (ch :: r) K.tail := hrest ▸ h.ended (by simp [hrest])
    have hstep (hch : isBreak ch = false) :
        K.SamePlace (c₀.advance 1) (c.advance 1) ∧ Ended (c₀.advance 1).rest K.tail :=
      ⟨h.step hrest hch, by rw [Cursor.advance_one_rest hrest]; exact hended.of_cons hch⟩
    rw [strays_of_cons hrest, strays_of_cons (h.cons hrest), h.atEnd_eq, h.atDirective_eq, h.fresh]
    refine ite_congr rfl (fun _ ↦ rfl) fun _ ↦ ite_congr rfl (fun hch ↦ ?_) fun _ ↦
      ite_congr rfl (fun hch ↦ ?_) fun _ ↦ ite_congr rfl (fun hch ↦ ?_) fun _ ↦
      ite_congr rfl (fun hch ↦ ?_) fun _ ↦ ite_congr rfl (fun hch ↦ ?_) fun _ ↦
      ite_congr rfl (fun hch ↦ ?_) fun _ ↦ ite_congr rfl (fun hch ↦ ?_) fun _ ↦ ?_
    · cases hat : c₀.atDirective with
      | false => rfl
      | true =>
        rw [directives_one hat, directives_one (h.atDirective_eq.trans hat),
          fails_eq (h.directiveLine hat {})]
    · exact fails_eq ((hstep (hch ▸ rfl)).1.quoted true)
    · exact fails_eq ((hstep (hch ▸ rfl)).1.quoted false)
    · obtain ⟨hplace, hended⟩ := hstep (by rcases hch with rfl | rfl <;> rfl)
      exact fails_eq (hplace.readName hended)
    · exact fails_eq (h.readTag (hrest ▸ hended) _ _)
    · obtain ⟨hplace, hended⟩ := hstep (hch ▸ rfl)
      exact fails_eq (hplace.block_scalar hended true 0)
    · obtain ⟨hplace, hended⟩ := hstep (hch ▸ rfl)
      exact fails_eq (hplace.block_scalar hended false 0)
    · by_cases hch : ch ∈ ['-', '?', ':']
      · have hbreak : isBreak ch = false := by
          simp only [List.mem_cons, List.not_mem_nil, or_false] at hch
          rcases hch with rfl | rfl | rfl <;> rfl
        rw [endsWord_append (hended.of_cons hbreak)]
      · simp only [hch, decide_false, Bool.false_and]

theorem SamePlace.document (h : K.SamePlace c₀ c) (handles : Handles) :
    Agree (K.Reads c₀.rest) (document handles c₀) (document handles c) := by
  rw [Yaml.document, Yaml.document]
  refine bind_read (h.root handles) fun node d₀ d hd hsuffix ↦ ?_
  have hskip := hd.skip false
  refine .ite (by rw [hskip.strays_eq]) (fun _ ↦ .error _) fun _ ↦ .andThen fun graph _ ↦ ?_
  exact .ok ⟨rfl, hskip, (Cursor.skip_suffix _ _).trans hsuffix⟩

/-- A text by itself, with nothing behind it. -/
def alone (c : Cursor) : Sequel where
  text := c.rest
  blanks := []
  final := []
  line := 0
  index := 0
  lines := c.line + breaks c.rest
  length := c.index + c.rest.length
  blanks_eq := .inl rfl
  final_eq := .inl rfl
  ended := .inl ⟨rfl, rfl⟩
  keeps := .inl rfl

theorem alone_same (c : Cursor) : (alone c).SamePlace c c where
  suffix := List.suffix_refl _
  rest := by
    rw [extend]
    split
    · assumption
    · exact (List.append_nil _).symm
  line := by simp [alone, passed]
  index := by simp [alone, passed]
  col := rfl
  fresh := rfl
  lines := rfl
  length := rfl
  edge := fun _ ↦ .inr ⟨rfl, rfl⟩

end Sequel

/-- At a token that no points precede, which end documents. -/
def Cursor.place (isFirst : Bool) (c : Cursor) : Cursor :=
  let c := c.skip false
  if isFirst then c else skipPoints c.rest.length c

/-- The document whose directives have been read. -/
def opened (isFirst : Bool) (d : Directives) (c : Cursor) : Except Fault (Graph × Cursor) :=
  if c.atMarker && c.rest.head? = some '-' then
    document d.allHandles ((c.advance 3).unfresh.skip false)
  else if isFirst && !d.hasVersion && d.handles.isEmpty && !c.atMarker then
    document d.allHandles c
  else .error .malformed

theorem nextDocument_eq (isFirst : Bool) (c : Cursor) :
    nextDocument isFirst c =
      if (c.place isFirst).rest.isEmpty then .ok none
      else
        directives (c.place isFirst).rest.length {} (c.place isFirst) >>= fun p ↦
          (opened isFirst p.1 p.2).map some := by
  have hmap (m : Except Fault (Graph × Cursor)) : (do return some (← m)) = m.map some := by
    cases m <;> rfl
  rw [nextDocument]
  refine ite_congr rfl (fun _ ↦ rfl) fun _ ↦ ?_
  refine bind_congr fun p ↦ ?_
  dsimp only
  rw [opened]
  split
  · exact hmap _
  · split
    · exact hmap _
    · rfl

/-- The documents of a text, and its end: a fault, or the directives of a document that would
follow. -/
def outline : Nat → Bool → Cursor → List Graph × Except Fault Directives
  | 0, _, _ => ([], .ok {})
  | n + 1, isFirst, c =>
    match directives (c.place isFirst).rest.length {} (c.place isFirst) with
    | .error e => ([], .error e)
    | .ok (d, c) =>
      if c.rest.isEmpty then ([], .ok d)
      else
        match opened isFirst d c with
        | .error e => ([], .error e)
        | .ok (g, c) => (g :: (outline n false c).1, (outline n false c).2)

/-- The documents from the content of one on. -/
def resume (handles : Handles) (c : Cursor) : List (Except Fault Graph) :=
  match document handles c with
  | .error e => [.error e]
  | .ok (g, c) => .ok g :: documentsFrom c.rest.length false c

/-- The documents of a text from the content of one on, and its end. -/
def resumption (handles : Handles) (c : Cursor) : List Graph × Except Fault Directives :=
  match document handles c with
  | .error e => ([], .error e)
  | .ok (g, c) => (g :: (outline c.rest.length false c).1, (outline c.rest.length false c).2)

def Directives.isGiven (d : Directives) : Bool := d.hasVersion || !d.handles.isEmpty

namespace Sequel

variable {K : Sequel} {c₀ c : Cursor}

/-- At the end of the text. -/
def edge (K : Sequel) : Cursor where
  rest := K.final
  line := K.lines + K.line + K.blanks.length
  col := 0
  index := K.length + K.index + K.blanks.length
  fresh := false

/-- What comes of the end of the text. -/
def onward (K : Sequel) : Except Fault Directives → List (Except Fault Graph)
  | .error e => [.error e]
  | .ok d =>
    if K.final = [] then if d.isGiven then [.error .malformed] else []
    else resume d.allHandles ((K.edge.advance 3).skip false)

theorem SamePlace.edge_eq (h : K.SamePlace c₀ c) (hnil : c₀.rest = []) (hfinal : K.final ≠ []) :
    c.unfresh = K.edge := by
  have hpassed : K.passed c₀.rest = K.blanks.length := if_pos hnil
  have hrest : c.rest = K.edge.rest := h.rest_nil hnil
  have hline : c.line = K.edge.line := by
    rw [h.line, hpassed, Sequel.edge, ← h.lines, hnil]
    rfl
  have hcol : c.col = K.edge.col :=
    h.col.trans ((h.edge hnil).resolve_right fun hend ↦ hfinal hend.2)
  have hindex : c.index = K.edge.index := by
    rw [h.index, hpassed, Sequel.edge, ← h.length, hnil]
    rfl
  rw [Cursor.unfresh, hrest, hline, hcol, hindex]
  rfl

theorem SamePlace.place (h : K.SamePlace c₀ c) (isFirst : Bool) :
    K.SamePlace (c₀.place isFirst) (c.place isFirst) ∧ (c₀.place isFirst).rest <:+ c₀.rest := by
  have hskip := h.skip false
  have hsuffix := Cursor.skip_suffix false c₀
  cases isFirst with
  | true => exact ⟨hskip, hsuffix⟩
  | false =>
    obtain ⟨hplace, hsuffix'⟩ := hskip.skipPoints (Nat.le_refl _) (Nat.le_refl _)
    exact ⟨hplace, hsuffix'.trans hsuffix⟩

theorem SamePlace.opened (h : K.SamePlace c₀ c) (hne : c₀.rest ≠ []) (isFirst : Bool)
    (d : Directives) : Agree (K.Reads c₀.rest) (opened isFirst d c₀) (opened isFirst d c) := by
  have hhead : c.rest.head? = c₀.rest.head? := by
    rw [h.rest_eq hne, head?_append (h.ended hne)]
  rw [Yaml.opened, Yaml.opened, h.atMarker_eq hne, hhead]
  refine .ite Iff.rfl (fun hmarker ↦ ?_) fun _ ↦
    .ite Iff.rfl (fun _ ↦ h.document _) fun _ ↦ .error _
  obtain ⟨r, hr⟩ : ∃ r, c₀.rest = '-' :: '-' :: '-' :: r := by
    rw [Bool.and_eq_true, Cursor.atMarker, Bool.and_eq_true, decide_eq_true_eq] at hmarker
    rcases isMarker_spec hmarker.1.2 with ⟨r, hr, -⟩ | ⟨r, hr, -⟩
    · exact ⟨r, hr⟩
    · simp [hr] at hmarker
  have halong : Along c₀.rest (c₀.rest.drop 3) := by
    rw [hr]
    exact .cons rfl (.cons rfl (.cons rfl (.refl r)))
  have hplace := ((h.advance halong (by simp [hr])).unfresh).skip false
  refine (hplace.document _).mono fun p q hpq ↦ ⟨hpq.value, hpq.place, hpq.suffix.trans ?_⟩
  exact (Cursor.skip_suffix false _).trans (List.drop_suffix 3 c₀.rest)

end Sequel

theorem Agree.self {α : Type} {R : α → α → Prop} {m : Except Fault α} {a : α} (h : Agree R m m)
    (hm : m = .ok a) : R a a := by
  subst hm
  cases h
  assumption

theorem place_suffix (isFirst : Bool) (c : Cursor) : (c.place isFirst).rest <:+ c.rest :=
  ((Sequel.alone_same c).place isFirst).2

theorem directives_suffix {n : Nat} {d d' : Directives} {c c' : Cursor} (hn : c.rest.length ≤ n)
    (h : directives n d c = .ok (d', c')) : c'.rest <:+ c.rest :=
  (((Sequel.alone_same c).directives hn hn).self h).suffix

theorem document_suffix {handles : Handles} {g : Graph} {c c' : Cursor}
    (h : document handles c = .ok (g, c')) : c'.rest <:+ c.rest :=
  (((Sequel.alone_same c).document handles).self h).suffix

theorem behind_suffix (c : Cursor) : ((c.advance 3).unfresh.skip false).rest <:+ c.rest.drop 3 :=
  Cursor.skip_suffix false _

theorem opened_suffix {isFirst : Bool} {d : Directives} {g : Graph} {c c' : Cursor}
    (h : opened isFirst d c = .ok (g, c')) : c'.rest <:+ c.rest := by
  rw [opened] at h
  split at h
  · exact (document_suffix h).trans ((behind_suffix c).trans (List.drop_suffix 3 _))
  · split at h
    · exact document_suffix h
    · cases h

/-- Only the first document may be without hyphens. -/
theorem opened_length {d : Directives} {g : Graph} {c c' : Cursor}
    (h : opened false d c = .ok (g, c')) : c'.rest.length < c.rest.length := by
  rw [opened, Bool.false_and, Bool.false_and, Bool.false_and, if_neg Bool.false_ne_true] at h
  split at h
  · rename_i hmarker
    have hle := ((document_suffix h).trans (behind_suffix c)).length_le
    have hpos : 0 < c.rest.length := by
      cases hrest : c.rest with
      | nil => simp [hrest] at hmarker
      | cons ch r => exact Nat.succ_pos _
    rw [List.length_drop] at hle
    omega
  · cases h

theorem opened_bound {isFirst : Bool} {d : Directives} {g : Graph} {c c₁ c' : Cursor} {n : Nat}
    (h : opened isFirst d c₁ = .ok (g, c')) (hle : c₁.rest.length ≤ c.rest.length)
    (hn : c.rest.length + isFirst.toNat ≤ n + 1) : c'.rest.length + false.toNat ≤ n := by
  cases isFirst with
  | true =>
    have hle' := Nat.le_trans (opened_suffix h).length_le hle
    exact Nat.le_trans hle' (Nat.le_of_succ_le_succ hn)
  | false =>
    exact Nat.le_of_lt_succ (Nat.lt_of_lt_of_le (opened_length h) (Nat.le_trans hle hn))

theorem nextDocument_length {g : Graph} {c c' : Cursor}
    (h : nextDocument false c = .ok (some (g, c'))) : c'.rest.length < c.rest.length := by
  have hplace := (place_suffix false c).length_le
  rw [nextDocument_eq] at h
  split at h
  · cases h
  · obtain ⟨⟨d, c₁⟩, hd, h⟩ := Except.bind_eq_ok_iff.mp h
    obtain ⟨q, ho, hq⟩ := Except.map_eq_ok_iff.mp h
    cases hq
    have hle := (directives_suffix (Nat.le_refl _) hd).length_le
    exact Nat.lt_of_lt_of_le (opened_length ho) (Nat.le_trans hle hplace)

theorem place_of_nil {c : Cursor} (h : c.rest = []) (isFirst : Bool) :
    (c.place isFirst).rest = [] :=
  List.suffix_nil.mp (h ▸ place_suffix isFirst c)

theorem documentsFrom_of_nil {c : Cursor} (n : Nat) (isFirst : Bool)
    (h : (c.place isFirst).rest = []) : documentsFrom n isFirst c = [] := by
  cases n with
  | zero => rfl
  | succ n =>
    rw [documentsFrom, nextDocument_eq, h]
    rfl

/-- As many steps as there are characters suffice. -/
theorem documentsFrom_congr {c : Cursor} {n n' : Nat} (hn : c.rest.length ≤ n)
    (hn' : c.rest.length ≤ n') : documentsFrom n false c = documentsFrom n' false c := by
  induction n generalizing n' c with
  | zero =>
    have hnil := List.length_eq_zero_iff.mp (Nat.le_zero.mp hn)
    rw [documentsFrom_of_nil n' false (place_of_nil hnil false)]
    rfl
  | succ n ih =>
    by_cases hnil : c.rest = []
    · rw [documentsFrom_of_nil _ _ (place_of_nil hnil _),
        documentsFrom_of_nil _ _ (place_of_nil hnil _)]
    · have hpos := List.length_pos_iff.mpr hnil
      obtain ⟨k, rfl⟩ : ∃ k, n' = k + 1 := ⟨n' - 1, by omega⟩
      rw [documentsFrom, documentsFrom]
      cases h : nextDocument false c with
      | error e => rfl
      | ok o =>
        cases o with
        | none => rfl
        | some p =>
          have hlt := nextDocument_length h
          dsimp only
          rw [ih (by omega) (show _ ≤ k by omega)]

/-- Directives are followed by hyphens. -/
theorem opened_of_isGiven {d : Directives} (h : d.isGiven = true) (isFirst : Bool) (c : Cursor) :
    opened isFirst d c =
      if c.atMarker && c.rest.head? = some '-' then
        document d.allHandles ((c.advance 3).unfresh.skip false)
      else .error .malformed := by
  have hfirst : (isFirst && !d.hasVersion && d.handles.isEmpty) = false := by
    cases hversion : d.hasVersion with
    | true => simp
    | false =>
      rw [Directives.isGiven, hversion, Bool.false_or, Bool.not_eq_true'] at h
      rw [h, Bool.and_false]
  rw [opened, hfirst, Bool.false_and, if_neg Bool.false_ne_true]

theorem opened_of_nil {d : Directives} {c : Cursor} (hd : d.isGiven = true) (h : c.rest = [])
    (isFirst : Bool) : opened isFirst d c = .error .malformed := by
  rw [opened_of_isGiven hd, if_neg (by simp [h])]

/-- A document or a fault, and the documents that follow. -/
def upon (n : Nat) : Except Fault (Graph × Cursor) → List (Except Fault Graph)
  | .error e => [.error e]
  | .ok (g, c) => .ok g :: documentsFrom n false c

theorem documentsFrom_succ (n : Nat) (isFirst : Bool) (c : Cursor) :
    documentsFrom (n + 1) isFirst c =
      if (c.place isFirst).rest.isEmpty then []
      else
        match directives (c.place isFirst).rest.length {} (c.place isFirst) with
        | .error e => [.error e]
        | .ok (d, c) => upon n (opened isFirst d c) := by
  rw [documentsFrom, nextDocument_eq]
  by_cases h : (c.place isFirst).rest.isEmpty = true
  · rw [if_pos h, if_pos h]
  · rw [if_neg h, if_neg h]
    cases directives (c.place isFirst).rest.length {} (c.place isFirst) with
    | error e => rfl
    | ok p =>
      obtain ⟨d, c⟩ := p
      dsimp only [bind, Except.bind]
      cases opened isFirst d c <;> rfl

theorem upon_document {n : Nat} {c : Cursor} (hn : c.rest.length ≤ n) (handles : Handles) :
    upon n (document handles c) = resume handles c := by
  rw [resume]
  cases h : document handles c with
  | error e => rfl
  | ok p =>
    have hle := (document_suffix h).length_le
    exact congrArg _ (documentsFrom_congr (Nat.le_trans hle hn) (Nat.le_refl _))

theorem outline_of_nil {c : Cursor} (n : Nat) (isFirst : Bool) (h : (c.place isFirst).rest = []) :
    outline n isFirst c = ([], .ok {}) := by
  cases n with
  | zero => rfl
  | succ n =>
    rw [outline, h]
    simp [directives, h]

theorem directive_isGiven {d d' : Directives} {x r : List Char}
    (h : directive d x = .ok (d', r)) : d'.isGiven = true := by
  unfold directive at h
  dsimp only at h
  split at h
  · cases h
  · split at h
    · obtain ⟨⟨major, s⟩, -, h⟩ := Except.bind_eq_ok_iff.mp h
      dsimp only at h
      split at h
      · obtain ⟨⟨minor, s⟩, -, h⟩ := Except.bind_eq_ok_iff.mp h
        dsimp only at h
        split at h
        · cases h
        · cases h
          rfl
      · cases h
    · split at h
      · obtain ⟨⟨handle, s⟩, -, h⟩ := Except.bind_eq_ok_iff.mp h
        dsimp only at h
        split at h
        · cases h
        · obtain ⟨⟨text, s⟩, -, h⟩ := Except.bind_eq_ok_iff.mp h
          dsimp only at h
          split at h
          · cases h
          · cases h
            simp [Directives.isGiven]
      · cases h

theorem directiveLine_isGiven {d d' : Directives} {c c' : Cursor}
    (h : directiveLine d c = .ok (d', c')) : d'.isGiven = true := by
  obtain ⟨⟨e, s⟩, he, h⟩ := Except.bind_eq_ok_iff.mp h
  dsimp only at h
  split at h
  · cases h
  · cases h
    exact directive_isGiven he

theorem directives_isGiven {n : Nat} {d d' : Directives} {c c' : Cursor} (hd : d.isGiven = true)
    (h : directives n d c = .ok (d', c')) : d'.isGiven = true := by
  induction n generalizing d c with
  | zero =>
    cases h
    exact hd
  | succ n ih =>
    by_cases hat : c.atDirective = true
    · rw [directives_succ hat] at h
      obtain ⟨⟨e, c₁⟩, he, h⟩ := Except.bind_eq_ok_iff.mp h
      exact ih (directiveLine_isGiven he) h
    · rw [directives_of_not_atDirective (Bool.eq_false_iff.mpr hat)] at h
      cases h
      exact hd

/-- Something is given where there are directives. -/
theorem directives_cases {n : Nat} {d d' : Directives} {c c' : Cursor} (hn : c.rest.length ≤ n)
    (h : directives n d c = .ok (d', c')) :
    (c.atDirective = false ∧ d' = d ∧ c' = c) ∨ d'.isGiven = true := by
  by_cases hat : c.atDirective = true
  · obtain ⟨r, hr⟩ := atDirective_spec hat
    rw [hr, List.length_cons] at hn
    obtain ⟨k, rfl⟩ : ∃ k, n = k + 1 := ⟨n - 1, by omega⟩
    rw [directives_succ hat] at h
    obtain ⟨⟨e, c₁⟩, he, h⟩ := Except.bind_eq_ok_iff.mp h
    exact .inr (directives_isGiven (directiveLine_isGiven he) h)
  · have hat := Bool.eq_false_iff.mpr hat
    rw [directives_of_not_atDirective hat] at h
    cases h
    exact .inl ⟨hat, rfl, rfl⟩

namespace Sequel

variable {K : Sequel} {c₀ c : Cursor}

theorem SamePlace.opened_edge (h : K.SamePlace c₀ c) (hnil : c₀.rest = []) (hfinal : K.final ≠ [])
    (isFirst : Bool) (d : Directives) :
    Yaml.opened isFirst d c = Yaml.document d.allHandles ((K.edge.advance 3).skip false) := by
  have hedge := h.edge_eq hnil hfinal
  obtain ⟨r, hr, hends⟩ := K.final_eq.resolve_left hfinal
  have hrest : c.rest = '-' :: '-' :: '-' :: r := (h.rest_nil hnil).trans hr
  have hcol : c.col = 0 :=
    h.col.trans ((h.edge hnil).resolve_right fun hend ↦ hfinal hend.2)
  have hmarker : (c.atMarker && decide (c.rest.head? = some '-')) = true := by
    rw [Cursor.atMarker, hcol, hrest, isMarker_cons, hends]
    rfl
  rw [Yaml.opened, if_pos hmarker, ← hedge]
  rfl

theorem SamePlace.upon_edge (h : K.SamePlace c₀ c) (hnil : c₀.rest = []) (hfinal : K.final ≠ [])
    {n : Nat} (hn : K.final.length ≤ n + 1) (isFirst : Bool) (d : Directives) :
    upon n (Yaml.opened isFirst d c) = K.onward (.ok d) := by
  have hle : ((K.edge.advance 3).skip false).rest.length ≤ (K.final.drop 3).length :=
    (behind_suffix K.edge).length_le
  have hpos := List.length_pos_iff.mpr hfinal
  rw [List.length_drop] at hle
  rw [h.opened_edge hnil hfinal, upon_document (by omega), onward, if_neg hfinal]

theorem SamePlace.documentsFrom_edge {isFirst : Bool}
    (h : K.SamePlace (c₀.place isFirst) (c.place isFirst)) (hnil : (c₀.place isFirst).rest = [])
    {n : Nat} (hn : c.rest.length ≤ n) : Yaml.documentsFrom n isFirst c = K.onward (.ok {}) := by
  by_cases hfinal : K.final = []
  · rw [documentsFrom_of_nil _ _ ((h.rest_nil hnil).trans hfinal), onward, if_pos hfinal]
    rfl
  · have hle := (place_suffix isFirst c).length_le
    have hpos := List.length_pos_iff.mpr hfinal
    rw [h.rest_nil hnil] at hle
    obtain ⟨k, rfl⟩ : ∃ k, n = k + 1 := ⟨n - 1, by omega⟩
    have hat : (c.place isFirst).atDirective = false := by
      rw [h.atDirective_eq, Cursor.atDirective, hnil]
      simp
    rw [documentsFrom_succ, if_neg (by simp [h.rest_nil hnil, hfinal]),
      directives_of_not_atDirective hat]
    exact h.upon_edge hnil hfinal (by omega) isFirst {}

/-- What stands at the start of a document, in the text alone and in the whole: a fault of the
directives; directives and then the end of the text; a fault of the document; or a document. -/
inductive Pace (K : Sequel) (isFirst : Bool) (c₀ c : Cursor) : Prop
  | error {e : Fault} (hd₀ : Yaml.directives c₀.rest.length {} c₀ = .error e)
      (hd : Yaml.directives c.rest.length {} c = .error e)
  | edge {d : Directives} {q₀ q : Cursor} (hd₀ : Yaml.directives c₀.rest.length {} c₀ = .ok (d, q₀))
      (hd : Yaml.directives c.rest.length {} c = .ok (d, q)) (hend : q₀.rest = [])
      (hq : K.SamePlace q₀ q)
  | fault {d : Directives} {q₀ q : Cursor} {e : Fault}
      (hd₀ : Yaml.directives c₀.rest.length {} c₀ = .ok (d, q₀))
      (hd : Yaml.directives c.rest.length {} c = .ok (d, q))
      (hne₀ : q₀.rest ≠ []) (hne : q.rest ≠ [])
      (ho₀ : Yaml.opened isFirst d q₀ = .error e) (ho : Yaml.opened isFirst d q = .error e)
  | next {d : Directives} {g : Graph} {q₀ q u₀ u : Cursor}
      (hd₀ : Yaml.directives c₀.rest.length {} c₀ = .ok (d, q₀))
      (hd : Yaml.directives c.rest.length {} c = .ok (d, q))
      (hne₀ : q₀.rest ≠ []) (hne : q.rest ≠ [])
      (ho₀ : Yaml.opened isFirst d q₀ = .ok (g, u₀)) (ho : Yaml.opened isFirst d q = .ok (g, u))
      (hu : K.SamePlace u₀ u)

theorem SamePlace.pace (h : K.SamePlace c₀ c) (isFirst : Bool) : K.Pace isFirst c₀ c := by
  have hd := h.directives (d := {}) (Nat.le_refl _) (Nat.le_refl _)
  generalize hm₀ : Yaml.directives c₀.rest.length {} c₀ = m₀ at hd
  generalize hm : Yaml.directives c.rest.length {} c = m at hd
  cases hd with
  | error e => exact .error hm₀ hm
  | @ok p q hpq =>
    obtain ⟨d, q₀⟩ := p
    obtain ⟨d', q⟩ := q
    obtain ⟨hvalue, hq, -⟩ := hpq
    dsimp only at hvalue hq
    subst hvalue
    by_cases hend : q₀.rest = []
    · exact .edge hm₀ hm hend hq
    · have hne : q.rest ≠ [] := by simp [hq.rest_eq hend, hend]
      have hopened := hq.opened hend isFirst d'
      generalize ho₀ : Yaml.opened isFirst d' q₀ = o₀ at hopened
      generalize ho : Yaml.opened isFirst d' q = o at hopened
      cases hopened with
      | error e => exact .fault hm₀ hm hend hne ho₀ ho
      | @ok u v huv =>
        obtain ⟨g, u₀⟩ := u
        obtain ⟨g', u⟩ := v
        obtain ⟨hvalue, hu, -⟩ := huv
        dsimp only at hvalue hu
        subst hvalue
        exact .next hm₀ hm hend hne ho₀ ho hu

/-- The documents are those of the text alone, and then what comes of its end. -/
theorem SamePlace.documentsFrom (h : K.SamePlace c₀ c) {isFirst : Bool} {n n' : Nat}
    (hn : c₀.rest.length + isFirst.toNat ≤ n) (hn' : c.rest.length + isFirst.toNat ≤ n') :
    Yaml.documentsFrom n' isFirst c =
      (outline n isFirst c₀).1.map .ok ++ K.onward (outline n isFirst c₀).2 := by
  induction n generalizing isFirst n' c₀ c with
  | zero =>
    have hnil : c₀.rest = [] := List.length_eq_zero_iff.mp (by omega)
    have hnil' := place_of_nil hnil isFirst
    rw [outline_of_nil _ _ hnil']
    exact SamePlace.documentsFrom_edge (h.place isFirst).1 hnil' (by omega)
  | succ n ih =>
    obtain ⟨hplace, hsuffix⟩ := h.place isFirst
    by_cases hnil : (c₀.place isFirst).rest = []
    · rw [outline_of_nil _ _ hnil]
      exact SamePlace.documentsFrom_edge hplace hnil (by omega)
    · have hne : (c.place isFirst).rest ≠ [] := by simp [hplace.rest_eq hnil, hnil]
      have hpos := List.length_pos_iff.mpr hne
      have hle := (place_suffix isFirst c).length_le
      obtain ⟨k, rfl⟩ : ∃ k, n' = k + 1 := ⟨n' - 1, by omega⟩
      rw [documentsFrom_succ, outline, if_neg (by simp [hne])]
      cases hplace.pace isFirst with
      | error hd₀ hd =>
        rw [hd₀, hd]
        rfl
      | @edge d q₀ q hd₀ hd hend hq =>
        rw [hd₀, hd]
        dsimp only
        rw [if_pos (by simp [hend])]
        by_cases hfinal : K.final = []
        · have hgiven : d.isGiven = true := by
            refine (directives_cases (Nat.le_refl _) hd₀).resolve_left fun he ↦ hnil ?_
            rw [← he.2.2, hend]
          have hnil' : q.rest = [] := (hq.rest_nil hend).trans hfinal
          rw [opened_of_nil hgiven hnil', onward, if_pos hfinal, if_pos hgiven]
          rfl
        · have hlength := (directives_suffix (Nat.le_refl _) hd).length_le
          rw [hq.rest_nil hend] at hlength
          exact hq.upon_edge hend hfinal (by omega) isFirst d
      | fault hd₀ hd hne₀ hne ho₀ ho =>
        rw [hd₀, hd]
        dsimp only
        rw [if_neg (by simp [hne₀]), ho₀, ho]
        rfl
      | next hd₀ hd hne₀ hne ho₀ ho hu =>
        have hle₀ := (directives_suffix (Nat.le_refl _) hd₀).length_le
        have hle' := (directives_suffix (Nat.le_refl _) hd).length_le
        rw [hd₀, hd]
        dsimp only
        rw [if_neg (by simp [hne₀]), ho₀, ho, upon, List.map_cons, List.cons_append, ih hu]
        · exact opened_bound ho₀ (Nat.le_trans hle₀ hsuffix.length_le) hn
        · exact opened_bound ho (Nat.le_trans hle' hle) hn'

theorem SamePlace.resume (h : K.SamePlace c₀ c) (handles : Handles) :
    Yaml.resume handles c =
      (resumption handles c₀).1.map .ok ++ K.onward (resumption handles c₀).2 := by
  have hdocument := h.document handles
  rw [Yaml.resume, resumption]
  generalize Yaml.document handles c₀ = m₀ at hdocument ⊢
  generalize Yaml.document handles c = m at hdocument ⊢
  cases hdocument with
  | error e => rfl
  | @ok p q hpq =>
    obtain ⟨g, d₀⟩ := p
    obtain ⟨g', d⟩ := q
    obtain ⟨hvalue, hd, -⟩ := hpq
    dsimp only at hvalue hd ⊢
    subst hvalue
    exact congrArg (Except.ok g' :: ·) (hd.documentsFrom (Nat.le_refl _) (Nat.le_refl _))

/-- With nothing but a blank line behind it, a text is read as it is alone. -/
theorem SamePlace.outline (h : K.SamePlace c₀ c) (hfinal : K.final = []) {isFirst : Bool}
    {n n' : Nat} (hn : c₀.rest.length + isFirst.toNat ≤ n)
    (hn' : c.rest.length + isFirst.toNat ≤ n') :
    Yaml.outline n' isFirst c = Yaml.outline n isFirst c₀ := by
  induction n generalizing isFirst n' c₀ c with
  | zero =>
    have hnil := place_of_nil (List.length_eq_zero_iff.mp (by omega) : c₀.rest = []) isFirst
    rw [outline_of_nil _ _ hnil,
      outline_of_nil _ _ (((h.place isFirst).1.rest_nil hnil).trans hfinal)]
  | succ n ih =>
    obtain ⟨hplace, hsuffix⟩ := h.place isFirst
    by_cases hnil : (c₀.place isFirst).rest = []
    · rw [outline_of_nil _ _ hnil, outline_of_nil _ _ ((hplace.rest_nil hnil).trans hfinal)]
    · have hne : (c.place isFirst).rest ≠ [] := by simp [hplace.rest_eq hnil, hnil]
      have hpos := List.length_pos_iff.mpr hne
      have hle := (place_suffix isFirst c).length_le
      obtain ⟨k, rfl⟩ : ∃ k, n' = k + 1 := ⟨n' - 1, by omega⟩
      rw [Yaml.outline, Yaml.outline]
      cases hplace.pace isFirst with
      | error hd₀ hd => rw [hd₀, hd]
      | @edge d q₀ q hd₀ hd hend hq =>
        have hend' : q.rest = [] := (hq.rest_nil hend).trans hfinal
        rw [hd₀, hd]
        dsimp only
        rw [if_pos (by simp [hend']), if_pos (by simp [hend])]
      | fault hd₀ hd hne₀ hne ho₀ ho =>
        rw [hd₀, hd]
        dsimp only
        rw [if_neg (by simp [hne]), if_neg (by simp [hne₀]), ho₀, ho]
      | next hd₀ hd hne₀ hne ho₀ ho hu =>
        have hle₀ := (directives_suffix (Nat.le_refl _) hd₀).length_le
        have hle' := (directives_suffix (Nat.le_refl _) hd).length_le
        rw [hd₀, hd]
        dsimp only
        rw [if_neg (by simp [hne]), if_neg (by simp [hne₀]), ho₀, ho]
        dsimp only
        rw [ih hu]
        · exact opened_bound ho₀ (Nat.le_trans hle₀ hsuffix.length_le) hn
        · exact opened_bound ho (Nat.le_trans hle' hle) hn'

theorem SamePlace.resumption (h : K.SamePlace c₀ c) (hfinal : K.final = []) (handles : Handles) :
    Yaml.resumption handles c = Yaml.resumption handles c₀ := by
  have hdocument := h.document handles
  rw [Yaml.resumption, Yaml.resumption]
  generalize Yaml.document handles c₀ = m₀ at hdocument ⊢
  generalize Yaml.document handles c = m at hdocument ⊢
  cases hdocument with
  | error e => rfl
  | @ok p q hpq =>
    obtain ⟨g, d₀⟩ := p
    obtain ⟨g', d⟩ := q
    obtain ⟨hvalue, hd, -⟩ := hpq
    dsimp only at hvalue hd ⊢
    subst hvalue
    have houtline : Yaml.outline d.rest.length false d = Yaml.outline d₀.rest.length false d₀ :=
      hd.outline hfinal (Nat.le_refl _) (Nat.le_refl _)
    rw [houtline]

end Sequel

/-- As many steps as there are characters suffice. -/
theorem outline_congr {c : Cursor} {n n' : Nat} (hn : c.rest.length ≤ n)
    (hn' : c.rest.length ≤ n') : outline n false c = outline n' false c :=
  (Sequel.alone_same c).outline rfl hn' hn

end DeliveryCharts.Yaml
