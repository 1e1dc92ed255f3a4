import DeliveryCharts.Proofs.Yaml.Scalars

/-!
What stands in front of a node, in a text with something behind it: anchors and tags are read within
a line, and where one token stands does not change in relation to another.
-/

namespace DeliveryCharts.Yaml

variable {x t : List Char}

/-- What is read from `x` along its line, with and without `t` behind it. -/
structure Continued {α : Type} (x t : List Char) (p q : α × List Char) : Prop where
  value : q.1 = p.1
  rest : q.2 = p.2 ++ t
  along : Along x p.2

theorem Agree.bind_line {α γ δ : Type} {S : γ → δ → Prop} {m m' : Except Fault (α × List Char)}
    {f : α × List Char → Except Fault γ} {g : α × List Char → Except Fault δ}
    (h : Agree (Continued x t) m m')
    (hf : ∀ a r, Along x r → Agree S (f (a, r)) (g (a, r ++ t))) :
    Agree S (m >>= f) (m' >>= g) := by
  refine h.bind fun p q hpq ↦ ?_
  obtain ⟨hvalue, hrest, halong⟩ := hpq
  obtain rfl : q = (p.1, p.2 ++ t) := Prod.ext hvalue hrest
  exact hf p.1 p.2 halong

theorem isBreak_of_isNameChar {ch : Char} (h : isNameChar ch = true) : isBreak ch = false :=
  Bool.eq_false_iff.mpr fun hbreak ↦ by
    simp only [isBreak, Bool.or_eq_true, beq_iff_eq] at hbreak
    rcases hbreak with (((rfl | rfl) | rfl) | rfl) | rfl <;> revert h <;> decide

theorem isBreak_of_isTagChar {verbatim : Bool} {ch : Char} (h : isTagChar verbatim ch = true) :
    isBreak ch = false :=
  Bool.eq_false_iff.mpr fun hbreak ↦ by
    simp only [isBreak, Bool.or_eq_true, beq_iff_eq] at hbreak
    rcases hbreak with (((rfl | rfl) | rfl) | rfl) | rfl <;> revert h <;> cases verbatim <;> decide

theorem tagText_bytes (verbatim : Bool) (fuel : Nat) (a b : Char) (r : List Char) :
    tagText verbatim (fuel + 1) ('%' :: a :: b :: r) =
      match Text.readUnsigned? 16 [a, b] with
      | some n =>
        if n < 0x80 then (tagText verbatim fuel r).map fun p ↦ (Char.ofNat n :: p.1, p.2)
        else .error .malformed
      | none => .error .malformed := rfl

theorem tagText_cons (verbatim : Bool) (fuel : Nat) {ch : Char} (hch : ch ≠ '%') (r : List Char) :
    tagText verbatim (fuel + 1) (ch :: r) =
      if isTagChar verbatim ch then (tagText verbatim fuel r).map fun p ↦ (ch :: p.1, p.2)
      else .ok ([], ch :: r) := by
  rw [tagText.eq_4 _ _ _ _ fun _ _ _ he _ ↦ hch he]
  simp [hch]

theorem tagText_nil {verbatim : Bool} (fuel fuel' : Nat) (h : Ended [] t) :
    Agree (Continued [] t) (tagText verbatim fuel []) (tagText verbatim fuel' ([] ++ t)) := by
  rw [h.resolve_right List.not_mem_nil]
  cases fuel <;> cases fuel' <;> exact .ok ⟨rfl, rfl, .refl _⟩

/-- The two digits behind a percent sign stand on its line, or they are none. -/
theorem tagText_percent {verbatim : Bool} {fuel fuel' : Nat} {r : List Char} (hr : Ended r t)
    (hread : ∀ {s : List Char}, Ended s t → s.length < r.length →
      Agree (Continued s t) (tagText verbatim fuel s) (tagText verbatim fuel' (s ++ t))) :
    Agree (Continued ('%' :: r) t) (tagText verbatim (fuel + 1) ('%' :: r))
      (tagText verbatim (fuel' + 1) ('%' :: (r ++ t))) := by
  match r with
  | [] =>
    rw [hr.resolve_right List.not_mem_nil]
    exact .error _
  | [a] =>
    cases t with
    | nil => exact .error _
    | cons d t =>
      obtain rfl : '\n' = a := by simpa [Ended] using hr
      rw [List.singleton_append, tagText_bytes,
        readUnsigned?_of_mem List.mem_cons_self (by decide)]
      exact .error _
  | a :: b :: r =>
    simp only [List.cons_append, tagText_bytes]
    cases hn : Text.readUnsigned? 16 [a, b] with
    | none => exact .error _
    | some n =>
      have hdigits := isBreak_of_readUnsigned? hn
      have halong : Along (a :: b :: r) r :=
        .cons (hdigits a (by simp)) (.cons (hdigits b (by simp)) (.refl r))
      refine .ite Iff.rfl (fun _ ↦ ?_) fun _ ↦ .error _
      have hlt : r.length < (a :: b :: r).length := by
        rw [List.length_cons, List.length_cons]
        omega
      refine (hread (halong.ended hr) hlt).map fun p q hpq ↦ ?_
      exact ⟨by rw [hpq.value], hpq.rest, .cons (by decide) (halong.trans hpq.along)⟩

theorem tagText_continued {verbatim : Bool} {fuel fuel' : Nat} (h : Ended x t)
    (hfuel : x.length ≤ fuel) (hfuel' : (x ++ t).length ≤ fuel') :
    Agree (Continued x t) (tagText verbatim fuel x) (tagText verbatim fuel' (x ++ t)) := by
  induction fuel generalizing x fuel' with
  | zero =>
    obtain rfl := List.length_eq_zero_iff.mp (Nat.le_zero.mp hfuel)
    exact tagText_nil 0 fuel' h
  | succ fuel ih =>
    cases x with
    | nil => exact tagText_nil (fuel + 1) fuel' h
    | cons ch r =>
      simp only [List.cons_append, List.length_cons, List.length_append] at hfuel hfuel'
      obtain ⟨k, rfl⟩ : ∃ k, fuel' = k + 1 := ⟨fuel' - 1, by omega⟩
      by_cases hch : ch = '%'
      · subst hch
        exact tagText_percent (h.of_cons (by decide)) fun hs hlt ↦
          ih hs (by omega) (by rw [List.length_append]; omega)
      · rw [List.cons_append, tagText_cons _ _ hch, tagText_cons _ _ hch]
        refine .ite Iff.rfl (fun htag ↦ ?_) fun _ ↦ .ok ⟨rfl, rfl, .refl _⟩
        have hbreak := isBreak_of_isTagChar htag
        refine (ih (h.of_cons hbreak) (by omega) (by rw [List.length_append]; omega)).map
          fun p q hpq ↦ ?_
        exact ⟨by rw [hpq.value], hpq.rest, .cons hbreak hpq.along⟩

/-- What reads along a line when nothing stands behind it does so in front of any text. -/
theorem tagText_line {verbatim : Bool} (h : Ended x t) :
    Agree (Continued x t) (tagText verbatim x.length x)
      (tagText verbatim (x ++ t).length (x ++ t)) :=
  tagText_continued h (Nat.le_refl _) (Nat.le_refl _)

/-- Both texts start with a character, or neither does. -/
theorem head_cases (h : Ended x t) (ch : Char) :
    (∃ r, x = ch :: r ∧ x ++ t = ch :: (r ++ t)) ∨
      (∀ r, x ≠ ch :: r) ∧ ∀ r, x ++ t ≠ ch :: r := by
  cases x with
  | nil =>
    rw [h.resolve_right List.not_mem_nil]
    simp
  | cons d r =>
    by_cases hd : d = ch
    · exact .inl ⟨r, by rw [hd], by rw [hd, List.cons_append]⟩
    · exact .inr ⟨by simp [hd], by simp [hd]⟩

theorem tagAt_continued (handles : Handles) (h : Ended x t) :
    Agree (Continued x t) (tagAt handles x) (tagAt handles (x ++ t)) := by
  rcases head_cases h '!' with ⟨r, rfl, happend⟩ | ⟨hx, hxt⟩
  · rw [happend]
    have hr := h.of_cons (by decide)
    have hbang {s : List Char} (hs : Along r s) : Along ('!' :: r) s := .cons (by decide) hs
    rcases head_cases hr '<' with ⟨s, rfl, happend⟩ | ⟨hx, hxt⟩
    · rw [happend, tagAt, tagAt]
      have hs := hr.of_cons (by decide)
      refine (tagText_line hs).bind_line fun text r halong ↦ ?_
      dsimp only
      rcases head_cases (halong.ended hs) '>' with ⟨u, rfl, happend⟩ | ⟨hx, hxt⟩
      · rw [happend]
        refine .ite Iff.rfl (fun _ ↦ .error _) fun _ ↦ .ok ⟨rfl, rfl, hbang (.cons (by decide) ?_)⟩
        exact halong.trans (.cons (by decide) (.refl u))
      · split
        · exact absurd rfl (hx _)
        · exact .error _
    · rw [tagAt.eq_2 _ _ fun s hs ↦ hx s hs, tagAt.eq_2 _ _ fun s hs ↦ hxt s hs]
      have hword := dropWhile_append hr (p := isNameChar) (by decide)
      have halong : Along r (r.dropWhile isNameChar) := .dropWhile fun _ ↦ isBreak_of_isNameChar
      rw [takeWhile_append hr (by decide), hword]
      rcases head_cases (halong.ended hr) '!' with ⟨s, hs, happend⟩ | ⟨hx, hxt⟩
      · rw [happend, hs]
        rw [hs] at halong
        have hbangs := halong.trans (.cons (by decide) (.refl s))
        refine (tagText_line (hbangs.ended hr)).bind_line fun text r' halong ↦ ?_
        refine .ite Iff.rfl (fun _ ↦ .error _) fun _ ↦ ?_
        cases handles.lookup (.ofList ('!' :: r.takeWhile isNameChar ++ ['!'])) with
        | none => exact .error _
        | some full => exact .ok ⟨rfl, rfl, hbang (hbangs.trans halong)⟩
      · split
        · rename_i he
          exact absurd he (hx _)
        · refine (tagText_line hr).bind_line fun text r' halong ↦ ?_
          refine .ite Iff.rfl (fun _ ↦ .ok ⟨rfl, rfl, hbang halong⟩) fun _ ↦ ?_
          cases handles.lookup "!" with
          | none => exact .error _
          | some full => exact .ok ⟨rfl, rfl, hbang halong⟩
  · rw [tagAt.eq_3 _ _ (fun _ ↦ hx _) (fun _ ↦ hx _),
      tagAt.eq_3 _ _ (fun _ ↦ hxt _) (fun _ ↦ hxt _)]
    exact .error _

namespace Sequel

variable {K : Sequel} {c₀ c : Cursor}

theorem bind_read {α γ δ : Type} {S : γ → δ → Prop} {m m' : Except Fault (α × Cursor)}
    {f : α × Cursor → Except Fault γ} {g : α × Cursor → Except Fault δ}
    (h : Agree (K.Reads x) m m')
    (hf : ∀ a d₀ d, K.SamePlace d₀ d → d₀.rest <:+ x → Agree S (f (a, d₀)) (g (a, d))) :
    Agree S (m >>= f) (m' >>= g) := by
  refine h.bind fun p q hpq ↦ ?_
  obtain ⟨a, d₀⟩ := p
  obtain ⟨b, d⟩ := q
  obtain rfl : b = a := hpq.value
  exact hf b d₀ d hpq.place hpq.suffix

theorem bind_read_ite {α γ δ : Type} {S : γ → δ → Prop} {p q : Prop} [Decidable p] [Decidable q]
    {m n m' n' : Except Fault (α × Cursor)} {f : α × Cursor → Except Fault γ}
    {g : α × Cursor → Except Fault δ} (hpq : q ↔ p) (ht : p → Agree (K.Reads x) m m')
    (hf : ¬ p → Agree (K.Reads x) n n')
    (hfg : ∀ a d₀ d, K.SamePlace d₀ d → d₀.rest <:+ x → Agree S (f (a, d₀)) (g (a, d))) :
    Agree S (if p then m >>= f else n >>= f) (if q then m' >>= g else n' >>= g) :=
  .ite hpq (fun hp ↦ bind_read (ht hp) hfg) fun hp ↦ bind_read (hf hp) hfg

theorem SamePlace.readName (h : K.SamePlace c₀ c) (hended : Ended c₀.rest K.tail) :
    Agree (K.Reads c₀.rest) (readName c₀) (readName c) := by
  have hname : c.rest.takeWhile isNameChar = c₀.rest.takeWhile isNameChar := by
    rw [h.append_of_ended hended, takeWhile_append hended (by decide)]
  have halong : Along c₀.rest (c₀.rest.drop (c₀.rest.takeWhile isNameChar).length) := by
    rw [drop_takeWhile]
    exact .dropWhile fun _ ↦ isBreak_of_isNameChar
  have hle := (List.takeWhile_prefix isNameChar (l := c₀.rest)).length_le
  have hplace := (h.advance halong hle).unfresh
  have hrest := hplace.append_of_ended (halong.ended hended)
  rw [Yaml.readName, Yaml.readName, hname]
  refine .ite ?_ (fun _ ↦ .error _) fun _ ↦ .ok ⟨rfl, hplace, List.drop_suffix _ _⟩
  have hended' : Ended (c₀.advance (c₀.rest.takeWhile isNameChar).length).unfresh.rest K.tail :=
    halong.ended hended
  rw [hrest]
  generalize (c₀.advance (c₀.rest.takeWhile isNameChar).length).unfresh.rest = r at hended' ⊢
  cases r with
  | nil => rw [hended'.resolve_right List.not_mem_nil, List.nil_append]
  | cons d r => exact Iff.rfl

theorem SamePlace.readTag (h : K.SamePlace c₀ c) (hended : Ended c₀.rest K.tail)
    (handles : Handles) (inFlow : Bool) :
    Agree (K.Reads c₀.rest) (readTag handles inFlow c₀) (readTag handles inFlow c) := by
  rw [Yaml.readTag, Yaml.readTag, h.append_of_ended hended]
  refine (tagAt_continued handles hended).bind_line fun tag r halong ↦ ?_
  have hplace : K.SamePlace (c₀.advance (c₀.rest.length - r.length))
      (c.advance (c₀.rest.length - r.length)) :=
    h.advance (halong.drop_eq.symm ▸ halong) (Nat.sub_le _ _)
  have hlength : (c₀.rest ++ K.tail).length - (r ++ K.tail).length = c₀.rest.length - r.length := by
    simp only [List.length_append]
    omega
  have hread : Agree (K.Reads c₀.rest) (.ok (tag, (c₀.advance (c₀.rest.length - r.length)).unfresh))
      (.ok (tag, (c.advance (c₀.rest.length - r.length)).unfresh)) :=
    .ok ⟨rfl, hplace.unfresh, List.drop_suffix _ _⟩
  have hended' := halong.ended hended
  dsimp only
  rw [hlength]
  cases r with
  | nil =>
    rw [hended'.resolve_right List.not_mem_nil]
    exact hread
  | cons d r => exact .ite Iff.rfl (fun _ ↦ hread) fun _ ↦ .error _


namespace SamePlace

variable (h : K.SamePlace c₀ c)
include h

theorem atIndicator_eq {ch : Char} (hch : isBreak ch = false) :
    atIndicator ch c = atIndicator ch c₀ := by
  refine h.observe (f := fun cs ↦ atIndicator ch { rest := cs }) (fun {x t} hx ↦ ?_) fun r ↦ ?_
  · cases x with
    | nil => rw [hx.resolve_right List.not_mem_nil]; rfl
    | cons d r =>
      by_cases hd : d = ch
      · have hr := hx.of_cons (hd ▸ hch)
        simp only [atIndicator, List.cons_append, endsWord_append hr]
      · have hne : (d == ch) = false := beq_eq_false_iff_ne.mpr hd
        simp only [atIndicator, List.cons_append, hne, Bool.false_and]
  · simp [atIndicator, endsWord, isGap, isSpaceOrTab, isBreak]

theorem atColon_eq (inFlow : Bool) : atColon inFlow c = atColon inFlow c₀ := by
  have hcolon (c : Cursor) : atColon inFlow c =
      ((inFlow && c.rest.head? == some ':') || atIndicator ':' c) := by
    unfold atColon atIndicator
    cases c.rest with
    | nil => simp
    | cons d r => by_cases hd : d = ':' <;> cases inFlow <;> simp [hd]
  have hhead : (c.rest.head? == some ':') = (c₀.rest.head? == some ':') := by
    rw [Bool.eq_iff_iff, beq_iff_eq, beq_iff_eq, h.head?_eq_some_iff (by decide)]
  rw [hcolon, hcolon, hhead, h.atIndicator_eq (by decide)]

theorem head?_any {l : List Char} (hl : '-' ∉ l) :
    c.rest.head?.any (· ∈ l) = c₀.rest.head?.any (· ∈ l) :=
  h.observe (f := fun cs ↦ cs.head?.any (· ∈ l)) (fun hx ↦ by rw [head?_append hx])
    fun r ↦ by simp [hl]

theorem atFlowEnd_eq : atFlowEnd c = atFlowEnd c₀ := h.head?_any (by decide)

theorem isOutside_eq (margin : Nat) (unindented : Bool) :
    isOutside margin unindented c = isOutside margin unindented c₀ := by
  rw [isOutside, isOutside, h.col, h.atIndicator_eq (by decide), h.head?_any (by decide)]

theorem passed_eq (hne : c₀.rest ≠ []) :
    c.line = c₀.line + K.line ∧ c.index = c₀.index + K.index := by
  have hpassed : K.passed c₀.rest = 0 := if_neg hne
  have hline := h.line
  have hindex := h.index
  omega

variable {d₀ d : Cursor} (hd : K.SamePlace d₀ d)
include hd

/-- Two places are on one line or not, also if one of them is the end. -/
theorem line_eq (hsuffix : d₀.rest <:+ c₀.rest) : d.line = c.line ↔ d₀.line = c₀.line := by
  by_cases hne : c₀.rest = []
  · have hnil : d₀.rest = [] := List.suffix_nil.mp (hne ▸ hsuffix)
    have hline := h.line
    have hline' := hd.line
    rw [hne] at hline
    rw [hnil] at hline'
    omega
  · have hline := (h.passed_eq hne).1
    by_cases hnil : d₀.rest = []
    · have hlines := h.lines
      have hlines' := hd.lines
      have hline' := hd.line
      rw [hnil] at hlines' hline'
      simp only [breaks] at hlines'
      rcases h.ended hne with hend | hfeed
      · have hzero : K.passed [] = 0 := by simp [passed, (isEnd_of_tail hend).1]
        omega
      · have hpos := breaks_pos hfeed
        omega
    · have hline' := (hd.passed_eq hnil).1
      omega

theorem index_eq (hsuffix : d₀.rest <:+ c₀.rest) : d.index = c.index ↔ d₀.index = c₀.index := by
  have hle := hsuffix.length_le
  have hlength := h.length
  have hlength' := hd.length
  by_cases hne : c₀.rest = []
  · have hnil : d₀.rest = [] := List.suffix_nil.mp (hne ▸ hsuffix)
    have hindex := h.index
    have hindex' := hd.index
    rw [hne] at hindex
    rw [hnil] at hindex'
    omega
  · have hindex := (h.passed_eq hne).2
    have hindex' := hd.index
    have hpos := List.length_pos_iff.mpr hne
    by_cases hnil : d₀.rest = []
    · simp only [hnil, List.length_nil] at hlength'
      omega
    · have hindex'' := (hd.passed_eq hnil).2
      omega

theorem isKeyFrom_eq (hsuffix : d₀.rest <:+ c₀.rest) (hne : d₀.rest ≠ []) :
    isKeyFrom c d = isKeyFrom c₀ d₀ := by
  have hne' : c₀.rest ≠ [] := fun hnil ↦ hne (List.suffix_nil.mp (hnil ▸ hsuffix))
  have hindex := (h.passed_eq hne').2
  have hindex' := (hd.passed_eq hne).2
  have hline := h.line_eq hd hsuffix
  rw [isKeyFrom, isKeyFrom, Bool.eq_iff_iff]
  simp only [Bool.and_eq_true, beq_iff_eq, decide_eq_true_eq, hline]
  omega

end SamePlace

/-- What stands in front of a node, and the content behind it, are at the same places. -/
structure SameFront (K : Sequel) (x : List Char) (f₀ f : Front) : Prop where
  above : f.above = f₀.above
  beside : f.beside = f₀.beside
  start : K.SamePlace f₀.start f.start
  cursor : K.SamePlace f₀.cursor f.cursor
  behind : f₀.cursor.rest <:+ f₀.start.rest
  suffix : f₀.start.rest <:+ x

theorem SameFront.isGiven_eq {f₀ f : Front} (h : K.SameFront x f₀ f) : f.isGiven = f₀.isGiven := by
  rw [Front.isGiven, Front.isGiven, h.above, h.beside]

theorem SameFront.add {f₀ f : Front} (h : K.SameFront x f₀ f) (hnext : K.SamePlace c₀ c)
    (hsuffix : c₀.rest <:+ f₀.cursor.rest) (inFlow : Bool) (p : Properties) :
    Agree (K.SameFront x) (f₀.add inFlow p c₀) (f.add inFlow p c) := by
  rw [Front.add, Front.add, h.beside, h.above]
  refine .andThen fun beside _ ↦ .ite ?_ (fun _ ↦ ?_) fun _ ↦ .andThen fun above _ ↦ ?_
  · rw [Bool.or_eq_true, Bool.or_eq_true, beq_iff_eq, beq_iff_eq,
      h.start.line_eq hnext (hsuffix.trans h.behind)]
  · exact .ok ⟨rfl, rfl, h.start, hnext, hsuffix.trans h.behind, h.suffix⟩
  · exact .ok ⟨rfl, rfl, hnext, hnext, List.suffix_refl _, hsuffix.trans (h.behind.trans h.suffix)⟩

theorem readFront_go_of_cons {handles : Handles} {inFlow : Bool} {outside : Cursor → Bool}
    {fuel : Nat} {f : Front} {ch : Char} {r : List Char} (hrest : f.cursor.rest = ch :: r) :
    readFront.go handles inFlow outside (fuel + 1) f =
      if f.cursor.atClose || outside f.cursor then .ok f
      else if ch = '&' then do
        let (name, c) ← readName (f.cursor.advance 1)
        readFront.go handles inFlow outside fuel
          (← f.add inFlow { anchor := some name } (c.skip inFlow))
      else if ch = '!' then do
        let (tag, c) ← readTag handles inFlow f.cursor
        readFront.go handles inFlow outside fuel
          (← f.add inFlow { tag := some tag } (c.skip inFlow))
      else .ok f := by
  rw [readFront.go, hrest]
  by_cases hand : ch = '&'
  · subst hand
    rfl
  · by_cases hbang : ch = '!'
    · subst hbang
      rfl
    · simp [hand, hbang]

theorem readFront_go_of_nil {handles : Handles} {inFlow : Bool} {outside : Cursor → Bool}
    {f : Front} (h : f.cursor.atClose = true) (fuel : Nat) :
    readFront.go handles inFlow outside fuel f = .ok f := by
  cases fuel with
  | zero => rfl
  | succ fuel => rw [readFront.go, h, Bool.true_or, if_pos rfl]

theorem SameFront.go {f₀ f : Front} (h : K.SameFront x f₀ f) (handles : Handles) (inFlow : Bool)
    {outside : Cursor → Bool} (hout : ∀ {d₀ d}, K.SamePlace d₀ d → outside d = outside d₀)
    (fuel : Nat) :
    Agree (K.SameFront x) (readFront.go handles inFlow outside fuel f₀)
      (readFront.go handles inFlow outside fuel f) := by
  induction fuel generalizing f₀ f with
  | zero => exact .ok h
  | succ fuel ih =>
    have hplace := h.cursor
    cases hrest : f₀.cursor.rest with
    | nil =>
      have hclose : f₀.cursor.atClose = true := by simp [Cursor.atClose, Cursor.atEnd, hrest]
      rw [readFront_go_of_nil hclose, readFront_go_of_nil (hplace.atClose_eq.trans hclose)]
      exact .ok h
    | cons ch r =>
      have hended := hplace.ended (by simp [hrest])
      rw [readFront_go_of_cons hrest, readFront_go_of_cons (hplace.cons hrest), hplace.atClose_eq,
        hout hplace]
      refine .ite Iff.rfl (fun _ ↦ .ok h) fun _ ↦ .ite Iff.rfl (fun hch ↦ ?_) fun _ ↦
        .ite Iff.rfl (fun _ ↦ ?_) fun _ ↦ .ok h
      · have hbreak : isBreak ch = false := hch ▸ rfl
        have halong : Along f₀.cursor.rest (f₀.cursor.advance 1).rest := by
          rw [Cursor.advance_one_rest hrest, hrest]
          exact .cons hbreak (.refl r)
        refine bind_read ((hplace.step hrest hbreak).readName (halong.ended hended))
          fun name d₀ d hd hsuffix ↦ ?_
        refine (h.add (hd.skip inFlow) ?_ inFlow _).bind fun g₀ g hg ↦ ih hg
        exact (Cursor.skip_suffix inFlow d₀).trans (hsuffix.trans halong.suffix)
      · refine bind_read (hplace.readTag hended handles inFlow) fun tag d₀ d hd hsuffix ↦ ?_
        refine (h.add (hd.skip inFlow) ?_ inFlow _).bind fun g₀ g hg ↦ ih hg
        exact (Cursor.skip_suffix inFlow d₀).trans hsuffix

theorem SamePlace.readFront (h : K.SamePlace c₀ c) (handles : Handles) (inFlow : Bool)
    {outside : Cursor → Bool} (hout : ∀ {d₀ d}, K.SamePlace d₀ d → outside d = outside d₀) :
    Agree (K.SameFront c₀.rest) (readFront handles inFlow outside c₀)
      (readFront handles inFlow outside c) :=
  (show K.SameFront c₀.rest { start := c₀, cursor := c₀ } { start := c, cursor := c } from
    ⟨rfl, rfl, h, h, List.suffix_refl _, List.suffix_refl _⟩).go handles inFlow hout 5

end Sequel

end DeliveryCharts.Yaml
