import DeliveryCharts.Proofs.Yaml.Properties

/-!
The nodes of a text with something behind it. Each step reads the same node and ends at the same
place, by induction on the number of steps.
-/

namespace DeliveryCharts.Yaml

namespace Sequel

variable {K : Sequel} {c₀ c : Cursor} {x : List Char}

/-- With `n` steps, and as many or more for the whole, the same is read of a text that needs
them. -/
def Alike {α : Type} (K : Sequel) (need n : Nat) (f : Nat → Cursor → Except Fault (α × Cursor)) :
    Prop :=
  ∀ ⦃n' : Nat⦄ ⦃c₀ c : Cursor⦄, K.SamePlace c₀ c → 4 * c₀.rest.length + need ≤ n →
    4 * c₀.rest.length + need ≤ n' → Agree (K.Reads c₀.rest) (f n c₀) (f n' c)

/-- Behind an item a comma has to be passed before the next one. -/
def listNeed : Bool → Nat
  | true => 4
  | false => 1

/-- What is read inside brackets is the same, by the number of steps. -/
structure FlowAlike (K : Sequel) (handles : Handles) (n : Nat) : Prop where
  content (margin : Nat) (inFlow : Bool) :
    K.Alike 1 n fun n ↦ flowContent handles n margin inFlow
  node (margin : Nat) : K.Alike 2 n fun n ↦ flowNode handles n margin
  pair (margin : Nat) : K.Alike 3 n fun n ↦ flowPair handles n margin
  items (margin : Nat) (first : Bool) :
    K.Alike (listNeed first) n fun n ↦ flowItems handles n margin first
  entries (margin : Nat) (first : Bool) :
    K.Alike (listNeed first) n fun n ↦ flowEntries handles n margin first

theorem map_read {α β : Type} {y : List Char} {m m' : Except Fault (α × Cursor)}
    (h : Agree (K.Reads x) m m') (hx : x <:+ y) {g : α → β} :
    Agree (K.Reads y) (m.map fun r ↦ (g r.1, r.2)) (m'.map fun r ↦ (g r.1, r.2)) :=
  h.map fun _ _ hpq ↦ ⟨congrArg g hpq.value, hpq.place, hpq.suffix.trans hx⟩

theorem flowContent_of_cons {handles : Handles} {n margin : Nat} {inFlow : Bool} {ch : Char}
    {r : List Char} (hrest : c.rest = ch :: r) :
    flowContent handles (n + 1) margin inFlow c =
      if ch = '*' then (readName (c.advance 1)).map fun r ↦ (.reference r.1, r.2)
      else if ch = '"' then
        (quoted true (c.advance 1)).map fun r ↦ (.scalar {} false (.ofList r.1), r.2)
      else if ch = '\'' then
        (quoted false (c.advance 1)).map fun r ↦ (.scalar {} false (.ofList r.1), r.2)
      else if ch = '[' then
        (flowItems handles n margin true (c.advance 1)).map fun r ↦ (.seq {} r.1, r.2.unfresh)
      else if ch = '\x7b' then
        (flowEntries handles n margin true (c.advance 1)).map fun r ↦ (.map {} r.1, r.2.unfresh)
      else if !c.atMarker && startsPlain inFlow c.rest then
        (plain inFlow margin c).map fun r ↦ (.scalar {} true (.ofList r.1), r.2)
      else .error .malformed := by
  rw [flowContent.eq_2]
  split
  case h_6 hstar hdouble hsingle hlist hmap =>
    have hne {d : Char} (hd : ∀ r', c.rest ≠ d :: r') : ch ≠ d := fun he ↦ hd r (he ▸ hrest)
    rw [if_neg (hne hstar), if_neg (hne hdouble), if_neg (hne hsingle), if_neg (hne hlist),
      if_neg (hne hmap)]
  all_goals
    rename_i heq
    obtain ⟨rfl, -⟩ := List.cons.inj (hrest.symm.trans heq)
    rfl

theorem flowContent_of_atEnd (h : c.atEnd = true) (handles : Handles) (n margin : Nat)
    (inFlow : Bool) : flowContent handles n margin inFlow c = .error .malformed := by
  cases n with
  | zero => exact flowContent.eq_1 ..
  | succ n =>
    rw [Cursor.atEnd, Bool.or_eq_true, List.isEmpty_iff] at h
    rcases h with h | h
    · rw [flowContent.eq_2, h]
      simp [startsPlain]
    · have hmarker : isMarker c.rest = true := by
        rw [Cursor.atMarker, Bool.and_eq_true] at h
        exact h.2
      rw [flowContent.eq_2, h]
      split <;> simp_all [isMarker]

theorem flowNode_of_atEnd (h : c.atEnd = true) (handles : Handles) (n margin : Nat) :
    flowNode handles n margin c = .error .malformed := by
  cases n with
  | zero => exact flowNode.eq_1 ..
  | succ n =>
    have hclose : c.atClose = true := by rw [Cursor.atClose, h, Bool.true_or]
    have hfront : readFront handles true (fun _ ↦ false) c = .ok { start := c, cursor := c } :=
      readFront_go_of_nil hclose 5
    rw [flowNode.eq_2, hfront]
    show (do
      let r ← flowContent handles n margin true c
      return (← orFault (r.1.attach? {}), r.2)) = _
    rw [flowContent_of_atEnd h]
    rfl

theorem flowPair_of_atEnd (h : c.atEnd = true) (handles : Handles) (n margin : Nat) :
    flowPair handles n margin c = .error .malformed := by
  cases n with
  | zero => exact flowPair.eq_1 ..
  | succ n =>
    rw [flowPair.eq_2]
    split
    · rfl
    · rename_i hmarker
      have hnil : c.rest = [] := by simpa [Cursor.atEnd, hmarker] using h
      simp only [hnil, List.head?_nil, reduceCtorEq, if_false, decide_false, Bool.false_and,
        Bool.false_eq_true, flowNode_of_atEnd h]
      rfl

theorem atColon_spec {inFlow : Bool} (h : atColon inFlow c = true) : ∃ r, c.rest = ':' :: r := by
  unfold atColon at h
  split at h
  · exact ⟨_, ‹_›⟩
  · cases h

/-- Between the brackets of a list: its end, or `f` at the next item. -/
def bracketed {α : Type} (close : Char) (first : Bool) (f : Cursor → Except Fault (List α × Cursor))
    (c : Cursor) : Except Fault (List α × Cursor) :=
  let c := c.skip true
  if c.rest.head? = some close then .ok ([], c.advance 1)
  else if !first && c.rest.head? ≠ some ',' then .error .malformed
  else
    let c := if first then c else (c.advance 1).skip true
    if c.rest.head? = some close then .ok ([], c.advance 1) else f c

/-- A pair in brackets, and what is listed behind it. -/
def pairAnd {α : Type} (handles : Handles) (n margin : Nat) (g : Bool × Node × Node → α)
    (more : Cursor → Except Fault (List α × Cursor)) (c : Cursor) :
    Except Fault (List α × Cursor) := do
  let (pair, c) ← flowPair handles n margin c
  let (items, c) ← more c
  return (g pair :: items, c)

theorem flowItems_succ (handles : Handles) (n margin : Nat) (first : Bool) (c : Cursor) :
    flowItems handles (n + 1) margin first c =
      bracketed ']' first (pairAnd handles n margin
        (fun p ↦ if p.1 then Node.map {} [(p.2.1, p.2.2)] else p.2.1)
        (flowItems handles n margin false)) c :=
  flowItems.eq_2 ..

theorem flowEntries_succ (handles : Handles) (n margin : Nat) (first : Bool) (c : Cursor) :
    flowEntries handles (n + 1) margin first c =
      bracketed '\x7d' first (pairAnd handles n margin (fun p ↦ (p.2.1, p.2.2))
        (flowEntries handles n margin false)) c :=
  flowEntries.eq_2 ..

theorem SamePlace.bracketed (h : K.SamePlace c₀ c) {close : Char}
    (hclose : isBreak close = false ∧ close ≠ '-') {first : Bool} {α : Type}
    {f g : Cursor → Except Fault (List α × Cursor)}
    (hfg : ∀ d₀ d, K.SamePlace d₀ d → d₀.rest <:+ c₀.rest →
      (first = false → d₀.rest.length < c₀.rest.length) → Agree (K.Reads c₀.rest) (f d₀) (g d)) :
    Agree (K.Reads c₀.rest) (bracketed close first f c₀) (bracketed close first g c) := by
  have hskip := h.skip true
  have hsuffix := Cursor.skip_suffix true c₀
  have hend {d₀ d : Cursor} (hd : K.SamePlace d₀ d) (hd₀ : d₀.rest <:+ c₀.rest)
      (hhead : d₀.rest.head? = some close) :
      Agree (K.Reads c₀.rest) (.ok (([] : List α), d₀.advance 1)) (.ok ([], d.advance 1)) := by
    obtain ⟨r, hr⟩ := List.head?_eq_some_iff.mp hhead
    exact .ok ⟨rfl, hd.step hr hclose.1, (List.drop_suffix _ _).trans hd₀⟩
  rw [Sequel.bracketed, Sequel.bracketed]
  refine .ite (hskip.head?_eq_some_iff hclose.2) (hend hskip hsuffix) fun _ ↦ ?_
  refine .ite ?_ (fun _ ↦ .error _) fun hcomma ↦ ?_
  · simp only [ne_eq, hskip.head?_eq_some_iff (show ',' ≠ '-' by decide)]
  · cases first with
    | true =>
      refine .ite (hskip.head?_eq_some_iff hclose.2) (hend hskip hsuffix) fun _ ↦ ?_
      exact hfg _ _ hskip hsuffix (by simp)
    | false =>
      obtain ⟨r, hr⟩ := List.head?_eq_some_iff.mp (by simpa using hcomma)
      have hnext := (hskip.step hr rfl).skip true
      have hnext' : (((c₀.skip true).advance 1).skip true).rest <:+ r :=
        (Cursor.skip_suffix _ _).trans (Cursor.advance_one_rest hr ▸ List.suffix_refl _)
      have hr' : r <:+ c₀.rest := (List.suffix_cons ',' r).trans (hr ▸ hsuffix)
      have hlt := hsuffix.length_le
      have hle := hnext'.length_le
      rw [hr, List.length_cons] at hlt
      refine .ite (hnext.head?_eq_some_iff hclose.2) (hend hnext (hnext'.trans hr')) fun _ ↦ ?_
      exact hfg _ _ hnext (hnext'.trans hr') fun _ ↦ Nat.lt_of_le_of_lt hle hlt

/-- At the key of a pair, with or without the mark of a key in front of it. -/
theorem SamePlace.behindMark (h : K.SamePlace c₀ c) :
    K.SamePlace (if c₀.rest.head? = some '?' then (c₀.advance 1).skip true else c₀)
        (if c₀.rest.head? = some '?' then (c.advance 1).skip true else c) ∧
      (if c₀.rest.head? = some '?' then (c₀.advance 1).skip true else c₀).rest <:+ c₀.rest := by
  split
  · rename_i hmark
    obtain ⟨r, hr⟩ := List.head?_eq_some_iff.mp hmark
    exact ⟨(h.step hr rfl).skip true, (Cursor.skip_suffix _ _).trans (List.drop_suffix _ _)⟩
  · exact ⟨h, List.suffix_refl _⟩

namespace FlowAlike

variable {handles : Handles} {n : Nat} (ih : K.FlowAlike handles n)
include ih

theorem content_succ (margin : Nat) (inFlow : Bool) :
    K.Alike 1 (n + 1) fun n ↦ flowContent handles n margin inFlow := by
  intro n' c₀ c h hn hn'
  obtain ⟨k, rfl⟩ : ∃ k, n' = k + 1 := ⟨n' - 1, by omega⟩
  dsimp only
  cases hrest : c₀.rest with
  | nil =>
    rw [flowContent_of_atEnd (by simp [Cursor.atEnd, hrest]),
      flowContent_of_atEnd (h.atEnd_of_nil hrest)]
    exact .error _
  | cons ch r =>
    have hne : c₀.rest ≠ [] := by simp [hrest]
    have hended := h.ended hne
    have hr := Cursor.advance_one_rest hrest
    have hsuffix : (c₀.advance 1).rest <:+ ch :: r := hr ▸ List.suffix_cons ch r
    rw [hrest, List.length_cons] at hn hn'
    rw [flowContent_of_cons hrest, flowContent_of_cons (h.cons hrest), h.atMarker_eq hne,
      h.rest_eq hne, startsPlain_append hended]
    refine .ite Iff.rfl (fun hch ↦ ?_) fun _ ↦ .ite Iff.rfl (fun hch ↦ ?_) fun _ ↦
      .ite Iff.rfl (fun hch ↦ ?_) fun _ ↦ .ite Iff.rfl (fun hch ↦ ?_) fun _ ↦
      .ite Iff.rfl (fun hch ↦ ?_) fun _ ↦ .ite Iff.rfl (fun _ ↦ ?_) fun _ ↦ .error _
    · have hended' : Ended (c₀.advance 1).rest K.tail := by
        rw [hr]
        exact (hrest ▸ hended : Ended (ch :: r) K.tail).of_cons (hch ▸ rfl)
      exact map_read (g := Node.reference) ((h.step hrest (hch ▸ rfl)).readName hended') hsuffix
    · exact map_read (g := fun cs ↦ Node.scalar {} false (.ofList cs))
        ((h.step hrest (hch ▸ rfl)).quoted true) hsuffix
    · exact map_read (g := fun cs ↦ Node.scalar {} false (.ofList cs))
        ((h.step hrest (hch ▸ rfl)).quoted false) hsuffix
    · refine (ih.items margin true (h.step hrest (hch ▸ rfl)) ?_ ?_).map fun p q hpq ↦
        ⟨by rw [hpq.value], hpq.place.unfresh, hpq.suffix.trans hsuffix⟩
      · simp only [hr, listNeed]
        omega
      · simp only [hr, listNeed]
        omega
    · refine (ih.entries margin true (h.step hrest (hch ▸ rfl)) ?_ ?_).map fun p q hpq ↦
        ⟨by rw [hpq.value], hpq.place.unfresh, hpq.suffix.trans hsuffix⟩
      · simp only [hr, listNeed]
        omega
      · simp only [hr, listNeed]
        omega
    · rw [← hrest]
      exact map_read (g := fun cs ↦ Node.scalar {} true (.ofList cs)) (h.plain inFlow margin)
        (List.suffix_refl _)

theorem node_succ (margin : Nat) : K.Alike 2 (n + 1) fun n ↦ flowNode handles n margin := by
  intro n' c₀ c h hn hn'
  obtain ⟨k, rfl⟩ : ∃ k, n' = k + 1 := ⟨n' - 1, by omega⟩
  dsimp only
  rw [flowNode.eq_2, flowNode.eq_2]
  refine (h.readFront handles true fun _ ↦ rfl).bind fun f₀ f hf ↦ ?_
  dsimp only
  rw [hf.isGiven_eq, hf.cursor.atColon_eq, hf.cursor.atFlowEnd_eq, hf.beside]
  have hsuffix := hf.behind.trans hf.suffix
  have hle := hsuffix.length_le
  refine .ite Iff.rfl (fun _ ↦ .ok ⟨rfl, hf.cursor, hsuffix⟩) fun _ ↦ ?_
  refine bind_read (ih.content margin true hf.cursor (by omega) (by omega))
    fun node d₀ d hd hsuffix' ↦ .andThen fun node _ ↦ .ok ⟨rfl, hd, hsuffix'.trans hsuffix⟩

theorem pair_succ (margin : Nat) : K.Alike 3 (n + 1) fun n ↦ flowPair handles n margin := by
  intro n' c₀ c h hn hn'
  obtain ⟨k, rfl⟩ : ∃ k, n' = k + 1 := ⟨n' - 1, by omega⟩
  dsimp only
  by_cases hnil : c₀.rest = []
  · rw [flowPair_of_atEnd (by simp [Cursor.atEnd, hnil]), flowPair_of_atEnd (h.atEnd_of_nil hnil)]
    exact .error _
  · have hhead : (c.rest.head? = some '?') = (c₀.rest.head? = some '?') :=
      propext (h.head?_eq_some_iff (by decide))
    rw [flowPair.eq_2, flowPair.eq_2, h.atMarker_eq hnil]
    simp only [hhead]
    refine .ite Iff.rfl (fun _ ↦ .error _) fun _ ↦ ?_
    obtain ⟨hplace, hsuffix⟩ := h.behindMark
    have hle := hsuffix.length_le
    generalize (if c₀.rest.head? = some '?' then (c₀.advance 1).skip true else c₀) = start₀ at *
    generalize (if c₀.rest.head? = some '?' then (c.advance 1).skip true else c) = start at *
    refine bind_read_ite (x := start₀.rest) (by rw [hplace.atColon_eq, hplace.atFlowEnd_eq])
      (fun _ ↦ .ok ⟨rfl, hplace, List.suffix_refl _⟩)
      (fun _ ↦ ih.node margin hplace (by omega) (by omega)) fun key d₀ d hd hsuffix' ↦ ?_
    have hcolon := hd.skip true
    have hbehind : (d₀.skip true).rest <:+ c₀.rest :=
      (Cursor.skip_suffix _ _).trans (hsuffix'.trans hsuffix)
    refine .ite (by rw [hcolon.atColon_eq]) (fun hat ↦ ?_) fun _ ↦ .ok ⟨rfl, hcolon, hbehind⟩
    obtain ⟨r, hr⟩ := atColon_spec hat
    have hkey := h.isKeyFrom_eq hcolon hbehind (by simp [hr])
    refine .ite (by rw [hkey]) (fun _ ↦ .error _) fun _ ↦ ?_
    have hvalue := (hcolon.step hr rfl).skip true
    have hsuffix'' : (((d₀.skip true).advance 1).skip true).rest <:+ r :=
      (Cursor.skip_suffix _ _).trans (Cursor.advance_one_rest hr ▸ List.suffix_refl _)
    have hle' := hsuffix''.length_le
    have hle'' := hbehind.length_le
    rw [hr, List.length_cons] at hle''
    refine bind_read_ite (x := (((d₀.skip true).advance 1).skip true).rest)
      (by rw [hvalue.atFlowEnd_eq]) (fun _ ↦ .ok ⟨rfl, hvalue, List.suffix_refl _⟩)
      (fun _ ↦ ih.node margin hvalue (by omega) (by omega)) fun value e₀ e he hsuffix' ↦ ?_
    refine .ok ⟨rfl, he, hsuffix'.trans (hsuffix''.trans ?_)⟩
    exact (List.suffix_cons ':' r).trans (hr ▸ hbehind)

theorem bracketed (margin : Nat) (first : Bool) {close : Char}
    (hclose : isBreak close = false ∧ close ≠ '-') {α : Type} (g : Bool × Node × Node → α)
    {more : Nat → Cursor → Except Fault (List α × Cursor)} (hmore : K.Alike 1 n more) {k : Nat}
    (h : K.SamePlace c₀ c) (hn : 4 * c₀.rest.length + listNeed first ≤ n + 1)
    (hk : 4 * c₀.rest.length + listNeed first ≤ k + 1) :
    Agree (K.Reads c₀.rest) (bracketed close first (pairAnd handles n margin g (more n)) c₀)
      (bracketed close first (pairAnd handles k margin g (more k)) c) := by
  refine h.bracketed hclose fun d₀ d hd hsuffix hlt ↦ ?_
  have hle := hsuffix.length_le
  have hneed : 4 * d₀.rest.length + 4 ≤ 4 * c₀.rest.length + listNeed first := by
    cases first with
    | true => exact Nat.add_le_add_right (Nat.mul_le_mul_left 4 hle) 4
    | false =>
      have hlt' := hlt rfl
      rw [listNeed]
      omega
  refine bind_read (ih.pair margin hd (by omega) (by omega)) fun pair e₀ e he hsuffix' ↦ ?_
  have hle' := hsuffix'.length_le
  refine bind_read (hmore he (by omega) (by omega)) fun items g₀ g hg hsuffix'' ↦ ?_
  exact .ok ⟨rfl, hg, hsuffix''.trans (hsuffix'.trans hsuffix)⟩

theorem items_succ (margin : Nat) (first : Bool) :
    K.Alike (listNeed first) (n + 1) fun n ↦ flowItems handles n margin first := by
  intro n' c₀ c h hn hn'
  have hpos : 0 < listNeed first := by cases first <;> decide
  obtain ⟨k, rfl⟩ : ∃ k, n' = k + 1 := ⟨n' - 1, by omega⟩
  dsimp only
  rw [flowItems_succ, flowItems_succ]
  exact ih.bracketed margin first ⟨rfl, by decide⟩ _ (ih.items margin false) h hn hn'

theorem entries_succ (margin : Nat) (first : Bool) :
    K.Alike (listNeed first) (n + 1) fun n ↦ flowEntries handles n margin first := by
  intro n' c₀ c h hn hn'
  have hpos : 0 < listNeed first := by cases first <;> decide
  obtain ⟨k, rfl⟩ : ∃ k, n' = k + 1 := ⟨n' - 1, by omega⟩
  dsimp only
  rw [flowEntries_succ, flowEntries_succ]
  exact ih.bracketed margin first ⟨rfl, by decide⟩ _ (ih.entries margin false) h hn hn'

end FlowAlike

theorem flowAlike (K : Sequel) (handles : Handles) (n : Nat) : K.FlowAlike handles n := by
  induction n with
  | zero =>
    have hfalse (first : Bool) (m : Nat) : ¬ 4 * m + listNeed first ≤ 0 := by
      cases first <;> simp [listNeed]
    refine ⟨?_, ?_, ?_, ?_, ?_⟩ <;> intros <;> intro n' c₀ c h hn
    · omega
    · omega
    · omega
    · exact absurd hn (hfalse _ _)
    · exact absurd hn (hfalse _ _)
  | succ n ih =>
    exact ⟨ih.content_succ, ih.node_succ, ih.pair_succ, ih.items_succ, ih.entries_succ⟩

theorem atIndicator_spec {ch : Char} (h : atIndicator ch c = true) : ∃ r, c.rest = ch :: r := by
  unfold atIndicator at h
  split at h
  · rename_i d r hrest
    rw [Bool.and_eq_true, beq_iff_eq] at h
    exact ⟨r, h.1 ▸ hrest⟩
  · cases h

/-- Behind an indicator, at the next token. -/
theorem SamePlace.behind (h : K.SamePlace c₀ c) {ch : Char} {r : List Char}
    (hrest : c₀.rest = ch :: r) (hch : isBreak ch = false) :
    K.SamePlace (({ c₀.advance 1 with fresh := true } : Cursor).skip false)
        (({ c.advance 1 with fresh := true } : Cursor).skip false) ∧
      (({ c₀.advance 1 with fresh := true } : Cursor).skip false).rest <:+ r := by
  refine ⟨((h.step hrest hch).withFresh true).skip false, (Cursor.skip_suffix _ _).trans ?_⟩
  exact Cursor.advance_one_rest hrest ▸ List.suffix_refl _

/-- A block scalar, from the sign of its style on. -/
theorem SamePlace.blockScalar (h : K.SamePlace c₀ c)
    (hstyle : c₀.rest.head? = some '|' ∨ c₀.rest.head? = some '>') (margin : Nat) :
    Agree (K.Reads c₀.rest) (Yaml.block (c₀.rest.head? = some '|') margin (c₀.advance 1))
      (Yaml.block (c₀.rest.head? = some '|') margin (c.advance 1)) := by
  obtain ⟨ch, r, hr, hch⟩ : ∃ ch r, c₀.rest = ch :: r ∧ (ch = '|' ∨ ch = '>') := by
    rw [List.head?_eq_some_iff, List.head?_eq_some_iff] at hstyle
    rcases hstyle with ⟨r, hr⟩ | ⟨r, hr⟩
    · exact ⟨_, r, hr, .inl rfl⟩
    · exact ⟨_, r, hr, .inr rfl⟩
  have hbreak : isBreak ch = false := by rcases hch with rfl | rfl <;> rfl
  have hr' := Cursor.advance_one_rest hr
  have hended : Ended (c₀.advance 1).rest K.tail := by
    rw [hr']
    exact (hr ▸ h.ended (by simp [hr]) : Ended (ch :: r) K.tail).of_cons hbreak
  have hbehind : ch :: (c₀.advance 1).rest <:+ K.text := by
    rw [hr', ← hr]
    exact h.suffix
  exact ((h.step hr hbreak).block hended hbehind hch _ margin).mono fun p q hpq ↦
    ⟨hpq.value, hpq.place, hpq.suffix.trans (List.drop_suffix 1 _)⟩

/-- What is read inside a block collection is the same, by the number of steps. -/
structure BlockAlike (K : Sequel) (handles : Handles) (n : Nat) : Prop where
  items (margin col : Nat) : K.Alike 1 n fun n ↦ blockItems handles n margin col
  entries (col : Nat) : K.Alike 2 n fun n ↦ blockEntries handles n col
  node (margin : Nat) (unindented : Bool) :
    K.Alike 3 n fun n ↦ blockNode handles n margin unindented
  value (margin : Nat) : K.Alike 4 n fun n ↦ blockValue handles n margin

namespace BlockAlike

variable {handles : Handles} {n : Nat} (ih : K.BlockAlike handles n)
include ih

theorem value_succ (margin : Nat) : K.Alike 4 (n + 1) fun n ↦ blockValue handles n margin := by
  intro n' c₀ c h hn hn'
  obtain ⟨k, rfl⟩ : ∃ k, n' = k + 1 := ⟨n' - 1, by omega⟩
  dsimp only
  rw [blockValue.eq_2, blockValue.eq_2]
  have hsuffix := Cursor.skip_suffix false c₀
  have hle := hsuffix.length_le
  exact (ih.node margin true (h.skip false) (by omega) (by omega)).mono fun p q hpq ↦
    ⟨hpq.value, hpq.place, hpq.suffix.trans hsuffix⟩

theorem items_succ (margin col : Nat) :
    K.Alike 1 (n + 1) fun n ↦ blockItems handles n margin col := by
  intro n' c₀ c h hn hn'
  obtain ⟨k, rfl⟩ : ∃ k, n' = k + 1 := ⟨n' - 1, by omega⟩
  dsimp only
  have hskip := h.skip false
  have hsuffix := Cursor.skip_suffix false c₀
  have hat := hskip.atIndicator_eq (show isBreak '-' = false from rfl)
  rw [blockItems.eq_2, blockItems.eq_2]
  refine .ite (by rw [hskip.atClose_eq, hskip.col]) (fun _ ↦ .ok ⟨rfl, hskip, hsuffix⟩) fun _ ↦
    .ite (by rw [hat]) (fun _ ↦ .ok ⟨rfl, hskip, hsuffix⟩) fun _ ↦
    .ite (by rw [hat, hskip.col, hskip.fresh]) (fun _ ↦ .error _) fun hitem ↦ ?_
  simp only [Bool.or_eq_true, not_or, Bool.not_eq_true, Bool.not_eq_false'] at hitem
  obtain ⟨r, hr⟩ := atIndicator_spec hitem.1.2
  obtain ⟨hnext, hnext'⟩ := hskip.behind hr rfl
  have hr' : r <:+ c₀.rest := (List.suffix_cons '-' r).trans (hr ▸ hsuffix)
  have hle := hsuffix.length_le
  have hle' := hnext'.length_le
  rw [hr, List.length_cons] at hle
  refine bind_read (ih.node (col + 1) false hnext (by omega) (by omega)) fun item d₀ d hd hd' ↦ ?_
  have hle'' := hd'.length_le
  refine bind_read (ih.items margin col hd (by omega) (by omega)) fun items e₀ e he he' ↦ ?_
  exact .ok ⟨rfl, he, he'.trans (hd'.trans (hnext'.trans hr'))⟩

/-- The entries behind a key with its value. -/
theorem further {k : Nat} (h : K.SamePlace c₀ c) (hx : c₀.rest <:+ x) (col : Nat)
    (hn : 4 * c₀.rest.length + 2 ≤ n) (hk : 4 * c₀.rest.length + 2 ≤ k) {α : Type}
    (g : List (Node × Node) → α) :
    Agree (K.Reads x)
      (do
        let (entries, next) ← blockEntries handles n col c₀
        return (g entries, next))
      (do
        let (entries, next) ← blockEntries handles k col c
        return (g entries, next)) :=
  bind_read (ih.entries col h hn hk) fun _ _ _ hd hd' ↦ .ok ⟨rfl, hd, hd'.trans hx⟩

/-- The value behind a colon, and further entries. -/
theorem behindColon {k : Nat} (h : K.SamePlace c₀ c) (hat : atColon false c₀ = true)
    (hx : c₀.rest <:+ x) (col : Nat) (hn : 4 * c₀.rest.length ≤ n) (hk : 4 * c₀.rest.length ≤ k)
    {α : Type} (g : Node → List (Node × Node) → α) :
    Agree (K.Reads x)
      (do
        let (value, next) ← blockValue handles n (col + 1) (c₀.advance 1).unfresh
        let (entries, next) ← blockEntries handles n col next
        return (g value entries, next))
      (do
        let (value, next) ← blockValue handles k (col + 1) (c.advance 1).unfresh
        let (entries, next) ← blockEntries handles k col next
        return (g value entries, next)) := by
  obtain ⟨r, hr⟩ := atColon_spec hat
  have hvalue := (h.step hr rfl).unfresh
  have hr' : (c₀.advance 1).unfresh.rest = r := Cursor.advance_one_rest hr
  have hsuffix : r <:+ x := (List.suffix_cons ':' r).trans (hr ▸ hx)
  rw [hr, List.length_cons] at hn hk
  refine bind_read (ih.value (col + 1) hvalue (by rw [hr']; omega) (by rw [hr']; omega))
    fun value d₀ d hd hd' ↦ ?_
  rw [hr'] at hd'
  have hle := hd'.length_le
  exact ih.further hd (hd'.trans hsuffix) col (by omega) (by omega) (g value)

theorem entries_succ (col : Nat) : K.Alike 2 (n + 1) fun n ↦ blockEntries handles n col := by
  intro n' c₀ c h hn hn'
  obtain ⟨k, rfl⟩ : ∃ k, n' = k + 1 := ⟨n' - 1, by omega⟩
  dsimp only
  have hskip := h.skip false
  have hsuffix := Cursor.skip_suffix false c₀
  have hle := hsuffix.length_le
  rw [blockEntries.eq_2, blockEntries.eq_2]
  refine .ite (by rw [hskip.atClose_eq, hskip.col]) (fun _ ↦ .ok ⟨rfl, hskip, hsuffix⟩) fun _ ↦
    .ite (by rw [hskip.col, hskip.fresh]) (fun _ ↦ .error _) fun _ ↦
    .ite (by rw [hskip.atIndicator_eq rfl]) (fun hmark ↦ ?_) fun _ ↦ ?_
  · obtain ⟨r, hr⟩ := atIndicator_spec hmark
    obtain ⟨hnext, hnext'⟩ := hskip.behind hr rfl
    have hr' : r <:+ c₀.rest := (List.suffix_cons '?' r).trans (hr ▸ hsuffix)
    have hle' := hnext'.length_le
    rw [hr, List.length_cons] at hle
    refine bind_read (ih.node (col + 1) true hnext (by omega) (by omega)) fun key d₀ d hd hd' ↦ ?_
    have hcolon := hd.skip false
    have hbehind := (Cursor.skip_suffix false d₀).trans (hd'.trans hnext')
    have hle'' := hbehind.length_le
    refine .ite (by rw [hcolon.atClose_eq, hcolon.col, hcolon.atIndicator_eq rfl]) (fun hat ↦ ?_)
      fun _ ↦ ih.further hcolon (hbehind.trans hr') col (by omega) (by omega) _
    refine .ite (by rw [hcolon.fresh]) (fun _ ↦ .error _) fun _ ↦ ?_
    obtain ⟨s, hs⟩ := atIndicator_spec (Bool.and_eq_true _ _ ▸ hat).2
    have hvalue := (hcolon.step hs rfl).withFresh true
    have hlength : ((d₀.skip false).advance 1).rest.length < (d₀.skip false).rest.length := by
      rw [Cursor.advance_one_rest hs, hs]
      exact Nat.lt_succ_self _
    refine bind_read (ih.value (col + 1) hvalue (by dsimp only; omega) (by dsimp only; omega))
      fun value e₀ e he he' ↦ ?_
    have hsuffix' := he'.trans ((List.drop_suffix _ _).trans hbehind)
    have hle''' := hsuffix'.length_le
    exact ih.further he (hsuffix'.trans hr') col (by omega) (by omega) _
  · refine (hskip.readFront handles false fun _ ↦ rfl).bind fun f₀ f hf ↦ ?_
    have hfront := hf.behind.trans hf.suffix
    have hle' := hfront.length_le
    have hindex := hskip.index_eq hf.start hf.suffix
    dsimp only
    rw [hf.beside, hf.cursor.atColon_eq]
    refine .ite (by rw [ne_eq, ne_eq, hindex]) (fun _ ↦ .error _) fun _ ↦ ?_
    refine bind_read_ite (x := f₀.cursor.rest) Iff.rfl
      (fun _ ↦ .ok ⟨rfl, hf.cursor, List.suffix_refl _⟩)
      (fun _ ↦ (flowAlike K handles n).content (col + 1) false hf.cursor (by omega) (by omega))
      fun content d₀ d hd hd' ↦ .andThen fun key _ ↦ ?_
    have hcolon := hd.skip false
    have hbehind := (Cursor.skip_suffix false d₀).trans (hd'.trans hfront)
    have hle'' := hbehind.length_le
    by_cases hat : atColon false (d₀.skip false) = true
    · obtain ⟨r, hr⟩ := atColon_spec hat
      have hkey := hskip.isKeyFrom_eq hcolon hbehind (by simp [hr])
      refine .ite (by rw [hcolon.atColon_eq, hkey]) (fun _ ↦ .error _) fun _ ↦ ?_
      exact ih.behindColon hcolon hat (hbehind.trans hsuffix) col (k := k) (by omega) (by omega)
        fun value entries ↦ (key, value) :: entries
    · rw [if_pos (by simp [hat]), if_pos (by simp [hcolon.atColon_eq, hat])]
      exact .error _

theorem node_succ (margin : Nat) (unindented : Bool) :
    K.Alike 3 (n + 1) fun n ↦ blockNode handles n margin unindented := by
  intro n' c₀ c h hn hn'
  obtain ⟨k, rfl⟩ : ∃ k, n' = k + 1 := ⟨n' - 1, by omega⟩
  dsimp only
  rw [blockNode.eq_2, blockNode.eq_2]
  refine (h.readFront handles false fun hd ↦ hd.isOutside_eq margin unindented).bind
    fun f₀ f hf ↦ ?_
  have hplace := hf.cursor
  have hfront := hf.behind.trans hf.suffix
  have hle := hfront.length_le
  dsimp only
  rw [hf.above, hf.beside, hplace.atColon_eq, hplace.col, hf.start.col]
  refine .ite (by rw [hplace.atClose_eq, hplace.isOutside_eq])
    (fun _ ↦ .andThen fun _ _ ↦ .ok ⟨rfl, hplace, hfront⟩) fun _ ↦ ?_
  refine .ite (by rw [hplace.atIndicator_eq rfl]) (fun _ ↦ ?_) fun _ ↦ ?_
  · refine .ite (by rw [hplace.fresh]) (fun _ ↦ .error _) fun _ ↦ ?_
    refine bind_read (ih.items margin _ hplace (by omega) (by omega)) fun items d₀ d hd hd' ↦ ?_
    exact .andThen fun _ _ ↦ .ok ⟨rfl, hd, hd'.trans hfront⟩
  refine .ite (by rw [hplace.atIndicator_eq rfl]) (fun _ ↦ ?_) fun _ ↦ ?_
  · refine .ite (by rw [hplace.fresh]) (fun _ ↦ .error _) fun _ ↦ ?_
    refine bind_read (ih.entries _ hplace (by omega) (by omega)) fun items d₀ d hd hd' ↦ ?_
    exact .andThen fun _ _ ↦ .ok ⟨rfl, hd, hd'.trans hfront⟩
  have hliteral : (f.cursor.rest.head? = some '|') = (f₀.cursor.rest.head? = some '|') :=
    propext (hplace.head?_eq_some_iff (by decide))
  have hfolded : (f.cursor.rest.head? = some '>') = (f₀.cursor.rest.head? = some '>') :=
    propext (hplace.head?_eq_some_iff (by decide))
  simp only [hliteral, hfolded]
  refine .ite Iff.rfl (fun hblock ↦ ?_) fun _ ↦ ?_
  · refine bind_read (hplace.blockScalar (by simpa using hblock) margin)
      fun text d₀ d hd hd' ↦ ?_
    exact .andThen fun _ _ ↦ .andThen fun _ _ ↦ .ok ⟨rfl, hd, hd'.trans hfront⟩
  · refine bind_read_ite (x := f₀.cursor.rest) Iff.rfl
      (fun _ ↦ .ok ⟨rfl, hplace, List.suffix_refl _⟩)
      (fun _ ↦ (flowAlike K handles n).content margin false hplace (by omega) (by omega))
      fun content d₀ d hd hd' ↦ ?_
    have hcolon := hd.skip false
    have hbehind := (Cursor.skip_suffix false d₀).trans (hd'.trans hf.behind)
    have hle' := (hbehind.trans hf.suffix).length_le
    dsimp only
    rw [hcolon.atColon_eq, hcolon.fresh, hf.start.fresh]
    have hdone : Agree (K.Reads c₀.rest)
        (do
          let node ← orFault (content.attach? (← orFault (f₀.above.and? f₀.beside)))
          return (node, d₀))
        (do
          let node ← orFault (content.attach? (← orFault (f₀.above.and? f₀.beside)))
          return (node, d)) :=
      .andThen fun _ _ ↦ .andThen fun _ _ ↦ .ok ⟨rfl, hd, hd'.trans hfront⟩
    refine .ite Iff.rfl (fun _ ↦ hdone) fun hat ↦ ?_
    have hat : atColon false (d₀.skip false) = true := by simpa using hat
    obtain ⟨r, hr⟩ := atColon_spec hat
    have hkey := hf.start.isKeyFrom_eq hcolon hbehind (by simp [hr])
    refine .ite (by rw [hkey]) (fun _ ↦ ?_) fun _ ↦ .ite Iff.rfl (fun _ ↦ hdone) fun _ ↦ .error _
    refine .andThen fun key _ ↦ ?_
    exact ih.behindColon hcolon hat (hbehind.trans hf.suffix) f₀.start.col (k := k) (by omega)
      (by omega) fun value entries ↦ Node.map f₀.above ((key, value) :: entries)

end BlockAlike

theorem blockAlike (K : Sequel) (handles : Handles) (n : Nat) : K.BlockAlike handles n := by
  induction n with
  | zero => refine ⟨?_, ?_, ?_, ?_⟩ <;> intros <;> intro n' c₀ c h hn <;> omega
  | succ n ih => exact ⟨ih.items_succ, ih.entries_succ, ih.node_succ, ih.value_succ⟩

/-- The root of a document is the same. -/
theorem SamePlace.root (h : K.SamePlace c₀ c) (handles : Handles) :
    Agree (K.Reads c₀.rest) (blockNode handles (fuelFor c₀) 0 false c₀)
      (blockNode handles (fuelFor c) 0 false c) := by
  have hle := h.length_le
  exact (blockAlike K handles (fuelFor c₀)).node 0 false h (by rw [fuelFor]; omega)
    (by rw [fuelFor]; omega)

end Sequel

end DeliveryCharts.Yaml
