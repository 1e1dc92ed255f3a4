import DeliveryCharts.Proofs.Yaml.Documents

/-!
Texts that are put together to a stream, with hyphens between them. Each is read as it is behind
hyphens alone, whether or not there are a blank line in front of the hyphens and a comment behind.
-/

namespace DeliveryCharts.Yaml

namespace Sequel

variable {K : Sequel} {c₀ c : Cursor}

theorem eq_of_alone {c₁ : Cursor} (h : (alone c₁).SamePlace c₀ c) : c = c₀ := by
  have hrest : c.rest = c₀.rest := by
    by_cases hnil : c₀.rest = []
    · rw [h.rest_nil hnil, hnil]
      rfl
    · exact (h.rest_eq hnil).trans (List.append_nil _)
  have hpassed : (alone c₁).passed c₀.rest = 0 := by simp [passed, alone]
  have hline : c.line = c₀.line := by rw [h.line, hpassed]; rfl
  have hindex : c.index = c₀.index := by rw [h.index, hpassed]; rfl
  obtain ⟨r₀, line₀, col₀, index₀, fresh₀⟩ := c₀
  obtain ⟨r, line, col, index, fresh⟩ := c
  simp_all only [Cursor.mk.injEq]
  exact ⟨trivial, trivial, h.col, trivial, h.fresh⟩

end Sequel

/-- What stands between two texts of a stream: the hyphens, and perhaps a comment on a line of its
own. -/
structure Joint where
  comment : Option (List Char)
  comment_line : ∀ w, comment = some w → ∀ ch ∈ w, isBreak ch = false

namespace Joint

def comments (j : Joint) : List Char :=
  match j.comment with
  | none => []
  | some w => '#' :: w ++ ['\n']

/-- The hyphens and what is behind them. -/
def marks (j : Joint) : List Char := '-' :: '-' :: '-' :: '\n' :: j.comments

end Joint

/-- Hyphens alone on their line. -/
def hyphens : Joint := ⟨none, by simp⟩

/-- The texts of a stream behind the first. -/
def joinedFrom : List (Joint × List Char) → List Char
  | [] => []
  | (j, t) :: ps => j.marks ++ (t ++ joinedFrom ps)

/-- The text can be followed by the others. -/
def Joinable : List Char → List (Joint × List Char) → Prop
  | _, [] => True
  | t, (_, t') :: ps => t.getLast? = some '\n' ∧ Joinable t' ps

/-- The documents of a text behind hyphens, and its end. -/
def behind (handles : Handles) (t : List Char) : List Graph × Except Fault Directives :=
  resumption handles (({ rest := t } : Cursor).skip false)

/-- The documents of the texts that follow, each read from the content of one on. -/
def following : Except Fault Directives → List (List Char) → List (Except Fault Graph)
  | .error e, _ => [.error e]
  | .ok d, [] => if d.isGiven then [.error .malformed] else []
  | .ok d, t :: ts =>
    (behind d.allHandles t).1.map .ok ++ following (behind d.allHandles t).2 ts

theorem skip_go_congr {inFlow : Bool} {c : Cursor} {n n' : Nat} (hn : c.rest.length ≤ n)
    (hn' : c.rest.length ≤ n') : Cursor.skip.go inFlow n c = Cursor.skip.go inFlow n' c :=
  (Sequel.eq_of_alone ((Sequel.alone_same c).skip_go hn hn')).symm

/-- Skipping what stands behind the hyphens ends where the text alone is skipped to. -/
theorem skip_comments (j : Joint) {c : Cursor} {x : List Char}
    (h : c.rest = '\n' :: (j.comments ++ x)) :
    ∃ e : Cursor, e.rest = x ∧ e.col = 0 ∧ e.fresh = true ∧ c.skip false = e.skip false := by
  have hnewline := Cursor.newline_of_feed h
  obtain ⟨e, he⟩ : ∃ e : Cursor, { c.newline with fresh := c.fresh || !false } = e := ⟨_, rfl⟩
  have hrest : e.rest = j.comments ++ x := he ▸ hnewline
  have hcol : e.col = 0 := he ▸ rfl
  have hfresh : e.fresh = true := he ▸ Bool.or_true _
  have hskip : c.skip false = Cursor.skip.go false (j.comments ++ x).length e := by
    rw [Cursor.skip, h, List.length_cons, Cursor.skip_go_of_feed h, he]
  cases hcomment : j.comment with
  | none =>
    have hcomments : j.comments = [] := by rw [Joint.comments, hcomment]
    rw [hcomments, List.nil_append] at hrest hskip
    exact ⟨e, hrest, hcol, hfresh, by rw [hskip, Cursor.skip, hrest]⟩
  | some w =>
    have hcomments : j.comments = '#' :: (w ++ ['\n']) := by rw [Joint.comments, hcomment]; rfl
    have hline := j.comment_line w hcomment
    rw [hcomments] at hrest hskip
    have hrest' : e.rest = ('#' :: w) ++ ('\n' :: x) := by simp [hrest]
    have htake : e.rest.takeWhile (fun ch ↦ !isBreak ch) = '#' :: w := by
      rw [hrest', List.takeWhile_append_of_pos, List.takeWhile_cons_of_neg (by decide),
        List.append_nil]
      exact List.forall_mem_cons.mpr ⟨rfl, fun ch hch ↦ by simp [hline ch hch]⟩
    have hspaces : e.spaces (fun d ↦ d == ' ' || ((false || !e.fresh) && d == '\t')) = e := by
      rw [Cursor.spaces, hrest]
      simp [Cursor.advance]
    have hlead : e.lead false = e.advance (w.length + 1) := by
      rw [Cursor.lead, hspaces, Cursor.dropComment_of_cons hrest, Cursor.spaces, htake,
        List.length_cons]
    have hbehind : (e.lead false).rest = '\n' :: x := by
      rw [hlead, Cursor.advance_rest, hrest']
      exact List.drop_left
    refine ⟨{ (e.lead false).newline with fresh := (e.lead false).fresh || !false },
      Cursor.newline_of_feed hbehind, rfl, Bool.or_true _, ?_⟩
    have hlength : ('#' :: (w ++ ['\n']) ++ x).length = (w.length + x.length + 1) + 1 := by
      simp
      omega
    rw [hskip, hlength, Cursor.skip_go_succ, hbehind, if_pos (by rfl), Cursor.skip]
    refine skip_go_congr ?_ (Nat.le_refl _)
    rw [Cursor.newline_of_feed hbehind]
    omega

/-- At the start of the text. -/
theorem Sequel.start {K : Sequel} {e : Cursor} (hlines : K.lines = breaks K.text)
    (hlength : K.length = K.text.length) (hrest : e.rest = K.text ++ K.tail)
    (hnil : K.text = [] → K.IsEnd) (hline : e.line = K.line) (hindex : e.index = K.index)
    (hcol : e.col = 0) (hfresh : e.fresh = true) : K.SamePlace { rest := K.text } e := by
  have hended : Ended K.text K.tail := by
    by_cases hne : K.text = []
    · exact .inl (tail_eq_nil (hnil hne))
    · exact K.ended_of_suffix (List.suffix_refl _) hne
  obtain ⟨hextend, hpassed⟩ := K.extend_of_ended hended
  refine ⟨List.suffix_refl _, hrest.trans hextend.symm, ?_, ?_, hcol, hfresh, ?_, ?_,
    fun _ ↦ .inl rfl⟩
  · simp only [hpassed, hline, Nat.zero_add, Nat.add_zero]
  · simp only [hpassed, hindex, Nat.zero_add, Nat.add_zero]
  · simp only [hlines, Nat.zero_add]
  · simp only [hlength, Nat.zero_add]

/-- A text with the others behind it is read as they are one by one. -/
theorem exists_sequel {ps : List (Joint × List Char)} {t : List Char} {e : Cursor}
    (hrest : e.rest = t ++ joinedFrom ps) (hcol : e.col = 0) (hfresh : e.fresh = true)
    (hjoinable : Joinable t ps) :
    ∃ K : Sequel, K.SamePlace { rest := t } e ∧
      ∀ o, K.onward o = following o (ps.map Prod.snd) := by
  induction ps generalizing t e with
  | nil =>
    let K : Sequel := {
      text := t, blanks := [], final := [], line := e.line, index := e.index, lines := breaks t,
      length := t.length, blanks_eq := .inl rfl, final_eq := .inl rfl, ended := .inl ⟨rfl, rfl⟩,
      keeps := .inl rfl }
    refine ⟨K, Sequel.start rfl rfl hrest (fun _ ↦ ⟨rfl, rfl⟩) rfl rfl hcol hfresh, fun o ↦ ?_⟩
    cases o with
    | error e => rfl
    | ok d =>
      rw [Sequel.onward, if_pos (show K.final = [] from rfl)]
      rfl
  | cons p ps ih =>
    obtain ⟨j, t'⟩ := p
    obtain ⟨hlast, hjoinable⟩ := hjoinable
    let K : Sequel := {
      text := t, blanks := [], final := j.marks ++ (t' ++ joinedFrom ps), line := e.line,
      index := e.index, lines := breaks t, length := t.length, blanks_eq := .inl rfl,
      final_eq := .inr ⟨_, rfl, rfl⟩, ended := .inr hlast, keeps := .inl rfl }
    have hnil : K.text = [] → K.IsEnd := fun hnil ↦ by
      simp [show t = [] from hnil] at hlast
    refine ⟨K, Sequel.start rfl rfl hrest hnil rfl rfl hcol hfresh, fun o ↦ ?_⟩
    cases o with
    | error e => rfl
    | ok d =>
      have hbehind : (K.edge.advance 3).rest = '\n' :: (j.comments ++ (t' ++ joinedFrom ps)) := rfl
      obtain ⟨e', hrest', hcol', hfresh', hskip⟩ := skip_comments j hbehind
      obtain ⟨K', hsame, honward⟩ := ih hrest' hcol' hfresh' hjoinable
      have hfinal : K.final ≠ [] := List.cons_ne_nil _ _
      rw [Sequel.onward, if_neg hfinal, hskip, (hsame.skip false).resume, honward]
      rfl

theorem head?_joined {ps : List (Joint × List Char)} {t : List Char} (h : Joinable t ps) :
    (t ++ joinedFrom ps).head? = t.head? := by
  cases ps with
  | nil => rw [joinedFrom, List.append_nil]
  | cons p ps =>
    cases t with
    | nil => cases h.1
    | cons ch t => rfl

theorem ofText_length (cs : List Char) : (Cursor.ofText cs).rest.length ≤ cs.length := by
  rw [Cursor.ofText]
  split
  · exact (List.drop_suffix 1 cs).length_le
  · exact Nat.le_refl _

theorem Sequel.SamePlace.ofText {K : Sequel} {x t : List Char}
    (h : K.SamePlace { rest := t } { rest := x }) (hhead : x.head? = t.head?) :
    K.SamePlace (.ofText t) (.ofText x) := by
  rw [Cursor.ofText, Cursor.ofText, hhead]
  by_cases hmark : t.head? = some '\uFEFF'
  · rw [if_pos hmark, if_pos hmark]
    obtain ⟨r, hr⟩ := List.head?_eq_some_iff.mp hmark
    exact h.step hr (by decide)
  · rw [if_neg hmark, if_neg hmark]
    exact h

/-- A stream whose first text has no hyphens in front of it. -/
theorem documentsFrom_joined {ps : List (Joint × List Char)} {t : List Char} (h : Joinable t ps) :
    documentsFrom ((t ++ joinedFrom ps).length + 1) true (.ofText (t ++ joinedFrom ps)) =
      (outline (t.length + 1) true (.ofText t)).1.map .ok ++
        following (outline (t.length + 1) true (.ofText t)).2 (ps.map Prod.snd) := by
  obtain ⟨K, hsame, honward⟩ :=
    exists_sequel (e := { rest := t ++ joinedFrom ps }) rfl rfl rfl h
  rw [← honward]
  exact (hsame.ofText (head?_joined h)).documentsFrom (Nat.add_le_add_right (ofText_length _) 1)
    (Nat.add_le_add_right (ofText_length _) 1)

theorem documentsFrom_alone (t : List Char) :
    documentsFrom (t.length + 1) true (.ofText t) =
      (outline (t.length + 1) true (.ofText t)).1.map .ok ++
        following (outline (t.length + 1) true (.ofText t)).2 [] := by
  have halone := documentsFrom_joined (show Joinable t [] from trivial)
  rwa [joinedFrom, List.append_nil] at halone

/-- What can be followed by others is read as its parts are. -/
theorem following_joined {ps : List (Joint × List Char)} {t : List Char} (h : Joinable t ps)
    (o : Except Fault Directives) :
    following o [t ++ joinedFrom ps] = following o (t :: ps.map Prod.snd) := by
  cases o with
  | error e => rfl
  | ok d =>
    obtain ⟨K, hsame, honward⟩ := exists_sequel (e := { rest := t ++ joinedFrom ps }) rfl rfl rfl h
    have halone : Joinable (t ++ joinedFrom ps) [] := trivial
    obtain ⟨K', hsame', honward'⟩ :=
      exists_sequel (e := { rest := t ++ joinedFrom ps }) (List.append_nil _).symm rfl rfl halone
    have hwhole := (hsame'.skip false).resume d.allHandles
    rw [(hsame.skip false).resume, honward, honward'] at hwhole
    exact hwhole.symm

/-- A blank line behind the text adds nothing to what it holds. -/
def Settled (t : List Char) : Prop := ∀ handles, behind handles (t ++ ['\n']) = behind handles t

/-- No document stands behind. -/
theorem final_nil : ([] : List Char) = [] ∨
    ∃ r, ([] : List Char) = '-' :: '-' :: '-' :: r ∧ endsWord r = true :=
  .inl rfl

/-- A text with a blank line behind it. -/
def feed (t : List Char) (hlast : t.getLast? = some '\n') (hkeeps : ¬ KeepsEnd t) : Sequel where
  text := t
  blanks := ['\n']
  final := []
  line := 0
  index := 0
  lines := breaks t
  length := t.length
  blanks_eq := .inr rfl
  final_eq := final_nil
  ended := .inr hlast
  keeps := .inr hkeeps

theorem feed_same {t : List Char} (hlast : t.getLast? = some '\n') (hkeeps : ¬ KeepsEnd t) :
    (feed t hlast hkeeps).SamePlace { rest := t } { rest := t ++ ['\n'] } := by
  have hne : t ≠ [] := fun hnil ↦ by simp [hnil] at hlast
  exact Sequel.start rfl rfl rfl (fun hnil ↦ absurd hnil hne) rfl rfl rfl rfl

theorem settled_of_not_keepsEnd {t : List Char} (hlast : t.getLast? = some '\n')
    (hkeeps : ¬ KeepsEnd t) : Settled t :=
  fun handles ↦ ((feed_same hlast hkeeps).skip false).resumption rfl handles

/-- A blank line at the end of a text does not matter, unless a block keeps it. -/
theorem documentsFrom_feed {t : List Char} (hlast : t.getLast? = some '\n')
    (hkeeps : ¬ KeepsEnd t) :
    documentsFrom ((t ++ ['\n']).length + 1) true (.ofText (t ++ ['\n'])) =
      documentsFrom (t.length + 1) true (.ofText t) := by
  have hhead : (t ++ ['\n']).head? = t.head? := head?_append (.inr (List.mem_of_getLast? hlast))
  have houtline : outline ((t ++ ['\n']).length + 1) true (.ofText (t ++ ['\n'])) =
      outline (t.length + 1) true (.ofText t) :=
    ((feed_same hlast hkeeps).ofText hhead).outline rfl
      (Nat.add_le_add_right (ofText_length _) 1) (Nat.add_le_add_right (ofText_length _) 1)
  rw [documentsFrom_alone, documentsFrom_alone, houtline]

theorem ofText_joinedFrom (ps : List (Joint × List Char)) :
    Cursor.ofText (joinedFrom ps) = { rest := joinedFrom ps } := by
  cases ps <;> rfl

/-- A stream that starts with hyphens. -/
theorem documentsFrom_marked {ps : List (Joint × List Char)} {j : Joint} {t : List Char}
    (h : Joinable t ps) {n : Nat}
    (hn : (joinedFrom ((j, t) :: ps)).length ≤ n) :
    documentsFrom n true { rest := joinedFrom ((j, t) :: ps) } =
      following (.ok {}) (t :: ps.map Prod.snd) := by
  have hrest : joinedFrom ((j, t) :: ps) =
      '-' :: '-' :: '-' :: '\n' :: (j.comments ++ (t ++ joinedFrom ps)) := rfl
  rw [hrest] at hn ⊢
  obtain ⟨k, rfl⟩ : ∃ k, n = k + 1 := ⟨n - 1, by simp only [List.length_cons] at hn; omega⟩
  obtain ⟨c, hc⟩ : ∃ c : Cursor,
      { rest := '-' :: '-' :: '-' :: '\n' :: (j.comments ++ (t ++ joinedFrom ps)) } = c := ⟨_, rfl⟩
  have hc' : c.rest = '-' :: '-' :: '-' :: '\n' :: (j.comments ++ (t ++ joinedFrom ps)) := by
    rw [← hc]
  have hmarker : c.atMarker = true := by rw [← hc]; rfl
  have hplace : c.place true = c := by
    rw [Cursor.place, Cursor.skip, Cursor.skip_go_of_hyphen (.inr ⟨_, hc'⟩)]
    rfl
  have hopened : opened true {} c = document defaultHandles ((c.advance 3).unfresh.skip false) := by
    rw [opened, if_pos (by rw [hmarker, hc']; rfl)]
    rfl
  have hbehind : (c.advance 3).unfresh.rest = '\n' :: (j.comments ++ (t ++ joinedFrom ps)) := by
    rw [← hc]
    rfl
  obtain ⟨e, hrest, hcol, hfresh, hskip⟩ := skip_comments j hbehind
  obtain ⟨K, hsame, honward⟩ := exists_sequel hrest hcol hfresh h
  have hlength := (behind_suffix c).length_le
  rw [hc', List.length_drop] at hlength
  rw [hc, documentsFrom_succ, hplace, if_neg (by simp [hc']),
    directives_of_not_atDirective (by simp [Cursor.atDirective, hc'])]
  dsimp only
  rw [hopened, upon_document (by omega), hskip, (hsame.skip false).resume, honward]
  rfl

theorem spaces_spaces (c : Cursor) (p : Char → Bool) : (c.spaces p).spaces p = c.spaces p := by
  have hzero : ((c.spaces p).rest.takeWhile p).length = 0 := by
    rw [Cursor.spaces, Cursor.advance_rest, drop_takeWhile]
    cases hr : c.rest.dropWhile p with
    | nil => rfl
    | cons ch r =>
      have hch := List.head_dropWhile_not p (l := c.rest) (by simp [hr])
      simp only [hr, List.head_cons] at hch
      simp [hch]
  rw [Cursor.spaces, hzero]
  rfl

/-- Nothing is to be skipped where skipping ends. -/
theorem lead_lead {inFlow : Bool} {c : Cursor} (h : startsBreak (c.lead inFlow).rest = false) :
    (c.lead inFlow).lead inFlow = c.lead inFlow := by
  obtain ⟨s, hs⟩ : ∃ s, c.spaces (fun d ↦ d == ' ' || ((inFlow || !c.fresh) && d == '\t')) = s :=
    ⟨_, rfl⟩
  have hlead : c.lead inFlow = s.dropComment := by rw [Cursor.lead, hs]
  by_cases hhead : s.rest.head? = some '#'
  · obtain ⟨r, hr⟩ := List.head?_eq_some_iff.mp hhead
    have hrest : (c.lead inFlow).rest = s.rest.dropWhile fun d ↦ !isBreak d := by
      rw [hlead, Cursor.dropComment_of_cons hr, Cursor.spaces, Cursor.advance_rest, drop_takeWhile]
    have hnil : (c.lead inFlow).rest = [] := by
      rw [hrest] at h ⊢
      exact Classical.byContradiction fun hne ↦ by simp [startsBreak_dropWhile hne] at h
    exact Cursor.lead_of_hyphen (.inl hnil) inFlow
  · rw [Cursor.dropComment_of_ne hhead] at hlead
    have hfresh : s.fresh = c.fresh := by rw [← hs]; rfl
    rw [hlead, Cursor.lead, hfresh, ← hs, spaces_spaces, hs, Cursor.dropComment_of_ne hhead]

theorem skip_go_settled (inFlow : Bool) {n : Nat} {c : Cursor} (hn : c.rest.length ≤ n) :
    (Cursor.skip.go inFlow n c).lead inFlow = Cursor.skip.go inFlow n c ∧
      startsBreak (Cursor.skip.go inFlow n c).rest = false := by
  induction n generalizing c with
  | zero =>
    have hnil := List.length_eq_zero_iff.mp (Nat.le_zero.mp hn)
    exact ⟨Cursor.lead_of_hyphen (.inl hnil) inFlow, by rw [Cursor.skip.go, hnil]; rfl⟩
  | succ n ih =>
    rw [Cursor.skip_go_succ]
    split
    · rename_i hbreak
      have hlt := Cursor.newline_length hbreak
      have hle := (c.lead_suffix inFlow).length_le
      exact ih (by dsimp only; omega)
    · rename_i hbreak
      have hbreak := Bool.eq_false_iff.mpr hbreak
      exact ⟨lead_lead hbreak, hbreak⟩

theorem skip_skip (inFlow : Bool) (c : Cursor) : (c.skip inFlow).skip inFlow = c.skip inFlow := by
  obtain ⟨hlead, hbreak⟩ := skip_go_settled inFlow (Nat.le_refl c.rest.length)
  generalize hr : c.skip inFlow = r
  rw [Cursor.skip] at hr
  rw [hr] at hlead hbreak
  rw [Cursor.skip]
  cases r.rest.length with
  | zero => rfl
  | succ n => rw [Cursor.skip_go_succ, hlead, hbreak]; rfl

/-- An empty document. -/
def blank : Graph := ⟨.scalar none true "", [], 1⟩

theorem toJson_blank : blank.toJson = .ok .null := by
  decide +kernel

theorem blockNode_of_atClose {c : Cursor} (h : c.atClose = true) (handles : Handles)
    (n margin : Nat) (unindented : Bool) :
    blockNode handles (n + 1) margin unindented c = .ok (.missing {}, c) := by
  have hfront : readFront handles false (isOutside margin unindented) c =
      .ok { start := c, cursor := c } := Sequel.readFront_go_of_nil h 5
  rw [blockNode.eq_2, hfront]
  dsimp only [bind, Except.bind]
  rw [h, Bool.true_or, if_pos rfl]
  rfl

/-- Where no node starts, there is an empty document. -/
theorem document_of_atClose {c : Cursor} (h : c.atClose = true) (hskip : c.skip false = c)
    (handles : Handles) :
    document handles c = if strays c then .error .malformed else .ok (blank, c) := by
  rw [document, fuelFor, blockNode_of_atClose h]
  dsimp only [bind, Except.bind]
  rw [hskip]
  rfl

/-- The text is read the same from its start and behind hyphens, up to an empty document. -/
inductive Headed : (a b : List Graph × Except Fault Directives) → Prop
  | same (a : List Graph × Except Fault Directives) : Headed a a
  | blank (a : List Graph × Except Fault Directives) : Headed a (blank :: a.1, a.2)
  | error (e e' : Fault) : Headed ([], .error e) ([], .error e')

theorem resumption_eq (handles : Handles) {c : Cursor} {n : Nat} (hn : c.rest.length ≤ n) :
    resumption handles c =
      match document handles c with
      | .error e => ([], .error e)
      | .ok (g, c) => (g :: (outline n false c).1, (outline n false c).2) := by
  rw [resumption]
  cases h : document handles c with
  | error e => rfl
  | ok p =>
    have hle := (document_suffix h).length_le
    dsimp only
    rw [outline_congr (Nat.le_refl _) (Nat.le_trans hle hn)]

theorem strays_of_atClose {c : Cursor} (h : c.atClose = true) (hstrays : strays c = true) :
    ∃ e, ∀ n, directives (n + 1) {} c = .error e := by
  have hend : c.atEnd = false := by
    refine Bool.eq_false_iff.mpr fun hend ↦ ?_
    rw [strays, hend] at hstrays
    cases hstrays
  have hat : c.atDirective = true := by simpa [Cursor.atClose, hend] using h
  obtain ⟨r, hr⟩ := atDirective_spec hat
  rw [Sequel.strays_of_cons hr, hend, if_neg (by simp), if_pos rfl, hat, Bool.not_true,
    Bool.false_or, directives_one hat] at hstrays
  cases hline : directiveLine {} c with
  | error e =>
    refine ⟨e, fun n ↦ ?_⟩
    rw [directives_succ hat, hline]
    rfl
  | ok p =>
    rw [hline] at hstrays
    cases hstrays

theorem opened_of_marker {d : Directives} {c : Cursor} (h : c.atMarker = true)
    (hhead : c.rest.head? ≠ some '.') (isFirst : Bool) :
    opened isFirst d c = document d.allHandles ((c.advance 3).unfresh.skip false) := by
  rw [Cursor.atMarker, Bool.and_eq_true] at h
  rcases isMarker_spec h.2 with ⟨r, hr, hends⟩ | ⟨r, hr, -⟩
  · rw [opened, if_pos]
    rw [Cursor.atMarker, h.1, h.2, hr]
    rfl
  · simp [hr] at hhead

/-- Points that end a document are the first thing in a text. -/
def StartsEnded (t : List Char) : Prop :=
  (({ rest := t } : Cursor).skip false).atMarker = true ∧
    (({ rest := t } : Cursor).skip false).rest.head? = some '.'

instance (t : List Char) : Decidable (StartsEnded t) := inferInstanceAs (Decidable (_ ∧ _))

theorem headed {t : List Char} (h : ¬ StartsEnded t) :
    Headed (outline (t.length + 1) true { rest := t }) (behind defaultHandles t) := by
  rw [StartsEnded, Classical.not_and_iff_not_or_not, Bool.not_eq_true] at h
  rw [behind]
  have hskip := skip_skip false { rest := t }
  have hplace : ({ rest := t } : Cursor).place true = ({ rest := t } : Cursor).skip false := rfl
  have hle : (({ rest := t } : Cursor).skip false).rest.length ≤ t.length :=
    (Cursor.skip_suffix false _).length_le
  generalize ({ rest := t } : Cursor).skip false = s at *
  by_cases hclose : s.atClose = true
  · have hhead : s.rest.head? ≠ some '.' := by
      intro hhead
      have hmarker := h.resolve_right fun hne ↦ hne hhead
      rw [Cursor.atClose, Cursor.atEnd, hmarker, Cursor.atDirective, hhead] at hclose
      obtain ⟨r, hr⟩ := List.head?_eq_some_iff.mp hhead
      simp [hr] at hclose
    have hplace' : s.place false = s := by
      rw [Cursor.place, hskip, if_neg Bool.false_ne_true, skipPoints_of_head hhead]
    rw [resumption_eq _ (Nat.le_succ_of_le hle), document_of_atClose hclose hskip]
    by_cases hstrays : strays s = true
    · obtain ⟨e, he⟩ := strays_of_atClose hclose hstrays
      have hpos : s.rest ≠ [] := fun hnil ↦ by simp [strays, Cursor.atEnd, hnil] at hstrays
      obtain ⟨k, hk⟩ : ∃ k, s.rest.length = k + 1 :=
        ⟨s.rest.length - 1, by have := List.length_pos_iff.mpr hpos; omega⟩
      rw [if_pos hstrays, outline, hplace, hk, he]
      exact .error _ _
    · rw [if_neg hstrays]
      have hsame : outline (t.length + 1) false s = outline (t.length + 1) true { rest := t } := by
        rw [outline, outline, hplace, hplace']
        cases hd : directives s.rest.length {} s with
        | error e => rfl
        | ok p =>
          obtain ⟨d, c⟩ := p
          dsimp only
          refine ite_congr rfl (fun _ ↦ rfl) fun hne ↦ ?_
          have hopened : opened false d c = opened true d c := by
            rcases directives_cases (Nat.le_refl _) hd with ⟨hat, rfl, rfl⟩ | hgiven
            · have hmarker : c.atMarker = true := by
                simpa [Cursor.atClose, Cursor.atEnd, hat, hne] using hclose
              rw [opened_of_marker hmarker hhead, opened_of_marker hmarker hhead]
            · rw [opened_of_isGiven hgiven, opened_of_isGiven hgiven]
          rw [hopened]
      dsimp only
      rw [hsame]
      exact .blank _
  · simp only [Cursor.atClose, Cursor.atEnd, Bool.or_eq_true, not_or, Bool.not_eq_true] at hclose
    obtain ⟨⟨hne, hmarker⟩, hat⟩ := hclose
    have hopened : opened true {} s = document defaultHandles s := by
      rw [opened, hmarker]
      rfl
    rw [outline, hplace, directives_of_not_atDirective hat, resumption_eq _ hle]
    dsimp only
    rw [hne, if_neg Bool.false_ne_true, hopened]
    cases document defaultHandles s with
    | error e => exact .same _
    | ok p => exact .same _

/-- Without hyphens in front of it, a text may not start with points. -/
theorem outline_of_startsEnded {t : List Char} (h : StartsEnded t) (n : Nat) :
    outline (n + 1) true { rest := t } = ([], .error .malformed) := by
  obtain ⟨hmarker, hhead⟩ := h
  have hplace : ({ rest := t } : Cursor).place true = ({ rest := t } : Cursor).skip false := rfl
  rw [outline, hplace]
  generalize ({ rest := t } : Cursor).skip false = c at hmarker hhead
  obtain ⟨r, hr⟩ := List.head?_eq_some_iff.mp hhead
  have hopened : opened true {} c = .error .malformed := by
    rw [opened, hmarker, hr]
    rfl
  rw [directives_of_not_atDirective (by simp [Cursor.atDirective, hr])]
  dsimp only
  rw [if_neg (by simp [hr]), hopened]

end DeliveryCharts.Yaml
