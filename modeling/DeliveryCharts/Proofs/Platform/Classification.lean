import DeliveryCharts.Platform.Classify
import DeliveryCharts.Proofs.Text.Blank
import DeliveryCharts.Proofs.Text.Casing
import DeliveryCharts.Proofs.Text.Lines
import Mathlib.Data.List.DropRight
import Mathlib.Data.List.Infix

/-!
The cause of a failed request depends on what single lines of its message say, whatever their case
and the blanks in front of them; lines that say nothing of a cause do not count.
-/

namespace DeliveryCharts

namespace Text

variable {w cs blanks : List Char}

def isLineEnd (c : Char) : Bool := c == '\r' || c == '\n'

/-- The lines of a text without the carriage returns and the line feeds at their ends. -/
def bareLines (cs : List Char) : List (List Char) :=
  (splitAfterFeeds cs).map (List.rdropWhile isLineEnd)

/-! Words at the ends of which no blank stands. -/

theorem isInfix_blanks_append_iff (hw : ∃ c ∈ w.head?, isBlank c = false)
    (h : ∀ c ∈ blanks, isBlank c = true) : w <:+: blanks ++ cs ↔ w <:+: cs := by
  induction blanks with
  | nil => rfl
  | cons b blanks ih =>
    obtain ⟨hb, hblanks⟩ := List.forall_mem_cons.mp h
    rw [List.cons_append, List.infix_cons_iff, ih hblanks, or_iff_right]
    intro hprefix
    obtain ⟨c, hc, hshown⟩ := hw
    cases w with
    | nil => cases hc
    | cons d w =>
      cases hc
      rw [(List.cons_prefix_cons.mp hprefix).1, hb] at hshown
      cases hshown

theorem isInfix_append_blanks_iff (hw : ∃ c ∈ w.getLast?, isBlank c = false)
    (h : ∀ c ∈ blanks, isBlank c = true) : w <:+: cs ++ blanks ↔ w <:+: cs := by
  rw [← List.reverse_infix, List.reverse_append, isInfix_blanks_append_iff, List.reverse_infix]
  · simpa using hw
  · simpa using h

theorem occurs_iff : occurs w cs = true ↔ w <:+: cs := by
  induction cs with
  | nil => simp [occurs]
  | cons c cs ih =>
    have hstart : startsWith (c :: cs) w = true ↔ w <+: c :: cs := by
      rw [startsWith, Option.isSome_iff_exists, List.IsPrefix]
      exact exists_congr fun rest ↦ dropWord?_eq_some_iff.trans eq_comm
    rw [occurs, Bool.or_eq_true, ih, hstart, List.infix_cons_iff]

/-! Words without a line feed. -/

theorem exists_piece_of_prefix (hfeed : '\n' ∉ w) (hne : w ≠ []) (rest : List Char) :
    ∃ l ls, splitAfterFeeds (w ++ rest) = (w ++ l) :: ls := by
  by_cases hmem : '\n' ∈ rest
  · obtain ⟨l, more, rfl, hl⟩ := List.eq_append_cons_of_mem hmem
    refine ⟨l ++ ['\n'], splitAfterFeeds more, ?_⟩
    rw [← List.append_assoc, splitAfterFeeds_line (by simp [hfeed, hl]), List.append_assoc]
  · exact ⟨rest, [], splitAfterFeeds_last (by simp [hfeed, hmem]) (by simp [hne])⟩

/-- A word stands in a text exactly if it stands in a line of it. -/
theorem isInfix_iff_exists_piece (hfeed : '\n' ∉ w) (hne : w ≠ []) :
    w <:+: cs ↔ ∃ piece ∈ splitAfterFeeds cs, w <:+: piece := by
  constructor
  · rintro ⟨before, rest, rfl⟩
    rw [List.append_assoc]
    induction before with
    | nil =>
      obtain ⟨l, ls, hpieces⟩ := exists_piece_of_prefix hfeed hne rest
      rw [List.nil_append, hpieces]
      exact ⟨w ++ l, List.mem_cons_self, List.prefix_append w l |>.isInfix⟩
    | cons c before ih =>
      obtain ⟨piece, hpiece, hw⟩ := ih
      rw [List.cons_append, splitAfterFeeds]
      split
      · exact ⟨piece, List.mem_cons_of_mem _ hpiece, hw⟩
      · split
        · rename_i hnil
          rw [hnil] at hpiece
          cases hpiece
        · rename_i l ls hpieces
          rw [hpieces] at hpiece
          rcases List.mem_cons.mp hpiece with rfl | hpiece
          · exact ⟨c :: piece, List.mem_cons_self, hw.trans (List.suffix_cons c piece).isInfix⟩
          · exact ⟨piece, List.mem_cons_of_mem _ hpiece, hw⟩
  · rintro ⟨piece, hpiece, hw⟩
    rw [← flatten_splitAfterFeeds cs]
    exact hw.trans (List.infix_of_mem_flatten hpiece)

/-! Lines in lower case. -/

theorem splitAfterFeeds_lowerChars (cs : List Char) :
    splitAfterFeeds (lowerChars cs) = (splitAfterFeeds cs).map lowerChars := by
  have hfeed : isBlank '\n' = true := rfl
  induction cs using line_induction with
  | nil => rfl
  | last l hl hne =>
    rw [splitAfterFeeds_last hl hne,
      splitAfterFeeds_last (feed_not_mem_lowerChars hl) (lowerChars_ne_nil hne)]
    rfl
  | line l cs hl ih =>
    rw [lowerChars_append_blank hfeed, splitAfterFeeds_line (feed_not_mem_lowerChars hl), ih,
      splitAfterFeeds_line hl, List.map_cons, lowerChars_append_blank hfeed]
    rfl

theorem isBlank_of_isLineEnd {c : Char} (h : isLineEnd c = true) : isBlank c = true := by
  rw [isLineEnd, Bool.or_eq_true, beq_iff_eq, beq_iff_eq] at h
  rcases h with rfl | rfl <;> rfl

theorem exists_bare (piece : List Char) : ∃ blanks, (∀ c ∈ blanks, isBlank c = true) ∧
    piece = piece.rdropWhile isLineEnd ++ blanks := by
  refine ⟨(piece.reverse.takeWhile isLineEnd).reverse, ?_, ?_⟩
  · intro c hc
    exact isBlank_of_isLineEnd (List.mem_takeWhile_imp (List.mem_reverse.mp hc))
  · rw [List.rdropWhile, ← List.reverse_append, List.takeWhile_append_dropWhile,
      List.reverse_reverse]

theorem exists_dropTerminator (piece : List Char) : ∃ blanks, (∀ c ∈ blanks, isBlank c = true) ∧
    piece = dropTerminator piece ++ blanks := by
  rw [dropTerminator]
  split
  · rename_i r hr
    exact ⟨['\r', '\n'], List.all_eq_true.mp (by decide), by rw [← List.reverse_reverse piece, hr]; simp⟩
  · rename_i r _ hr
    exact ⟨['\n'], List.all_eq_true.mp (by decide), by rw [← List.reverse_reverse piece, hr]; simp⟩
  · exact ⟨[], by simp, by simp⟩

end Text

namespace Platform

open Text (isBlank lowerChars asciiLower bareLines splitAfterFeeds)

variable {code line line' before after cs : List Char} {ls ls' : List (List Char)}

/-- The line starts, behind blanks, with a status: the code alone, or in front of a blank or a
colon. -/
def StartsWithStatus (code line : List Char) : Prop :=
  ∃ blanks rest, line = blanks ++ (code ++ rest) ∧ (∀ c ∈ blanks, isBlank c = true) ∧
    ∀ c ∈ rest.head?, isBlank c = true ∨ c = ':'

/-- What a line of a message says of the cause. -/
inductive Mark where
  | words (w : String)
  | status (code : String)
  deriving DecidableEq

namespace Mark

/-- The mark stands on a line in lower case. -/
def On : Mark → List Char → Prop
  | words w, line => w.toList <:+: line
  | status code, line => StartsWithStatus code.toList line

def isOn : Mark → List Char → Bool
  | words w, line => Text.occurs w.toList line
  | status code, line => startsWithStatus code.toList line

/-- The mark is found in a message. -/
def found (message : String) : Mark → Bool
  | words w => mentions w (lowerChars message.toList)
  | status code => hasStatus code (lowerChars message.toList)

end Mark

/-- The marks that tell causes apart. -/
def marks : List Mark :=
  [.words "unhandled response 404", .words "unhandled response 403", .words "not found",
    .words "does not exist", .status "400", .status "403", .status "404"]

/-- The line says nothing of the cause. -/
def Neutral (line : List Char) : Prop := ∀ mark ∈ marks, ¬ mark.On (lowerChars line)

/-- Lines with neutral ones inserted, with letters of ASCII in another case and with blanks added in
front. -/
inductive Noisier : List (List Char) → List (List Char) → Prop
  | nil : Noisier [] []
  | insert {line : List Char} {ls ls' : List (List Char)} (h : Neutral line) (hs : Noisier ls ls') :
      Noisier ls (line :: ls')
  | keep {blanks line line' : List Char} {ls ls' : List (List Char)}
      (hblanks : ∀ c ∈ blanks, isBlank c = true) (hline : asciiLower line' = asciiLower line)
      (hs : Noisier ls ls') : Noisier (line :: ls) ((blanks ++ line') :: ls')

/-- Blanks at the ends of a line do not matter for the property. -/
structure Loose (P : List Char → Prop) : Prop where
  front {blanks line : List Char} (h : ∀ c ∈ blanks, isBlank c = true) : P (blanks ++ line) ↔ P line
  back {blanks line : List Char} (h : ∀ c ∈ blanks, isBlank c = true) : P (line ++ blanks) ↔ P line

theorem loose_words {w : List Char} (hhead : ∃ c ∈ w.head?, isBlank c = false)
    (hlast : ∃ c ∈ w.getLast?, isBlank c = false) : Loose fun line ↦ w <:+: line :=
  ⟨Text.isInfix_blanks_append_iff hhead, Text.isInfix_append_blanks_iff hlast⟩

/-- The code of a status. -/
structure IsCode (code : List Char) : Prop where
  shown : ∀ c ∈ code, isBlank c = false
  ne_nil : code ≠ []

theorem IsCode.trimStartChars_append (h : IsCode code) (rest : List Char) :
    Text.trimStartChars (code ++ rest) = code ++ rest := by
  obtain ⟨c, code, rfl⟩ := List.exists_cons_of_ne_nil h.ne_nil
  exact Text.trimStartChars_cons (h.shown c List.mem_cons_self) (code ++ rest)

theorem startsWithStatus_iff (h : IsCode code) :
    startsWithStatus code line = true ↔ StartsWithStatus code line := by
  have hrest (rest : List Char) (hrest : Text.trimStartChars line = code ++ rest) :
      startsWithStatus code line = true ↔ ∀ c ∈ rest.head?, isBlank c = true ∨ c = ':' := by
    rw [startsWithStatus, Text.dropWord?_eq_some_iff.mpr hrest]
    cases rest <;> simp
  constructor
  · intro hstarts
    cases hword : Text.dropWord? code (Text.trimStartChars line) with
    | none =>
      rw [startsWithStatus, hword] at hstarts
      cases hstarts
    | some rest =>
      have htrim := Text.dropWord?_eq_some_iff.mp hword
      refine ⟨line.takeWhile isBlank, rest, ?_, fun c hc ↦ List.mem_takeWhile_imp hc,
        (hrest rest htrim).mp hstarts⟩
      rw [← htrim, Text.trimStartChars, List.takeWhile_append_dropWhile]
  · rintro ⟨blanks, rest, rfl, hblanks, hhead⟩
    refine (hrest rest ?_).mpr hhead
    rw [Text.trimStartChars_append hblanks, h.trimStartChars_append]

/-- A code in front of blanks ends before them. -/
theorem IsCode.append_eq_append (h : IsCode code) {blanks rest : List Char}
    (hblanks : ∀ c ∈ blanks, isBlank c = true) (heq : line ++ blanks = before ++ code ++ rest) :
    ∃ rest', line = before ++ code ++ rest' ∧ rest = rest' ++ blanks := by
  rcases List.append_eq_append_iff.mp heq with ⟨between, hcode, hbetween⟩ | ⟨rest', hline, hrest⟩
  · rcases List.eq_nil_or_concat between with rfl | ⟨init, c, rfl⟩
    · exact ⟨[], by simpa using hcode.symm, by simpa using hbetween.symm⟩
    · obtain ⟨code', d, rfl⟩ := (List.eq_nil_or_concat code).resolve_left h.ne_nil
      rw [List.concat_eq_append] at h hcode hbetween
      rw [List.concat_eq_append, ← List.append_assoc, ← List.append_assoc] at hcode
      obtain rfl : d = c := (List.append_inj' hcode rfl).2 |> List.singleton_inj.mp
      have hshown := h.shown d (by simp)
      rw [hblanks d (by simp [hbetween])] at hshown
      cases hshown
  · exact ⟨rest', hline, hrest⟩

theorem loose_status (h : IsCode code) : Loose (StartsWithStatus code) where
  front hblanks := by
    rw [← startsWithStatus_iff h, ← startsWithStatus_iff h, startsWithStatus,
      Text.trimStartChars_append hblanks, startsWithStatus]
  back {blanks line} hblanks := by
    constructor
    · rintro ⟨before, rest, heq, hbefore, hhead⟩
      rw [← List.append_assoc] at heq
      obtain ⟨rest', rfl, rfl⟩ := h.append_eq_append hblanks heq
      refine ⟨before, rest', List.append_assoc _ _ _, hbefore, fun c hc ↦ hhead c ?_⟩
      rw [List.head?_append, Option.mem_def.mp hc]
      rfl
    · rintro ⟨before, rest, rfl, hbefore, hhead⟩
      refine ⟨before, rest ++ blanks, by simp, hbefore, ?_⟩
      cases rest with
      | nil =>
        intro c hc
        exact .inl (hblanks c (List.mem_of_mem_head? hc))
      | cons d rest => exact hhead

namespace Mark

/-- Words between characters that show, in one line, or a code that shows. -/
def isProper : Mark → Bool
  | words w =>
    w.toList.head?.any (!isBlank ·) && w.toList.getLast?.any (!isBlank ·) && !w.toList.contains '\n'
  | status code => code.toList.all (!isBlank ·) && !code.toList.isEmpty

theorem isProper_of_mem : ∀ mark ∈ marks, mark.isProper = true := by decide

theorem isCode_of_isProper {code : String} (h : (status code).isProper = true) :
    IsCode code.toList := by
  simp only [isProper, Bool.and_eq_true, List.all_eq_true, Bool.not_eq_true'] at h
  exact ⟨h.1, by simpa using h.2⟩

theorem loose {mark : Mark} (h : mark.isProper = true) : Loose mark.On := by
  cases mark with
  | words w =>
    simp only [isProper, Bool.and_eq_true, Option.any_eq_true, Bool.not_eq_true'] at h
    exact loose_words h.1.1 h.1.2
  | status code => exact loose_status (isCode_of_isProper h)

theorem isOn_iff {mark : Mark} (h : mark.isProper = true) : mark.isOn line = true ↔ mark.On line := by
  cases mark with
  | words w => exact Text.occurs_iff
  | status code => exact startsWithStatus_iff (isCode_of_isProper h)

theorem found_iff_exists_piece {mark : Mark} (h : mark.isProper = true) (message : String) :
    mark.found message = true ↔
      ∃ piece ∈ splitAfterFeeds message.toList, mark.On (lowerChars piece) := by
  cases mark with
  | words w =>
    simp only [isProper, Bool.and_eq_true, Option.any_eq_true, Bool.not_eq_true'] at h
    obtain ⟨⟨⟨c, hc, -⟩, -⟩, hfeed⟩ := h
    have hne : w.toList ≠ [] := by
      rintro hnil
      rw [hnil] at hc
      cases hc
    rw [found, mentions, Text.occurs_iff, Text.isInfix_iff_exists_piece (by simpa using hfeed) hne,
      Text.splitAfterFeeds_lowerChars]
    simp only [List.mem_map, exists_exists_and_eq_and, On]
  | status code =>
    have hcode := isCode_of_isProper h
    rw [found, hasStatus, Text.lines, Text.splitAfterFeeds_lowerChars, List.any_map, List.any_map,
      List.any_eq_true]
    refine exists_congr fun piece ↦ and_congr_right fun _ ↦ ?_
    obtain ⟨blanks, hblanks, hpiece⟩ := Text.exists_dropTerminator (lowerChars piece)
    refine (startsWithStatus_iff hcode).trans ?_
    rw [← (loose_status hcode).back hblanks, ← hpiece]
    rfl

/-- A mark is found exactly if it stands on a line of the message. -/
theorem found_iff {mark : Mark} (h : mark ∈ marks) (message : String) :
    mark.found message = true ↔
      ∃ line ∈ bareLines message.toList, mark.On (lowerChars line) := by
  have hproper := isProper_of_mem mark h
  rw [found_iff_exists_piece hproper]
  simp only [bareLines, List.mem_map, exists_exists_and_eq_and]
  refine exists_congr fun piece ↦ and_congr_right fun _ ↦ ?_
  obtain ⟨blanks, hblanks, hpiece⟩ := Text.exists_bare piece
  conv_lhs => rw [hpiece]
  rw [Text.lowerChars_append_blanks hblanks, (loose hproper).back hblanks]

end Mark

instance : DecidablePred Neutral := fun line ↦
  decidable_of_iff (∀ mark ∈ marks, mark.isOn (lowerChars line) = false) <|
    forall₂_congr fun mark hmark ↦ by
      rw [← Mark.isOn_iff (Mark.isProper_of_mem mark hmark), Bool.not_eq_true]

/-- No mark comes or goes with the noise. -/
theorem Noisier.exists_iff (h : Noisier ls ls') {mark : Mark} (hmark : mark ∈ marks) :
    (∃ line ∈ ls', mark.On (lowerChars line)) ↔ ∃ line ∈ ls, mark.On (lowerChars line) := by
  have hloose := Mark.loose (Mark.isProper_of_mem mark hmark)
  induction h with
  | nil => simp
  | insert hneutral _ ih =>
    rw [List.exists_mem_cons_iff, or_iff_right (hneutral mark hmark)]
    exact ih
  | keep hblanks hline _ ih =>
    rw [List.exists_mem_cons_iff, List.exists_mem_cons_iff, Text.lowerChars_blanks_append hblanks,
      hloose.front hblanks, Text.lowerChars_congr hline]
    exact or_congr_right ih

/-- The failure with the message that it quotes, if it quotes one. -/
def Failure.quoting (output : String) : Failure → Failure
  | .command c _ => .command c output
  | f => f

variable {o : Object} {command message message' : String}

theorem classify_of_found (o : Object) (command message : String) : classify o command message =
    if (Mark.words "unhandled response 404").found message ||
        (Mark.words "unhandled response 403").found message then .throttled o
    else if (Mark.status "404").found message || (Mark.words "not found").found message ||
        (Mark.words "does not exist").found message then .notFound o
    else if (Mark.status "403").found message then .applicationMissing o
    else if (Mark.status "400").found message && o.kind = .pipeline then .renameNotSupported o
    else .command command message := rfl

theorem classify_congr (h : ∀ mark ∈ marks, mark.found message' = mark.found message) :
    classify o command message' = (classify o command message).quoting message' := by
  simp only [marks, List.forall_mem_cons] at h
  obtain ⟨h₁, h₂, h₃, h₄, h₅, h₆, h₇, -⟩ := h
  rw [classify_of_found, classify_of_found, h₁, h₂, h₃, h₄, h₅, h₆, h₇]
  repeat' split
  all_goals rfl

theorem classify_of_not_found (h : ∀ mark ∈ marks, mark.found message = false) :
    classify o command message = .command command message := by
  simp only [marks, List.forall_mem_cons] at h
  obtain ⟨h₁, h₂, h₃, h₄, h₅, h₆, h₇, -⟩ := h
  rw [classify_of_found, h₁, h₂, h₃, h₄, h₅, h₆, h₇]
  rfl

/-- Neutral lines, the case of letters and blanks in front of lines do not change the cause of a
failure; a message of neutral lines only tells of no cause. -/
theorem classify_noise (o : Object) (command : String) :
    (∀ message message' : String, Noisier (bareLines message.toList) (bareLines message'.toList) →
      classify o command message' = (classify o command message).quoting message') ∧
    (∀ message : String, (∀ line ∈ bareLines message.toList, Neutral line) →
      classify o command message = .command command message) := by
  constructor
  · intro message message' hnoise
    refine classify_congr fun mark hmark ↦ Bool.eq_iff_iff.mpr ?_
    rw [Mark.found_iff hmark, Mark.found_iff hmark]
    exact hnoise.exists_iff hmark
  · intro message hneutral
    refine classify_of_not_found fun mark hmark ↦ Bool.eq_false_iff.mpr ?_
    intro hfound
    obtain ⟨line, hline, hon⟩ := (Mark.found_iff hmark message).mp hfound
    exact hneutral line hline mark hmark hon

def forbidden : String := "403 Forbidden\n"

/-- Behind a line with a port and in front of one with an identity, with a blank and in other
letters. -/
def noisyForbidden : String := "dial tcp 10.0.0.1:4040\r\n\t403 fORBIDDEN\r\nid 71404 rejected"

/-- The other lines alone. -/
def noise : String := "dial tcp 10.0.0.1:4040\r\nid 71404 rejected"

theorem classify_noise_forbidden :
    Noisier (bareLines forbidden.toList) (bareLines noisyForbidden.toList) ∧
    classify (.pipeline "shop" "release") "spin" noisyForbidden =
      (classify (.pipeline "shop" "release") "spin" forbidden).quoting noisyForbidden ∧
    classify (.pipeline "shop" "release") "spin" forbidden =
      .applicationMissing (.pipeline "shop" "release") ∧
    (∀ line ∈ bareLines noise.toList, Neutral line) ∧
    classify (.pipeline "shop" "release") "spin" noise = .command "spin" noise := by
  have hline : bareLines forbidden.toList = ["403 Forbidden".toList] := by decide +kernel
  have hlines : bareLines noisyForbidden.toList = ["dial tcp 10.0.0.1:4040".toList,
      ['\t'] ++ "403 fORBIDDEN".toList, "id 71404 rejected".toList] := by decide +kernel
  have hnoisier : Noisier (bareLines forbidden.toList) (bareLines noisyForbidden.toList) := by
    rw [hline, hlines]
    refine .insert (by decide +kernel) (.keep (List.all_eq_true.mp (by decide)) (by decide +kernel) ?_)
    exact .insert (by decide +kernel) .nil
  have hneutral : ∀ line ∈ bareLines noise.toList, Neutral line := by decide +kernel
  obtain ⟨hkept, hnone⟩ := classify_noise (.pipeline "shop" "release") "spin"
  exact ⟨hnoisier, hkept _ _ hnoisier, by decide +kernel, hneutral, hnone noise hneutral⟩

end Platform

end DeliveryCharts
