import DeliveryCharts.Proofs.Text.Lines
import DeliveryCharts.Template.Problem
import Mathlib.Data.List.Induction

/-!
The places of the lines of a template. A line has a place exactly if the text has so many lines; it
starts right behind the line feed of the line before it and ends in front of its terminator, so the
places of different lines lie apart, in the order of the lines.
-/

namespace DeliveryCharts

namespace Template

open Text (utf8Length splitAfterFeeds lineCount)

variable {source before line terminator after before' line' terminator' after' : List Char}
  {m n : Nat} {s t : Span}

/-- The terminator of a line: carriage returns and a line feed, without which it is the last one. -/
def IsTerminator (terminator after : List Char) : Prop :=
  ∃ k, terminator = List.replicate k '\r' ++ ['\n'] ∨
    (terminator = List.replicate k '\r' ∧ after = [])

/-- The line with the number `n` of a text, counted from 1, and what stands around it. -/
structure IsLine (source : List Char) (n : Nat) (before line terminator after : List Char) :
    Prop where
  split : source = before ++ (line ++ terminator) ++ after
  number : before.count '\n' + 1 = n
  starts : before = [] ∨ before.getLast? = some '\n'
  oneLine : '\n' ∉ line
  bare : line.getLast? ≠ some '\r'
  ends : IsTerminator terminator after
  shown : line ++ terminator ≠ []

theorem IsTerminator.mem (h : IsTerminator terminator after) :
    ∀ c ∈ terminator, c = '\n' ∨ c = '\r' := by
  obtain ⟨k, rfl | ⟨rfl, -⟩⟩ := h
  · intro c hc
    rcases List.mem_append.mp hc with hc | hc
    · exact .inr (List.eq_of_mem_replicate hc)
    · exact .inl (List.mem_singleton.mp hc)
  · intro c hc
    exact .inr (List.eq_of_mem_replicate hc)

theorem bareLine_append_terminator (hfeed : '\n' ∉ line) (hbare : line.getLast? ≠ some '\r')
    (hterminator : ∀ c ∈ terminator, c = '\n' ∨ c = '\r') :
    bareLine (line ++ terminator) = line := by
  have hall : ∀ c ∈ terminator.reverse, (c == '\n' || c == '\r') = true := by
    simpa using hterminator
  rw [bareLine, List.reverse_append, List.dropWhile_append_of_pos hall]
  rcases List.eq_nil_or_concat line with rfl | ⟨init, c, rfl⟩
  · rfl
  · have hc : (c == '\n' || c == '\r') = false := by
      rw [List.concat_eq_append] at hfeed hbare
      simp only [Bool.or_eq_false_iff, beq_eq_false_iff_ne]
      refine ⟨?_, ?_⟩
      · rintro rfl
        exact hfeed (by simp)
      · rintro rfl
        exact hbare (by simp)
    simp [hc]

/-- The lines of a text around one of them. -/
theorem IsLine.pieces (h : IsLine source n before line terminator after) :
    splitAfterFeeds source =
      splitAfterFeeds before ++ (line ++ terminator) :: splitAfterFeeds after := by
  obtain ⟨rfl, -, hstarts, hone, -, ⟨k, hterminator⟩, hshown⟩ := h
  have hfeed : '\n' ∉ line ++ List.replicate k '\r' := by
    simp [hone, List.mem_replicate]
  rw [List.append_assoc, Text.splitAfterFeeds_append hstarts]
  rcases hterminator with rfl | ⟨rfl, rfl⟩
  · have hpiece := Text.splitAfterFeeds_line hfeed after
    simpa using hpiece
  · rw [List.append_nil, Text.splitAfterFeeds_last hfeed hshown]
    rfl

theorem IsLine.length_before (h : IsLine source n before line terminator after) :
    (splitAfterFeeds before).length + 1 = n := by
  rw [Text.length_splitAfterFeeds, lineCount, if_pos h.starts, Nat.add_zero, h.number]

theorem spanFrom_append (pieces : List (List Char)) (start : Nat) (piece : List Char)
    (rest : List (List Char)) :
    spanFrom start (pieces ++ piece :: rest) (pieces.length + 1) =
      some ⟨start + utf8Length pieces.flatten, utf8Length (bareLine piece)⟩ := by
  induction pieces generalizing start with
  | nil => rfl
  | cons p pieces ih =>
    rw [List.cons_append, List.length_cons, spanFrom, ih, List.flatten_cons,
      Text.utf8Length_append, Nat.add_assoc]

/-- A line has its place right behind the lines before it. -/
theorem IsLine.lineSpan_eq (h : IsLine source n before line terminator after) :
    lineSpan source n = some ⟨utf8Length before, utf8Length line⟩ := by
  rw [lineSpan, h.pieces, ← h.length_before, spanFrom_append, Text.flatten_splitAfterFeeds,
    Nat.zero_add, bareLine_append_terminator h.oneLine h.bare h.ends.mem]

theorem exists_getElem?_of_spanFrom {start : Nat} {pieces : List (List Char)}
    (h : spanFrom start pieces n = some s) : ∃ k piece, n = k + 1 ∧ pieces[k]? = some piece := by
  induction pieces generalizing start n with
  | nil => simp [spanFrom] at h
  | cons p pieces ih =>
    match n with
    | 0 => simp [spanFrom] at h
    | 1 => exact ⟨0, p, rfl, rfl⟩
    | n + 2 =>
      obtain ⟨k, piece, hk, hpiece⟩ := ih h
      exact ⟨k + 1, piece, by omega, hpiece⟩

/-- A text without a line feed, and the carriage returns at its end. -/
theorem exists_returns (l : List Char) :
    ∃ line k, l = line ++ List.replicate k '\r' ∧ line.getLast? ≠ some '\r' := by
  induction l using List.reverseRecOn with
  | nil => exact ⟨[], 0, rfl, by simp⟩
  | append_singleton l c ih =>
    by_cases hc : c = '\r'
    · obtain ⟨line, k, rfl, hline⟩ := ih
      refine ⟨line, k + 1, ?_, hline⟩
      rw [hc, List.replicate_succ', List.append_assoc]
    · exact ⟨l ++ [c], 0, by simp, by simpa using hc⟩

theorem exists_isLine {piece : List Char} (h : (splitAfterFeeds source)[n]? = some piece) :
    ∃ before line terminator after, IsLine source (n + 1) before line terminator after := by
  have hshown := Text.ne_nil_of_mem_splitAfterFeeds piece (List.mem_of_getElem? h)
  obtain ⟨before, after, hsource, hcount, hstarts, l, hl, hpiece⟩ := Text.exists_piece h
  obtain ⟨line, k, rfl, hbare⟩ := exists_returns l
  have hone : '\n' ∉ line := fun hmem ↦ hl (List.mem_append_left _ hmem)
  replace hcount : before.count '\n' + 1 = n + 1 := congrArg (· + 1) hcount
  rcases hpiece with rfl | ⟨rfl, rfl⟩
  · rw [List.append_assoc line] at hsource hshown
    exact ⟨before, line, List.replicate k '\r' ++ ['\n'], after,
      hsource, hcount, hstarts, hone, hbare, ⟨k, .inl rfl⟩, hshown⟩
  · exact ⟨before, line, List.replicate k '\r', [],
      hsource, hcount, hstarts, hone, hbare, ⟨k, .inr ⟨rfl, rfl⟩⟩, hshown⟩

theorem lineSpan_eq_some_iff : lineSpan source n = some s ↔
    ∃ before line terminator after, IsLine source n before line terminator after ∧
      s = ⟨utf8Length before, utf8Length line⟩ := by
  constructor
  · intro h
    obtain ⟨k, piece, rfl, hpiece⟩ := exists_getElem?_of_spanFrom h
    obtain ⟨before, line, terminator, after, hline⟩ := exists_isLine hpiece
    rw [hline.lineSpan_eq] at h
    exact ⟨before, line, terminator, after, hline, (Option.some.inj h).symm⟩
  · rintro ⟨before, line, terminator, after, hline, rfl⟩
    exact hline.lineSpan_eq

theorem isSome_lineSpan_iff : (lineSpan source n).isSome ↔ 1 ≤ n ∧ n ≤ lineCount source := by
  rw [← Text.length_splitAfterFeeds]
  constructor
  · intro h
    obtain ⟨s, hs⟩ := Option.isSome_iff_exists.mp h
    obtain ⟨k, piece, rfl, hpiece⟩ := exists_getElem?_of_spanFrom hs
    obtain ⟨hk, -⟩ := List.getElem?_eq_some_iff.mp hpiece
    exact ⟨Nat.succ_pos k, hk⟩
  · rintro ⟨hpos, hle⟩
    obtain ⟨k, rfl⟩ := Nat.exists_eq_add_of_le' hpos
    obtain ⟨before, line, terminator, after, hline⟩ := exists_isLine (List.getElem?_eq_getElem hle)
    rw [hline.lineSpan_eq]
    rfl

/-- A later line stands behind an earlier one and its terminator, which is not empty. -/
theorem IsLine.exists_between (h : IsLine source m before line terminator after)
    (h' : IsLine source n before' line' terminator' after') (hmn : m < n) :
    terminator ≠ [] ∧ ∃ between, before' = before ++ (line ++ terminator) ++ between := by
  have hpieces := h.pieces.symm.trans h'.pieces
  have hm := h.length_before
  have hn := h'.length_before
  constructor
  · intro hnil
    obtain ⟨k, hterminator | ⟨-, rfl⟩⟩ := h.ends
    · simp [hnil] at hterminator
    · have hlength := congrArg List.length hpieces
      simp only [List.length_append, List.length_cons, splitAfterFeeds, List.length_nil] at hlength
      omega
  · have hprefix : splitAfterFeeds before ++ [line ++ terminator] <+: splitAfterFeeds before' := by
      have hline : splitAfterFeeds before ++ [line ++ terminator] <+: splitAfterFeeds source :=
        ⟨splitAfterFeeds after, by rw [h.pieces, List.append_assoc]; rfl⟩
      have hbefore' : splitAfterFeeds before' <+: splitAfterFeeds source := ⟨_, h'.pieces.symm⟩
      refine List.prefix_of_prefix_length_le hline hbefore' ?_
      rw [List.length_append, List.length_singleton]
      omega
    obtain ⟨rest, hrest⟩ := hprefix
    have hflatten := congrArg List.flatten hrest
    rw [Text.flatten_splitAfterFeeds, List.flatten_append, List.flatten_append,
      Text.flatten_splitAfterFeeds, List.flatten_singleton] at hflatten
    exact ⟨rest.flatten, hflatten.symm⟩

theorem lineSpan_lt (h : lineSpan source m = some s) (h' : lineSpan source n = some t)
    (hmn : m < n) : s.start + s.length < t.start := by
  obtain ⟨before, line, terminator, after, hline, rfl⟩ := lineSpan_eq_some_iff.mp h
  obtain ⟨before', line', terminator', after', hline', rfl⟩ := lineSpan_eq_some_iff.mp h'
  obtain ⟨hterminator, between, rfl⟩ := hline.exists_between hline' hmn
  have hpos : utf8Length terminator ≠ 0 := mt Text.utf8Length_eq_zero_iff.mp hterminator
  simp only [Text.utf8Length_append]
  omega

/-- A line has a place exactly if the text has so many lines. The place starts behind the line feed
of the line before, or at 0, and holds the line up to its terminator; the places of later lines are
those that lie behind it. -/
theorem lineSpan_exact (source : List Char) :
    (∀ n, (lineSpan source n).isSome ↔ 1 ≤ n ∧ n ≤ lineCount source) ∧
    (∀ n s, lineSpan source n = some s ↔
      ∃ before line terminator after, IsLine source n before line terminator after ∧
        s.start = utf8Length before ∧ s.length = utf8Length line) ∧
    (∀ m n s t, lineSpan source m = some s → lineSpan source n = some t →
      (m < n ↔ s.start + s.length < t.start)) := by
  refine ⟨fun n ↦ isSome_lineSpan_iff, ?_, ?_⟩
  · intro n s
    rw [lineSpan_eq_some_iff]
    constructor
    · rintro ⟨before, line, terminator, after, hline, rfl⟩
      exact ⟨before, line, terminator, after, hline, rfl, rfl⟩
    · rintro ⟨before, line, terminator, after, hline, hstart, hlength⟩
      cases s
      exact ⟨before, line, terminator, after, hline, by rw [← hstart, ← hlength]⟩
  · intro m n s t hs ht
    constructor
    · exact lineSpan_lt hs ht
    · intro hlt
      by_contra hmn
      rcases Nat.eq_or_lt_of_not_lt hmn with rfl | hnm
      · obtain rfl : s = t := Option.some.inj (hs.symm.trans ht)
        omega
      · have hback := lineSpan_lt ht hs hnm
        omega

/-- A line that ends with a carriage return too, an empty line, and one that ends with the text. -/
def arrowText : List Char := "ä: 1\r\n\n→".toList

theorem lineSpan_exact_arrowText :
    lineSpan arrowText 1 = some ⟨0, 5⟩ ∧ lineSpan arrowText 2 = some ⟨7, 0⟩ ∧
      lineSpan arrowText 3 = some ⟨8, 3⟩ ∧ lineSpan arrowText 4 = none ∧
      (∃ before line terminator after, IsLine arrowText 2 before line terminator after ∧
        7 = utf8Length before ∧ 0 = utf8Length line) ∧
      (2 < 3 ↔ (⟨7, 0⟩ : Span).start + (⟨7, 0⟩ : Span).length < (⟨8, 3⟩ : Span).start) := by
  have h₂ : lineSpan arrowText 2 = some ⟨7, 0⟩ := by decide +kernel
  have h₃ : lineSpan arrowText 3 = some ⟨8, 3⟩ := by decide +kernel
  obtain ⟨-, hline, horder⟩ := lineSpan_exact arrowText
  exact ⟨by decide +kernel, h₂, h₃, by decide +kernel, (hline 2 ⟨7, 0⟩).mp h₂,
    horder 2 3 _ _ h₂ h₃⟩

end Template

end DeliveryCharts
