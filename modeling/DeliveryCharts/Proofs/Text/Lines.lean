import DeliveryCharts.Text.Lines

/-!
Lines of a text, one after the other.
-/

namespace DeliveryCharts.Text

variable {l cs whole : List Char}

theorem splitAfterFeeds_line (h : '\n' ∉ l) (cs : List Char) :
    splitAfterFeeds (l ++ '\n' :: cs) = (l ++ ['\n']) :: splitAfterFeeds cs := by
  induction l with
  | nil => rw [List.nil_append, splitAfterFeeds, if_pos rfl, List.nil_append]
  | cons ch l ih =>
    obtain ⟨hch, hl⟩ := not_or.mp (mt List.mem_cons.mpr h)
    rw [List.cons_append, splitAfterFeeds, if_neg (Ne.symm hch), ih hl]
    rfl

theorem splitAfterFeeds_last (h : '\n' ∉ l) (hne : l ≠ []) : splitAfterFeeds l = [l] := by
  induction l with
  | nil => exact absurd rfl hne
  | cons ch l ih =>
    obtain ⟨hch, hl⟩ := not_or.mp (mt List.mem_cons.mpr h)
    rw [splitAfterFeeds, if_neg (Ne.symm hch)]
    by_cases hnil : l = []
    · subst hnil
      rfl
    · rw [ih hl hnil]

/-- Line by line: a text is empty, one line without a line feed, or a line in front of a text. -/
@[elab_as_elim]
theorem line_induction {motive : List Char → Prop} (nil : motive [])
    (last : ∀ l, '\n' ∉ l → l ≠ [] → motive l)
    (line : ∀ l cs, '\n' ∉ l → motive cs → motive (l ++ '\n' :: cs)) (cs : List Char) :
    motive cs := by
  by_cases hmem : '\n' ∈ cs
  · obtain ⟨l, rest, hcs, hl⟩ := List.eq_append_cons_of_mem hmem
    rw [hcs]
    exact line l rest hl (line_induction nil last line rest)
  · by_cases hnil : cs = []
    · exact hnil ▸ nil
    · exact last cs hmem hnil
termination_by cs.length
decreasing_by
  rw [hcs, List.length_append, List.length_cons]
  omega

theorem ne_nil_of_mem_splitAfterFeeds : ∀ piece ∈ splitAfterFeeds cs, piece ≠ [] := by
  induction cs using line_induction with
  | nil => simp [splitAfterFeeds]
  | last l hl hne => simpa [splitAfterFeeds_last hl hne] using hne
  | line l cs hl ih =>
    rw [splitAfterFeeds_line hl]
    exact List.forall_mem_cons.mpr ⟨by simp, ih⟩

theorem getLast?_line (l : List Char) (hne : cs ≠ []) :
    (l ++ '\n' :: cs).getLast? = cs.getLast? := by
  obtain ⟨init, c, rfl⟩ := (List.eq_nil_or_concat cs).resolve_left hne
  rw [List.concat_eq_append, ← List.cons_append, ← List.append_assoc, List.getLast?_concat,
    List.getLast?_concat]

/-- Whole lines at the head of a text are lines of it. -/
theorem splitAfterFeeds_append (h : whole = [] ∨ whole.getLast? = some '\n') (cs : List Char) :
    splitAfterFeeds (whole ++ cs) = splitAfterFeeds whole ++ splitAfterFeeds cs := by
  induction whole using line_induction with
  | nil => rfl
  | last l hl hne =>
    rcases h with hnil | hlast
    · exact absurd hnil hne
    · exact absurd (List.mem_of_getLast? hlast) hl
  | line l rest hl ih =>
    have hrest : rest = [] ∨ rest.getLast? = some '\n' := by
      by_cases hne : rest = []
      · exact .inl hne
      · rw [getLast?_line l hne] at h
        exact .inr (h.resolve_left (by simp))
    rw [List.append_assoc, List.cons_append, splitAfterFeeds_line hl, splitAfterFeeds_line hl,
      ih hrest, List.cons_append]

/-- The number of line feeds, and one more for a last line without one. -/
def lineCount (cs : List Char) : Nat :=
  cs.count '\n' + if cs = [] ∨ cs.getLast? = some '\n' then 0 else 1

theorem lineCount_last (h : '\n' ∉ l) (hne : l ≠ []) : lineCount l = 1 := by
  have hlast : ¬ (l = [] ∨ l.getLast? = some '\n') := by
    rintro (hnil | hlast)
    · exact hne hnil
    · exact h (List.mem_of_getLast? hlast)
  rw [lineCount, List.count_eq_zero_of_not_mem h, if_neg hlast]

theorem lineCount_line (h : '\n' ∉ l) (cs : List Char) :
    lineCount (l ++ '\n' :: cs) = lineCount cs + 1 := by
  have hlast : (l ++ '\n' :: cs = [] ∨ (l ++ '\n' :: cs).getLast? = some '\n') ↔
      (cs = [] ∨ cs.getLast? = some '\n') := by
    by_cases hne : cs = []
    · simp [hne]
    · rw [getLast?_line l hne]
      simp [hne]
  simp only [lineCount, hlast, List.count_append, List.count_eq_zero_of_not_mem h,
    List.count_cons_self]
  omega

theorem length_splitAfterFeeds (cs : List Char) : (splitAfterFeeds cs).length = lineCount cs := by
  induction cs using line_induction with
  | nil => rfl
  | last l hl hne =>
    rw [splitAfterFeeds_last hl hne, lineCount_last hl hne]
    rfl
  | line l cs hl ih => rw [splitAfterFeeds_line hl, List.length_cons, ih, lineCount_line hl]

theorem dropTerminator_feed (h : l.getLast? ≠ some '\r') : dropTerminator (l ++ ['\n']) = l := by
  have hreverse : (l ++ ['\n']).reverse = '\n' :: l.reverse := by simp
  rw [dropTerminator, hreverse]
  split
  · rename_i r hr
    refine absurd ?_ h
    rw [← List.head?_reverse, (List.cons.inj hr).2]
    rfl
  · rename_i r _ hr
    rw [← (List.cons.inj hr).2, List.reverse_reverse]
  · rename_i hr
    exact absurd rfl (hr l.reverse)

theorem dropTerminator_last (h : '\n' ∉ l) : dropTerminator l = l := by
  rw [dropTerminator]
  split
  · rename_i r hr
    exact absurd (List.mem_reverse.mp (by rw [hr]; exact List.mem_cons_self)) h
  · rename_i r _ hr
    exact absurd (List.mem_reverse.mp (by rw [hr]; exact List.mem_cons_self)) h
  · rfl

theorem lines_line (h : '\n' ∉ l) (hreturn : '\r' ∉ l) (cs : List Char) :
    lines (l ++ '\n' :: cs) = l :: lines cs := by
  rw [lines, splitAfterFeeds_line h, List.map_cons,
    dropTerminator_feed (mt List.mem_of_getLast? hreturn)]
  rfl

theorem lines_last (h : '\n' ∉ l) (hne : l ≠ []) : lines l = [l] := by
  rw [lines, splitAfterFeeds_last h hne, List.map_cons, dropTerminator_last h]
  rfl

theorem lines_ne_nil (h : cs ≠ []) : lines cs ≠ [] := by
  intro hnil
  apply h
  rw [← flatten_splitAfterFeeds cs, List.map_eq_nil_iff.mp hnil, List.flatten_nil]

/-! One line of a text. -/

/-- The piece with the number `n` stands behind `n` line feeds, and ends with one or at the end. -/
theorem exists_piece {source piece : List Char} {n : Nat}
    (h : (splitAfterFeeds source)[n]? = some piece) :
    ∃ before after, source = before ++ piece ++ after ∧ before.countP (· == '\n') = n ∧
      (before = [] ∨ before.getLast? = some '\n') ∧
      ∃ l, '\n' ∉ l ∧ (piece = l ++ ['\n'] ∨ (piece = l ∧ after = [])) := by
  induction n generalizing source with
  | zero =>
    by_cases hmem : '\n' ∈ source
    · obtain ⟨l, rest, rfl, hl⟩ := List.eq_append_cons_of_mem hmem
      rw [splitAfterFeeds_line hl] at h
      obtain rfl : l ++ ['\n'] = piece := by simpa using h
      exact ⟨[], rest, by simp, rfl, .inl rfl, l, hl, .inl rfl⟩
    · by_cases hnil : source = []
      · rw [hnil] at h
        cases h
      · rw [splitAfterFeeds_last hmem hnil] at h
        obtain rfl : source = piece := by simpa using h
        exact ⟨[], [], by simp, rfl, .inl rfl, source, hmem, .inr ⟨rfl, rfl⟩⟩
  | succ n ih =>
    by_cases hmem : '\n' ∈ source
    · obtain ⟨l, rest, rfl, hl⟩ := List.eq_append_cons_of_mem hmem
      rw [splitAfterFeeds_line hl, List.getElem?_cons_succ] at h
      obtain ⟨before, after, rfl, hcount, hbefore, hpiece⟩ := ih h
      have hzero : l.countP (· == '\n') = 0 := by
        refine List.countP_eq_zero.mpr fun c hc ↦ ?_
        simp only [beq_iff_eq]
        rintro rfl
        exact hl hc
      refine ⟨l ++ '\n' :: before, after, by simp, ?_, .inr ?_, hpiece⟩
      · rw [List.countP_append, List.countP_cons, hzero, hcount]
        simp
      · rcases hbefore with rfl | hlast
        · simp
        · simp [List.getLast?_append, List.getLast?_cons, hlast]
    · by_cases hnil : source = []
      · rw [hnil] at h
        cases h
      · rw [splitAfterFeeds_last hmem hnil] at h
        simp at h

/-- The line with the number `n`, and where it stands. -/
theorem exists_line {source line : List Char} {n : Nat} (h : (lines source)[n]? = some line) :
    ∃ before terminator after, source = before ++ (line ++ (terminator ++ after)) ∧
      before.countP (· == '\n') = n ∧ (before = [] ∨ before.getLast? = some '\n') ∧ '\n' ∉ line ∧
      (terminator ∈ [['\n'], ['\r', '\n']] ∨ (terminator = [] ∧ after = [])) := by
  rw [lines, List.getElem?_map] at h
  obtain ⟨piece, hpiece, rfl⟩ := Option.map_eq_some_iff.mp h
  obtain ⟨before, after, rfl, hcount, hbefore, l, hl, rfl | ⟨rfl, rfl⟩⟩ := exists_piece hpiece
  · by_cases hreturn : l.getLast? = some '\r'
    · obtain ⟨l, rfl⟩ := List.getLast?_eq_some_iff.mp hreturn
      have hdrop : dropTerminator (l ++ ['\r'] ++ ['\n']) = l := by
        rw [dropTerminator]
        simp
      rw [hdrop]
      exact ⟨before, ['\r', '\n'], after, by simp, hcount, hbefore,
        fun hmem ↦ hl (List.mem_append_left _ hmem), .inl (by simp)⟩
    · rw [dropTerminator_feed hreturn]
      exact ⟨before, ['\n'], after, by simp, hcount, hbefore, hl, .inl (by simp)⟩
  · rw [dropTerminator_last hl]
    exact ⟨before, [], [], by simp, hcount, hbefore, hl, .inr ⟨rfl, rfl⟩⟩

theorem join_cons (sep l : List Char) {ls : List (List Char)} (hne : ls ≠ []) :
    join sep (l :: ls) = l ++ sep ++ join sep ls := by
  cases ls with
  | nil => exact absurd rfl hne
  | cons l' ls => rfl

/-! Replacing a word of one character. -/

section Replace

variable {a : Char} {new : List Char}

theorem splitOnce?_singleton (a : Char) (cs : List Char) :
    (splitOnce? [a] cs = none ∧ a ∉ cs) ∨
      ∃ before rest, splitOnce? [a] cs = some (before, rest) ∧ cs = before ++ a :: rest ∧
        a ∉ before := by
  induction cs with
  | nil => exact .inl ⟨rfl, List.not_mem_nil⟩
  | cons c cs ih =>
    by_cases hc : a = c
    · subst hc
      exact .inr ⟨[], cs, by simp [splitOnce?, dropWord?], rfl, List.not_mem_nil⟩
    · have hsplit : splitOnce? [a] (c :: cs) = (splitOnce? [a] cs).map fun p ↦ (c :: p.1, p.2) := by
        rw [splitOnce?, dropWord?, if_neg hc]
      rcases ih with ⟨hnone, hmem⟩ | ⟨before, rest, hsome, rfl, hmem⟩
      · exact .inl ⟨by rw [hsplit, hnone]; rfl, by simp [hc, hmem]⟩
      · exact .inr ⟨c :: before, rest, by rw [hsplit, hsome]; rfl, rfl, by simp [hc, hmem]⟩

theorem flatMap_of_forall {f : Char → List Char} (h : ∀ c ∈ cs, f c = [c]) : cs.flatMap f = cs := by
  induction cs with
  | nil => rfl
  | cons c cs ih =>
    obtain ⟨hc, hcs⟩ := List.forall_mem_cons.mp h
    rw [List.flatMap_cons, hc, ih hcs, List.singleton_append]

theorem flatMap_replaced_of_not_mem (h : a ∉ cs) :
    (cs.flatMap fun c ↦ if c = a then new else [c]) = cs := by
  refine flatMap_of_forall fun c hc ↦ if_neg ?_
  rintro rfl
  exact h hc

theorem replaceFrom_singleton {fuel : Nat} (hfuel : cs.length < fuel) :
    replaceFrom [a] new fuel cs = cs.flatMap fun c ↦ if c = a then new else [c] := by
  induction fuel generalizing cs with
  | zero => exact absurd hfuel (Nat.not_lt_zero _)
  | succ fuel ih =>
    rw [replaceFrom]
    rcases splitOnce?_singleton a cs with ⟨hnone, hmem⟩ | ⟨before, rest, hsome, rfl, hmem⟩
    · rw [hnone, flatMap_replaced_of_not_mem hmem]
    · have hrest : rest.length < fuel := by
        simp only [List.length_append, List.length_cons] at hfuel
        omega
      rw [hsome, List.flatMap_append, flatMap_replaced_of_not_mem hmem, List.flatMap_cons, if_pos rfl,
        ← ih hrest]
      exact List.append_assoc _ _ _

/-- Every character is replaced where it stands. -/
theorem replace_singleton (a : Char) (new cs : List Char) :
    replace [a] new cs = cs.flatMap fun c ↦ if c = a then new else [c] := by
  rw [replace, if_neg (by simp), replaceFrom_singleton (Nat.lt_succ_self _)]

end Replace

end DeliveryCharts.Text
