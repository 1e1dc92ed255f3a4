import DeliveryCharts.Diff.Hunk
import DeliveryCharts.Proofs.Diff.Script

/-!
A diff is a patch: its hunks fit the old text in order, and putting their new lines where they fit
gives the new text.
-/

namespace DeliveryCharts.Diff

variable {α β γ : Type}

/-- Replacing hunks in order, with lines between them that stay. A hunk stands for the lines
`before` in the first text and for the lines `after` in the second one. -/
inductive Patched (before after : β → List α) : List β → List α → List α → Prop
  | rest (lines : List α) : Patched before after [] lines lines
  | hunk {hunks : List β} {old new : List α} (lines : List α) (hunk : β) :
      Patched before after hunks old new →
      Patched before after (hunk :: hunks)
        (lines ++ before hunk ++ old) (lines ++ after hunk ++ new)

namespace Patched

variable {before after : β → List α} {hunks : List β} {old new : List α}

theorem prepend (h : Patched before after hunks old new) (lines : List α) :
    Patched before after hunks (lines ++ old) (lines ++ new) := by
  cases h with
  | rest => exact .rest _
  | hunk lines' hunk h => simpa using Patched.hunk (lines ++ lines') hunk h

theorem append (h : Patched before after hunks old new) (lines : List α) :
    Patched before after hunks (old ++ lines) (new ++ lines) := by
  induction h with
  | rest => exact .rest _
  | hunk lines' hunk h ih => simpa using Patched.hunk lines' hunk ih

theorem map {before' after' : γ → List α} {α' : Type} {before : β → List α'}
    {after : β → List α'} {old new : List α'} (f : β → γ) (g : α' → α)
    (hbefore : ∀ b, before' (f b) = (before b).map g) (hafter : ∀ b, after' (f b) = (after b).map g)
    (h : Patched before after hunks old new) :
    Patched before' after' (hunks.map f) (old.map g) (new.map g) := by
  induction h with
  | rest => exact .rest _
  | hunk lines hunk h ih =>
    simpa [hbefore, hafter] using Patched.hunk (lines.map g) (f hunk) ih

theorem eq_of_forall (heq : ∀ b ∈ hunks, before b = after b)
    (h : Patched before after hunks old new) : old = new := by
  induction h with
  | rest => rfl
  | hunk lines hunk h ih =>
    obtain ⟨hhunk, hrest⟩ := List.forall_mem_cons.mp heq
    rw [hhunk, ih hrest]

end Patched

/-- The lines of a hunk but those of one kind of change. -/
def Hunk.without (skip : Change) (h : Hunk) : List String :=
  (h.filter (·.change ≠ skip)).map Line.content

/-- The lines of the old text that a hunk stands for. -/
abbrev Hunk.old (h : Hunk) : List String := h.without .add

/-- The lines that a hunk leaves. -/
abbrev Hunk.new (h : Hunk) : List String := h.without .drop

/-- The number of lines of one kind in a hunk. -/
def Hunk.count (change : Change) (h : Hunk) : Nat := h.countP (·.change = change)

theorem length_old_add (h : Hunk) :
    h.old.length + h.count .add = h.new.length + h.count .drop := by
  induction h with
  | nil => rfl
  | cons l h ih =>
    obtain ⟨change, content⟩ := l
    simp only [Hunk.without, Hunk.count] at ih ⊢
    cases change <;> simp at ih ⊢ <;> omega

theorem count_append (change : Change) (h h' : Hunk) :
    Hunk.count change (h ++ h') = h.count change + h'.count change :=
  List.countP_append

theorem count_of_count_flatten {change : Change} {hunks : List Hunk}
    (hcount : Hunk.count change hunks.flatten = 0) : ∀ h ∈ hunks, h.count change = 0 := by
  intro h hh
  rw [Hunk.count, List.countP_eq_zero] at hcount ⊢
  exact fun l hl ↦ hcount l (List.mem_flatten.mpr ⟨h, hh, hl⟩)

/-- What each hunk adds to the number of lines is what all of them add. -/
theorem Patched.length_old_add {hunks : List Hunk} {old new : List String}
    (h : Patched Hunk.old Hunk.new hunks old new) :
    old.length + Hunk.count .add hunks.flatten = new.length + Hunk.count .drop hunks.flatten := by
  induction h with
  | rest => rfl
  | hunk lines hunk h ih =>
    have hhunk := Diff.length_old_add hunk
    rw [List.flatten_cons, count_append, count_append]
    simp only [List.length_append]
    omega

/-! The lines of a text. -/

theorem flatten_splitLines (cs : List Char) : (splitLines cs).flatten = cs := by
  fun_induction splitLines cs with
  | case1 => rfl
  | case2 cs ih => simp [ih]
  | case3 c cs _ _ ih => simp [ih]
  | case4 c cs _ _ hrest ih =>
    rw [hrest] at ih
    simpa using ih
  | case5 c cs _ _ l ls hrest ih =>
    rw [hrest] at ih
    simpa using ih

/-- The lines of a text as a diff shows them. -/
def shownLines (text : String) : List String := (splitLines text.toList).map shown

/-! Grouping. -/

section Grouping

variable {context : Nat} {s : Script (List Char)}

theorem sides_eq_of_kept (h : s.all Block.isKept) : s.old = s.new := by
  induction s with
  | nil => rfl
  | cons b s ih =>
    obtain ⟨hb, hs⟩ := Bool.and_eq_true_iff.mp h
    have hkeep : b.change = .keep := of_decide_eq_true hb
    rw [Script.old_eq, Script.new_eq] at ih ⊢
    rw [Script.without_cons, Script.without_cons, ih hs, hkeep]
    rfl

/-- The lines of a long kept block: those that end a hunk, those between the hunks, and those that
start the next one. -/
theorem exists_middle {lines : List (List Char)} (h : 2 * context < lines.length) :
    ∃ middle, lines =
      lines.take context ++ (middle ++ lines.drop (lines.length - context)) := by
  have hsuffix : lines.drop (lines.length - context) <:+ lines.drop context := by
    rw [show lines.length - context = context + (lines.length - 2 * context) by omega,
      ← List.drop_drop]
    exact List.drop_suffix _ _
  obtain ⟨middle, hmiddle⟩ := hsuffix
  refine ⟨middle, ?_⟩
  rw [hmiddle, List.take_append_drop]

theorem patched_hunksFrom (context : Nat) (pending s : Script (List Char)) :
    Patched Script.old Script.new (hunksFrom context pending s)
      (pending ++ s).old (pending ++ s).new := by
  induction s generalizing pending with
  | nil =>
    rw [hunksFrom, List.append_nil]
    split
    · rename_i hkept
      rw [sides_eq_of_kept hkept]
      exact .rest _
    · simpa using Patched.hunk [] pending (.rest [])
  | cons b s ih =>
    rw [hunksFrom]
    split
    · -- A long block of kept lines ends the hunk: its middle is shown in no hunk.
      rename_i hlong
      obtain ⟨hkeep, hlength⟩ := hlong
      obtain ⟨middle, hmiddle⟩ := exists_middle hlength
      have hrest := (ih [{ b with lines := b.lines.drop (b.lines.length - context) }]).prepend
        middle
      have hall := Patched.hunk [] (pending ++ [{ b with lines := b.lines.take context }]) hrest
      have hlines (skip : Change) (hskip : skip ≠ .keep) :
          Script.without skip (pending ++ b :: s) =
            [] ++ Script.without skip (pending ++ [{ b with lines := b.lines.take context }]) ++
              (middle ++ Script.without skip
                ([{ b with lines := b.lines.drop (b.lines.length - context) }] ++ s)) := by
        have hsplit := congrArg (· ++ Script.without skip s) hmiddle
        simpa [hkeep, hskip.symm] using hsplit
      rw [Script.old_eq, Script.new_eq, hlines .add (by decide), hlines .drop (by decide)]
      exact hall
    · simpa using ih (pending ++ [b])

theorem exists_trimStart (context : Nat) (s : Script (List Char)) :
    ∃ lines, s.old = lines ++ (trimStart context s).old ∧
      s.new = lines ++ (trimStart context s).new := by
  cases s with
  | nil => exact ⟨[], rfl, rfl⟩
  | cons b s =>
    rw [trimStart]
    split
    · rename_i hkeep
      refine ⟨b.lines.take (b.lines.length - context), ?_⟩
      simp only [Script.old_eq, Script.new_eq, Script.without_cons, hkeep, reduceCtorEq, if_false,
        ← List.append_assoc, List.take_append_drop, and_self]
    · exact ⟨[], rfl, rfl⟩

theorem exists_trimEnd (context : Nat) (s : Script (List Char)) :
    ∃ lines, s.old = (trimEnd context s).old ++ lines ∧
      s.new = (trimEnd context s).new ++ lines := by
  rw [trimEnd]
  split
  · rename_i hnil
    rw [List.reverse_eq_nil_iff.mp hnil]
    exact ⟨[], rfl, rfl⟩
  · rename_i b rest hreverse
    obtain rfl : s = (b :: rest).reverse := by rw [← hreverse, List.reverse_reverse]
    split
    · rename_i hkeep
      refine ⟨b.lines.drop context, ?_⟩
      simp [Script.old_eq, Script.new_eq, hkeep]
    · exact ⟨[], by simp, by simp⟩

/-- The hunks of a script, before their lines are put in words, turn its old lines into its new
ones. -/
theorem patched_script (context : Nat) (s : Script (List Char)) :
    Patched Script.old Script.new (hunksFrom context [] (trimEnd context (trimStart context s)))
      s.old s.new := by
  obtain ⟨first, hold, hnew⟩ := exists_trimStart context s
  obtain ⟨last, hold', hnew'⟩ := exists_trimEnd context (trimStart context s)
  rw [hold, hnew, hold', hnew']
  exact ((patched_hunksFrom context [] _).append last).prepend first

theorem without_hunkOf (skip : Change) (s : Script (List Char)) :
    (hunkOf s).without skip = (s.without skip).map shown := by
  induction s with
  | nil => rfl
  | cons b s ih =>
    have hhunk : hunkOf (b :: s) =
        (b.lines.map fun l ↦ (⟨b.change, shown l⟩ : Line)) ++ hunkOf s := rfl
    rw [hhunk, Hunk.without, List.filter_append, List.map_append, Script.without_cons,
      List.map_append, ← ih]
    by_cases hskip : b.change = skip
    · simp [hskip, Hunk.without, List.filter_map, Function.comp_def]
    · have hall : (b.lines.filter fun _ ↦ true) = b.lines := List.filter_eq_self.mpr fun _ _ ↦ rfl
      simp [hskip, Hunk.without, List.filter_map, Function.comp_def, hall]

/-- A hunk without changed lines changes nothing. -/
theorem sides_eq_of_count (hadd : (hunkOf s).count .add = 0) (hdrop : (hunkOf s).count .drop = 0) :
    s.old = s.new := by
  induction s with
  | nil => rfl
  | cons b s ih =>
    obtain ⟨change, lines⟩ := b
    simp only [Hunk.count, hunkOf, List.flatMap_cons, List.countP_append, List.countP_map,
      Nat.add_eq_zero_iff] at ih hadd hdrop
    have hs := ih hadd.2 hdrop.2
    rw [Script.old_eq, Script.new_eq] at hs ⊢
    cases change with
    | keep => simp [hs]
    | drop =>
      have hlines : lines = [] := by simpa [Function.comp_def] using hdrop.1
      simp [hs, hlines]
    | add =>
      have hlines : lines = [] := by simpa [Function.comp_def] using hadd.1
      simp [hs, hlines]

/-- Kept lines alone make no hunk. -/
theorem hunksFrom_kept (context : Nat) (lines : List (List Char)) :
    hunksFrom context [] (trimEnd context (trimStart context (.block .keep lines))) = [] := by
  cases lines with
  | nil => rfl
  | cons l lines =>
    have hshort : ¬ 2 * context <
        (((l :: lines).drop ((l :: lines).length - context)).take context).length := by
      rw [List.length_take]
      omega
    simp [Script.block, trimStart, trimEnd, hunksFrom, Block.isKept] at hshort ⊢
    omega

end Grouping

/-! Counting. -/

section Counting

variable (d : Diff) (h : Hunk) (hs : List Hunk)

theorem foldl_tally : h.foldl tally d =
    { d with additions := d.additions + h.count .add, deletions := d.deletions + h.count .drop } := by
  induction h generalizing d with
  | nil => rfl
  | cons l h ih =>
    obtain ⟨change, content⟩ := l
    rw [List.foldl_cons, ih]
    cases change <;> simp [tally, Hunk.count, Nat.add_assoc, Nat.add_comm]

theorem foldl_push : hs.foldl push d = {
    hunks := d.hunks ++ hs
    additions := d.additions + Hunk.count .add hs.flatten
    deletions := d.deletions + Hunk.count .drop hs.flatten } := by
  induction hs generalizing d with
  | nil => simp [Hunk.count]
  | cons h hs ih =>
    rw [List.foldl_cons, ih, push, foldl_tally, List.flatten_cons, count_append, count_append]
    simp [Nat.add_assoc]

end Counting

/-! The diff of two texts. -/

section Texts

/-- The hunks of a diff before their lines are put in words. -/
def groups (context : Nat) (old new : String) : List (Script (List Char)) :=
  hunksFrom context []
    (trimEnd context (trimStart context (script (splitLines old.toList) (splitLines new.toList))))

variable (context : Nat) (old new : String)

theorem ofTexts_eq : ofTexts context old new = {
    hunks := (groups context old new).map hunkOf
    additions := Hunk.count .add ((groups context old new).map hunkOf).flatten
    deletions := Hunk.count .drop ((groups context old new).map hunkOf).flatten } := by
  rw [ofTexts, ← groups, foldl_push]
  simp

theorem hunks_ofTexts : (ofTexts context old new).hunks = (groups context old new).map hunkOf := by
  rw [ofTexts_eq]

theorem additions_ofTexts : (ofTexts context old new).additions =
    (ofTexts context old new).hunks.flatten.countP (·.change = .add) := by
  simp only [ofTexts_eq, Hunk.count]

theorem deletions_ofTexts : (ofTexts context old new).deletions =
    (ofTexts context old new).hunks.flatten.countP (·.change = .drop) := by
  simp only [ofTexts_eq, Hunk.count]

theorem patched_groups : Patched Script.old Script.new (groups context old new)
    (splitLines old.toList) (splitLines new.toList) := by
  obtain ⟨hold, hnew⟩ := script_sides (splitLines old.toList) (splitLines new.toList)
  have hpatched := patched_script context (script (splitLines old.toList) (splitLines new.toList))
  rwa [hold, hnew] at hpatched

theorem patched_ofTexts : Patched Hunk.old Hunk.new (ofTexts context old new).hunks
    (shownLines old) (shownLines new) := by
  rw [hunks_ofTexts]
  exact (patched_groups context old new).map hunkOf shown (without_hunkOf .add)
    (without_hunkOf .drop)

theorem length_shownLines_add : (shownLines old).length + (ofTexts context old new).additions =
    (shownLines new).length + (ofTexts context old new).deletions := by
  rw [additions_ofTexts, deletions_ofTexts]
  exact (patched_ofTexts context old new).length_old_add

variable {context old new}

theorem eq_of_splitLines (h : splitLines old.toList = splitLines new.toList) : old = new := by
  apply String.toList_inj.mp
  rw [← flatten_splitLines old.toList, h, flatten_splitLines]

/-- A diff that counts no changes is one of equal texts. -/
theorem eq_of_unchanged (hadd : (ofTexts context old new).additions = 0)
    (hdrop : (ofTexts context old new).deletions = 0) : old = new := by
  rw [additions_ofTexts, hunks_ofTexts] at hadd
  rw [deletions_ofTexts, hunks_ofTexts] at hdrop
  have hadds := List.forall_mem_map.mp (count_of_count_flatten hadd)
  have hdrops := List.forall_mem_map.mp (count_of_count_flatten hdrop)
  apply eq_of_splitLines
  apply (patched_groups context old new).eq_of_forall
  intro s hs
  exact sides_eq_of_count (hadds s hs) (hdrops s hs)

theorem hunks_eq_nil_iff : (ofTexts context old new).hunks = [] ↔ old = new := by
  constructor
  · intro hnil
    apply @eq_of_unchanged context
    · rw [additions_ofTexts, hnil]
      rfl
    · rw [deletions_ofTexts, hnil]
      rfl
  · rintro rfl
    rw [hunks_ofTexts, groups, script_self, hunksFrom_kept]
    rfl

end Texts

end DeliveryCharts.Diff
