import DeliveryCharts.Diff.Compact

/-!
A script turns the old lines into the new ones, whatever point it is cut at and however its blocks
are moved: at each step it expects the same lines and leaves the same lines.
-/

namespace DeliveryCharts.Diff

variable {α : Type}

namespace Script

/-- The lines of a script but those of one kind of change. -/
def without (skip : Change) (s : Script α) : List α :=
  s.flatMap fun b ↦ if b.change = skip then [] else b.lines

theorem old_eq (s : Script α) : s.old = s.without .add := rfl

theorem new_eq (s : Script α) : s.new = s.without .drop := rfl

variable (skip : Change)

@[simp]
theorem without_nil : without skip ([] : Script α) = [] := rfl

@[simp]
theorem without_cons (b : Block α) (s : Script α) :
    without skip (b :: s) = (if b.change = skip then [] else b.lines) ++ without skip s := rfl

@[simp]
theorem without_append (s t : Script α) :
    without skip (s ++ t) = without skip s ++ without skip t := List.flatMap_append

@[simp]
theorem without_block (change : Change) (lines : List α) :
    without skip (block change lines) = if change = skip then [] else lines := by
  cases lines with
  | nil => simp [block]
  | cons a lines => simp [block]

/-- Both scripts turn the same lines into the same lines. -/
def Alike (s t : Script α) : Prop := ∀ skip, skip ≠ .keep → s.without skip = t.without skip

end Script

open Script (Alike)

namespace Script.Alike

variable {s t u : Script α}

theorem refl (s : Script α) : Alike s s := fun _ _ ↦ rfl

theorem trans (h : Alike s t) (h' : Alike t u) : Alike s u := fun skip hskip ↦
  (h skip hskip).trans (h' skip hskip)

theorem old_eq (h : Alike s t) : s.old = t.old := h .add (by decide)

theorem new_eq (h : Alike s t) : s.new = t.new := h .drop (by decide)

theorem within (h : Alike s t) (u v : Script α) : Alike (u ++ s ++ v) (u ++ t ++ v) := by
  intro skip hskip
  simp only [without_append, h skip hskip]

theorem join (change : Change) (ls ls' : List α) :
    Alike [⟨change, ls ++ ls'⟩] [⟨change, ls⟩, ⟨change, ls'⟩] := by
  intro skip _
  simp only [without_cons, without_nil]
  split <;> simp

/-- A change moves over another one: no side of the script has the lines of both. -/
theorem swap {b c : Block α} (hb : b.change ≠ .keep) (hc : c.change ≠ .keep)
    (hne : b.change ≠ c.change) : Alike [b, c] [c, b] := by
  intro skip hskip
  have hskipped : b.change = skip ∨ c.change = skip := by
    cases hb' : b.change <;> cases hc' : c.change <;> cases skip <;> simp_all
  cases hskipped with
  | inl hone => simp [hone]
  | inr hone => simp [hone]

/-- An added block moves up over the kept lines that it ends with. -/
theorem slide_up (kept shared own : List α) :
    Alike [⟨.keep, kept⟩, ⟨.add, shared ++ own⟩, ⟨.keep, shared⟩]
      [⟨.keep, kept ++ shared⟩, ⟨.add, own ++ shared⟩] := by
  intro skip hskip
  cases skip with
  | keep => exact absurd rfl hskip
  | drop => simp
  | add => simp

/-- An added block moves down over the kept lines that it starts with. -/
theorem slide_down (kept shared own : List α) :
    Alike [⟨.keep, shared⟩, ⟨.add, own ++ shared⟩, ⟨.keep, kept⟩]
      [⟨.add, shared ++ own⟩, ⟨.keep, shared ++ kept⟩] := by
  intro skip hskip
  cases skip with
  | keep => exact absurd rfl hskip
  | drop => simp
  | add => simp

end Script.Alike

section Raw

theorem take_append_of_suffix {as bs : List α} (h : bs <:+ as) :
    as.take (as.length - bs.length) ++ bs = as := by
  have hdrop := List.suffix_iff_eq_drop.mp h
  calc as.take (as.length - bs.length) ++ bs
    _ = as.take (as.length - bs.length) ++ as.drop (as.length - bs.length) := by rw [← hdrop]
    _ = as := List.take_append_drop ..

theorem replacement_sides (old new : List α) :
    (Script.block .drop old ++ .block .add new).without .add = old ∧
      (Script.block .drop old ++ .block .add new).without .drop = new := by
  simp

theorem halves_sides {s s' : Script α} {old new : List α} {x y : Nat}
    (h : s.without .add = old.take x ∧ s.without .drop = new.take y)
    (h' : s'.without .add = old.drop x ∧ s'.without .drop = new.drop y) :
    (s ++ s').without .add = old ∧ (s ++ s').without .drop = new := by
  simp [h.1, h.2, h'.1, h'.2]

variable [DecidableEq α]

theorem commonEnd_left (as bs : List α) :
    as.take (as.length - (commonEnd as bs).length) ++ commonEnd as bs = as := by
  apply take_append_of_suffix
  rw [← List.reverse_prefix, commonEnd, List.reverse_reverse]
  exact ⟨_, (commonStart_left as.reverse bs.reverse).symm⟩

theorem commonEnd_right (as bs : List α) :
    bs.take (bs.length - (commonEnd as bs).length) ++ commonEnd as bs = bs := by
  apply take_append_of_suffix
  rw [← List.reverse_prefix, commonEnd, List.reverse_reverse]
  exact ⟨_, (commonStart_right as.reverse bs.reverse).symm⟩

/-- Wherever the texts are cut, the pieces are put together in the same order. -/
theorem between_sides (fuel : Nat) (old new : List α) :
    (between fuel old new).old = old ∧ (between fuel old new).new = new := by
  simp only [Script.old_eq, Script.new_eq]
  induction fuel generalizing old new with
  | zero => simp [between]
  | succ fuel ih =>
    let start := commonStart old new
    let old' := old.drop start.length
    let new' := new.drop start.length
    let ending := commonEnd old' new'
    let old'' := old'.take (old'.length - ending.length)
    let new'' := new'.take (new'.length - ending.length)
    obtain ⟨inner, hinner, hbetween⟩ : ∃ inner : Script α,
        (inner.without .add = old'' ∧ inner.without .drop = new'') ∧
          between (fuel + 1) old new = .block .keep start ++ inner ++ .block .keep ending := by
      refine ⟨_, ?_, between.eq_2 old new fuel⟩
      split
      · exact replacement_sides old'' new''
      · split
        · exact halves_sides (ih _ _) (ih _ _)
        · exact replacement_sides old'' new''
    have hold : old = start ++ (old'' ++ ending) := by
      rw [commonEnd_left old' new']
      exact commonStart_left old new
    have hnew : new = start ++ (new'' ++ ending) := by
      rw [commonEnd_right old' new']
      exact commonStart_right old new
    constructor
    · rw [hbetween, Script.without_append, Script.without_append, hinner.1]
      simpa using hold.symm
    · rw [hbetween, Script.without_append, Script.without_append, hinner.2]
      simpa using hnew.symm

end Raw

/-! Moving blocks. -/

namespace Focus

variable {f g : Focus α} {skip : Change}

theorem without_script (skip : Change) (f : Focus α) : f.script.without skip =
    Script.without skip f.before.reverse ++
      ((if f.block.change = skip then [] else f.block.lines) ++ Script.without skip f.after) := by
  simp [script]

theorem without_unlessEmpty (skip : Change) (b : Block α) (rest : Script α) :
    Script.without skip (unlessEmpty b rest) =
      (if b.change = skip then [] else b.lines) ++ Script.without skip rest := by
  rw [unlessEmpty]
  split
  · rename_i hempty
    simp [List.isEmpty_iff.mp hempty]
  · rfl

theorem without_reverse_unlessEmpty (skip : Change) (b : Block α) (rest : Script α) :
    Script.without skip (unlessEmpty b rest).reverse =
      Script.without skip rest.reverse ++ (if b.change = skip then [] else b.lines) := by
  rw [unlessEmpty]
  split
  · rename_i hempty
    simp [List.isEmpty_iff.mp hempty]
  · simp

theorem without_keepFirst (hskip : skip ≠ .keep) (lines : List α) (rest : Script α) :
    Script.without skip (keepFirst lines rest) = lines ++ Script.without skip rest := by
  rw [keepFirst.eq_def]
  split
  · simp [hskip.symm]
  · simp [hskip.symm]

theorem without_reverse_keepLast (hskip : skip ≠ .keep) (lines : List α) (rest : Script α) :
    Script.without skip (keepLast lines rest).reverse =
      Script.without skip rest.reverse ++ lines := by
  rw [keepLast.eq_def]
  split
  · simp [hskip.symm]
  · simp [hskip.symm]

/-- A focus on a change stays on a change, and the script turns the same lines into the same
lines. -/
structure Moves (f g : Focus α) : Prop where
  change : f.block.change ≠ .keep → g.block.change ≠ .keep
  alike : f.block.change ≠ .keep → Alike g.script f.script

variable [DecidableEq α]

/-- The lines that an added block shares with the kept lines before it are kept behind it. -/
theorem moves_up (h : f.up? = some g) : f.Moves g := by
  obtain ⟨before, ⟨change, lines⟩, after⟩ := f
  cases before with
  | nil => simp [up?] at h
  | cons prev before =>
    by_cases hkeep : prev.change = .keep
    · by_cases hshared :
          (if change = .add then commonEnd prev.lines lines else []).isEmpty
      · simp only [up?, hkeep, if_true, hshared] at h
        split at h
        case isFalse => simp at h
        case isTrue hempty =>
          cases h
          refine ⟨id, fun _ skip _ ↦ ?_⟩
          simp [without_script, List.isEmpty_iff.mp hempty]
      · simp only [up?, hkeep, if_true, hshared] at h
        cases h
        have hadd : change = .add := Decidable.byContradiction fun hne ↦ hshared (by simp [hne])
        subst change
        obtain ⟨_, lines'⟩ := prev
        obtain rfl : _ = Change.keep := hkeep
        have hprev := commonEnd_left lines' lines
        have hlines := commonEnd_right lines' lines
        refine ⟨id, fun _ ↦ ?_⟩
        simp only [if_true]
        generalize commonEnd lines' lines = shared at *
        generalize lines.take (lines.length - shared.length) = own at *
        generalize lines'.take (lines'.length - shared.length) = kept at *
        subst hprev hlines
        refine Alike.trans (fun skip hskip ↦ ?_)
          (((Alike.slide_up kept shared own).within before.reverse after).trans ?_)
        · simp [without_script, without_reverse_unlessEmpty, without_keepFirst hskip, hskip.symm]
        · simpa [script] using Alike.refl _
    · by_cases hsame : prev.change = change
      · subst hsame
        rw [up?] at h
        dsimp only at h
        rw [if_neg hkeep, if_pos rfl] at h
        cases h
        refine ⟨id, fun _ ↦ ?_⟩
        simpa [script] using (Alike.join prev.change prev.lines lines).within before.reverse after
      · rw [up?] at h
        dsimp only at h
        rw [if_neg hkeep, if_neg hsame] at h
        cases h
        refine ⟨id, fun hchange ↦ ?_⟩
        simpa [script] using (Alike.swap hchange hkeep (Ne.symm hsame)).within before.reverse after

/-- The lines that an added block shares with the kept lines behind it are kept before it. -/
theorem moves_down (h : f.down? = some g) : f.Moves g := by
  obtain ⟨before, ⟨change, lines⟩, after⟩ := f
  cases after with
  | nil => simp [down?] at h
  | cons next after =>
    by_cases hkeep : next.change = .keep
    · by_cases hshared :
          (if change = .add then commonStart next.lines lines else []).isEmpty
      · simp only [down?, hkeep, if_true, hshared] at h
        split at h
        case isFalse => simp at h
        case isTrue hempty =>
          cases h
          refine ⟨id, fun _ skip _ ↦ ?_⟩
          simp [without_script, List.isEmpty_iff.mp hempty]
      · simp only [down?, hkeep, if_true, hshared] at h
        cases h
        have hadd : change = .add := Decidable.byContradiction fun hne ↦ hshared (by simp [hne])
        subst change
        obtain ⟨_, lines'⟩ := next
        obtain rfl : _ = Change.keep := hkeep
        have hnext := commonStart_left lines' lines
        have hlines := commonStart_right lines' lines
        refine ⟨id, fun _ ↦ ?_⟩
        simp only [if_true]
        generalize commonStart lines' lines = shared at *
        generalize lines.drop shared.length = own at *
        generalize lines'.drop shared.length = kept at *
        subst hnext hlines
        refine Alike.trans (fun skip hskip ↦ ?_)
          (((Alike.slide_down kept shared own).within before.reverse after).trans ?_)
        · simp [without_script, without_unlessEmpty, without_reverse_keepLast hskip, hskip.symm]
        · simpa [script] using Alike.refl _
    · by_cases hsame : next.change = change
      · subst hsame
        rw [down?] at h
        dsimp only at h
        rw [if_neg hkeep, if_pos rfl] at h
        cases h
        refine ⟨id, fun _ ↦ ?_⟩
        simpa [script] using (Alike.join next.change lines next.lines).within before.reverse after
      · rw [down?] at h
        dsimp only at h
        rw [if_neg hkeep, if_neg hsame] at h
        cases h
        refine ⟨id, fun hchange ↦ ?_⟩
        simpa [script] using (Alike.swap hkeep hchange hsame).within before.reverse after

omit [DecidableEq α] in
theorem moves_moveAll {move : Focus α → Option (Focus α)} (h : ∀ f g, move f = some g → f.Moves g)
    (n : Nat) (f : Focus α) : f.Moves (moveAll move n f) := by
  induction n generalizing f with
  | zero => exact ⟨id, fun _ ↦ .refl _⟩
  | succ n ih =>
    rw [moveAll]
    cases hmove : move f with
    | none => exact ⟨id, fun _ ↦ .refl _⟩
    | some g =>
      have hfirst := h f g hmove
      have hrest := ih g
      exact ⟨fun hf ↦ hrest.change (hfirst.change hf),
        fun hf ↦ (hrest.alike (hfirst.change hf)).trans (hfirst.alike hf)⟩

end Focus

section Compact

variable [DecidableEq α]

theorem settle_alike {change : Change} (hchange : change ≠ .keep) (moves fuel : Nat)
    (before rest : Script α) :
    Alike (settle change moves fuel before rest) (before.reverse ++ rest) := by
  induction fuel generalizing before rest with
  | zero => exact .refl _
  | succ fuel ih =>
    cases rest with
    | nil =>
      rw [List.append_nil]
      exact .refl _
    | cons b rest =>
      rw [settle.eq_3]
      split
      · rename_i hb
        let up := Focus.moveAll Focus.up? moves ⟨before, b, rest⟩
        let settled := Focus.moveAll Focus.down? moves up
        have hup : Focus.Moves ⟨before, b, rest⟩ up :=
          Focus.moves_moveAll (fun _ _ ↦ Focus.moves_up) moves _
        have hdown : Focus.Moves up settled :=
          Focus.moves_moveAll (fun _ _ ↦ Focus.moves_down) moves _
        have hstart : b.change ≠ .keep := hb ▸ hchange
        have hscript := (hdown.alike (hup.change hstart)).trans (hup.alike hstart)
        have hrest := ih (settled.block :: settled.before) settled.after
        rw [List.reverse_cons, List.append_assoc, List.singleton_append] at hrest
        exact hrest.trans hscript
      · have hrest := ih (b :: before) rest
        rw [List.reverse_cons, List.append_assoc, List.singleton_append] at hrest
        exact hrest

omit [DecidableEq α] in
theorem without_flush {skip : Change} (hskip : skip ≠ .keep) (keeps drops adds : List α) :
    Script.without skip (gather.flush keeps drops adds) =
      keeps ++ if skip = .drop then adds else drops := by
  cases skip with
  | keep => exact absurd rfl hskip
  | drop => simp [gather.flush]
  | add => simp [gather.flush]

omit [DecidableEq α] in
theorem without_gather_go {skip : Change} (hskip : skip ≠ .keep) (keeps drops adds : List α)
    (s : Script α) : Script.without skip (gather.go keeps drops adds s) =
      keeps ++ (if skip = .drop then adds else drops) ++ Script.without skip s := by
  induction s generalizing keeps drops adds with
  | nil => simp [gather.go, without_flush hskip]
  | cons b s ih =>
    obtain ⟨change, lines⟩ := b
    cases change with
    | keep =>
      rw [gather.go]
      split
      · rename_i hempty
        obtain ⟨hdrops, hadds⟩ := Bool.and_eq_true_iff.mp hempty
        simp [ih, hskip.symm, List.isEmpty_iff.mp hdrops, List.isEmpty_iff.mp hadds]
      · simp [ih, without_flush hskip, hskip.symm]
    | drop =>
      rw [gather.go, ih]
      cases skip with
      | keep => exact absurd rfl hskip
      | drop => simp
      | add => simp
    | add =>
      rw [gather.go, ih]
      cases skip with
      | keep => exact absurd rfl hskip
      | drop => simp
      | add => simp

omit [DecidableEq α] in
theorem gather_alike (s : Script α) : Alike (gather s) s := by
  intro skip hskip
  rw [gather, without_gather_go hskip]
  cases skip <;> simp

/-- The script between two texts expects the one and leaves the other. -/
theorem script_sides (old new : List α) : (script old new).old = old ∧ (script old new).new = new := by
  have hraw := between_sides (old.length + new.length + 1) old new
  have hscript : Alike (script old new) (rawScript old new) := by
    rw [script]
    refine (gather_alike _).trans ?_
    refine (settle_alike (by decide) _ _ [] _).trans ?_
    exact settle_alike (by decide) _ _ [] _
  exact ⟨hscript.old_eq.trans hraw.1, hscript.new_eq.trans hraw.2⟩

/-! Equal texts. -/

theorem commonStart_self (as : List α) : commonStart as as = as := by
  induction as with
  | nil => rfl
  | cons a as ih => rw [commonStart, if_pos rfl, ih]

theorem settle_kept {change : Change} (hchange : change ≠ .keep) (moves fuel : Nat)
    (lines : List α) :
    settle change moves (fuel + 2) [] (.block .keep lines) = .block .keep lines := by
  cases lines with
  | nil => rfl
  | cons a lines =>
    rw [Script.block, if_neg (by simp), settle.eq_3, if_neg hchange.symm]
    rfl

theorem script_self (lines : List α) : script lines lines = .block .keep lines := by
  have hraw : rawScript lines lines = .block .keep lines := by
    rw [rawScript, between, commonStart_self, List.drop_length]
    simp [commonEnd, commonStart, Script.block]
  obtain ⟨fuel, hfuel⟩ : ∃ fuel,
      (lines.length + lines.length + 2) * (lines.length + lines.length + 2) = fuel + 2 :=
    ⟨_, (Nat.sub_add_cancel (by
      have hmul := Nat.mul_le_mul (Nat.le_add_left 2 (lines.length + lines.length))
        (Nat.le_add_left 1 (lines.length + lines.length + 1))
      omega)).symm⟩
  rw [script]
  simp only [hfuel, hraw, settle_kept (show Change.drop ≠ .keep by decide),
    settle_kept (show Change.add ≠ .keep by decide)]
  cases lines with
  | nil => rfl
  | cons a lines => rfl

end Compact

end DeliveryCharts.Diff
