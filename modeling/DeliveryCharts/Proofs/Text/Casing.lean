import DeliveryCharts.Text.Blank
import DeliveryCharts.Text.Casing
import DeliveryCharts.Text.Lines

/-!
Lower case, line by line. A blank is in no case and no part of a word, so the texts on both sides of
it are put into lower case on their own; and it does not matter which case a letter of ASCII has.
-/

namespace DeliveryCharts.Text

variable {c : Char} {cs : List Char}

/-- A character that ends a word and has no other case. -/
structure Parts (c : Char) : Prop where
  uncased : isCased c = false
  counts : isCaseIgnorable c = false
  lower : lowerChar c = [c]

def blankCodes : List Nat :=
  [9, 10, 11, 12, 13, 32, 0x85, 0xA0, 0x1680, 0x2000, 0x2001, 0x2002, 0x2003, 0x2004, 0x2005, 0x2006,
    0x2007, 0x2008, 0x2009, 0x200A, 0x2028, 0x2029, 0x202F, 0x205F, 0x3000]

theorem mem_blankCodes (h : isBlank c = true) : c.toNat ∈ blankCodes := by
  simp only [isBlank, Bool.or_eq_true, Bool.and_eq_true, decide_eq_true_eq, beq_iff_eq] at h
  simp only [blankCodes, List.mem_cons, List.not_mem_nil, or_false]
  omega

theorem parts_of_isBlank (h : isBlank c = true) : Parts c := by
  have hcodes : ∀ n ∈ blankCodes, isCased (.ofNat n) = false ∧ isCaseIgnorable (.ofNat n) = false ∧
      lowerChar (.ofNat n) = [.ofNat n] := by decide +kernel
  obtain ⟨huncased, hcounts, hlower⟩ := hcodes c.toNat (mem_blankCodes h)
  rw [Char.ofNat_toNat] at huncased hcounts hlower
  exact ⟨huncased, hcounts, hlower⟩

theorem Parts.ne_sigma (h : Parts c) : c ≠ '\u03A3' := by
  rintro rfl
  have hcased : isCased '\u03A3' = true := by decide +kernel
  rw [h.uncased] at hcased
  cases hcased

theorem nextIsCased_cons (c : Char) (cs : List Char) :
    nextIsCased (c :: cs) = if isCaseIgnorable c then nextIsCased cs else isCased c := by
  by_cases hc : isCaseIgnorable c = true
  · rw [if_pos hc, nextIsCased, List.dropWhile_cons_of_pos hc, nextIsCased]
  · rw [if_neg hc, nextIsCased, List.dropWhile_cons_of_neg hc]

/-- A character that ends a word hides what is behind it. -/
theorem Parts.nextIsCased_append (h : Parts c) (as bs : List Char) :
    nextIsCased (as ++ c :: bs) = nextIsCased as := by
  induction as with
  | nil =>
    rw [List.nil_append, nextIsCased_cons, h.counts, h.uncased]
    rfl
  | cons a as ih => rw [List.cons_append, nextIsCased_cons, nextIsCased_cons, ih]

theorem Parts.lowerAfter_append (h : Parts c) (before between as : List Char) :
    lowerAfter (between ++ c :: before) as = lowerAfter between as := by
  induction as generalizing between with
  | nil => rfl
  | cons a as ih =>
    rw [lowerAfter, lowerAfter, h.nextIsCased_append, ← List.cons_append, ih]

theorem lowerAfter_cons_of_ne (h : c ≠ '\u03A3') (before cs : List Char) :
    lowerAfter before (c :: cs) = lowerChar c ++ lowerAfter (c :: before) cs := by
  rw [lowerAfter, if_neg h]

theorem Parts.lowerAfter_of_append (h : Parts c) (before as bs : List Char) :
    lowerAfter before (as ++ c :: bs) = lowerAfter before as ++ c :: lowerChars bs := by
  induction as generalizing before with
  | nil =>
    have hbehind := h.lowerAfter_append before [] bs
    rw [List.nil_append] at hbehind
    rw [List.nil_append, lowerAfter_cons_of_ne h.ne_sigma, h.lower, hbehind]
    rfl
  | cons a as ih =>
    rw [List.cons_append, lowerAfter, h.nextIsCased_append, ih, lowerAfter, List.append_assoc]

/-- The texts on both sides of a blank are put into lower case on their own. -/
theorem lowerChars_append_blank (h : isBlank c = true) (as bs : List Char) :
    lowerChars (as ++ c :: bs) = lowerChars as ++ c :: lowerChars bs :=
  (parts_of_isBlank h).lowerAfter_of_append [] as bs

theorem lowerChars_blanks_append {blanks : List Char} (h : ∀ c ∈ blanks, isBlank c = true)
    (cs : List Char) : lowerChars (blanks ++ cs) = blanks ++ lowerChars cs := by
  induction blanks with
  | nil => rfl
  | cons b blanks ih =>
    obtain ⟨hb, hblanks⟩ := List.forall_mem_cons.mp h
    rw [List.cons_append, ← List.nil_append (b :: (blanks ++ cs)), lowerChars_append_blank hb,
      ih hblanks]
    rfl

theorem lowerChars_append_blanks {blanks : List Char} (h : ∀ c ∈ blanks, isBlank c = true)
    (cs : List Char) : lowerChars (cs ++ blanks) = lowerChars cs ++ blanks := by
  cases blanks with
  | nil => simp
  | cons b blanks =>
    obtain ⟨hb, hblanks⟩ := List.forall_mem_cons.mp h
    have hlower := lowerChars_blanks_append hblanks []
    rw [List.append_nil] at hlower
    rw [lowerChars_append_blank hb, hlower, show lowerChars [] = [] from rfl, List.append_nil]

theorem lowerChar_ne_nil (c : Char) : lowerChar c ≠ [] := by
  rw [lowerChar]
  split
  · exact List.cons_ne_nil _ _
  · split <;> exact List.cons_ne_nil _ _

theorem lowerChars_ne_nil (h : cs ≠ []) : lowerChars cs ≠ [] := by
  obtain ⟨c, cs, rfl⟩ := List.exists_cons_of_ne_nil h
  rw [lowerChars, lowerAfter]
  refine List.append_ne_nil_of_left_ne_nil ?_ _
  split
  · split <;> exact List.cons_ne_nil _ _
  · exact lowerChar_ne_nil c

/-! Line feeds. -/

theorem le_target_of_map? {r : CaseRun} {n m : Nat} (h : r.map? n = some m) : r.target ≤ m := by
  rw [CaseRun.map?] at h
  split at h
  · rw [← Option.some.inj h]
    exact Nat.le_add_right _ _
  · cases h

theorem ofNat_ne_feed {n : Nat} (h : 0x61 ≤ n) : '\n' ≠ Char.ofNat n := by
  intro hfeed
  have hcode : 10 = (Char.ofNat n).toNat := congrArg Char.toNat hfeed
  by_cases hvalid : n.isValidChar
  · have hn : (Char.ofNat n).toNat = n := by
      rw [Char.ofNat, dif_pos hvalid]
      rfl
    omega
  · rw [Char.ofNat, dif_neg hvalid] at hcode
    cases hcode

theorem feed_not_mem_lowerChar (h : c ≠ '\n') : '\n' ∉ lowerChar c := by
  have htargets : ∀ r ∈ lowerRuns, 0x61 ≤ r.target := by decide +kernel
  rw [lowerChar]
  split
  · decide
  · split
    · rename_i n hn
      obtain ⟨r, hr, hmap⟩ := List.exists_of_findSome?_eq_some hn
      have hle := Nat.le_trans (htargets r hr) (le_target_of_map? hmap)
      rw [List.mem_singleton]
      exact ofNat_ne_feed hle
    · simpa using Ne.symm h

theorem feed_not_mem_lowerAfter (before : List Char) (h : '\n' ∉ cs) :
    '\n' ∉ lowerAfter before cs := by
  induction cs generalizing before with
  | nil => simp [lowerAfter]
  | cons c cs ih =>
    obtain ⟨hc, hcs⟩ := not_or.mp (mt List.mem_cons.mpr h)
    rw [lowerAfter, List.mem_append, not_or]
    refine ⟨?_, ih _ hcs⟩
    split
    · split <;> decide
    · exact feed_not_mem_lowerChar (Ne.symm hc)

theorem feed_not_mem_lowerChars (h : '\n' ∉ cs) : '\n' ∉ lowerChars cs :=
  feed_not_mem_lowerAfter [] h

/-! Letters of ASCII. -/

def lowerLetter (c : Char) : Char := if 'A' ≤ c ∧ c ≤ 'Z' then Char.ofNat (c.toNat + 32) else c

theorem asciiLower_eq (cs : List Char) : asciiLower cs = cs.map lowerLetter := rfl

theorem lowerLetter_spec (c : Char) : isCased (lowerLetter c) = isCased c ∧
    isCaseIgnorable (lowerLetter c) = isCaseIgnorable c ∧
    lowerChar (lowerLetter c) = lowerChar c ∧ (lowerLetter c = '\u03A3' ↔ c = '\u03A3') := by
  have hletters : ∀ n ∈ List.range' 65 26, isCased (.ofNat (n + 32)) = isCased (.ofNat n) ∧
      isCaseIgnorable (.ofNat (n + 32)) = isCaseIgnorable (.ofNat n) ∧
      lowerChar (.ofNat (n + 32)) = lowerChar (.ofNat n) ∧
      (Char.ofNat (n + 32) = '\u03A3' ↔ Char.ofNat n = '\u03A3') := by decide +kernel
  rw [lowerLetter]
  split
  · rename_i h
    have hmem : c.toNat ∈ List.range' 65 26 := by
      have h₁ : 'A'.toNat ≤ c.toNat := h.1
      have h₂ : c.toNat ≤ 'Z'.toNat := h.2
      rw [List.mem_range'_1]
      have : 'A'.toNat = 65 := rfl
      have : 'Z'.toNat = 90 := rfl
      omega
    have hspec := hletters c.toNat hmem
    rwa [Char.ofNat_toNat] at hspec
  · exact ⟨rfl, rfl, rfl, Iff.rfl⟩

theorem nextIsCased_map (cs : List Char) : nextIsCased (cs.map lowerLetter) = nextIsCased cs := by
  induction cs with
  | nil => rfl
  | cons c cs ih =>
    obtain ⟨hcased, hignorable, -⟩ := lowerLetter_spec c
    rw [List.map_cons, nextIsCased_cons, nextIsCased_cons, ih, hcased, hignorable]

theorem lowerAfter_map (before cs : List Char) :
    lowerAfter (before.map lowerLetter) (cs.map lowerLetter) = lowerAfter before cs := by
  induction cs generalizing before with
  | nil => rfl
  | cons c cs ih =>
    obtain ⟨-, -, hlower, hsigma⟩ := lowerLetter_spec c
    rw [List.map_cons, lowerAfter, lowerAfter, nextIsCased_map, nextIsCased_map, hlower,
      ← List.map_cons, ih]
    simp only [hsigma]

/-- Texts that differ in the case of letters of ASCII only have the same lower case. -/
theorem lowerChars_congr {as bs : List Char} (h : asciiLower as = asciiLower bs) :
    lowerChars as = lowerChars bs := by
  rw [asciiLower_eq, asciiLower_eq] at h
  rw [lowerChars, ← lowerAfter_map [] as, h, lowerAfter_map [] bs, lowerChars]

end DeliveryCharts.Text
