import DeliveryCharts.Proofs.Record
import DeliveryCharts.Template.Hint

/-!
Where a line is cut to find the name that was meant. Every cut is between characters but one: the
word in front of a call is cut off one byte behind the start of the character before it, which may
have more than one byte.
-/

namespace DeliveryCharts

namespace Text

variable {p : Char → Bool} {cs : List Char}

theorem firstByte?_of_forall (h : ∀ c ∈ cs, p c = false) : firstByte? p cs = none := by
  induction cs with
  | nil => rfl
  | cons c cs ih =>
    obtain ⟨hc, hcs⟩ := List.forall_mem_cons.mp h
    rw [firstByte?, ih hcs, hc]
    rfl

theorem firstByte?_append {before : List Char} (h : ∀ c ∈ before, p c = false) {c : Char}
    (hc : p c = true) (rest : List Char) :
    firstByte? p (before ++ c :: rest) = some (utf8Length before) := by
  induction before with
  | nil => simp [firstByte?, hc, utf8Length]
  | cons d before ih =>
    obtain ⟨hd, hbefore⟩ := List.forall_mem_cons.mp h
    simp [firstByte?, hd, ih hbefore, utf8Length]

theorem lastByte?_of_forall (h : ∀ c ∈ cs, p c = false) : lastByte? p cs = none := by
  induction cs with
  | nil => rfl
  | cons c cs ih =>
    obtain ⟨hc, hcs⟩ := List.forall_mem_cons.mp h
    simp [lastByte?, ih hcs, hc]

theorem lastByte?_append (before : List Char) {c : Char} (hc : p c = true) {rest : List Char}
    (h : ∀ c ∈ rest, p c = false) :
    lastByte? p (before ++ c :: rest) = some (utf8Length before) := by
  induction before with
  | nil => simp [lastByte?, lastByte?_of_forall h, hc, utf8Length]
  | cons d before ih => simp [lastByte?, ih, utf8Length]

/-- A text has no character that `p` holds of, or a first one. -/
theorem first_cases (p : Char → Bool) (cs : List Char) : (∀ c ∈ cs, p c = false) ∨
    ∃ before c rest, cs = before ++ c :: rest ∧ (∀ d ∈ before, p d = false) ∧ p c = true := by
  induction cs with
  | nil => exact .inl (List.forall_mem_nil _)
  | cons c cs ih =>
    cases hc : p c with
    | true => exact .inr ⟨[], c, cs, rfl, List.forall_mem_nil _, hc⟩
    | false =>
      obtain hcs | ⟨before, d, rest, rfl, hbefore, hd⟩ := ih
      · exact .inl (List.forall_mem_cons.mpr ⟨hc, hcs⟩)
      · exact .inr ⟨c :: before, d, rest, rfl, List.forall_mem_cons.mpr ⟨hc, hbefore⟩, hd⟩

/-- A text has no character that `p` holds of, or a last one. -/
theorem last_cases (p : Char → Bool) (cs : List Char) : (∀ c ∈ cs, p c = false) ∨
    ∃ before c rest, cs = before ++ c :: rest ∧ p c = true ∧ ∀ d ∈ rest, p d = false := by
  obtain h | ⟨before, c, rest, hcs, hbefore, hc⟩ := first_cases p cs.reverse
  · exact .inl fun c hc ↦ h c (List.mem_reverse.mpr hc)
  · refine .inr ⟨rest.reverse, c, before.reverse, ?_, hc, fun d hd ↦
      hbefore d (List.mem_reverse.mp hd)⟩
    rw [← List.reverse_reverse cs, hcs]
    simp

end Text

namespace Template

namespace Hint

open Text (isWordChar)

variable {line before rest : List Char}

theorem cut_append (as bs : List Char) : cut (Text.utf8Length as) (as ++ bs) = .ok (as, bs) :=
  cut_eq_ok_iff.mpr ⟨rfl, rfl⟩

/-! Filters. -/

/-- The word at the head of a text is cut off where it ends. -/
theorem leadingWord?_eq (cs : List Char) : leadingWord? cs =
    .ok (if cs.takeWhile isWordChar = [] then none
      else some (.ofList (cs.takeWhile isWordChar))) := by
  have hcut (word rest : List Char)
      (hsize : (Text.firstByte? (!isWordChar ·) (word ++ rest)).getD
        (Text.utf8Length (word ++ rest)) = Text.utf8Length word) :
      leadingWord? (word ++ rest) = .ok (if word = [] then none else some (.ofList word)) := by
    rw [leadingWord?, hsize]
    simp only [Text.utf8Length_eq_zero_iff]
    split
    · rfl
    · rw [cut_append]
      rfl
  obtain hall | ⟨word, c, rest, rfl, hword, hc⟩ := Text.first_cases (!isWordChar ·) cs
  · have htake : cs.takeWhile isWordChar = cs := by
      have hword : ∀ c ∈ cs, isWordChar c = true := by simpa using hall
      rw [← List.append_nil cs, List.takeWhile_append_of_pos hword, List.takeWhile_nil]
    have hword := hcut cs []
    rw [List.append_nil, Text.firstByte?_of_forall hall] at hword
    rw [htake]
    exact hword rfl
  · have htake : (word ++ c :: rest).takeWhile isWordChar = word := by
      rw [List.takeWhile_append_of_pos (by simpa using hword), List.takeWhile_cons_of_neg
        (by simpa using hc), List.append_nil]
    rw [htake]
    exact hcut word (c :: rest) (by rw [Text.firstByte?_append hword hc]; rfl)

theorem exists_unknownAmong? (parts : List (List Char)) :
    ∃ name, unknownAmong? parts = .ok name := by
  induction parts with
  | nil => exact ⟨none, rfl⟩
  | cons part parts ih =>
    rw [unknownAmong?, leadingWord?_eq]
    simp only [bind, Except.bind]
    split
    · split
      · exact ih
      · exact ⟨_, rfl⟩
    · exact ih

/-! Functions. -/

/-- The last word of a text stands right behind a character of more than one byte. The word may be
empty. -/
def BehindWide (before : List Char) : Prop :=
  ∃ ahead c word, before = ahead ++ c :: word ∧ isWordChar c = false ∧
    (∀ d ∈ word, isWordChar d = true) ∧ 1 < c.utf8Size

theorem unknownCall?_of_behindWide (h : BehindWide before) :
    unknownCall? before = .error .insideCharacter := by
  obtain ⟨ahead, c, word, rfl, hc, hword, hsize⟩ := h
  have hstart : wordStart (ahead ++ c :: word) = Text.utf8Length ahead + 1 := by
    rw [wordStart, Text.lastByte?_append ahead (by simp [hc]) (by simpa using hword)]
  rw [unknownCall?, hstart]
  cases hcut : cut (Text.utf8Length ahead + 1) (ahead ++ c :: word) with
  | error e =>
    cases e
    rfl
  | ok parts =>
    obtain ⟨hparts, hlength⟩ := cut_eq_ok_iff.mp hcut
    -- what is left of the cut would be more than `ahead` and less than `ahead` with `c`
    obtain ⟨more, hleft, hmore⟩ | ⟨more, hahead, -⟩ := List.append_eq_append_iff.mp hparts
    · rw [hleft, Text.utf8Length_append] at hlength
      cases more with
      | nil => simp [Text.utf8Length] at hlength
      | cons d more =>
        obtain ⟨rfl, -⟩ := List.cons.inj hmore
        rw [Text.utf8Length] at hlength
        omega
    · rw [hahead, Text.utf8Length_append] at hlength
      omega

theorem exists_unknownCall? (h : ¬ BehindWide before) : ∃ name, unknownCall? before = .ok name := by
  obtain hall | ⟨ahead, c, word, rfl, hc, hword⟩ := Text.last_cases (!isWordChar ·) before
  · have hstart : wordStart before = 0 := by rw [wordStart, Text.lastByte?_of_forall hall]
    have hcut := cut_append [] before
    exact ⟨unknownName? [] before, by rw [unknownCall?, hstart]; exact congrArg (Except.map _) hcut⟩
  · have hsize : c.utf8Size = 1 := by
      have hpos := c.utf8Size_pos
      have hle : ¬ 1 < c.utf8Size := fun hlt ↦
        h ⟨ahead, c, word, rfl, by simpa using hc, by simpa using hword, hlt⟩
      omega
    have hstart : wordStart (ahead ++ c :: word) = Text.utf8Length (ahead ++ [c]) := by
      rw [wordStart, Text.lastByte?_append ahead hc hword]
      simp [Text.utf8Length, hsize]
    have hcut := cut_append (ahead ++ [c]) word
    rw [List.append_assoc, List.singleton_append] at hcut
    exact ⟨unknownName? (ahead ++ [c]) word,
      by rw [unknownCall?, hstart]; exact congrArg (Except.map _) hcut⟩

theorem unknownFunction?_of_not_mem (h : '(' ∉ line) : unknownFunction? line = .ok none := by
  have hnone : Text.firstByte? (· == '(') line = none := by
    apply Text.firstByte?_of_forall
    intro c hc
    simp only [beq_eq_false_iff_ne]
    rintro rfl
    exact h hc
  rw [unknownFunction?, hnone]

/-- The first call of a line, and then the rest of it. -/
theorem unknownFunction?_append (h : '(' ∉ before) (rest : List Char) :
    unknownFunction? (before ++ '(' :: rest) =
      unknownCall? before >>= (·.elim (unknownFunction? rest) (.ok ∘ some)) := by
  have hopening : Text.firstByte? (· == '(') (before ++ '(' :: rest) =
      some (Text.utf8Length before) := by
    apply Text.firstByte?_append _ rfl
    intro c hc
    simp only [beq_eq_false_iff_ne]
    rintro rfl
    exact h hc
  have hbehind : cut (Text.utf8Length before + 1) (before ++ '(' :: rest) =
      .ok (before ++ ['('], rest) := by
    have hbytes : Text.utf8Length (before ++ ['(']) = Text.utf8Length before + 1 := by
      rw [Text.utf8Length_append]
      rfl
    rw [List.append_cons, ← hbytes]
    exact cut_append (before ++ ['(']) rest
  rw [unknownFunction?, hopening]
  simp only [cut_append, Except.bind]
  cases unknownCall? before with
  | error e => rfl
  | ok name =>
    cases name with
    | some name => rfl
    | none =>
      simp only
      split
      · rename_i heq
        rw [hbehind] at heq
        cases heq
      · rename_i heq
        rw [hbehind] at heq
        cases heq
        rfl

/-- Some call of the line stands behind a wide character, and every word before it that is called is
known. -/
def Stumbles (line : List Char) : Prop :=
  ∃ ahead before rest, line = ahead ++ before ++ '(' :: rest ∧
    (ahead = [] ∨ ahead.getLast? = some '(') ∧ '(' ∉ before ∧ BehindWide before ∧
    unknownFunction? ahead = .ok none

theorem opening_cases (line : List Char) :
    '(' ∉ line ∨ ∃ before rest, line = before ++ '(' :: rest ∧ '(' ∉ before := by
  obtain h | ⟨before, c, rest, hline, hbefore, hc⟩ := Text.first_cases (· == '(') line
  · exact .inl fun hmem ↦ by simpa using h _ hmem
  · obtain rfl := beq_iff_eq.mp hc
    exact .inr ⟨before, rest, hline, fun hmem ↦ by simpa using hbefore _ hmem⟩

theorem stumbles_of_error {e : BadCut} (h : unknownFunction? line = .error e) : Stumbles line := by
  induction hn : line.length using Nat.strongRecOn generalizing line with
  | _ n ih =>
    obtain hnone | ⟨before, rest, rfl, hbefore⟩ := opening_cases line
    · rw [unknownFunction?_of_not_mem hnone] at h
      cases h
    · by_cases hwide : BehindWide before
      · exact ⟨[], before, rest, rfl, .inl rfl, hbefore, hwide, unknownFunction?_of_not_mem (by simp)⟩
      · obtain ⟨name, hcall⟩ := exists_unknownCall? hwide
        rw [unknownFunction?_append hbefore, hcall] at h
        cases name with
        | some name => cases h
        | none =>
          obtain ⟨ahead, word, behind, rfl, hlast, hword, hwide', hahead⟩ :=
            ih rest.length (by rw [← hn, List.length_append, List.length_cons]; omega) h rfl
          refine ⟨before ++ '(' :: ahead, word, behind, by simp, .inr ?_, hword, hwide', ?_⟩
          · cases hlast with
            | inl hnil => simp [hnil]
            | inr hlast => simp [List.getLast?_append, List.getLast?_cons, hlast]
          · rw [unknownFunction?_append hbefore, hcall]
            exact hahead

theorem error_of_stumbles (h : Stumbles line) :
    unknownFunction? line = .error .insideCharacter := by
  obtain ⟨ahead, before, rest, rfl, hlast, hbefore, hwide, hahead⟩ := h
  induction hn : ahead.length using Nat.strongRecOn generalizing ahead with
  | _ n ih =>
    obtain hnone | ⟨first, later, rfl, hfirst⟩ := opening_cases ahead
    · have hnil : ahead = [] := by
        refine hlast.resolve_right fun hlast ↦ hnone ?_
        exact List.mem_of_getLast? hlast
      rw [hnil, List.nil_append, unknownFunction?_append hbefore,
        unknownCall?_of_behindWide hwide]
      rfl
    · rw [unknownFunction?_append hfirst] at hahead
      cases hcall : unknownCall? first with
      | error e =>
        rw [hcall] at hahead
        cases hahead
      | ok name =>
        rw [hcall] at hahead
        cases name with
        | some name => cases hahead
        | none =>
          have hrest := ih later.length (by rw [← hn, List.length_append, List.length_cons]; omega)
            later ?_ hahead rfl
          · rw [List.append_assoc, List.append_assoc, List.cons_append,
              unknownFunction?_append hfirst, hcall, ← List.append_assoc]
            exact hrest
          · rcases List.eq_nil_or_concat later with hnil | ⟨later', c, rfl⟩
            · exact .inl hnil
            · right
              simpa [List.getLast?_append, List.getLast?_cons] using hlast

theorem stumbles_iff : Stumbles line ↔ unknownFunction? line = .error .insideCharacter :=
  ⟨error_of_stumbles, stumbles_of_error⟩

instance (line : List Char) : Decidable (Stumbles line) := decidable_of_iff _ stumbles_iff.symm

end Hint

end Template

end DeliveryCharts
