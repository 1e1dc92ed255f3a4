import DeliveryCharts.Json.Shape
import DeliveryCharts.Proofs.Json.Tree
import DeliveryCharts.Proofs.Record

/-!
The tokens of a JSON text. Reading a token ends where passing over it ends, and both leave less of
the text than there was.
-/

namespace DeliveryCharts.Json.Reader

open Text (Received)

variable {negative : Bool} {m before : Nat} {e : Int} {s rest : Received} {n : Number}

def unsigned : Received → Received
  | some '+' :: s => s
  | some '-' :: s => s
  | s => s

/-- Passes over an exponent behind its letter. -/
def skipExponent (s : Received) : Except TextFault Received :=
  match digits (unsigned s) with
  | ([], _) => .error .invalidNumber
  | (_, s) => .ok s

def skipExponentOrEnd : Received → Except TextFault Received
  | some 'e' :: s => skipExponent s
  | some 'E' :: s => skipExponent s
  | s => .ok s

/-- Passes over what follows the digits before the point. -/
def skipFraction : Received → Except TextFault Received
  | some '.' :: s =>
    match digits s with
    | ([], _) => .error .invalidNumber
    | (_, s) => skipExponentOrEnd s
  | s => skipExponentOrEnd s

theorem skipExponentOrEnd_end (he : ∀ t, s = some 'e' :: t → False)
    (hE : ∀ t, s = some 'E' :: t → False) : skipExponentOrEnd s = .ok s := by
  unfold skipExponentOrEnd
  split
  · exact absurd rfl (he _)
  · exact absurd rfl (hE _)
  · rfl

theorem skipFraction_end (hpoint : ∀ t, s = some '.' :: t → False)
    (he : ∀ t, s = some 'e' :: t → False) (hE : ∀ t, s = some 'E' :: t → False) :
    skipFraction s = .ok s := by
  unfold skipFraction
  split
  · exact absurd rfl (hpoint _)
  · exact skipExponentOrEnd_end he hE

theorem skipNumber_eq {c : Char} {cs : List Char} {r : Received}
    (hdigits : digits s = (c :: cs, r))
    (hzero : ∀ d ds, c :: cs = '0' :: d :: ds → False) : skipNumber s = skipFraction r := by
  unfold skipNumber
  simp only [hdigits]
  split
  case h_1 r =>
    rw [skipFraction]
    split
    case h_1 h => rw [h]
    case h_2 ds t hds h =>
      obtain ⟨d, ds, rfl⟩ := List.exists_cons_of_ne_nil hds
      rw [h]
      rfl
    case h_3 ds t hds h =>
      obtain ⟨d, ds, rfl⟩ := List.exists_cons_of_ne_nil hds
      rw [h]
      rfl
    case h_4 ds t hds he hE h =>
      obtain ⟨d, ds, rfl⟩ := List.exists_cons_of_ne_nil hds
      rw [h]
      exact (skipExponentOrEnd_end he hE).symm
  case h_2 => rfl
  case h_3 => rfl
  case h_4 hpoint he hE => exact (skipFraction_end hpoint he hE).symm

theorem unsigned_eq (s : Received) : unsigned s =
    (match s with
      | some '+' :: s => (false, s)
      | some '-' :: s => (true, s)
      | s => (false, s)).2 := by
  unfold unsigned
  split <;> rfl

theorem skipExponent_of_exponentPart (h : exponentPart negative m e s = .ok (n, rest)) :
    skipExponent s = .ok rest := by
  revert h
  fun_cases exponentPart negative m e s with
  | case4 b t ht ds r hdigits hds e' hlarge hzero hsign =>
    intro h
    have hs : unsigned s = t := (unsigned_eq s).trans (congrArg Prod.snd hsign)
    obtain ⟨c, cs, rfl⟩ := List.exists_cons_of_ne_nil (mt List.isEmpty_iff.mpr hds)
    rw [skipExponent, hs, hdigits]
    cases h
    rfl
  | case5 b t ht ds r hdigits hds e' hsmall hsign =>
    intro h
    have hs : unsigned s = t := (unsigned_eq s).trans (congrArg Prod.snd hsign)
    obtain ⟨c, cs, rfl⟩ := List.exists_cons_of_ne_nil (mt List.isEmpty_iff.mpr hds)
    obtain ⟨x, -, ⟨⟩⟩ := Except.map_eq_ok_iff.mp h
    rw [skipExponent, hs, hdigits]
  | _ => exact nofun

theorem skipExponentOrEnd_of_exponentOrEnd (h : exponentOrEnd negative m e s = .ok (n, rest)) :
    skipExponentOrEnd s = .ok rest := by
  revert h
  fun_cases exponentOrEnd negative m e s with
  | case1 s => exact skipExponent_of_exponentPart
  | case2 s => exact skipExponent_of_exponentPart
  | case3 s he hE =>
    intro h
    obtain ⟨x, -, ⟨⟩⟩ := Except.map_eq_ok_iff.mp h
    unfold skipExponentOrEnd
    split
    · exact absurd rfl (he _)
    · exact absurd rfl (hE _)
    · rfl

theorem skipFraction_of_fractionPart (h : fractionPart negative m before s = .ok (n, rest)) :
    skipFraction (some '.' :: s) = .ok rest := by
  revert h
  fun_cases fractionPart negative m before s with
  | case1 => exact nofun
  | case2 ds r hdigits hds k left htake =>
    intro h
    obtain ⟨d, ds, rfl⟩ := List.exists_cons_of_ne_nil (mt List.isEmpty_iff.mpr hds)
    rw [skipFraction, hdigits]
    exact skipExponentOrEnd_of_exponentOrEnd h

theorem skipNumber_of_number (h : number negative s = .ok (n, rest)) :
    skipNumber s = .ok rest := by
  have hskip {ds : List Char} {r : Received} (hdigits : digits s = (ds, r)) (hds : ds = [] → False)
      (hzero : ∀ d ds', ds = '0' :: d :: ds' → False) : skipNumber s = skipFraction r := by
    obtain ⟨c, cs, rfl⟩ := List.exists_cons_of_ne_nil hds
    exact skipNumber_eq hdigits hzero
  revert h
  fun_cases number negative s with
  | case1 => exact nofun
  | case2 => exact nofun
  | case3 => exact nofun
  | case4 _ hs ds hds hzero k left htake r hdigits =>
    intro h
    rw [hskip hdigits hds hzero]
    exact skipFraction_of_fractionPart h
  | case5 _ hs ds hds hzero k left htake r hdigits =>
    intro h
    rw [hskip hdigits hds hzero]
    exact skipExponent_of_exponentPart h
  | case6 _ hs ds hds hzero k left htake r hdigits =>
    intro h
    rw [hskip hdigits hds hzero]
    exact skipExponent_of_exponentPart h
  | case7 _ hs ds hds hzero k left htake r hpoint he hE hleft hdigits =>
    intro h
    obtain ⟨x, -, ⟨⟩⟩ := Except.map_eq_ok_iff.mp h
    rw [hskip hdigits hds hzero]
    exact skipFraction_end hpoint he hE
  | case8 _ hs ds hds hzero k left htake r hpoint he hE hleft hneg hdigits =>
    rintro ⟨⟩
    rw [hskip hdigits hds hzero]
    exact skipFraction_end hpoint he hE
  | case9 _ hs ds hds hzero k left htake r hpoint he hE hleft hneg hk hdigits =>
    rintro ⟨⟩
    rw [hskip hdigits hds hzero]
    exact skipFraction_end hpoint he hE
  | case10 _ hs ds hds hzero k left htake r hpoint he hE hleft hneg hk hdigits =>
    rintro ⟨⟩
    rw [hskip hdigits hds hzero]
    exact skipFraction_end hpoint he hE

theorem fits_of_scaled (h : scaled negative m e = .ok n) : n.Fits := by
  obtain ⟨x, -, rfl⟩ := Except.map_eq_ok_iff.mp h
  trivial

theorem fits_of_exponentPart (h : exponentPart negative m e s = .ok (n, rest)) : n.Fits := by
  revert h
  fun_cases exponentPart negative m e s with
  | case4 =>
    rintro ⟨⟩
    trivial
  | case5 =>
    intro h
    obtain ⟨x, hx, ⟨⟩⟩ := Except.map_eq_ok_iff.mp h
    exact fits_of_scaled hx
  | _ => exact nofun

theorem fits_of_exponentOrEnd (h : exponentOrEnd negative m e s = .ok (n, rest)) : n.Fits := by
  revert h
  fun_cases exponentOrEnd negative m e s with
  | case1 s => exact fits_of_exponentPart
  | case2 s => exact fits_of_exponentPart
  | case3 s he hE =>
    intro h
    obtain ⟨x, hx, ⟨⟩⟩ := Except.map_eq_ok_iff.mp h
    exact fits_of_scaled hx

theorem fits_of_fractionPart (h : fractionPart negative m before s = .ok (n, rest)) : n.Fits := by
  revert h
  fun_cases fractionPart negative m before s with
  | case1 => exact nofun
  | case2 => exact fits_of_exponentOrEnd

theorem takeSignificant_lt {k : Nat} (hk : k < twoPow 64) (ds : List Char) :
    (takeSignificant k ds).1 < twoPow 64 := by
  induction ds generalizing k with
  | nil => exact hk
  | cons c ds ih =>
    rw [takeSignificant]
    split
    · rename_i h
      exact ih h
    · exact hk

theorem fits_of_number (h : number negative s = .ok (n, rest)) : n.Fits := by
  have hlt {ds : List Char} {k left : Nat} (htake : takeSignificant 0 ds = (k, left)) :
      k < twoPow 64 := by
    have hds := takeSignificant_lt (k := 0) (by decide) ds
    rwa [htake] at hds
  revert h
  fun_cases number negative s with
  | case1 => exact nofun
  | case2 => exact nofun
  | case3 => exact nofun
  | case4 => exact fits_of_fractionPart
  | case5 => exact fits_of_exponentPart
  | case6 => exact fits_of_exponentPart
  | case7 =>
    intro h
    obtain ⟨x, hx, ⟨⟩⟩ := Except.map_eq_ok_iff.mp h
    exact fits_of_scaled hx
  | case8 _ hs ds hds hzero k left htake r hpoint he hE hleft hneg hdigits =>
    rintro ⟨⟩
    have hlarge : twoPow 64 = 18446744073709551616 := rfl
    have hk := hlt htake
    simp only [Number.Fits, Width.unsigned, hlarge, Bool.and_eq_true, decide_eq_true_eq] at hk ⊢
    omega
  | case9 _ hs ds hds hzero k left htake r hpoint he hE hleft hneg hk hdigits =>
    rintro ⟨⟩
    have hlarge : twoPow 63 = 9223372036854775808 := rfl
    obtain ⟨-, hk⟩ := hk
    simp only [Number.Fits, Width.signed, hlarge, Bool.and_eq_true, decide_eq_true_eq] at hk ⊢
    omega
  | case10 =>
    rintro ⟨⟩
    trivial

theorem skipString_of_stringBody {damaged : Bool} {s rest : Received} {cs : List Char}
    (h : stringBody damaged s = .ok (cs, rest)) : skipString s = .ok rest := by
  fun_induction stringBody damaged s generalizing cs rest with
  | case2 damaged s ih => exact ih h
  | case6 damaged a b c d s n hhex hlow hhigh ih =>
    obtain ⟨r, hr, ⟨⟩⟩ := Except.map_eq_ok_iff.mp h
    simpa [skipString, hhex] using ih hr
  | case11 damaged a b c d n hhex hlow hhigh a' b' c' d' s m hhex' hlow' code =>
    rename_i ih
    obtain ⟨r, hr, ⟨⟩⟩ := Except.map_eq_ok_iff.mp h
    simpa [skipString, hhex, hhex'] using ih hr
  | case15 damaged c s hu hne e he ih =>
    obtain ⟨r, hr, ⟨⟩⟩ := Except.map_eq_ok_iff.mp h
    simpa [skipString, he] using ih hr
  | case19 damaged s hd =>
    cases h
    rfl
  | case21 damaged c s hslash hquote hcontrol ih =>
    obtain ⟨r, hr, ⟨⟩⟩ := Except.map_eq_ok_iff.mp h
    simpa [skipString, hslash, hquote, hcontrol] using ih hr
  | _ => cases h

theorem length_skipSpace_le (s : Received) : (skipSpace s).length ≤ s.length :=
  (List.dropWhile_sublist _).length_le

theorem length_word {w : List Char} (h : word w s = .ok rest) : rest.length ≤ s.length := by
  induction w generalizing s with
  | nil =>
    cases h
    exact Nat.le_refl _
  | cons c w ih =>
    cases s with
    | nil => cases h
    | cons u s =>
      rw [word] at h
      split at h
      · exact Nat.le_succ_of_le (ih h)
      · cases h

theorem length_skipString (h : skipString s = .ok rest) : rest.length < s.length := by
  fun_induction skipString s with
  | case2 s ih => exact Nat.lt_succ_of_lt (ih h)
  | case5 a b c d s hhex ih =>
    have hs := ih h
    simp only [List.length_cons]
    omega
  | case8 c s hu hne he ih =>
    have hs := ih h
    simp only [List.length_cons]
    omega
  | case10 s =>
    cases h
    exact Nat.lt_succ_self _
  | case12 c s hslash hquote hcontrol ih => exact Nat.lt_succ_of_lt (ih h)
  | _ => cases h

theorem length_digits (s : Received) : (digits s).2.length + (digits s).1.length = s.length := by
  fun_induction digits s with
  | case1 c s hc ih =>
    simp only [Prod.map_snd, Prod.map_fst, List.length_cons, id_eq]
    omega
  | case2 c s hc => rfl
  | case3 s hs => rfl

theorem length_unsigned_le (s : Received) : (unsigned s).length ≤ s.length := by
  unfold unsigned
  split
  · exact Nat.le_succ _
  · exact Nat.le_succ _
  · exact Nat.le_refl _

theorem length_skipExponent (h : skipExponent s = .ok rest) : rest.length ≤ s.length := by
  have hdigits := length_digits (unsigned s)
  have hunsigned := length_unsigned_le s
  rw [skipExponent] at h
  split at h
  · cases h
  · rename_i heq
    rw [heq] at hdigits
    cases h
    simp only at hdigits
    omega

theorem length_skipExponentOrEnd (h : skipExponentOrEnd s = .ok rest) :
    rest.length ≤ s.length := by
  unfold skipExponentOrEnd at h
  split at h
  · exact Nat.le_succ_of_le (length_skipExponent h)
  · exact Nat.le_succ_of_le (length_skipExponent h)
  · cases h
    exact Nat.le_refl _

theorem length_skipFraction (h : skipFraction s = .ok rest) : rest.length ≤ s.length := by
  unfold skipFraction at h
  split at h
  case h_1 s =>
    have hdigits := length_digits s
    split at h
    · cases h
    · rename_i heq
      have hrest := length_skipExponentOrEnd h
      rw [heq] at hdigits
      simp only [List.length_cons] at hdigits ⊢
      omega
  · exact length_skipExponentOrEnd h

theorem length_skipNumber (h : skipNumber s = .ok rest) : rest.length < s.length := by
  cases hdigits : digits s with
  | mk ds r =>
    have hlength := length_digits s
    rw [hdigits] at hlength
    cases ds with
    | nil =>
      unfold skipNumber at h
      rw [hdigits] at h
      cases h
    | cons c cs =>
      by_cases hzero : ∃ d ds, c :: cs = '0' :: d :: ds
      · obtain ⟨d, ds, hds⟩ := hzero
        unfold skipNumber at h
        rw [hdigits, hds] at h
        cases h
      · rw [skipNumber_eq hdigits fun d ds hds ↦ hzero ⟨d, ds, hds⟩] at h
        have hrest := length_skipFraction h
        simp only [List.length_cons] at hlength
        omega

theorem length_colon (h : colon s = .ok rest) : rest.length < s.length := by
  have hs := length_skipSpace_le s
  unfold colon at h
  split at h
  · cases h
  · rename_i heq
    rw [heq] at hs
    cases h
    exact hs
  · cases h

theorem length_nextItem {first more : Bool} (h : nextItem first s = .ok (more, rest)) :
    rest.length ≤ s.length ∧ (more = false → rest.length < s.length) := by
  have hs := length_skipSpace_le s
  unfold nextItem at h
  split at h
  · cases h
  · rename_i heq
    rw [heq] at hs
    cases h
    exact ⟨Nat.le_of_lt hs, fun _ ↦ hs⟩
  · rename_i t heq
    rw [heq] at hs
    have ht := length_skipSpace_le t
    simp only [List.length_cons] at hs
    split at h
    · cases h
      exact ⟨hs, nofun⟩
    · split at h
      · cases h
      · cases h
      · cases h
        exact ⟨by omega, nofun⟩
  · split at h
    · cases h
      exact ⟨hs, nofun⟩
    · cases h

theorem length_nextKey {first more : Bool} (h : nextKey first s = .ok (more, rest)) :
    rest.length < s.length := by
  have hs := length_skipSpace_le s
  unfold nextKey at h
  split at h
  · cases h
  · rename_i heq
    rw [heq] at hs
    cases h
    exact hs
  · rename_i t heq
    rw [heq] at hs
    have ht := length_skipSpace_le t
    simp only [List.length_cons] at hs
    split at h
    · cases h
    · split at h
      · cases h
      · rename_i heq'
        rw [heq'] at ht
        cases h
        simp only [List.length_cons] at ht
        omega
      · cases h
      · cases h
  · rename_i heq
    rw [heq] at hs
    split at h
    · cases h
      exact hs
    · cases h
  · cases h
end DeliveryCharts.Json.Reader
