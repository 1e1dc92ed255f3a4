import DeliveryCharts.Yaml.Document

/-!
What is read within a line. It does not change with what stands behind the line.
-/

namespace DeliveryCharts.Yaml

/-- Both fail in the same way, or the results are related. -/
inductive Agree {α β : Type} (R : α → β → Prop) : Except Fault α → Except Fault β → Prop
  | ok {a : α} {b : β} (h : R a b) : Agree R (.ok a) (.ok b)
  | error (e : Fault) : Agree R (.error e) (.error e)

namespace Agree

variable {α β γ δ : Type} {R : α → β → Prop} {S : γ → δ → Prop} {x : Except Fault α}
  {y : Except Fault β}

theorem bind {f : α → Except Fault γ} {g : β → Except Fault δ} (h : Agree R x y)
    (hf : ∀ a b, R a b → Agree S (f a) (g b)) : Agree S (x >>= f) (y >>= g) := by
  cases h with
  | ok h => exact hf _ _ h
  | error e => exact .error e

theorem map {f : α → γ} {g : β → δ} (h : Agree R x y) (hf : ∀ a b, R a b → S (f a) (g b)) :
    Agree S (x.map f) (y.map g) := by
  cases h with
  | ok h => exact .ok (hf _ _ h)
  | error e => exact .error e

theorem andThen {f : α → Except Fault γ} {g : α → Except Fault δ}
    (hf : ∀ a, x = .ok a → Agree S (f a) (g a)) : Agree S (x >>= f) (x >>= g) := by
  cases x with
  | ok a => exact hf a rfl
  | error e => exact .error e

theorem ite {x' : Except Fault α} {y' : Except Fault β} {p q : Prop} [Decidable p] [Decidable q]
    (hpq : q ↔ p) (ht : p → Agree R x y) (hf : ¬ p → Agree R x' y') :
    Agree R (if p then x else x') (if q then y else y') := by
  by_cases hp : p
  · rw [if_pos hp, if_pos (hpq.mpr hp)]
    exact ht hp
  · rw [if_neg hp, if_neg fun hq ↦ hp (hpq.mp hq)]
    exact hf hp

theorem mono {R' : α → β → Prop} (h : Agree R x y) (hR : ∀ a b, R a b → R' a b) : Agree R' x y := by
  cases h with
  | ok h => exact .ok (hR _ _ h)
  | error e => exact .error e

end Agree

variable {x t r : List Char} {p : Char → Bool}

/-- Where `t` is behind `x`, it is on a line of its own, or it is nothing. -/
def Ended (x t : List Char) : Prop := t = [] ∨ '\n' ∈ x

/-- `r` is what remains of `x` further along in the same line. -/
def Along (x r : List Char) : Prop := ∃ w, x = w ++ r ∧ ∀ ch ∈ w, isBreak ch = false

namespace Along

theorem refl (x : List Char) : Along x x := ⟨[], rfl, by simp⟩

theorem cons {ch : Char} (h : isBreak ch = false) (hr : Along x r) : Along (ch :: x) r := by
  obtain ⟨w, rfl, hw⟩ := hr
  exact ⟨ch :: w, rfl, List.forall_mem_cons.mpr ⟨h, hw⟩⟩

theorem trans {s : List Char} (h : Along x r) (h' : Along r s) : Along x s := by
  obtain ⟨w, rfl, hw⟩ := h
  obtain ⟨v, rfl, hv⟩ := h'
  exact ⟨w ++ v, by simp, by simpa [or_imp, forall_and] using ⟨hw, hv⟩⟩

theorem suffix (h : Along x r) : r <:+ x := by
  obtain ⟨w, rfl, -⟩ := h
  exact List.suffix_append w r

theorem drop_eq (h : Along x r) : x.drop (x.length - r.length) = r := by
  obtain ⟨w, rfl, -⟩ := h
  simp

theorem ended (h : Along x r) (ht : Ended x t) : Ended r t := by
  obtain ⟨w, rfl, hw⟩ := h
  refine ht.imp_right fun hmem ↦ (List.mem_append.mp hmem).resolve_left fun hw' ↦ ?_
  exact absurd (hw _ hw') (by decide)

theorem dropWhile (hp : ∀ ch, p ch = true → isBreak ch = false) : Along x (x.dropWhile p) :=
  ⟨x.takeWhile p, List.takeWhile_append_dropWhile.symm, fun ch h ↦
    hp ch (List.all_eq_true.mp List.all_takeWhile ch h)⟩

end Along

theorem drop_takeWhile (x : List Char) : x.drop (x.takeWhile p).length = x.dropWhile p := by
  have hx : x.takeWhile p ++ x.dropWhile p = x := List.takeWhile_append_dropWhile
  exact (congrArg (List.drop (x.takeWhile p).length) hx).symm.trans List.drop_left

namespace Ended

theorem of_cons {ch : Char} (h : Ended (ch :: x) t) (hch : isBreak ch = false) : Ended x t :=
  (Along.cons hch (.refl x)).ended h

end Ended

theorem takeWhile_append (h : Ended x t) (hp : p '\n' = false) :
    (x ++ t).takeWhile p = x.takeWhile p := by
  rcases h with rfl | h
  · rw [List.append_nil]
  · rw [List.takeWhile_append, if_neg]
    intro hlength
    have hall := (List.takeWhile_prefix p (l := x)).eq_of_length hlength
    have := List.all_eq_true.mp (hall ▸ List.all_takeWhile : x.all p = true) _ h
    simp [hp] at this

theorem dropWhile_append (h : Ended x t) (hp : p '\n' = false) :
    (x ++ t).dropWhile p = x.dropWhile p ++ t := by
  have hx : x.takeWhile p ++ x.dropWhile p = x := List.takeWhile_append_dropWhile
  have hxt : (x ++ t).takeWhile p ++ (x ++ t).dropWhile p = x ++ t :=
    List.takeWhile_append_dropWhile
  rw [takeWhile_append h hp] at hxt
  have heq : x.takeWhile p ++ (x ++ t).dropWhile p = x.takeWhile p ++ (x.dropWhile p ++ t) := by
    rw [hxt, ← List.append_assoc, hx]
  exact List.append_cancel_left heq

/-- Where the rest of a line ends, there is a break or the end of the text. -/
theorem startsBreak_dropWhile (h : x.dropWhile (fun ch ↦ !isBreak ch) ≠ []) :
    startsBreak (x.dropWhile fun ch ↦ !isBreak ch) = true := by
  have hhead := List.head_dropWhile_not (fun ch ↦ !isBreak ch) h
  obtain ⟨ch, r, hr⟩ := List.exists_cons_of_ne_nil h
  simp only [hr, List.head_cons] at hhead
  rw [hr]
  simpa [startsBreak] using hhead

theorem head?_append (h : Ended x t) : (x ++ t).head? = x.head? := by
  cases x with
  | nil => simp [h.resolve_right List.not_mem_nil]
  | cons ch x => rfl

theorem endsWord_append (h : Ended x t) : endsWord (x ++ t) = endsWord x := by
  cases x with
  | nil => simp [h.resolve_right List.not_mem_nil]
  | cons ch x => rfl

theorem startsBreak_append (h : Ended x t) : startsBreak (x ++ t) = startsBreak x := by
  cases x with
  | nil => simp [h.resolve_right List.not_mem_nil]
  | cons ch x => rfl

theorem isMarker_cons (a b c : Char) (r : List Char) :
    isMarker (a :: b :: c :: r) =
      ((a == '-' && b == '-' && c == '-' || a == '.' && b == '.' && c == '.') && endsWord r) := by
  unfold isMarker
  split
  · simp_all
  · simp_all
  · by_cases ha : a = '-' <;> by_cases hb : b = '-' <;> by_cases hc : c = '-' <;>
      by_cases ha' : a = '.' <;> by_cases hb' : b = '.' <;> by_cases hc' : c = '.' <;> simp_all

theorem isMarker_feed (t : List Char) : isMarker ('\n' :: t) = false := by
  unfold isMarker
  split <;> simp_all

theorem isMarker_cons_feed (a : Char) (t : List Char) : isMarker (a :: '\n' :: t) = false := by
  unfold isMarker
  split <;> simp_all

theorem isMarker_append (h : Ended x t) : isMarker (x ++ t) = isMarker x := by
  rcases h with rfl | h
  · rw [List.append_nil]
  · match x, h with
    | [a], h =>
      obtain rfl := List.mem_singleton.mp h
      exact (isMarker_feed t).trans (isMarker_feed []).symm
    | [a, b], h =>
      simp only [List.mem_cons, List.not_mem_nil, or_false] at h
      rcases h with rfl | rfl
      · exact (isMarker_feed (b :: t)).trans (isMarker_feed [b]).symm
      · exact (isMarker_cons_feed a t).trans (isMarker_cons_feed a []).symm
    | a :: b :: c :: r, h =>
      simp only [List.cons_append, isMarker_cons]
      by_cases hr : '\n' ∈ r
      · rw [endsWord_append (.inr hr)]
      · have habc : '\n' = a ∨ '\n' = b ∨ '\n' = c := by simpa [hr] using h
        rcases habc with rfl | rfl | rfl <;> simp

theorem isBreak_of_not_isGap {ch : Char} (h : isGap ch = false) : isBreak ch = false := by
  simp only [isGap, Bool.or_eq_false_iff] at h
  exact h.2

theorem isBreak_of_isSpaceOrTab {ch : Char} (h : isSpaceOrTab ch = true) : isBreak ch = false := by
  simp only [isSpaceOrTab, Bool.or_eq_true, beq_iff_eq] at h
  rcases h with rfl | rfl <;> rfl

theorem startsPlain_append {inFlow : Bool} (h : Ended x t) :
    startsPlain inFlow (x ++ t) = startsPlain inFlow x := by
  cases x with
  | nil => simp [h.resolve_right List.not_mem_nil]
  | cons ch r =>
    by_cases hch : isGap ch = true
    · simp [startsPlain, hch]
    · have hr := h.of_cons (isBreak_of_not_isGap (Bool.eq_false_iff.mpr hch))
      simp only [List.cons_append, startsPlain, endsWord_append hr]

theorem plainWord_append {inFlow : Bool} (h : Ended x t) :
    plainWord inFlow (x ++ t) = plainWord inFlow x := by
  induction x with
  | nil => simp [h.resolve_right List.not_mem_nil]
  | cons ch r ih =>
    by_cases hch : isGap ch = true
    · simp [plainWord, hch]
    · have hr := h.of_cons (isBreak_of_not_isGap (Bool.eq_false_iff.mpr hch))
      simp only [List.cons_append, plainWord, head?_append hr, endsWord_append hr, ih hr]

/-- The characters of a word are no gaps. -/
theorem plainWord_spec {inFlow : Bool} {w : List Char} (h : plainWord inFlow x = .ok w) :
    ∃ r, x = w ++ r ∧ ∀ ch ∈ w, isGap ch = false := by
  induction x generalizing w with
  | nil =>
    cases h
    exact ⟨[], rfl, by simp⟩
  | cons ch x ih =>
    have hnil : ∃ r, ch :: x = [] ++ r ∧ ∀ ch ∈ ([] : List Char), isGap ch = false :=
      ⟨_, rfl, by simp⟩
    rw [plainWord] at h
    split at h
    · cases h
      exact hnil
    · rename_i hch
      split at h
      · cases h
      · split at h
        · cases h
          exact hnil
        · split at h
          · cases h
            exact hnil
          · cases hx : plainWord inFlow x with
            | error e => simp [hx, Except.map] at h
            | ok v =>
              obtain ⟨r, rfl, hv⟩ := ih hx
              simp only [hx, Except.map, Except.ok.injEq] at h
              subst h
              exact ⟨r, rfl, List.forall_mem_cons.mpr ⟨Bool.eq_false_iff.mpr hch, hv⟩⟩

theorem readDigits?_of_mem {radix acc : Nat} {ch : Char} (h : ch ∈ x)
    (hch : Text.digit? radix ch = none) : Text.readDigits? radix acc x = none := by
  induction x generalizing acc with
  | nil => simp at h
  | cons c x ih =>
    rcases List.mem_cons.mp h with rfl | h
    · simp [Text.readDigits?, hch]
    · cases hc : Text.digit? radix c with
      | none => simp [Text.readDigits?, hc]
      | some d => simp [Text.readDigits?, hc, ih h]

theorem readUnsigned?_of_mem {radix : Nat} {ch : Char} (h : ch ∈ x)
    (hch : Text.digit? radix ch = none) : Text.readUnsigned? radix x = none := by
  rw [Text.readUnsigned?, readDigits?_of_mem h hch, ite_self]

/-- A break is no digit. -/
theorem digit?_of_isBreak {ch : Char} (h : isBreak ch = true) : Text.digit? 16 ch = none := by
  simp only [isBreak, Bool.or_eq_true, beq_iff_eq] at h
  rcases h with (((rfl | rfl) | rfl) | rfl) | rfl <;> decide

theorem isBreak_of_readUnsigned? {n : Nat} (h : Text.readUnsigned? 16 x = some n) :
    ∀ ch ∈ x, isBreak ch = false := fun ch hch ↦
  Bool.eq_false_iff.mpr fun hbreak ↦ by
    simp [readUnsigned?_of_mem hch (digit?_of_isBreak hbreak)] at h

/-- Digits that run over the end of the line are no number. -/
theorem readUnsigned?_take_over {n : Nat} (h : Ended x t) (hn : x.length < n) :
    (x ++ t).length < n ∨ Text.readUnsigned? 16 ((x ++ t).take n) = none := by
  rcases h with rfl | hmem
  · exact .inl (by rwa [List.append_nil])
  · have hmem' : '\n' ∈ (x ++ t).take n := by
      rw [List.take_append, List.take_of_length_le (Nat.le_of_lt hn)]
      exact List.mem_append_left _ hmem
    exact .inr (readUnsigned?_of_mem hmem' (by decide))

theorem along_drop_of_readUnsigned? {k n : Nat}
    (h : Text.readUnsigned? 16 (x.take k) = some n) : Along x (x.drop k) :=
  ⟨x.take k, (List.take_append_drop k x).symm, isBreak_of_readUnsigned? h⟩

theorem quotedRun_append {double : Bool} {fuel fuel' : Nat} (h : Ended x t) (hf : x.length < fuel)
    (hf' : (x ++ t).length < fuel') :
    quotedRun double fuel' (x ++ t) = quotedRun double fuel x := by
  induction fuel generalizing x fuel' with
  | zero => simp at hf
  | succ fuel ih =>
    obtain ⟨k, rfl⟩ : ∃ k, fuel' = k + 1 := ⟨fuel' - 1, by omega⟩
    cases x with
    | nil => simp [h.resolve_right List.not_mem_nil, quotedRun]
    | cons ch r =>
      simp only [List.length_cons, List.length_append] at hf hf'
      simp only [List.cons_append, quotedRun]
      by_cases hch : isGap ch = true
      · simp [hch]
      · have hr := h.of_cons (isBreak_of_not_isGap (Bool.eq_false_iff.mpr hch))
        simp only [hch, Bool.false_eq_true, if_false]
        refine ite_congr rfl (fun _ ↦ ?_) fun _ ↦ ite_congr rfl (fun _ ↦ rfl) fun _ ↦
          ite_congr rfl (fun _ ↦ ?_) fun _ ↦ ?_
        · cases r with
          | nil => simp [hr.resolve_right List.not_mem_nil]
          | cons d r =>
            by_cases hd : d = '\''
            · subst hd
              simp only [List.cons_append]
              rw [ih (hr.of_cons (by decide)) (by simp at hf; omega) (by simp at hf' ⊢; omega)]
            · simp [hd]
        · cases r with
          | nil => simp [hr.resolve_right List.not_mem_nil]
          | cons d r =>
            simp only [List.cons_append]
            refine ite_congr rfl (fun _ ↦ rfl) fun hd ↦ ?_
            have hr' := hr.of_cons (Bool.eq_false_iff.mpr hd)
            simp only [List.length_cons] at hf hf'
            cases escape? d with
            | some e =>
              simp only
              rw [ih hr' (by omega) (by simp; omega)]
            | none =>
              cases escapeDigits? d with
              | none => rfl
              | some n =>
                dsimp only
                by_cases hn : r.length < n
                · rw [if_pos hn]
                  rcases readUnsigned?_take_over hr' hn with hlt | hnone
                  · rw [if_pos hlt]
                  · rw [hnone]
                    exact ite_self _
                · have hle : n ≤ r.length := Nat.le_of_not_lt hn
                  have hnot : ¬ (r ++ t).length < n := by simp; omega
                  rw [if_neg hn, if_neg hnot, List.take_append_of_le_length hle,
                    List.drop_append_of_le_length hle]
                  cases hu : Text.readUnsigned? 16 (r.take n) with
                  | none => rfl
                  | some m =>
                    have hended := (along_drop_of_readUnsigned? hu).ended hr'
                    rw [ih hended (by simp; omega) (by simp; omega)]
        · rw [ih hr (by omega) (by simp; omega)]

/-- What stands where a run in quotes comes to its end. -/
def RunEnd.At : RunEnd → List Char → Prop
  | .quote, r => ∃ ch s, r = ch :: s ∧ isBreak ch = false
  | .gap, r => r = [] ∨ ∃ ch s, r = ch :: s ∧ isGap ch = true
  | .escapedBreak, r => startsBreak r = true

/-- The run is over `n` characters of the line. -/
structure RunOver (ending : RunEnd) (n : Nat) (x : List Char) : Prop where
  along : Along x (x.drop n)
  length_le : n ≤ x.length
  ends : ending.At (x.drop n)

theorem RunOver.cons {ending : RunEnd} {n k : Nat} {w : List Char} (h : RunOver ending n r)
    (hw : ∀ ch ∈ w, isBreak ch = false) (hk : k = w.length) :
    RunOver ending (n + k) (w ++ r) := by
  subst hk
  have hdrop : (w ++ r).drop (n + w.length) = r.drop n := by
    rw [Nat.add_comm, List.drop_append]
    simp
  have hle := h.length_le
  refine ⟨?_, by simp; omega, hdrop ▸ h.ends⟩
  rw [hdrop]
  exact .trans ⟨w, rfl, hw⟩ h.along

/-- `k` characters are passed, and the run goes on behind them. -/
theorem RunOver.of_map {ending : RunEnd} {n k : Nat} {w text : List Char}
    {m : Except Fault (List Char × RunEnd × Nat)} {f : List Char × RunEnd × Nat → List Char}
    (h : m.map (fun p ↦ (f p, p.2.1, p.2.2 + k)) = .ok (text, ending, n))
    (hm : ∀ {text n}, m = .ok (text, ending, n) → RunOver ending n r)
    (hw : ∀ ch ∈ w, isBreak ch = false) (hk : k = w.length) : RunOver ending n (w ++ r) := by
  cases m with
  | error e => cases h
  | ok p =>
    simp only [Except.map, Except.ok.injEq, Prod.mk.injEq] at h
    obtain ⟨-, rfl, rfl⟩ := h
    exact (hm rfl).cons hw hk

theorem runOver_of_quotedRun {double : Bool} {fuel n : Nat} {text : List Char} {ending : RunEnd}
    (h : quotedRun double fuel x = .ok (text, ending, n)) : RunOver ending n x := by
  induction fuel generalizing x text n with
  | zero => cases h
  | succ fuel ih =>
    cases x with
    | nil =>
      cases h
      exact ⟨.refl _, Nat.zero_le _, .inl rfl⟩
    | cons ch r =>
      simp only [quotedRun] at h
      split at h
      · rename_i hch
        cases h
        exact ⟨.refl _, Nat.zero_le _, .inr ⟨ch, r, rfl, hch⟩⟩
      · rename_i hch
        have hch := isBreak_of_not_isGap (Bool.eq_false_iff.mpr hch)
        split at h
        · rename_i hq
          split at h
          · exact RunOver.of_map (w := [ch, '\'']) h ih (by simp [hch]; decide) rfl
          · cases h
            exact ⟨.refl _, Nat.zero_le _, _, _, rfl, hch⟩
        · split at h
          · cases h
            exact ⟨.refl _, Nat.zero_le _, _, _, rfl, hch⟩
          · split at h
            · split at h
              · cases h
              · rename_i d r
                split at h
                · rename_i hd
                  cases h
                  exact ⟨.cons hch (.refl _), by simp, by simpa [RunEnd.At, startsBreak] using hd⟩
                · rename_i hd
                  have hd := Bool.eq_false_iff.mpr hd
                  split at h
                  · exact RunOver.of_map (w := [ch, d]) h ih (by simp [hch, hd]) rfl
                  · rename_i k _ _
                    split at h
                    · cases h
                    · rename_i hn
                      split at h
                      · rename_i he
                        obtain ⟨m, hm, -⟩ := Option.bind_eq_some_iff.mp he
                        have hdigits := isBreak_of_readUnsigned? hm
                        rw [← List.take_append_drop k r]
                        simp only [Nat.add_assoc] at h
                        refine RunOver.of_map (w := ch :: d :: r.take k) h ih ?_ ?_
                        · simpa [hch, hd] using hdigits
                        · simp
                          omega
                      · cases h
                  · cases h
            · exact RunOver.of_map (w := [ch]) h ih (by simp [hch]) rfl

theorem isBreak_of_isDigit {ch : Char} (h : Text.isDigit ch = true) : isBreak ch = false :=
  Bool.eq_false_iff.mpr fun hbreak ↦ by
    simp only [isBreak, Bool.or_eq_true, beq_iff_eq] at hbreak
    rcases hbreak with (((rfl | rfl) | rfl) | rfl) | rfl <;>
      simp [Text.isDigit] at h

theorem blockHeader_append (h : Ended x t) : blockHeader (x ++ t) = blockHeader x := by
  cases x with
  | nil => simp [h.resolve_right List.not_mem_nil]
  | cons ch r =>
    by_cases hch : isBreak ch = true
    · simp only [isBreak, Bool.or_eq_true, beq_iff_eq] at hch
      rcases hch with (((rfl | rfl) | rfl) | rfl) | rfl <;> rfl
    · simp only [List.cons_append, blockHeader,
      head?_append (h.of_cons (Bool.eq_false_iff.mpr hch))]

theorem isBreak_of_chomp {ch : Char} {k : Chomp} (h : (if ch == '+' then some Chomp.keep
    else if ch == '-' then some Chomp.strip else none) = some k) : isBreak ch = false := by
  split at h
  · rename_i hplus
    rw [eq_of_beq hplus]
    decide
  · split at h
    · rename_i hminus
      rw [eq_of_beq hminus]
      decide
    · cases h

theorem isBreak_of_given {ch : Char} {d : Nat} (h : (if Text.isDigit ch = true then
    some (ch.toNat - 48) else none) = some d) : isBreak ch = false := by
  split at h
  · exact isBreak_of_isDigit ‹_›
  · cases h

theorem Along.drop_one {ch : Char} (hch : isBreak ch = false) :
    Along (ch :: r) ((ch :: r).drop 1) ∧ 1 ≤ (ch :: r).length :=
  ⟨.cons hch (.refl r), by simp⟩

theorem Along.drop_two {ch : Char} {α : Type} {f : Char → Option α} {a : α}
    (hf : ∀ {ch a}, f ch = some a → isBreak ch = false) (hch : isBreak ch = false)
    (h : r.head?.bind f = some a) :
    Along (ch :: r) ((ch :: r).drop 2) ∧ 2 ≤ (ch :: r).length := by
  cases r with
  | nil => cases h
  | cons d r => exact ⟨.cons hch (.cons (hf h) (.refl r)), by simp⟩

/-- The signs of a header stand in one line, in either order, and the given indentation is not 0. -/
theorem blockHeader_spec {k : Chomp} {given : Option Nat} {n : Nat}
    (h : blockHeader x = .ok (k, given, n)) :
    Along x (x.drop n) ∧ n ≤ x.length ∧ given ≠ some 0 := by
  unfold blockHeader at h
  extract_lets chomp? digit? valid at h
  have hvalid {q q' : Chomp × Option Nat × Nat} (h : valid q = .ok q') :
      q' = q ∧ q.2.1 ≠ some 0 := by
    simp only [valid] at h
    split at h
    · cases h
    · cases h
      exact ⟨rfl, ‹_›⟩
  split at h
  · cases h
    exact ⟨.refl _, Nat.zero_le _, by simp⟩
  · rename_i ch r
    split at h
    · rename_i k' hk
      split at h
      · rename_i d hd
        obtain ⟨hq, hne⟩ := hvalid h
        cases hq
        obtain ⟨halong, hle⟩ := Along.drop_two isBreak_of_given (isBreak_of_chomp hk) hd
        exact ⟨halong, hle, hne⟩
      · cases h
        obtain ⟨halong, hle⟩ := Along.drop_one (r := r) (isBreak_of_chomp hk)
        exact ⟨halong, hle, by simp⟩
    · rename_i d hk hd
      split at h
      · rename_i k' hk'
        obtain ⟨hq, hne⟩ := hvalid h
        cases hq
        obtain ⟨halong, hle⟩ := Along.drop_two isBreak_of_chomp (isBreak_of_given hd) hk'
        exact ⟨halong, hle, hne⟩
      · obtain ⟨hq, hne⟩ := hvalid h
        cases hq
        obtain ⟨halong, hle⟩ := Along.drop_one (r := r) (isBreak_of_given hd)
        exact ⟨halong, hle, hne⟩
    · cases h
      exact ⟨.refl _, Nat.zero_le _, by simp⟩

end DeliveryCharts.Yaml
