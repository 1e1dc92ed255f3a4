import DeliveryCharts.Text.Utf8

/-!
A text that is written as bytes is received as it was.
-/

namespace DeliveryCharts.Text

theorem toNat_valid (c : Char) : c.toNat < 0xD800 ∨ 0xDFFF < c.toNat ∧ c.toNat < 0x110000 :=
  c.valid

theorem toNat_byte {n : Nat} (h : n < 256) : (UInt8.ofNat n).toNat = n :=
  UInt8.toNat_ofNat_of_lt' h

theorem isContinuation_byte {n : Nat} (h : n < 0x40) :
    isContinuation (.ofNat (0x80 + n)) = true := by
  have hn := toNat_byte (n := 0x80 + n) (by omega)
  simp only [isContinuation, hn, Bool.and_eq_true, decide_eq_true_eq]
  omega

section Head

variable {n : Nat} (rest : Bytes)

theorem head_one (h : n < 0x80) : head (.ofNat n) rest = .char (.ofNat n) 1 := by
  have hb := toNat_byte (n := n) (by omega)
  simp only [head, hb, if_pos h]

theorem head_two (h : 0x80 ≤ n) (h' : n < 0x800) :
    head (.ofNat (0xC0 + n / 0x40)) (.ofNat (0x80 + n % 0x40) :: rest) = .char (.ofNat n) 2 := by
  have hb := toNat_byte (n := 0xC0 + n / 0x40) (by omega)
  have hb₂ := toNat_byte (n := 0x80 + n % 0x40) (by omega)
  have hs : secondRange (0xC0 + n / 0x40) = (0x80, 0xBF) := by
    simp only [secondRange]
    repeat rw [if_neg (by omega)]
  have hn : (0xC0 + n / 0x40 - 0xC0) * 0x40 + (0x80 + n % 0x40 - 0x80) = n := by omega
  simp only [head, hb, hs, hb₂, hn]
  rw [if_neg (by omega), if_neg (by omega), if_neg (by omega), if_pos (by omega)]

theorem head_three (h : 0x800 ≤ n) (h' : n < 0x10000) (hv : n < 0xD800 ∨ 0xDFFF < n) :
    head (.ofNat (0xE0 + n / 0x1000))
      (.ofNat (0x80 + n / 0x40 % 0x40) :: .ofNat (0x80 + n % 0x40) :: rest) =
        .char (.ofNat n) 3 := by
  have hb := toNat_byte (n := 0xE0 + n / 0x1000) (by omega)
  have hb₂ := toNat_byte (n := 0x80 + n / 0x40 % 0x40) (by omega)
  have hb₃ := toNat_byte (n := 0x80 + n % 0x40) (by omega)
  have hc := isContinuation_byte (n := n % 0x40) (by omega)
  -- neither an overlong spelling nor a surrogate
  have hs : ¬ (0x80 + n / 0x40 % 0x40 < (secondRange (0xE0 + n / 0x1000)).1 ∨
      (secondRange (0xE0 + n / 0x1000)).2 < 0x80 + n / 0x40 % 0x40) := by
    simp only [secondRange]
    repeat' split
    all_goals omega
  have hn : (0xE0 + n / 0x1000 - 0xE0) * 0x1000 + (0x80 + n / 0x40 % 0x40 - 0x80) * 0x40 +
      (0x80 + n % 0x40 - 0x80) = n := by omega
  simp only [head, hb, hb₂, hb₃, hc, hn]
  rw [if_neg (by omega), if_neg (by omega), if_neg hs, if_neg (by omega), if_neg (by decide),
    if_pos (by omega)]

theorem head_four (h : 0x10000 ≤ n) (h' : n < 0x110000) :
    head (.ofNat (0xF0 + n / 0x40000)) (.ofNat (0x80 + n / 0x1000 % 0x40) ::
      .ofNat (0x80 + n / 0x40 % 0x40) :: .ofNat (0x80 + n % 0x40) :: rest) =
        .char (.ofNat n) 4 := by
  have hb := toNat_byte (n := 0xF0 + n / 0x40000) (by omega)
  have hb₂ := toNat_byte (n := 0x80 + n / 0x1000 % 0x40) (by omega)
  have hb₃ := toNat_byte (n := 0x80 + n / 0x40 % 0x40) (by omega)
  have hb₄ := toNat_byte (n := 0x80 + n % 0x40) (by omega)
  have hc₃ := isContinuation_byte (n := n / 0x40 % 0x40) (by omega)
  have hc₄ := isContinuation_byte (n := n % 0x40) (by omega)
  -- neither an overlong spelling nor beyond the last code point
  have hs : ¬ (0x80 + n / 0x1000 % 0x40 < (secondRange (0xF0 + n / 0x40000)).1 ∨
      (secondRange (0xF0 + n / 0x40000)).2 < 0x80 + n / 0x1000 % 0x40) := by
    simp only [secondRange]
    repeat' split
    all_goals omega
  have hn : (0xF0 + n / 0x40000 - 0xF0) * 0x40000 + (0x80 + n / 0x1000 % 0x40 - 0x80) * 0x1000 +
      (0x80 + n / 0x40 % 0x40 - 0x80) * 0x40 + (0x80 + n % 0x40 - 0x80) = n := by omega
  simp only [head, hb, hb₂, hb₃, hb₄, hc₃, hc₄, hn]
  rw [if_neg (by omega), if_neg (by omega), if_neg hs, if_neg (by omega), if_neg (by decide),
    if_neg (by omega), if_neg (by decide)]

/-- The bytes of a character start with that character, whatever follows them. -/
theorem head_utf8Char (c : Char) :
    ∃ b tail, utf8Char c = b :: tail ∧ head b (tail ++ rest) = .char c (tail.length + 1) := by
  have hvalid := toNat_valid c
  have hc := Char.ofNat_toNat c
  rw [utf8Char]
  split
  · rename_i h₁
    have hhead := head_one rest h₁
    rw [hc] at hhead
    exact ⟨_, [], rfl, hhead⟩
  rename_i h₁
  split
  · rename_i h₂
    have hhead := head_two rest (by omega) h₂
    rw [hc] at hhead
    exact ⟨_, [_], rfl, hhead⟩
  rename_i h₂
  split
  · rename_i h₃
    have hhead := head_three rest (by omega) h₃ (by omega)
    rw [hc] at hhead
    exact ⟨_, [_, _], rfl, hhead⟩
  · have hhead := head_four rest (n := c.toNat) (by omega) (by omega)
    rw [hc] at hhead
    exact ⟨_, [_, _, _], rfl, hhead⟩

end Head

/-- A text starts with its first character, and the steps that it needs leave enough for the
others. -/
theorem exists_utf8_cons (c : Char) (cs : List Char) {fuel : Nat}
    (h : (utf8 (c :: cs)).length ≤ fuel) :
    ∃ b tail k, utf8 (c :: cs) = b :: (tail ++ utf8 cs) ∧
      head b (tail ++ utf8 cs) = .char c (tail.length + 1) ∧ fuel = k + 1 ∧
        (utf8 cs).length ≤ k := by
  obtain ⟨b, tail, hc, hhead⟩ := head_utf8Char (utf8 cs) c
  have hcons : utf8 (c :: cs) = b :: (tail ++ utf8 cs) := by
    rw [utf8, List.flatMap_cons, hc, List.cons_append, utf8]
  rw [hcons] at h
  simp only [List.length_cons, List.length_append] at h
  exact ⟨b, tail, fuel - 1, hcons, hhead, by omega, by omega⟩

theorem pieces_go_utf8 (cs : List Char) {fuel : Nat} (h : (utf8 cs).length ≤ fuel) :
    pieces.go fuel (utf8 cs) = cs.map .inl := by
  induction cs generalizing fuel with
  | nil => cases fuel <;> rfl
  | cons c cs ih =>
    obtain ⟨b, tail, k, hcons, hhead, rfl, hk⟩ := exists_utf8_cons c cs h
    rw [hcons, pieces.go, hhead]
    simp only [Nat.add_sub_cancel, List.drop_left, List.map_cons]
    rw [ih hk]

theorem received_utf8 (cs : List Char) : received (utf8 cs) = cs.map some := by
  rw [received, pieces, pieces_go_utf8 cs (Nat.le_refl _)]
  induction cs with
  | nil => rfl
  | cons c cs ih =>
    rw [List.map_cons, List.flatMap_cons, ih]
    rfl

theorem decode_go_utf8 (cs : List Char) {fuel index : Nat} (h : (utf8 cs).length ≤ fuel) :
    decode.go fuel index (utf8 cs) = .ok cs := by
  induction cs generalizing fuel index with
  | nil => cases fuel <;> rfl
  | cons c cs ih =>
    obtain ⟨b, tail, k, hcons, hhead, rfl, hk⟩ := exists_utf8_cons c cs h
    rw [hcons, decode.go, hhead]
    simp only [Nat.add_sub_cancel, List.drop_left]
    rw [ih hk]
    rfl

theorem decode_utf8 (cs : List Char) : decode (utf8 cs) = .ok cs :=
  decode_go_utf8 cs (Nat.le_refl _)

/-! Nothing else is read as the text. -/

theorem toNat_ofNat {n : Nat} (h : n < 0xD800 ∨ 0xDFFF < n ∧ n < 0x110000) :
    (Char.ofNat n).toNat = n := by
  have hvalid : n.isValidChar := h
  rw [Char.ofNat, dif_pos hvalid]
  rfl

theorem isContinuation_iff {b : UInt8} :
    isContinuation b = true ↔ 0x80 ≤ b.toNat ∧ b.toNat ≤ 0xBF := by
  simp [isContinuation]

theorem utf8Char_two {b b₂ : UInt8} (hb : 0xC2 ≤ b.toNat) (hb' : b.toNat < 0xE0)
    (hb₂ : 0x80 ≤ b₂.toNat ∧ b₂.toNat ≤ 0xBF) :
    utf8Char (.ofNat ((b.toNat - 0xC0) * 0x40 + (b₂.toNat - 0x80))) = [b, b₂] := by
  generalize hn : (b.toNat - 0xC0) * 0x40 + (b₂.toNat - 0x80) = n
  rw [utf8Char, toNat_ofNat (by omega), if_neg (by omega), if_pos (by omega),
    show 0xC0 + n / 0x40 = b.toNat by omega, show 0x80 + n % 0x40 = b₂.toNat by omega,
    UInt8.ofNat_toNat, UInt8.ofNat_toNat]

theorem utf8Char_three {b b₂ b₃ : UInt8} (hb : 0xE0 ≤ b.toNat) (hb' : b.toNat < 0xF0)
    (hb₂ : (secondRange b.toNat).1 ≤ b₂.toNat ∧ b₂.toNat ≤ (secondRange b.toNat).2)
    (hb₃ : isContinuation b₃ = true) :
    utf8Char (.ofNat ((b.toNat - 0xE0) * 0x1000 + (b₂.toNat - 0x80) * 0x40 +
      (b₃.toNat - 0x80))) = [b, b₂, b₃] := by
  rw [isContinuation_iff] at hb₃
  generalize hn : (b.toNat - 0xE0) * 0x1000 + (b₂.toNat - 0x80) * 0x40 + (b₃.toNat - 0x80) = n
  -- neither an overlong spelling nor a surrogate
  have hrange : 0x80 ≤ b₂.toNat ∧ b₂.toNat ≤ 0xBF ∧ 0x800 ≤ n ∧ (n < 0xD800 ∨ 0xDFFF < n) := by
    simp only [secondRange] at hb₂
    repeat' split at hb₂
    all_goals
      simp only at hb₂
      omega
  rw [utf8Char, toNat_ofNat (by omega), if_neg (by omega), if_neg (by omega), if_pos (by omega),
    show 0xE0 + n / 0x1000 = b.toNat by omega, show 0x80 + n / 0x40 % 0x40 = b₂.toNat by omega,
    show 0x80 + n % 0x40 = b₃.toNat by omega, UInt8.ofNat_toNat, UInt8.ofNat_toNat,
    UInt8.ofNat_toNat]

theorem utf8Char_four {b b₂ b₃ b₄ : UInt8} (hb : 0xF0 ≤ b.toNat) (hb' : b.toNat ≤ 0xF4)
    (hb₂ : (secondRange b.toNat).1 ≤ b₂.toNat ∧ b₂.toNat ≤ (secondRange b.toNat).2)
    (hb₃ : isContinuation b₃ = true) (hb₄ : isContinuation b₄ = true) :
    utf8Char (.ofNat ((b.toNat - 0xF0) * 0x40000 + (b₂.toNat - 0x80) * 0x1000 +
      (b₃.toNat - 0x80) * 0x40 + (b₄.toNat - 0x80))) = [b, b₂, b₃, b₄] := by
  rw [isContinuation_iff] at hb₃ hb₄
  generalize hn : (b.toNat - 0xF0) * 0x40000 + (b₂.toNat - 0x80) * 0x1000 +
    (b₃.toNat - 0x80) * 0x40 + (b₄.toNat - 0x80) = n
  -- neither an overlong spelling nor beyond the last code point
  have hrange : 0x80 ≤ b₂.toNat ∧ b₂.toNat ≤ 0xBF ∧ 0x10000 ≤ n ∧ n < 0x110000 := by
    simp only [secondRange] at hb₂
    repeat' split at hb₂
    all_goals
      simp only at hb₂
      omega
  rw [utf8Char, toNat_ofNat (by omega), if_neg (by omega), if_neg (by omega), if_neg (by omega),
    show 0xF0 + n / 0x40000 = b.toNat by omega,
    show 0x80 + n / 0x1000 % 0x40 = b₂.toNat by omega,
    show 0x80 + n / 0x40 % 0x40 = b₃.toNat by omega, show 0x80 + n % 0x40 = b₄.toNat by omega,
    UInt8.ofNat_toNat, UInt8.ofNat_toNat, UInt8.ofNat_toNat, UInt8.ofNat_toNat]

/-- A character that stands at the head was written there. -/
theorem utf8Char_of_head {b : UInt8} {rest : Bytes} {c : Char} {size : Nat}
    (h : head b rest = .char c size) : utf8Char c ++ rest.drop (size - 1) = b :: rest := by
  simp only [head] at h
  split at h
  · rename_i hb
    obtain ⟨rfl, rfl⟩ := Head.char.inj h
    rw [utf8Char, toNat_ofNat (by omega), if_pos hb, UInt8.ofNat_toNat]
    rfl
  split at h
  · cases h
  rename_i hlead
  split at h
  · cases h
  split at h
  · cases h
  rename_i hsecond
  split at h
  · rename_i hb
    obtain ⟨rfl, rfl⟩ := Head.char.inj h
    have hrange : secondRange b.toNat = (0x80, 0xBF) := by
      simp only [secondRange]
      repeat rw [if_neg (by omega)]
    rw [hrange] at hsecond
    rw [utf8Char_two (by omega) hb (by omega)]
    rfl
  rename_i hb
  split at h
  · cases h
  split at h
  · cases h
  rename_i hthird
  rw [Bool.not_eq_true', Bool.not_eq_false] at hthird
  split at h
  · rename_i hb'
    obtain ⟨rfl, rfl⟩ := Head.char.inj h
    rw [utf8Char_three (by omega) hb' (by omega) hthird]
    rfl
  rename_i hb'
  split at h
  · cases h
  split at h
  · cases h
  rename_i hfourth
  rw [Bool.not_eq_true', Bool.not_eq_false] at hfourth
  obtain ⟨rfl, rfl⟩ := Head.char.inj h
  rw [utf8Char_four (by omega) (by omega) (by omega) hthird hfourth]
  rfl

theorem utf8_of_decode_go {fuel index : Nat} {bytes : Bytes} {cs : List Char}
    (hfuel : bytes.length ≤ fuel) (h : decode.go fuel index bytes = .ok cs) : utf8 cs = bytes := by
  induction fuel generalizing index bytes cs with
  | zero =>
    obtain rfl := List.eq_nil_of_length_eq_zero (Nat.le_zero.mp hfuel)
    cases h
    rfl
  | succ fuel ih =>
    cases bytes with
    | nil =>
      cases h
      rfl
    | cons b rest =>
      rw [decode.go] at h
      cases hhead : head b rest with
      | bad size =>
        rw [hhead] at h
        cases h
      | cut =>
        rw [hhead] at h
        cases h
      | char c size =>
        rw [hhead] at h
        cases hgo : decode.go fuel (index + size) (rest.drop (size - 1)) with
        | error d =>
          simp only [hgo] at h
          cases h
        | ok cs' =>
          simp only [hgo] at h
          cases h
          have hrest : (rest.drop (size - 1)).length ≤ fuel := by
            rw [List.length_drop]
            rw [List.length_cons] at hfuel
            omega
          rw [utf8, List.flatMap_cons, ← utf8, ih hrest hgo, utf8Char_of_head hhead]

theorem utf8_injective {cs cs' : List Char} (h : utf8 cs = utf8 cs') : cs = cs' := by
  have hdecode := decode_utf8 cs
  rw [h, decode_utf8] at hdecode
  exact (Except.ok.inj hdecode).symm

theorem decode_eq_ok_iff {bytes : Bytes} {cs : List Char} :
    decode bytes = .ok cs ↔ bytes = utf8 cs := by
  constructor
  · intro h
    exact (utf8_of_decode_go (Nat.le_refl _) h).symm
  · rintro rfl
    exact decode_utf8 cs

end DeliveryCharts.Text
