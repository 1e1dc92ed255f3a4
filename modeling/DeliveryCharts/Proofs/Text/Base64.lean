import DeliveryCharts.Proofs.Record
import DeliveryCharts.Proofs.Text.Utf8
import DeliveryCharts.Text.Base64
import DeliveryCharts.Text.Blank
import Mathlib.Algebra.Group.Nat.Defs

/-!
Base64 reads exactly what it writes, and it writes the canonical form: the bits of the bytes in
groups of six, filled up with zeros, as symbols of the alphabet, and `=` up to a multiple of four.
-/

namespace DeliveryCharts.Text.Base64

variable {bytes more out t rest : Bytes} {a b c d e : UInt8} {v w x y offset : Nat}

/-! Symbols. -/

theorem value?_symbol (h : v < 64) : value? (symbol v) = some v := by
  have hall : ∀ v < 64, value? (symbol v) = some v := by decide
  exact hall v h

theorem symbol_ne_padding (h : v < 64) : symbol v ≠ padding := by
  have hall : ∀ v < 64, symbol v ≠ padding := by decide
  exact hall v h

theorem value?_eq_some_iff : value? b = some v ↔ v < 64 ∧ b = symbol v := by
  constructor
  · have hall : ∀ n < 256, (value? (.ofNat n)).all (fun v ↦ v < 64 && .ofNat n == symbol v) = true := by
      decide +kernel
    intro h
    have hb := hall b.toNat b.toNat_lt
    rw [UInt8.ofNat_toNat, h] at hb
    simpa using hb
  · rintro ⟨hv, rfl⟩
    exact value?_symbol hv

/-! Groups. -/

/-- The three bytes that four symbols stand for. -/
def group (v w x y : Nat) : Bytes :=
  [.ofNat (v * 4 + w / 16), .ofNat (w % 16 * 16 + x / 4), .ofNat (x % 4 * 64 + y)]

theorem encode_group (hv : v < 64) (hw : w < 64) (hx : x < 64) (hy : y < 64) (bytes : Bytes) :
    encode (group v w x y ++ bytes) =
      symbol v :: symbol w :: symbol x :: symbol y :: encode bytes := by
  rw [group, List.cons_append, List.cons_append, List.cons_append, List.nil_append, encode,
    toNat_byte (by omega), toNat_byte (by omega), toNat_byte (by omega)]
  have h₁ : ((v * 4 + w / 16) * 0x10000 + (w % 16 * 16 + x / 4) * 0x100 + (x % 4 * 64 + y)) /
      0x40000 = v := by omega
  have h₂ : ((v * 4 + w / 16) * 0x10000 + (w % 16 * 16 + x / 4) * 0x100 + (x % 4 * 64 + y)) /
      0x1000 % 64 = w := by omega
  have h₃ : ((v * 4 + w / 16) * 0x10000 + (w % 16 * 16 + x / 4) * 0x100 + (x % 4 * 64 + y)) /
      64 % 64 = x := by omega
  have h₄ : ((v * 4 + w / 16) * 0x10000 + (w % 16 * 16 + x / 4) * 0x100 + (x % 4 * 64 + y)) %
      64 = y := by omega
  simp only [h₁, h₂, h₃, h₄]

/-- Every three bytes are a group. -/
theorem exists_group (a b c : UInt8) :
    ∃ v w x y, v < 64 ∧ w < 64 ∧ x < 64 ∧ y < 64 ∧ [a, b, c] = group v w x y := by
  have ha := a.toNat_lt
  have hb := b.toNat_lt
  have hc := c.toNat_lt
  refine ⟨a.toNat / 4, a.toNat % 4 * 16 + b.toNat / 16, b.toNat % 16 * 4 + c.toNat / 64,
    c.toNat % 64, by omega, by omega, by omega, by omega, ?_⟩
  rw [group, show a.toNat / 4 * 4 + (a.toNat % 4 * 16 + b.toNat / 16) / 16 = a.toNat by omega,
    show (a.toNat % 4 * 16 + b.toNat / 16) % 16 * 16 + (b.toNat % 16 * 4 + c.toNat / 64) / 4 =
      b.toNat by omega,
    show (b.toNat % 16 * 4 + c.toNat / 64) % 4 * 64 + c.toNat % 64 = c.toNat by omega,
    UInt8.ofNat_toNat, UInt8.ofNat_toNat, UInt8.ofNat_toNat]

theorem read_eq_ok_iff {f : Fault} : (match value? b with
    | some v => Except.ok v
    | none => .error f) = .ok v ↔ value? b = some v := by
  cases value? b <;> simp

theorem decodeFrom_group_eq_ok_iff : decodeFrom offset (a :: b :: c :: d :: e :: rest) = .ok out ↔
    ∃ v w x y more, value? a = some v ∧ value? b = some w ∧ value? c = some x ∧ value? d = some y ∧
      decodeFrom (offset + 4) (e :: rest) = .ok more ∧ out = group v w x y ++ more := by
  rw [decodeFrom]
  simp only [Except.bind_eq_ok_iff]
  constructor
  · rintro ⟨v, hv, w, hw, x, hx, y, hy, more, hmore, hout⟩
    exact ⟨v, w, x, y, more, read_eq_ok_iff.mp hv, read_eq_ok_iff.mp hw, read_eq_ok_iff.mp hx,
      read_eq_ok_iff.mp hy, hmore, (Except.ok.inj hout).symm⟩
  · rintro ⟨v, w, x, y, more, hv, hw, hx, hy, hmore, rfl⟩
    exact ⟨v, read_eq_ok_iff.mpr hv, w, read_eq_ok_iff.mpr hw, x, read_eq_ok_iff.mpr hx, y,
      read_eq_ok_iff.mpr hy, more, hmore, rfl⟩

theorem decodeFrom_of_length_le (h : t.length ≤ 4) : decodeFrom offset t = decodeLast offset t := by
  match t with
  | [] | [_] | [_, _] | [_, _, _] | [_, _, _, _] => rfl
  | _ :: _ :: _ :: _ :: _ :: _ =>
    simp only [List.length_cons] at h
    omega

/-! The last group. -/

/-- The symbols and the padding of the last group, as they were read. -/
theorem lastGroup_spec {index pads : Nat} {symbols : List (UInt8 × Nat)}
    {read : List (UInt8 × Nat) × Nat} (h : lastGroup offset index symbols pads t = .ok read) :
    ∃ (digits : List Nat) (k : Nat), (∀ v ∈ digits, v < 64) ∧
      t = digits.map symbol ++ List.replicate k padding ∧
      (0 < pads → digits = []) ∧ (0 < k → 2 ≤ index + digits.length) ∧
      read = (symbols.reverse ++ digits.map (fun v ↦ (symbol v, v)), pads + k) := by
  induction t generalizing index symbols pads with
  | nil =>
    cases h
    exact ⟨[], 0, by simp⟩
  | cons b t ih =>
    rw [lastGroup] at h
    split at h
    · rename_i hb
      split at h
      · cases h
      · rename_i hindex
        obtain ⟨digits, k, hdigits, rfl, hpads, hk, rfl⟩ := ih h
        obtain rfl := hpads (Nat.succ_pos pads)
        refine ⟨[], k + 1, by simp, ?_, fun _ ↦ rfl, fun _ ↦ Nat.not_lt.mp hindex, ?_⟩
        · rw [hb, List.replicate_succ]
          rfl
        · rw [Nat.add_assoc, Nat.add_comm 1 k]
    · split at h
      · cases h
      · rename_i hpads
        cases hv : value? b with
        | none =>
          rw [hv] at h
          cases h
        | some v =>
          rw [hv] at h
          obtain ⟨hlt, rfl⟩ := value?_eq_some_iff.mp hv
          obtain ⟨digits, k, hdigits, rfl, -, hk, rfl⟩ := ih h
          refine ⟨v :: digits, k, List.forall_mem_cons.mpr ⟨hlt, hdigits⟩, rfl, ?_, ?_, ?_⟩
          · intro hpos
            exact absurd hpos hpads
          · intro hpos
            have hle := hk hpos
            rw [List.length_cons]
            omega
          · simp

theorem encode_one (hv : v < 64) (hw : w < 64) (hunused : w % 16 = 0) :
    encode [.ofNat (v * 4 + w / 16)] = [symbol v, symbol w, padding, padding] := by
  rw [encode, toNat_byte (by omega), show (v * 4 + w / 16) / 4 = v by omega,
    show (v * 4 + w / 16) % 4 * 16 = w by omega]

theorem encode_two (hv : v < 64) (hw : w < 64) (hx : x < 64) (hunused : x % 4 = 0) :
    encode [.ofNat (v * 4 + w / 16), .ofNat (w % 16 * 16 + x / 4)] =
      [symbol v, symbol w, symbol x, padding] := by
  rw [encode, toNat_byte (by omega), toNat_byte (by omega)]
  have h₁ : ((v * 4 + w / 16) * 0x100 + (w % 16 * 16 + x / 4)) / 0x400 = v := by omega
  have h₂ : ((v * 4 + w / 16) * 0x100 + (w % 16 * 16 + x / 4)) / 0x10 % 64 = w := by omega
  have h₃ : ((v * 4 + w / 16) * 0x100 + (w % 16 * 16 + x / 4)) % 0x10 * 4 = x := by omega
  simp only [h₁, h₂, h₃]

theorem encode_of_decodeLast (hlength : t.length ≤ 4) (h : decodeLast offset t = .ok out) :
    t = encode out := by
  rw [decodeLast] at h
  obtain ⟨read, hread, h⟩ := Except.bind_eq_ok_iff.mp h
  obtain ⟨digits, k, hdigits, rfl, -, hk, rfl⟩ := lastGroup_spec hread
  rw [List.length_append, List.length_map, List.length_replicate] at hlength
  match digits with
  | [] =>
    cases h
    obtain rfl : k = 0 := by
      simp only [List.length_nil] at hk
      omega
    rfl
  | [v] => cases h
  | [v, w] =>
    replace h : (if 0 + k ≠ 2 then .error .badPadding
      else if w % 16 ≠ 0 then .error (.unusedBits (symbol w) (offset + 2 - 1))
      else .ok [.ofNat (v * 4 + w / 16)] : Except Fault Bytes) = .ok out := by
      rw [← h]
      rfl
    split at h
    · cases h
    · rename_i hpads
      split at h
      · cases h
      · rename_i hunused
        cases h
        obtain rfl : k = 2 := by omega
        exact (encode_one (hdigits v (by simp)) (hdigits w (by simp)) (by omega)).symm
  | [v, w, x] =>
    replace h : (if 0 + k ≠ 1 then .error .badPadding
      else if x % 4 ≠ 0 then .error (.unusedBits (symbol x) (offset + 3 - 1))
      else .ok [.ofNat (v * 4 + w / 16), .ofNat (w % 16 * 16 + x / 4)] : Except Fault Bytes) =
        .ok out := by
      rw [← h]
      rfl
    split at h
    · cases h
    · rename_i hpads
      split at h
      · cases h
      · rename_i hunused
        cases h
        obtain rfl : k = 1 := by omega
        exact (encode_two (hdigits v (by simp)) (hdigits w (by simp)) (hdigits x (by simp))
          (by omega)).symm
  | v :: w :: x :: y :: more =>
    simp only [List.length_cons] at hlength
    obtain rfl : more = [] := List.eq_nil_of_length_eq_zero (by omega)
    obtain rfl : k = 0 := by omega
    cases h
    have hencode := encode_group (hdigits v (by simp)) (hdigits w (by simp)) (hdigits x (by simp))
      (hdigits y (by simp)) []
    exact hencode.symm

theorem encode_of_decodeFrom (h : decodeFrom offset t = .ok out) : t = encode out := by
  induction offset, t using decodeFrom.induct generalizing out with
  | case1 offset a b c d e rest ih =>
    obtain ⟨v, w, x, y, more, hva, hwb, hxc, hyd, hmore, rfl⟩ := decodeFrom_group_eq_ok_iff.mp h
    obtain ⟨hv, rfl⟩ := value?_eq_some_iff.mp hva
    obtain ⟨hw, rfl⟩ := value?_eq_some_iff.mp hwb
    obtain ⟨hx, rfl⟩ := value?_eq_some_iff.mp hxc
    obtain ⟨hy, rfl⟩ := value?_eq_some_iff.mp hyd
    rw [encode_group hv hw hx hy, ← ih hmore]
  | case2 offset t hshort =>
    have hlength : t.length ≤ 4 := by
      match t with
      | [] | [_] | [_, _] | [_, _, _] | [_, _, _, _] => simp
      | a :: b :: c :: d :: e :: rest => exact absurd rfl (hshort a b c d e rest)
    rw [decodeFrom_of_length_le hlength] at h
    exact encode_of_decodeLast hlength h

/-! What is written is read. -/

theorem lastGroup_symbol {index : Nat} {symbols : List (UInt8 × Nat)} (hv : v < 64) :
    lastGroup offset index symbols 0 (symbol v :: t) =
      lastGroup offset (index + 1) ((symbol v, v) :: symbols) 0 t := by
  rw [lastGroup, if_neg (symbol_ne_padding hv), if_neg (Nat.lt_irrefl 0), value?_symbol hv]

theorem decodeLast_one (hv : v < 64) (hw : w < 64) (hunused : w % 16 = 0) :
    decodeLast offset [symbol v, symbol w, padding, padding] = .ok [.ofNat (v * 4 + w / 16)] := by
  rw [decodeLast, lastGroup_symbol hv, lastGroup_symbol hw]
  change (if w % 16 ≠ 0 then _ else _) = _
  rw [if_neg (not_not_intro hunused)]
  rfl

theorem decodeLast_two (hv : v < 64) (hw : w < 64) (hx : x < 64) (hunused : x % 4 = 0) :
    decodeLast offset [symbol v, symbol w, symbol x, padding] =
      .ok [.ofNat (v * 4 + w / 16), .ofNat (w % 16 * 16 + x / 4)] := by
  rw [decodeLast, lastGroup_symbol hv, lastGroup_symbol hw, lastGroup_symbol hx]
  change (if x % 4 ≠ 0 then _ else _) = _
  rw [if_neg (not_not_intro hunused)]
  rfl

theorem decodeLast_group (hv : v < 64) (hw : w < 64) (hx : x < 64) (hy : y < 64) :
    decodeLast offset [symbol v, symbol w, symbol x, symbol y] = .ok (group v w x y) := by
  rw [decodeLast, lastGroup_symbol hv, lastGroup_symbol hw, lastGroup_symbol hx,
    lastGroup_symbol hy]
  rfl

/-- A byte alone fills a symbol and the upper two bits of the next. -/
theorem exists_one (a : UInt8) :
    ∃ v w, v < 64 ∧ w < 64 ∧ w % 16 = 0 ∧ a = .ofNat (v * 4 + w / 16) := by
  have ha := a.toNat_lt
  refine ⟨a.toNat / 4, a.toNat % 4 * 16, by omega, by omega, by omega, ?_⟩
  rw [show a.toNat / 4 * 4 + a.toNat % 4 * 16 / 16 = a.toNat by omega, UInt8.ofNat_toNat]

/-- Two bytes fill two symbols and the upper four bits of the next. -/
theorem exists_two (a b : UInt8) :
    ∃ v w x, v < 64 ∧ w < 64 ∧ x < 64 ∧ x % 4 = 0 ∧
      a = .ofNat (v * 4 + w / 16) ∧ b = .ofNat (w % 16 * 16 + x / 4) := by
  have ha := a.toNat_lt
  have hb := b.toNat_lt
  refine ⟨a.toNat / 4, a.toNat % 4 * 16 + b.toNat / 16, b.toNat % 16 * 4, by omega, by omega,
    by omega, by omega, ?_, ?_⟩
  · rw [show a.toNat / 4 * 4 + (a.toNat % 4 * 16 + b.toNat / 16) / 16 = a.toNat by omega,
      UInt8.ofNat_toNat]
  · rw [show (a.toNat % 4 * 16 + b.toNat / 16) % 16 * 16 + b.toNat % 16 * 4 / 4 = b.toNat by omega,
      UInt8.ofNat_toNat]

theorem decodeFrom_encode (offset : Nat) (bytes : Bytes) :
    decodeFrom offset (encode bytes) = .ok bytes := by
  induction bytes using encode.induct generalizing offset with
  | case1 a b c rest ih =>
    obtain ⟨v, w, x, y, hv, hw, hx, hy, hgroup⟩ := exists_group a b c
    change decodeFrom offset (encode ([a, b, c] ++ rest)) = .ok ([a, b, c] ++ rest)
    rw [hgroup, encode_group hv hw hx hy]
    cases hrest : encode rest with
    | nil =>
      -- nothing follows: the four symbols are the last group
      have hnil := ih offset
      rw [hrest] at hnil
      obtain rfl : [] = rest := Except.ok.inj hnil
      exact (decodeFrom_of_length_le (by simp)).trans (decodeLast_group hv hw hx hy)
    | cons e more =>
      rw [decodeFrom_group_eq_ok_iff]
      exact ⟨v, w, x, y, rest, value?_symbol hv, value?_symbol hw, value?_symbol hx,
        value?_symbol hy, hrest ▸ ih (offset + 4), rfl⟩
  | case2 a b =>
    obtain ⟨v, w, x, hv, hw, hx, hunused, rfl, rfl⟩ := exists_two a b
    rw [encode_two hv hw hx hunused]
    exact (decodeFrom_of_length_le (by simp)).trans (decodeLast_two hv hw hx hunused)
  | case3 a =>
    obtain ⟨v, w, hv, hw, hunused, rfl⟩ := exists_one a
    rw [encode_one hv hw hunused]
    exact (decodeFrom_of_length_le (by simp)).trans (decodeLast_one hv hw hunused)
  | case4 => rfl

theorem length_encode (bytes : Bytes) : (encode bytes).length % 4 = 0 := by
  induction bytes using encode.induct with
  | case1 a b c rest ih =>
    rw [encode]
    simp only [List.length_cons]
    omega
  | case2 a b => simp [encode]
  | case3 a => simp [encode]
  | case4 => rfl

/-- Reading accepts exactly what writing produces. -/
theorem decode_eq_ok_iff : decode t = .ok bytes ↔ t = encode bytes := by
  rw [decode]
  cases hlast : t.getLast? with
  | none =>
    obtain rfl := List.getLast?_eq_none_iff.mp hlast
    have hfrom := decodeFrom_encode 0 bytes
    constructor
    · rintro ⟨⟩
      rfl
    · intro h
      rw [← h] at hfrom
      exact hfrom
  | some b =>
    have hiff : decodeFrom 0 t = .ok bytes ↔ t = encode bytes :=
      ⟨encode_of_decodeFrom, fun h ↦ h ▸ decodeFrom_encode 0 bytes⟩
    simp only
    split
    · rename_i hstray
      constructor
      · rintro ⟨⟩
      · rintro rfl
        have hlength := length_encode bytes
        omega
    · exact hiff

/-! The canonical form, in bits. -/

/-- The symbols, in the order of their values. -/
def alphabet : List Char :=
  "ABCDEFGHIJKLMNOPQRSTUVWXYZabcdefghijklmnopqrstuvwxyz0123456789+/".toList

theorem length_alphabet : alphabet.length = 64 := by decide +kernel

def letter (digit : Fin 64) : Char := alphabet.get (digit.cast length_alphabet.symm)

/-- The lowest bits of a number, so many, the highest of them first. -/
def bits : Nat → Nat → List Bool
  | 0, _ => []
  | width + 1, n => n.testBit width :: bits width n

/-- The canonical form of some bytes: symbols of the alphabet that stand for the bits of the bytes
and for no more zeros than the last symbol needs, and `=` up to a multiple of four. -/
def Canonical (bytes : Bytes) (text : List Char) : Prop :=
  ∃ (digits : List (Fin 64)) (unused pads : Nat),
    text = digits.map letter ++ List.replicate pads '=' ∧
      digits.flatMap (fun d : Fin 64 ↦ bits 6 d) =
        bytes.flatMap (fun b ↦ bits 8 b.toNat) ++ List.replicate unused false ∧
      unused < 6 ∧ pads < 4 ∧ (digits.length + pads) % 4 = 0

theorem length_bits (width n : Nat) : (bits width n).length = width := by
  induction width with
  | zero => rfl
  | succ width ih => rw [bits, List.length_cons, ih]

theorem bits_congr {width m n : Nat} (h : ∀ i < width, m.testBit i = n.testBit i) :
    bits width m = bits width n := by
  induction width with
  | zero => rfl
  | succ width ih =>
    rw [bits, bits, h width (Nat.lt_succ_self width), ih fun i hi ↦ h i (Nat.lt_succ_of_lt hi)]

theorem bits_add {n : Nat} (upper width m : Nat) (h : n < 2 ^ width) :
    bits (upper + width) (2 ^ width * m + n) = bits upper m ++ bits width n := by
  induction upper with
  | zero =>
    rw [Nat.zero_add]
    refine bits_congr fun i hi ↦ ?_
    rw [Nat.testBit_two_pow_mul_add m h, if_pos hi]
  | succ upper ih =>
    rw [Nat.succ_add, bits, ih, bits, Nat.testBit_two_pow_mul_add m h, if_neg (by omega),
      Nat.add_sub_cancel]
    rfl

/-- Both sides are the bits of one number. -/
theorem bits_group (hv : v < 64) (hw : w < 64) (hx : x < 64) (hy : y < 64) :
    (group v w x y).flatMap (fun b ↦ bits 8 b.toNat) =
      bits 6 v ++ (bits 6 w ++ (bits 6 x ++ bits 6 y)) := by
  have hsymbols : bits 24 (2 ^ 18 * v + (2 ^ 12 * w + (2 ^ 6 * x + y))) = _ :=
    bits_add 6 18 v (by omega)
  have hbytes : bits 24 (2 ^ 16 * (v * 4 + w / 16) + (2 ^ 8 * (w % 16 * 16 + x / 4) +
      (x % 4 * 64 + y))) = _ := bits_add 8 16 _ (by omega)
  rw [bits_add 6 12 w (by omega), bits_add 6 6 x (by omega)] at hsymbols
  rw [bits_add 8 8 _ (by omega)] at hbytes
  rw [← hsymbols, group]
  simp only [List.flatMap_cons, List.flatMap_nil, List.append_nil]
  rw [toNat_byte (by omega), toNat_byte (by omega), toNat_byte (by omega), ← hbytes]
  congr 1
  omega

theorem bits_two (hv : v < 64) (hw : w < 64) (hx : x < 64) (hunused : x % 4 = 0) :
    [UInt8.ofNat (v * 4 + w / 16), UInt8.ofNat (w % 16 * 16 + x / 4)].flatMap
        (fun b ↦ bits 8 b.toNat) ++ List.replicate 2 false =
      bits 6 v ++ (bits 6 w ++ bits 6 x) := by
  have hsymbols : bits 18 (2 ^ 12 * v + (2 ^ 6 * w + x)) = _ := bits_add 6 12 v (by omega)
  have hbytes : bits 18 (2 ^ 10 * (v * 4 + w / 16) + (2 ^ 2 * (w % 16 * 16 + x / 4) + 0)) = _ :=
    bits_add 8 10 _ (by omega)
  rw [bits_add 6 6 w (by omega)] at hsymbols
  rw [bits_add 8 2 _ (by omega)] at hbytes
  rw [← hsymbols]
  simp only [List.flatMap_cons, List.flatMap_nil, List.append_nil, List.append_assoc]
  rw [toNat_byte (by omega), toNat_byte (by omega)]
  refine hbytes.symm.trans ?_
  congr 1
  omega

theorem bits_one (hv : v < 64) (hw : w < 64) (hunused : w % 16 = 0) :
    [UInt8.ofNat (v * 4 + w / 16)].flatMap (fun b ↦ bits 8 b.toNat) ++ List.replicate 4 false =
      bits 6 v ++ bits 6 w := by
  have hsymbols : bits 12 (2 ^ 6 * v + w) = _ := bits_add 6 6 v (by omega)
  have hbytes : bits 12 (2 ^ 4 * (v * 4 + w / 16) + 0) = _ := bits_add 8 4 _ (by omega)
  rw [← hsymbols]
  simp only [List.flatMap_cons, List.flatMap_nil, List.append_nil]
  rw [toNat_byte (by omega)]
  refine hbytes.symm.trans ?_
  congr 1
  omega

theorem bits_six_injective {d d' : Fin 64} (h : bits 6 d = bits 6 d') : d = d' := by
  have hvalue : ∀ d : Fin 64, (bits 6 d).foldl (fun n b ↦ 2 * n + b.toNat) 0 = d.val := by
    decide +kernel
  apply Fin.ext
  rw [← hvalue d, h, hvalue]

theorem flatMap_bits_injective {digits digits' : List (Fin 64)}
    (h : digits.flatMap (fun d : Fin 64 ↦ bits 6 d) = digits'.flatMap (fun d : Fin 64 ↦ bits 6 d)) :
    digits = digits' := by
  induction digits generalizing digits' with
  | nil =>
    cases digits' with
    | nil => rfl
    | cons d' digits' => cases h
  | cons d digits ih =>
    cases digits' with
    | nil => cases h
    | cons d' digits' =>
      obtain ⟨hd, hdigits⟩ := List.append_inj h (by rw [length_bits, length_bits])
      rw [bits_six_injective hd, ih hdigits]

theorem length_flatMap_bits {α : Type} (width : Nat) (value : α → Nat) (l : List α) :
    (l.flatMap fun a ↦ bits width (value a)).length = width * l.length := by
  induction l with
  | nil => rfl
  | cons a l ih =>
    rw [List.flatMap_cons, List.length_append, length_bits, ih, List.length_cons, Nat.mul_succ,
      Nat.add_comm]

theorem Canonical.unique {text text' : List Char} (h : Canonical bytes text)
    (h' : Canonical bytes text') : text = text' := by
  obtain ⟨digits, unused, pads, rfl, hbits, hunused, hpads, hfilled⟩ := h
  obtain ⟨digits', unused', pads', rfl, hbits', hunused', hpads', hfilled'⟩ := h'
  have hlength := congrArg List.length hbits
  have hlength' := congrArg List.length hbits'
  rw [List.length_append, List.length_replicate, length_flatMap_bits, length_flatMap_bits]
    at hlength hlength'
  obtain rfl : unused = unused' := by omega
  obtain rfl := flatMap_bits_injective (hbits.trans hbits'.symm)
  obtain rfl : pads = pads' := by omega
  rfl

/-- A byte of the alphabet, as a character. -/
def char (b : UInt8) : Char := .ofNat b.toNat

theorem char_symbol (hv : v < 64) : char (symbol v) = letter ⟨v, hv⟩ := by
  have hall : ∀ d : Fin 64, char (symbol d) = letter d := by decide +kernel
  exact hall ⟨v, hv⟩

theorem canonical_encode (bytes : Bytes) : Canonical bytes ((encode bytes).map char) := by
  induction bytes using encode.induct with
  | case1 a b c rest ih =>
    obtain ⟨digits, unused, pads, htext, hbits, hunused, hpads, hfilled⟩ := ih
    obtain ⟨v, w, x, y, hv, hw, hx, hy, hgroup⟩ := exists_group a b c
    refine ⟨⟨v, hv⟩ :: ⟨w, hw⟩ :: ⟨x, hx⟩ :: ⟨y, hy⟩ :: digits, unused, pads, ?_, ?_, hunused,
      hpads, ?_⟩
    · change (encode ([a, b, c] ++ rest)).map char = _
      rw [hgroup, encode_group hv hw hx hy]
      simp only [List.map_cons, List.cons_append, char_symbol, htext, hv, hw, hx, hy]
    · change _ = ([a, b, c] ++ rest).flatMap _ ++ _
      rw [hgroup, List.flatMap_append, bits_group hv hw hx hy, List.append_assoc, ← hbits]
      simp only [List.flatMap_cons, List.append_assoc]
    · simp only [List.length_cons]
      omega
  | case2 a b =>
    obtain ⟨v, w, x, hv, hw, hx, hunused, rfl, rfl⟩ := exists_two a b
    refine ⟨[⟨v, hv⟩, ⟨w, hw⟩, ⟨x, hx⟩], 2, 1, ?_, (bits_two hv hw hx hunused).symm, by decide,
      by decide, by simp⟩
    rw [encode_two hv hw hx hunused]
    simp only [List.map_cons, List.map_nil, char_symbol, hv, hw, hx]
    rfl
  | case3 a =>
    obtain ⟨v, w, hv, hw, hunused, rfl⟩ := exists_one a
    refine ⟨[⟨v, hv⟩, ⟨w, hw⟩], 4, 2, ?_, (bits_one hv hw hunused).symm, by decide, by decide,
      by simp⟩
    rw [encode_one hv hw hunused]
    simp only [List.map_cons, List.map_nil, char_symbol, hv, hw]
    rfl
  | case4 => exact ⟨[], 0, 0, rfl, rfl, by decide, by decide, rfl⟩

theorem canonical_iff {text : List Char} :
    Canonical bytes text ↔ text = (encode bytes).map char := by
  constructor
  · intro h
    exact h.unique (canonical_encode bytes)
  · rintro rfl
    exact canonical_encode bytes

theorem shown_of_mem_encode {c : Char} (h : c ∈ (encode bytes).map char) :
    c.toNat < 0x80 ∧ isBlank c = false := by
  have hletter : ∀ d : Fin 64, (letter d).toNat < 0x80 ∧ isBlank (letter d) = false := by
    decide +kernel
  obtain ⟨digits, -, pads, htext, -⟩ := canonical_encode bytes
  rw [htext] at h
  rcases List.mem_append.mp h with h | h
  · obtain ⟨d, -, rfl⟩ := List.mem_map.mp h
    exact hletter d
  · obtain rfl := List.eq_of_mem_replicate h
    decide

/-- What is written is a text of as many characters as bytes. -/
theorem utf8_encode (bytes : Bytes) : utf8 ((encode bytes).map char) = encode bytes := by
  have hbyte : ∀ b ∈ encode bytes, utf8Char (char b) = [b] := by
    intro b hb
    have hvalue : (char b).toNat = b.toNat := toNat_ofNat (.inl (by have := b.toNat_lt; omega))
    have hsmall := (shown_of_mem_encode (List.mem_map_of_mem hb)).1
    rw [utf8Char, if_pos hsmall, hvalue, UInt8.ofNat_toNat]
  rw [utf8, List.flatMap_map, List.flatMap_def, List.map_congr_left hbyte, ← List.flatMap_def,
    List.flatMap_singleton']

end DeliveryCharts.Text.Base64
