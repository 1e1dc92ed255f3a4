/-!
UTF-8: the bytes of a text, and the text of bytes that may be damaged.
-/

namespace DeliveryCharts.Text

abbrev Bytes := List UInt8

def utf8Char (c : Char) : Bytes :=
  let n := c.toNat
  if n < 0x80 then [.ofNat n]
  else if n < 0x800 then [.ofNat (0xC0 + n / 0x40), .ofNat (0x80 + n % 0x40)]
  else if n < 0x10000 then
    [.ofNat (0xE0 + n / 0x1000), .ofNat (0x80 + n / 0x40 % 0x40), .ofNat (0x80 + n % 0x40)]
  else
    [.ofNat (0xF0 + n / 0x40000), .ofNat (0x80 + n / 0x1000 % 0x40),
      .ofNat (0x80 + n / 0x40 % 0x40), .ofNat (0x80 + n % 0x40)]

def utf8 (cs : List Char) : Bytes := cs.flatMap utf8Char

def utf8String (s : String) : Bytes := utf8 s.toList

def utf8Length : List Char → Nat
  | [] => 0
  | c :: cs => c.utf8Size + utf8Length cs

/-- The text cut after this many bytes, unless that is inside of a character or beyond the end. -/
def cutBytes? : Nat → List Char → Option (List Char × List Char)
  | 0, cs => some ([], cs)
  | _ + 1, [] => none
  | n + 1, c :: cs =>
    if c.utf8Size ≤ n + 1 then
      (cutBytes? (n + 1 - c.utf8Size) cs).map fun p ↦ (c :: p.1, p.2)
    else none

@[simp]
theorem utf8Length_append (as bs : List Char) :
    utf8Length (as ++ bs) = utf8Length as + utf8Length bs := by
  induction as with
  | nil => simp [utf8Length]
  | cons a as ih => simp [utf8Length, ih, Nat.add_assoc]

theorem utf8Length_eq_zero_iff {cs : List Char} : utf8Length cs = 0 ↔ cs = [] := by
  cases cs with
  | nil => simp [utf8Length]
  | cons c cs =>
    have hpos := c.utf8Size_pos
    simp only [utf8Length, reduceCtorEq, iff_false]
    omega

theorem cutBytes?_eq_some_iff {n : Nat} {cs as bs : List Char} :
    cutBytes? n cs = some (as, bs) ↔ cs = as ++ bs ∧ utf8Length as = n := by
  induction cs generalizing n as with
  | nil =>
    cases n with
    | zero =>
      simp only [cutBytes?, Option.some.injEq, Prod.mk.injEq, List.nil_eq_append_iff,
        utf8Length_eq_zero_iff]
      grind
    | succ n =>
      simp only [cutBytes?, reduceCtorEq, false_iff, List.nil_eq_append_iff, not_and]
      rintro ⟨rfl, -⟩
      simp [utf8Length]
  | cons c cs ih =>
    have hpos := c.utf8Size_pos
    cases n with
    | zero =>
      simp only [cutBytes?, Option.some.injEq, Prod.mk.injEq, utf8Length_eq_zero_iff]
      grind
    | succ n =>
      rw [cutBytes?]
      constructor
      · intro h
        split at h
        · obtain ⟨p, hp, hparts⟩ := Option.map_eq_some_iff.mp h
          obtain ⟨rfl, rfl⟩ := Prod.mk.inj hparts
          obtain ⟨rfl, hlength⟩ := ih.mp hp
          refine ⟨rfl, ?_⟩
          rw [utf8Length, hlength]
          omega
        · cases h
      · rintro ⟨hcs, hlength⟩
        cases as with
        | nil => cases hlength
        | cons a as =>
          obtain ⟨rfl, rfl⟩ := List.cons.inj hcs
          rw [utf8Length] at hlength
          rw [if_pos (by omega), ih.mpr ⟨rfl, by omega⟩]
          rfl

/-- The byte at which the first character that `p` holds of starts. -/
def firstByte? (p : Char → Bool) : List Char → Option Nat
  | [] => none
  | c :: cs => if p c then some 0 else (firstByte? p cs).map (c.utf8Size + ·)

/-- The byte at which the last character that `p` holds of starts. -/
def lastByte? (p : Char → Bool) : List Char → Option Nat
  | [] => none
  | c :: cs =>
    match lastByte? p cs with
    | some n => some (c.utf8Size + n)
    | none => if p c then some 0 else none

/-- What stands at the head of some bytes: a character and the number of its bytes, a sequence of so
many bytes that starts no character, or the start of a character that the end cuts off. -/
inductive Head where
  | char (c : Char) (size : Nat)
  | bad (size : Nat)
  | cut
  deriving DecidableEq, Repr

/-- The range of the second byte, so that no character has two spellings and none is a surrogate. -/
def secondRange (b : Nat) : Nat × Nat :=
  if b = 0xE0 then (0xA0, 0xBF)
  else if b = 0xED then (0x80, 0x9F)
  else if b = 0xF0 then (0x90, 0xBF)
  else if b = 0xF4 then (0x80, 0x8F)
  else (0x80, 0xBF)

def isContinuation (b : UInt8) : Bool := 0x80 ≤ b.toNat && b.toNat ≤ 0xBF

def head (b : UInt8) (rest : Bytes) : Head :=
  let b := b.toNat
  let second := secondRange b
  if b < 0x80 then .char (.ofNat b) 1
  else if b < 0xC2 ∨ b > 0xF4 then .bad 1
  else
    match rest with
    | [] => .cut
    | b₂ :: rest =>
      if b₂.toNat < second.1 ∨ second.2 < b₂.toNat then .bad 1
      else if b < 0xE0 then .char (.ofNat ((b - 0xC0) * 0x40 + (b₂.toNat - 0x80))) 2
      else
        match rest with
        | [] => .cut
        | b₃ :: rest =>
          if !isContinuation b₃ then .bad 2
          else if b < 0xF0 then
            .char (.ofNat ((b - 0xE0) * 0x1000 + (b₂.toNat - 0x80) * 0x40 + (b₃.toNat - 0x80))) 3
          else
            match rest with
            | [] => .cut
            | b₄ :: _ =>
              if !isContinuation b₄ then .bad 3
              else
                .char (.ofNat ((b - 0xF0) * 0x40000 + (b₂.toNat - 0x80) * 0x1000 +
                  (b₃.toNat - 0x80) * 0x40 + (b₄.toNat - 0x80))) 4

/-- The pieces of some bytes: characters, and damaged pieces with their number of bytes. -/
def pieces (bytes : Bytes) : List (Char ⊕ Nat) :=
  go bytes.length bytes
where
  go : Nat → Bytes → List (Char ⊕ Nat)
    | 0, _ => []
    | _, [] => []
    | fuel + 1, b :: rest =>
      match head b rest with
      | .char c size => .inl c :: go fuel (rest.drop (size - 1))
      | .bad size => .inr size :: go fuel (rest.drop (size - 1))
      | .cut => [.inr (rest.length + 1)]

/-- Each damaged piece is read as the replacement character. -/
def decodeLossy (bytes : Bytes) : List Char :=
  (pieces bytes).map fun
    | .inl c => c
    | .inr _ => '\uFFFD'

/-- A text as received: a character, or a byte that belongs to none. -/
abbrev Received := List (Option Char)

def received (bytes : Bytes) : Received :=
  (pieces bytes).flatMap fun
    | .inl c => [some c]
    | .inr size => List.replicate size none

/-- Why bytes are no text: where the first damaged piece starts, and its size unless it is cut. -/
structure Damage where
  index : Nat
  size : Option Nat
  deriving DecidableEq, Repr

def Damage.message (d : Damage) : String :=
  match d.size with
  | some n => s!"invalid utf-8 sequence of {n} bytes from index {d.index}"
  | none => s!"incomplete utf-8 byte sequence from index {d.index}"

def decode (bytes : Bytes) : Except Damage (List Char) :=
  go bytes.length 0 bytes
where
  go : Nat → Nat → Bytes → Except Damage (List Char)
    | 0, _, _ => .ok []
    | _, _, [] => .ok []
    | fuel + 1, index, b :: rest =>
      match head b rest with
      | .char c size => (go fuel (index + size) (rest.drop (size - 1))).map (c :: ·)
      | .bad size => .error ⟨index, some size⟩
      | .cut => .error ⟨index, none⟩

end DeliveryCharts.Text
