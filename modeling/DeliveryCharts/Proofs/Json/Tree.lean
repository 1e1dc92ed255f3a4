import DeliveryCharts.Proofs.Json.Members

/-!
Trees as documents give them: objects in key order, integers of 64 bits, and a bounded number of
levels. Such a tree is its own canonical form.
-/

namespace DeliveryCharts

/-- An integer fits 64 bits, with or without a sign. -/
def Number.Fits : Number → Prop
  | .int z => Width.signed 64 z ∨ Width.unsigned 64 z
  | .float _ => True

namespace Json

/-- Lists and objects are nested at most `n` deep. -/
inductive Within : Nat → Json → Prop
  | null (n : Nat) : Within n null
  | bool (n : Nat) (b : Bool) : Within n (bool b)
  | num (n : Nat) {x : Number} (h : x.Fits) : Within n (num x)
  | str (n : Nat) (s : String) : Within n (str s)
  | arr {n : Nat} {vs : List Json} (h : ∀ v ∈ vs, Within n v) : Within (n + 1) (arr vs)
  | obj {n : Nat} {ms : Members} (hs : ms.Sorted) (h : ∀ m ∈ ms, Within n m.2) :
      Within (n + 1) (obj ms)

end Json

/-- What the members hold is nested at most `n` deep. -/
def Members.Within (n : Nat) (ms : Members) : Prop := ∀ m ∈ ms, m.2.Within n

namespace Json

theorem Within.mono {n k : Nat} {v : Json} (h : v.Within n) (hk : n ≤ k) : v.Within k := by
  induction h generalizing k with
  | null => exact .null k
  | bool n b => exact .bool k b
  | num n h => exact .num k h
  | str n s => exact .str k s
  | arr h ih =>
    obtain ⟨k, rfl⟩ := Nat.exists_eq_add_one_of_ne_zero (by omega : k ≠ 0)
    exact .arr fun v hv ↦ ih v hv (by omega)
  | obj hs h ih =>
    obtain ⟨k, rfl⟩ := Nat.exists_eq_add_one_of_ne_zero (by omega : k ≠ 0)
    exact .obj hs fun m hm ↦ ih m hm (by omega)

theorem canonicalItems_eq (vs : List Json) : canonicalItems vs = vs.map canonical := by
  induction vs with
  | nil => rfl
  | cons v vs ih => rw [canonicalItems, ih, List.map_cons]

theorem canonicalMembers_eq (ms : List (String × Json)) :
    canonicalMembers ms = ms.map fun m ↦ (m.1, canonical m.2) := by
  induction ms with
  | nil => rfl
  | cons m ms ih => rw [canonicalMembers, ih, List.map_cons]

theorem canonicalMembers_of_forall {ms : List (String × Json)}
    (h : ∀ m ∈ ms, canonical m.2 = m.2) : canonicalMembers ms = ms := by
  have hm : ∀ m ∈ ms, (m.1, canonical m.2) = id m := fun m hm ↦ by
    rw [h m hm]
    rfl
  simpa [canonicalMembers_eq] using List.map_congr_left hm

theorem Within.canonical_eq {n : Nat} {v : Json} (h : v.Within n) : v.canonical = v := by
  induction h with
  | null | bool | num | str => simp [canonical]
  | @arr n vs h ih =>
    have hvs : vs.map canonical = vs := by
      simpa using List.map_congr_left ih
    rw [canonical, canonicalItems_eq, hvs]
  | @obj n ms hs h ih =>
    rw [canonical, canonicalMembers_of_forall ih, hs.ofList_eq]

/-- An object whose members hold trees of documents is canonical once its members are in order. -/
theorem canonical_obj {n : Nat} {ms : Members} (h : ms.Within n) :
    (obj ms).canonical = ofMembers ms := by
  rw [canonical, canonicalMembers_of_forall fun m hm ↦ (h m hm).canonical_eq, ofMembers]

theorem Within.obj_inv {n : Nat} {ms : Members} (h : (Json.obj ms).Within n) :
    ms.Sorted ∧ ∃ k, n = k + 1 ∧ ms.Within k := by
  cases h with
  | @obj k _ hs h => exact ⟨hs, k, rfl, h⟩

theorem Within.arr_inv {n : Nat} {vs : List Json} (h : (Json.arr vs).Within n) :
    ∃ k, n = k + 1 ∧ ∀ v ∈ vs, v.Within k := by
  cases h with
  | @arr k _ h => exact ⟨k, rfl, h⟩

mutual

/-- All texts of the tree are such, its keys too. -/
def allTexts (p : String → Bool) : Json → Bool
  | str s => p s
  | arr vs => allTextsItems p vs
  | obj ms => allTextsMembers p ms
  | _ => true

def allTextsItems (p : String → Bool) : List Json → Bool
  | [] => true
  | v :: vs => allTexts p v && allTextsItems p vs

def allTextsMembers (p : String → Bool) : List (String × Json) → Bool
  | [] => true
  | (k, v) :: ms => p k && allTexts p v && allTextsMembers p ms

end

theorem allTexts_arr {p : String → Bool} {vs : List Json} :
    (arr vs).allTexts p = true ↔ ∀ v ∈ vs, v.allTexts p = true := by
  rw [allTexts]
  induction vs with
  | nil => simp [allTextsItems]
  | cons v vs ih => simp [allTextsItems, ih]

theorem allTexts_obj {p : String → Bool} {ms : Members} :
    (obj ms).allTexts p = true ↔ ∀ m ∈ ms, p m.1 = true ∧ m.2.allTexts p = true := by
  rw [allTexts]
  induction ms with
  | nil => simp [allTextsMembers]
  | cons m ms ih => simp [allTextsMembers, ih]

attribute [simp] Within.null Within.bool Within.str

@[simp]
theorem within_arr_iff {n : Nat} {vs : List Json} :
    (arr vs).Within (n + 1) ↔ ∀ v ∈ vs, v.Within n :=
  ⟨fun h ↦ by cases h; assumption, .arr⟩

theorem within_ofInt {z : Int} (h : Width.signed 64 z) (n : Nat) : (ofInt z).Within n :=
  .num n (.inl h)

theorem within_ofMembers {n : Nat} {l : List (String × Json)} (h : Members.Within n l) :
    (ofMembers l).Within (n + 1) :=
  .obj (Members.sorted_ofList l) fun m hm ↦ h m (Members.mem_ofList hm)

end Json

namespace Members

variable {n : Nat} {l l' : List (String × Json)}

@[simp]
theorem within_nil : Members.Within n [] := fun _ hm ↦ absurd hm List.not_mem_nil

@[simp]
theorem within_cons {m : String × Json} :
    Members.Within n (m :: l) ↔ m.2.Within n ∧ Members.Within n l :=
  List.forall_mem_cons

@[simp]
theorem within_append :
    Members.Within n (l ++ l') ↔ Members.Within n l ∧ Members.Within n l' :=
  List.forall_mem_append

end Members

namespace Members.Within

variable {n : Nat} {l l' : List (String × Json)}

theorem mono {k : Nat} (h : Members.Within n l) (hk : n ≤ k) : Members.Within k l :=
  fun m hm ↦ (h m hm).mono hk

theorem get? (h : Members.Within n l) {key : String} {v : Json}
    (hv : Members.get? l key = some v) : v.Within n :=
  h _ (mem_of_get? hv)

theorem filter (h : Members.Within n l) (p : String × Json → Bool) :
    Members.Within n (l.filter p) :=
  fun m hm ↦ h m (List.mem_filter.mp hm).1

theorem ofList (h : Members.Within n l) : Members.Within n (Members.ofList l) :=
  fun m hm ↦ h m (mem_ofList hm)

end Members.Within

end DeliveryCharts
