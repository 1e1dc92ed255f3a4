import DeliveryCharts.Json.Basic

/-!
Members of an object as a map: in key order they are determined by what each key holds, and a list
of members with repeated keys gives the last of them.
-/

namespace DeliveryCharts.Members

/-- In the order of the keys, each key once. -/
def Sorted (ms : Members) : Prop := ms.Pairwise fun a b ↦ a.1 < b.1

theorem lt_of_not {a b : String} (hne : b ≠ a) (hlt : ¬ a < b) : b < a := by
  rcases String.le_total a b with h | h
  · exact absurd (String.le_antisymm h (String.not_lt.mp hlt)) (Ne.symm hne)
  · exact String.not_le.mp fun hab ↦ hne (String.le_antisymm h hab)

theorem mem_of_get? {ms : Members} {key : String} {v : Json} (h : ms.get? key = some v) :
    (key, v) ∈ ms := by
  induction ms with
  | nil => simp [get?] at h
  | cons m ms ih =>
    obtain ⟨k, w⟩ := m
    rw [get?] at h
    split at h
    · cases h
      subst key
      exact List.mem_cons_self
    · exact List.mem_cons_of_mem _ (ih h)

theorem get?_eq_none_iff {ms : Members} {key : String} :
    ms.get? key = none ↔ ∀ m ∈ ms, m.1 ≠ key := by
  induction ms with
  | nil => simp [get?]
  | cons m ms ih =>
    obtain ⟨k, w⟩ := m
    rw [get?]
    by_cases h : k = key <;> simp [h, ih]

theorem get?_append (ms ms' : Members) (key : String) :
    get? (ms ++ ms') key = (ms.get? key).or (ms'.get? key) := by
  induction ms with
  | nil => simp [get?]
  | cons m ms ih =>
    obtain ⟨k, w⟩ := m
    rw [List.cons_append, get?, get?]
    split
    · rfl
    · exact ih

theorem get?_filter (p : String → Bool) (ms : Members) (key : String) :
    get? (ms.filter fun m ↦ p m.1) key = if p key then ms.get? key else none := by
  induction ms with
  | nil => simp [get?]
  | cons m ms ih =>
    obtain ⟨k, w⟩ := m
    by_cases hk : k = key
    · subst key
      by_cases hp : p k
      · simp [hp, get?]
      · simp only [hp, Bool.false_eq_true, not_false_eq_true, List.filter_cons_of_neg, ↓reduceIte]
          at ih ⊢
        exact ih
    · by_cases hp : p k
      · simp [hp, get?, hk, ih]
      · simp [hp, get?, hk, ih]

theorem get?_filter_not_mem (keys : List String) (ms : Members) (key : String) :
    get? (ms.filter fun m ↦ m.1 ∉ keys) key = if key ∈ keys then none else ms.get? key := by
  have h := get?_filter (fun k ↦ k ∉ keys) ms key
  by_cases hkey : key ∈ keys <;> simpa [hkey] using h

theorem get?_erase (ms : Members) (key key' : String) :
    (ms.erase key).get? key' = if key' = key then none else ms.get? key' := by
  have h := get?_filter (fun k ↦ k ≠ key) ms key'
  by_cases hkey : key' = key <;> simpa [erase, hkey] using h

theorem mem_insert {ms : Members} {key : String} {v : Json} {m : String × Json}
    (h : m ∈ ms.insert key v) : m = (key, v) ∨ m ∈ ms := by
  induction ms with
  | nil => simpa [insert] using h
  | cons n ms ih =>
    obtain ⟨k, w⟩ := n
    rw [insert] at h
    split at h
    · rcases List.mem_cons.mp h with h | h
      · exact .inl h
      · exact .inr (List.mem_cons_of_mem _ h)
    · split at h
      · exact List.mem_cons.mp h
      · rcases List.mem_cons.mp h with h | h
        · exact .inr (h ▸ List.mem_cons_self)
        · exact (ih h).imp_right (List.mem_cons_of_mem _)

theorem Sorted.insert {ms : Members} (h : ms.Sorted) (key : String) (v : Json) :
    (ms.insert key v).Sorted := by
  induction ms with
  | nil => exact List.pairwise_singleton _ _
  | cons m ms ih =>
    obtain ⟨k, w⟩ := m
    obtain ⟨hk, hms⟩ := List.pairwise_cons.mp h
    rw [Members.insert]
    split
    · subst k
      exact List.pairwise_cons.mpr ⟨hk, hms⟩
    · rename_i hne
      split
      · rename_i hlt
        refine List.pairwise_cons.mpr ⟨fun m hm ↦ ?_, h⟩
        rcases List.mem_cons.mp hm with rfl | hm
        · exact hlt
        · exact String.lt_trans hlt (hk m hm)
      · rename_i hlt
        refine List.pairwise_cons.mpr ⟨fun m hm ↦ ?_, ih hms⟩
        rcases mem_insert hm with rfl | hm
        · exact lt_of_not hne hlt
        · exact hk m hm

theorem Sorted.filter {ms : Members} (h : ms.Sorted) (p : String × Json → Bool) :
    Sorted (ms.filter p) :=
  List.Pairwise.filter p h

/-- What a key holds determines members in key order. -/
theorem Sorted.ext {ms ms' : Members} (h : ms.Sorted) (h' : ms'.Sorted)
    (heq : ∀ key, ms.get? key = ms'.get? key) : ms = ms' := by
  induction ms generalizing ms' with
  | nil =>
    cases ms' with
    | nil => rfl
    | cons m ms' => simpa [get?] using heq m.1
  | cons m ms ih =>
    obtain ⟨k, v⟩ := m
    obtain ⟨hk, hms⟩ := List.pairwise_cons.mp h
    cases ms' with
    | nil => simpa [get?] using heq k
    | cons m' ms' =>
      obtain ⟨k', v'⟩ := m'
      obtain ⟨hk', hms'⟩ := List.pairwise_cons.mp h'
      have absent (a : String) (as : Members) (ha : ∀ m ∈ as, a < m.1) : as.get? a = none :=
        get?_eq_none_iff.mpr fun m hm he ↦ String.ne_of_lt (ha m hm) he.symm
      -- the heads agree: neither key can stand behind the other's head
      have hkk : k = k' := by
        refine Decidable.byContradiction fun hne ↦ ?_
        have h₁ := heq k
        have h₂ := heq k'
        simp only [get?, hne, Ne.symm hne, ↓reduceIte] at h₁ h₂
        have lt₁ := hk' _ (mem_of_get? h₁.symm)
        have lt₂ := hk _ (mem_of_get? h₂)
        exact String.lt_asymm lt₁ lt₂
      subst k'
      have hv := heq k
      simp only [get?, ↓reduceIte, Option.some.injEq] at hv
      subst v'
      congr 1
      refine ih hms hms' fun key ↦ ?_
      by_cases hkey : k = key
      · subst key
        rw [absent k ms hk, absent k ms' hk']
      · simpa only [get?, hkey, ↓reduceIte] using heq key

private theorem foldl_insert (l : List (String × Json)) (ms : Members) (key : String) :
    get? (l.foldl (fun ms m ↦ ms.insert m.1 m.2) ms) key =
      (get? l.reverse key).or (ms.get? key) := by
  induction l generalizing ms with
  | nil => simp [get?]
  | cons m l ih =>
    rw [List.foldl_cons, ih, List.reverse_cons, get?_append, Option.or_assoc, get?_insert]
    congr 1
    simp only [get?]
    split <;> rfl

theorem get?_ofList (l : List (String × Json)) (key : String) :
    (ofList l).get? key = get? l.reverse key := by
  rw [ofList, foldl_insert]
  simp [get?]

@[simp]
theorem get?_ofList_nil (key : String) : (ofList []).get? key = none := rfl

@[simp]
theorem get?_ofList_cons (k : String) (v : Json) (l : List (String × Json)) (key : String) :
    (ofList ((k, v) :: l)).get? key =
      ((ofList l).get? key).or (if k = key then some v else none) := by
  rw [get?_ofList, get?_ofList, List.reverse_cons, get?_append]
  simp only [get?]

@[simp]
theorem get?_ofList_append (l l' : List (String × Json)) (key : String) :
    (ofList (l ++ l')).get? key = ((ofList l').get? key).or ((ofList l).get? key) := by
  rw [get?_ofList, List.reverse_append, get?_append, get?_ofList, get?_ofList]

theorem get?_ofList_eq_none {l : List (String × Json)} {key : String}
    (h : ∀ m ∈ l, m.1 ≠ key) : (ofList l).get? key = none := by
  rw [get?_ofList, get?_eq_none_iff]
  exact fun m hm ↦ h m (List.mem_reverse.mp hm)

theorem mem_ofList {l : List (String × Json)} {m : String × Json} (h : m ∈ ofList l) : m ∈ l := by
  have go (l : List (String × Json)) (ms : Members)
      (h : m ∈ l.foldl (fun ms m ↦ ms.insert m.1 m.2) ms) : m ∈ ms ∨ m ∈ l := by
    induction l generalizing ms with
    | nil => exact .inl h
    | cons n l ih =>
      rcases ih _ h with h | h
      · rcases mem_insert h with rfl | h
        · exact .inr List.mem_cons_self
        · exact .inl h
      · exact .inr (List.mem_cons_of_mem _ h)
  exact (go l [] h).resolve_left List.not_mem_nil

theorem sorted_ofList (l : List (String × Json)) : (ofList l).Sorted := by
  have go (l : List (String × Json)) (ms : Members) (h : ms.Sorted) :
      Sorted (l.foldl (fun ms m ↦ ms.insert m.1 m.2) ms) := by
    induction l generalizing ms with
    | nil => exact h
    | cons m l ih => exact ih _ (h.insert m.1 m.2)
  exact go l [] .nil

theorem Sorted.ofList_eq {ms : Members} (h : ms.Sorted) : ofList ms = ms := by
  refine (sorted_ofList ms).ext h fun key ↦ ?_
  induction ms with
  | nil => rfl
  | cons m ms ih =>
    obtain ⟨k, v⟩ := m
    obtain ⟨hk, hms⟩ := List.pairwise_cons.mp h
    rw [get?_ofList_cons, ih hms, get?]
    split
    · rename_i hkey
      subst key
      rw [get?_eq_none_iff.mpr fun m hm he ↦ String.ne_of_lt (hk m hm) he.symm]
      rfl
    · simp

theorem ofList_ofList (l : List (String × Json)) : ofList (ofList l) = ofList l :=
  (sorted_ofList l).ofList_eq

/-- Of a list only the last member with each key counts. -/
theorem ofList_congr {l l' : List (String × Json)}
    (h : ∀ key, (ofList l).get? key = (ofList l').get? key) : ofList l = ofList l' :=
  (sorted_ofList l).ext (sorted_ofList l') h

theorem ofList_append_ofList (l l' : List (String × Json)) :
    ofList (l ++ ofList l') = ofList (l ++ l') := by
  refine ofList_congr fun key ↦ ?_
  rw [get?_ofList_append, get?_ofList_append, ofList_ofList]

/-- All keys are among the given ones. -/
def Among (keys : List String) (ms : Members) : Prop := ∀ m ∈ ms, m.1 ∈ keys

section Among

variable {keys : List String} {l l' : List (String × Json)}

@[simp]
theorem among_nil : Among keys [] := fun _ hm ↦ absurd hm List.not_mem_nil

@[simp]
theorem among_cons {m : String × Json} : Among keys (m :: l) ↔ m.1 ∈ keys ∧ Among keys l :=
  List.forall_mem_cons

@[simp]
theorem among_append : Among keys (l ++ l') ↔ Among keys l ∧ Among keys l' :=
  List.forall_mem_append

theorem Among.get?_eq_none (h : Among keys l) {key : String} (hkey : key ∉ keys) :
    (ofList l).get? key = none :=
  get?_ofList_eq_none fun m hm he ↦ hkey (he ▸ h m hm)

end Among

end DeliveryCharts.Members
