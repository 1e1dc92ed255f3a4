import DeliveryCharts.Proofs.Json.Reading

/-!
Levels of a tree. A text is refused where its tree is nested deeper than the reader allows, however
much of it has been read before.
-/

namespace DeliveryCharts.Json

open Text (Received)

mutual

/-- How deep lists and objects are nested. -/
def levels : Json → Nat
  | arr items => levelsItems items + 1
  | obj ms => levelsMembers ms + 1
  | _ => 0

def levelsItems : List Json → Nat
  | [] => 0
  | v :: vs => max (levels v) (levelsItems vs)

def levelsMembers : List (String × Json) → Nat
  | [] => 0
  | (_, v) :: ms => max (levels v) (levelsMembers ms)

end

theorem levels_arr_le {vs : List Json} {n : Nat} :
    (arr vs).levels ≤ n + 1 ↔ ∀ v ∈ vs, v.levels ≤ n := by
  rw [levels, Nat.add_le_add_iff_right]
  induction vs with
  | nil => simp [levelsItems]
  | cons v vs ih => rw [levelsItems, Nat.max_le, List.forall_mem_cons, ih]

theorem levels_obj_le {ms : Members} {n : Nat} :
    (obj ms).levels ≤ n + 1 ↔ ∀ m ∈ ms, m.2.levels ≤ n := by
  rw [levels, Nat.add_le_add_iff_right]
  induction ms with
  | nil => simp [levelsMembers]
  | cons m ms ih => rw [levelsMembers, Nat.max_le, List.forall_mem_cons, ih]

theorem lt_levels_arr {vs : List Json} {n : Nat} :
    n + 1 < (arr vs).levels ↔ ∃ v ∈ vs, n < v.levels := by
  rw [← Nat.not_le, levels_arr_le]
  simp only [Classical.not_forall, exists_prop, Nat.not_le]

theorem lt_levels_obj {ms : Members} {n : Nat} :
    n + 1 < (obj ms).levels ↔ ∃ m ∈ ms, n < m.2.levels := by
  rw [← Nat.not_le, levels_obj_le]
  simp only [Classical.not_forall, exists_prop, Nat.not_le]

theorem Within.levels {n : Nat} {v : Json} (h : v.Within n) : v.Within v.levels := by
  induction h with
  | null => exact .null _
  | bool n b => exact .bool _ b
  | num n hx => exact .num _ hx
  | str n s => exact .str _ s
  | @arr n vs h ih => exact .arr fun v hv ↦ (ih v hv).mono (levels_arr_le.mp (Nat.le_refl _) v hv)
  | @obj n ms hs h ih =>
    exact .obj hs fun m hm ↦ (ih m hm).mono (levels_obj_le.mp (Nat.le_refl _) m hm)

namespace Reader

/-- Where the text of the tree stands behind blanks, the reader runs out of levels. -/
def RefusedAt (depth : Nat) (v : Json) : Prop :=
  ∀ (fuel level : Nat) (s rest : Received), (prettyChars level v).length ≤ fuel → Stops rest →
    skipSpace s = (prettyChars level v).map some ++ rest → value fuel depth s = .error .tooDeep

theorem refusedAt_of_succ {depth : Nat} {v : Json} (hi : v.isIntegral = true)
    (h : ∀ (fuel level : Nat) (s rest : Received), (prettyChars level v).length ≤ fuel + 1 →
      Stops rest → skipSpace s = (prettyChars level v).map some ++ rest →
      value (fuel + 1) depth s = .error .tooDeep) : RefusedAt depth v := by
  intro fuel level s rest hf hr hs
  obtain ⟨fuel, rfl⟩ := exists_fuel hi hf
  exact h fuel level s rest hf hr hs

section Steps

variable {fuel depth : Nat} {first : Bool} {s tail : Received} (level : Nat)

theorem items_refused {v : Json} (hv : RefusedAt depth v) (hi : v.isIntegral = true)
    (hf : (prettyChars level v).length ≤ fuel) (hr : Stops tail)
    (hs : nextItem first s = .ok (true, (prettyChars level v).map some ++ tail)) :
    items (fuel + 1) depth first s = .error .tooDeep := by
  have hread := hv fuel level _ tail hf hr (skipSpace_prettyChars hi level tail)
  rw [items, hs]
  simp only [bind, Except.bind, hread, Bool.not_true, Bool.false_eq_true, ↓reduceIte]

theorem members_refused {m : String × Json} {ms : Members} (hv : RefusedAt depth m.2)
    (hi : m.2.isIntegral = true) (hf : (prettyChars level m.2).length ≤ fuel) (hr : Stops tail)
    (hs : nextKey first s = .ok (true, (memberChars level m).map some ++ tail)) :
    members (fuel + 1) depth first ms s = .error .tooDeep := by
  have hread := hv fuel level (some ' ' :: _) tail hf hr (skipSpace_prettyChars hi level tail)
  have hcolon (s : Received) : colon (some ':' :: s) = .ok s := rfl
  rw [members, hs]
  simp only [bind, Except.bind, string_memberChars, hcolon, hread, Bool.not_true,
    Bool.false_eq_true, ↓reduceIte]

end Steps

section Lists

variable {depth : Nat} {v : Json} {vs : List Json}

/-- The values before the first that is refused are read. -/
theorem items_tooDeep (fuel : Nat) {level : Nat} {first : Bool} {s rest : Received}
    (h : ∀ w ∈ v :: vs, (ReadsAt depth w ∨ RefusedAt depth w) ∧ w.isIntegral = true)
    (hdeep : ∃ w ∈ v :: vs, RefusedAt depth w)
    (hf : (prettyChars (level + 1) v).length + (prettyItems level vs).length < fuel)
    (hs : nextItem first s = .ok (true, (prettyChars (level + 1) v).map some ++
      ((prettyItems level vs).map some ++ rest))) :
    items fuel depth first s = .error .tooDeep := by
  induction vs generalizing v fuel first s with
  | nil =>
    obtain ⟨⟨-, hi⟩, -⟩ := List.forall_mem_cons.mp h
    obtain ⟨w, hw, hrefused⟩ := hdeep
    obtain rfl := List.mem_singleton.mp hw
    obtain ⟨fuel, rfl⟩ := Nat.exists_eq_add_one_of_ne_zero (by omega : fuel ≠ 0)
    exact items_refused (level + 1) hrefused hi (by omega) (stops_prettyItems level _ rest) hs
  | cons v' vs ih =>
    obtain ⟨⟨hv, hi⟩, hvs⟩ := List.forall_mem_cons.mp h
    have hi' := (hvs v' List.mem_cons_self).2
    have hlen := length_prettyItems level vs v'
    obtain ⟨fuel, rfl⟩ := Nat.exists_eq_add_one_of_ne_zero (by omega : fuel ≠ 0)
    by_cases hrefused : RefusedAt depth v
    · exact items_refused (level + 1) hrefused hi (by omega) (stops_prettyItems level _ rest) hs
    · have hread := hv.resolve_right hrefused
      -- the head is read, so the refused value stands behind it
      have hrest : ∃ w ∈ v' :: vs, RefusedAt depth w := by
        obtain ⟨w, hw, hw'⟩ := hdeep
        rcases List.mem_cons.mp hw with rfl | hw
        · exact absurd hw' hrefused
        · exact ⟨w, hw, hw'⟩
      rw [items_step (level + 1) hread hi (by omega) (stops_prettyItems level _ rest) hs,
        ih fuel hvs hrest (by omega) (nextItem_next level vs rest hi')]
      rfl

theorem refusedAt_arr
    (h : ∀ v ∈ vs, (ReadsAt (depth + 1) v ∨ RefusedAt (depth + 1) v) ∧ v.isIntegral = true)
    (hdeep : ∃ v ∈ vs, RefusedAt (depth + 1) v) : RefusedAt (depth + 2) (.arr vs) := by
  cases vs with
  | nil =>
    obtain ⟨w, hw, -⟩ := hdeep
    exact absurd hw List.not_mem_nil
  | cons v vs =>
    have hi := (h v List.mem_cons_self).2
    refine refusedAt_of_succ (isIntegral_arr.mpr fun w hw ↦ (h w hw).2) ?_
    intro fuel level s rest hf hr hs
    rw [prettyChars_arr] at hf hs
    rw [List.length_cons] at hf
    have hlen := length_listChars level vs v
    have hitems := items_tooDeep fuel h hdeep (by omega) (nextItem_first level vs rest hi)
    rw [value, hs]
    exact congrArg (Except.map _) hitems

end Lists

section Objects

variable {depth : Nat} {m : String × Json} {ms : List (String × Json)}

/-- The members before the first that is refused are read. -/
theorem members_tooDeep (fuel : Nat) (ms' : Members) {level : Nat} {first : Bool}
    {s rest : Received}
    (h : ∀ n ∈ m :: ms, (ReadsAt depth n.2 ∨ RefusedAt depth n.2) ∧ n.2.isIntegral = true)
    (hdeep : ∃ n ∈ m :: ms, RefusedAt depth n.2)
    (hf : (prettyChars (level + 1) m.2).length + (prettyMembers level ms).length < fuel)
    (hs : nextKey first s = .ok (true, (memberChars (level + 1) m).map some ++
      ((prettyMembers level ms).map some ++ rest))) :
    members fuel depth first ms' s = .error .tooDeep := by
  induction ms generalizing m fuel first ms' s with
  | nil =>
    obtain ⟨⟨-, hi⟩, -⟩ := List.forall_mem_cons.mp h
    obtain ⟨n, hn, hrefused⟩ := hdeep
    obtain rfl := List.mem_singleton.mp hn
    obtain ⟨fuel, rfl⟩ := Nat.exists_eq_add_one_of_ne_zero (by omega : fuel ≠ 0)
    exact members_refused (level + 1) hrefused hi (by omega) (stops_prettyMembers level _ rest) hs
  | cons m' ms ih =>
    obtain ⟨⟨hv, hi⟩, hms⟩ := List.forall_mem_cons.mp h
    have hlen := length_prettyMembers level m' ms
    obtain ⟨fuel, rfl⟩ := Nat.exists_eq_add_one_of_ne_zero (by omega : fuel ≠ 0)
    by_cases hrefused : RefusedAt depth m.2
    · exact members_refused (level + 1) hrefused hi (by omega) (stops_prettyMembers level _ rest)
        hs
    · have hread := hv.resolve_right hrefused
      have hrest : ∃ n ∈ m' :: ms, RefusedAt depth n.2 := by
        obtain ⟨n, hn, hn'⟩ := hdeep
        rcases List.mem_cons.mp hn with rfl | hn
        · exact absurd hn' hrefused
        · exact ⟨n, hn, hn'⟩
      rw [members_step (level + 1) hread hi (by omega) (stops_prettyMembers level _ rest) hs]
      exact ih fuel _ hms hrest (by omega) (nextKey_next level m' ms rest)

theorem refusedAt_obj
    (h : ∀ m ∈ ms, (ReadsAt (depth + 1) m.2 ∨ RefusedAt (depth + 1) m.2) ∧
      m.2.isIntegral = true)
    (hdeep : ∃ m ∈ ms, RefusedAt (depth + 1) m.2) : RefusedAt (depth + 2) (.obj ms) := by
  cases ms with
  | nil =>
    obtain ⟨n, hn, -⟩ := hdeep
    exact absurd hn List.not_mem_nil
  | cons m ms =>
    refine refusedAt_of_succ (isIntegral_obj.mpr fun n hn ↦ (h n hn).2) ?_
    intro fuel level s rest hf hr hs
    rw [prettyChars_obj] at hf hs
    rw [List.length_cons] at hf
    have hlen := length_objectChars level m ms
    have hmembers := members_tooDeep fuel [] h hdeep (by omega) (nextKey_first level m ms rest)
    rw [value, hs]
    exact congrArg (Except.map _) hmembers

end Objects

/-- Nothing nested is read where a single level is left. -/
theorem refusedAt_one {depth : Nat} {v : Json} (hd : depth ≤ 1) (hi : v.isIntegral = true)
    (hv : 0 < v.levels) : RefusedAt depth v := by
  refine refusedAt_of_succ hi fun fuel level s rest _ _ hs ↦ ?_
  cases v with
  | null | bool | num | str => exact absurd hv (Nat.lt_irrefl 0)
  | arr vs =>
    rw [prettyChars_arr] at hs
    rw [value, hs]
    exact if_pos hd
  | obj ms =>
    rw [prettyChars_obj] at hs
    rw [value, hs]
    exact if_pos hd

theorem refusedAt_of_levels {n depth : Nat} {v : Json} (h : v.Within n)
    (hi : v.isIntegral = true) (hv : 0 < v.levels) (hd : depth ≤ v.levels) :
    RefusedAt depth v := by
  induction h generalizing depth with
  | null | bool | num | str => exact absurd hv (Nat.lt_irrefl 0)
  | @arr n vs h ih =>
    by_cases hone : depth ≤ 1
    · exact refusedAt_one hone hi hv
    · obtain ⟨depth, rfl⟩ : ∃ d, depth = d + 2 := ⟨depth - 2, by omega⟩
      rw [isIntegral_arr] at hi
      apply refusedAt_arr
      · intro v hv
        refine ⟨?_, hi v hv⟩
        by_cases hle : depth + 1 ≤ v.levels
        · exact .inr (ih v hv (hi v hv) (by omega) hle)
        · exact .inl (readsAt_of_within (h v hv).levels (hi v hv) (by omega))
      · obtain ⟨v, hv, hle⟩ := lt_levels_arr.mp hd
        exact ⟨v, hv, ih v hv (hi v hv) (by omega) hle⟩
  | @obj n ms hs h ih =>
    by_cases hone : depth ≤ 1
    · exact refusedAt_one hone hi hv
    · obtain ⟨depth, rfl⟩ : ∃ d, depth = d + 2 := ⟨depth - 2, by omega⟩
      rw [isIntegral_obj] at hi
      apply refusedAt_obj
      · intro m hm
        refine ⟨?_, hi m hm⟩
        by_cases hle : depth + 1 ≤ m.2.levels
        · exact .inr (ih m hm (hi m hm) (by omega) hle)
        · exact .inl (readsAt_of_within (h m hm).levels (hi m hm) (by omega))
      · obtain ⟨m, hm, hle⟩ := lt_levels_obj.mp hd
        exact ⟨m, hm, ih m hm (hi m hm) (by omega) hle⟩

end Reader

/-- The text of a tree as it is compared is read as the tree, unless it is nested too deep. -/
theorem parse_prettyChars {n : Nat} {v : Json} (h : v.Within n) (hi : v.isIntegral = true) :
    parseReceived ((prettyChars 0 v ++ ['\n']).map some) =
      if v.levels < Reader.maxDepth then .ok v else .error .tooDeep := by
  have hfuel := Nat.le_of_lt (Reader.length_lt_fuelFor (prettyChars 0 v))
  have hskip := Reader.skipSpace_text hi
  rw [parseReceived]
  split
  · rename_i hd
    rw [Reader.readsAt_of_within h.levels hi hd _ 0 _ _ hfuel (.line []) hskip]
    rfl
  · rename_i hd
    have hlevels : 0 < v.levels := Nat.lt_of_lt_of_le (by decide) (Nat.le_of_not_lt hd)
    rw [Reader.refusedAt_of_levels h hi hlevels (Nat.le_of_not_lt hd) _ 0 _ _ hfuel (.line [])
      hskip]
    rfl

end DeliveryCharts.Json
