import DeliveryCharts.Proofs.Json.Reordering

/-!
Trees that are read are nested as deep as the reader allows at most, and their integers have 64
bits.
-/

namespace DeliveryCharts.Json.Source

mutual

theorem within_toJson? {depth : Nat} {v : Source} {j : Json} (h : v.toJson? depth = some j) :
    j.Within (depth - 1) := by
  cases v with
  | null =>
    cases h
    exact .null _
  | bool b =>
    cases h
    exact .bool _ b
  | num n =>
    obtain ⟨n, -, rfl⟩ := Option.map_eq_some_iff.mp h
    exact .num _ n.2
  | str s =>
    obtain ⟨s, -, rfl⟩ := Option.map_eq_some_iff.mp h
    exact .str _ s
  | arr vs =>
    rw [toJson?] at h
    split at h
    · cases h
    · obtain ⟨js, hjs, rfl⟩ := Option.map_eq_some_iff.mp h
      obtain ⟨n, rfl⟩ : ∃ n, depth = n + 2 := ⟨depth - 2, by omega⟩
      exact .arr (within_toItems? hjs)
  | obj ms =>
    rw [toJson?] at h
    split at h
    · cases h
    · obtain ⟨l, hl, rfl⟩ := Option.map_eq_some_iff.mp h
      obtain ⟨n, rfl⟩ : ∃ n, depth = n + 2 := ⟨depth - 2, by omega⟩
      exact within_ofMembers (within_toMembers? hl)

theorem within_toItems? {depth : Nat} {vs : List Source} {js : List Json}
    (h : toItems? depth vs = some js) : ∀ j ∈ js, j.Within (depth - 1) := by
  cases vs with
  | nil =>
    cases h
    exact nofun
  | cons v vs =>
    simp only [toItems?, Option.bind_eq_bind, Option.bind_eq_some_iff] at h
    obtain ⟨j, hj, js, hjs, ⟨⟩⟩ := h
    exact List.forall_mem_cons.mpr ⟨within_toJson? hj, within_toItems? hjs⟩

theorem within_toMembers? {depth : Nat} {ms : List (Option String × Source)}
    {l : List (String × Json)} (h : toMembers? depth ms = some l) :
    Members.Within (depth - 1) l := by
  cases ms with
  | nil =>
    cases h
    exact nofun
  | cons m ms =>
    obtain ⟨key, v⟩ := m
    simp only [toMembers?, Option.bind_eq_bind, Option.bind_eq_some_iff] at h
    obtain ⟨key, -, j, hj, l, hl, ⟨⟩⟩ := h
    exact List.forall_mem_cons.mpr ⟨within_toJson? hj, within_toMembers? hl⟩

end

mutual

/-- What is read is nested as deep as is allowed at most. -/
theorem within_shaped? {depth : Nat} {shape : Shape} {v : Source} {j : Json}
    (h : v.shaped? depth shape = some j) : j.Within (depth - 1) := by
  cases shape with
  | whole check =>
    simp only [shaped?, Option.bind_eq_bind, Option.bind_eq_some_iff] at h
    obtain ⟨j, hj, -, -, ⟨⟩⟩ := h
    exact within_toJson? hj
  | list item =>
    cases v with
    | null =>
      cases h
      exact .null _
    | arr vs =>
      rw [shaped?] at h
      split at h
      · cases h
      · obtain ⟨js, hjs, rfl⟩ := Option.map_eq_some_iff.mp h
        obtain ⟨n, rfl⟩ : ∃ n, depth = n + 2 := ⟨depth - 2, by omega⟩
        exact .arr (within_shapedItems? hjs)
    | bool | num | str | obj => cases h
  | map =>
    cases v with
    | obj ms => exact within_toJson? (v := .obj ms) h
    | null | bool | num | str | arr => cases h
  | record name fields =>
    cases v with
    | obj ms =>
      rw [shaped?] at h
      split at h
      · cases h
      · obtain ⟨ms, hms, rfl⟩ := Option.map_eq_some_iff.mp h
        obtain ⟨l, hl, honce⟩ := Option.bind_eq_some_iff.mp hms
        obtain ⟨n, rfl⟩ : ∃ n, depth = n + 2 := ⟨depth - 2, by omega⟩
        rw [Members.once?_nil] at honce
        split at honce
        · cases honce
          exact within_ofMembers (within_fields? hl)
        · cases honce
    | arr vs =>
      rw [shaped?] at h
      split at h
      · cases h
      · obtain ⟨l, hl, rfl⟩ := Option.map_eq_some_iff.mp h
        obtain ⟨n, rfl⟩ : ∃ n, depth = n + 2 := ⟨depth - 2, by omega⟩
        exact within_ofMembers (within_positional? hl)
    | null | bool | num | str => cases h

theorem within_shapedItems? {depth : Nat} {item : Shape} {vs : List Source} {js : List Json}
    (h : shapedItems? depth item vs = some js) : ∀ j ∈ js, j.Within (depth - 1) := by
  cases vs with
  | nil =>
    cases h
    exact nofun
  | cons v vs =>
    simp only [shapedItems?, Option.bind_eq_bind, Option.bind_eq_some_iff] at h
    obtain ⟨j, hj, js, hjs, ⟨⟩⟩ := h
    exact List.forall_mem_cons.mpr ⟨within_shaped? hj, within_shapedItems? hjs⟩

theorem within_fields? {depth : Nat} {fields : List (List String × Shape)}
    {ms : List (Option String × Source)} {l : List (String × Json)}
    (h : fields? depth fields ms = some l) : Members.Within (depth - 1) l := by
  cases ms with
  | nil =>
    cases h
    exact nofun
  | cons m ms =>
    obtain ⟨key, v⟩ := m
    cases key with
    | none => cases h
    | some key =>
      cases hf : fields.find? fun f ↦ f.1.contains key with
      | none =>
        rw [fields?_undeclared hf] at h
        exact within_fields? h
      | some f =>
        rw [fields?_declared hf] at h
        obtain ⟨j, hj, h⟩ := Option.bind_eq_some_iff.mp h
        obtain ⟨l, hl, rfl⟩ := Option.map_eq_some_iff.mp h
        exact List.forall_mem_cons.mpr ⟨within_shaped? hj, within_fields? hl⟩

theorem within_positional? {depth : Nat} {fields : List (List String × Shape)} {vs : List Source}
    {l : List (String × Json)} (h : positional? depth fields vs = some l) :
    Members.Within (depth - 1) l := by
  cases vs with
  | nil =>
    cases h
    exact nofun
  | cons v vs =>
    cases fields with
    | nil => cases h
    | cons f fields =>
      simp only [positional?, Option.bind_eq_bind, Option.bind_eq_some_iff] at h
      obtain ⟨j, hj, l, hl, ⟨⟩⟩ := h
      exact List.forall_mem_cons.mpr ⟨within_shaped? hj, within_positional? hl⟩

end

end DeliveryCharts.Json.Source

namespace DeliveryCharts.Json

open Reader in
/-- What is read from a text. -/
theorem within_parse {s : String} {v : Json} (h : parse s = .ok v) : v.Within (maxDepth - 1) := by
  simp only [parse, parseReceived, Except.bind_eq_ok_iff] at h
  obtain ⟨⟨w, rest⟩, hw, -, -, hv⟩ := h
  cases hv
  have hread := Except.toOption_eq_some_iff.mpr hw
  rw [Source.value_eq (by simp [fuelFor])] at hread
  obtain ⟨r, -, hr⟩ := Option.bind_eq_some_iff.mp hread
  obtain ⟨j, hj, hjw⟩ := Option.map_eq_some_iff.mp hr
  cases hjw
  exact Source.within_toJson? hj

end DeliveryCharts.Json
