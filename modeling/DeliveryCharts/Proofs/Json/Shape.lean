import DeliveryCharts.Proofs.Json.Reading
import DeliveryCharts.Proofs.Text.Utf8

/-!
A form and the trees that it admits: the text of such a tree is read as the tree.
-/

namespace DeliveryCharts.Json.Shape

open Reader
open Text (Received)

/-- Trees that have the form, where the fields of records go by their names. -/
inductive Admits : Shape → Json → Prop
  | whole {check : Json → Except Fault Unit} {v : Json} (h : check v = .ok ()) :
    Admits (.whole check) v
  | list {item : Shape} {vs : List Json} (h : ∀ v ∈ vs, Admits item v) :
    Admits (.list item) (.arr vs)
  | map (ms : Members) : Admits .map (.obj ms)
  | record (name : String) {fields : List (List String × Shape)} {ms : Members}
    (hf : ∀ m ∈ ms, ∃ f, fields.find? (fun f ↦ f.1.contains m.1) = some f ∧ nameOf f.1 = m.1)
    (h : ∀ m ∈ ms, ∀ f, fields.find? (fun f ↦ f.1.contains m.1) = some f → Admits f.2 m.2) :
    Admits (.record name fields) (.obj ms)

/-- Where the text of the tree stands behind blanks, the form reads the tree and leaves what
follows. -/
def ReadsAt (shape : Shape) (depth : Nat) (v : Json) : Prop :=
  ∀ (fuel level : Nat) (s rest : Received), (prettyChars level v).length < fuel → Stops rest →
    skipSpace s = (prettyChars level v).map some ++ rest →
    read fuel depth shape s = .ok (v, rest)

theorem lift_ok {α : Type} (a : α) : lift (.ok a) = .ok a := rfl

section Steps

variable {fuel depth : Nat} {first : Bool} {v : Json} {s tail rest : Received} {item : Shape}
  {fields : List (List String × Shape)} (level : Nat)

theorem readItems_end (hs : nextItem first s = .ok (false, rest)) :
    readItems (fuel + 1) depth item first s = .ok ([], rest) := by
  rw [readItems, hs]
  rfl

theorem readItems_step {vs : List Json} (hv : item.ReadsAt depth v) (hi : v.isIntegral = true)
    (hf : (prettyChars level v).length < fuel) (hr : Stops tail)
    (hs : nextItem first s = .ok (true, (prettyChars level v).map some ++ tail))
    (ht : readItems fuel depth item false tail = .ok (vs, rest)) :
    readItems (fuel + 1) depth item first s = .ok (v :: vs, rest) := by
  have hread := hv fuel level _ tail hf hr (skipSpace_prettyChars hi level tail)
  rw [readItems, hs]
  simp only [bind, Except.bind, lift_ok, hread, ht, Bool.not_true, Bool.false_eq_true,
    ↓reduceIte]
  rfl

theorem readMembers_end {ms : Members} (hs : nextKey first s = .ok (false, rest)) :
    readMembers (fuel + 1) depth fields first ms s = .ok (ms, rest) := by
  rw [readMembers, hs]
  rfl

theorem readMembers_step {m : String × Json} {ms ms' : Members} {f : List String × Shape}
    (hfind : fields.find? (fun f ↦ f.1.contains m.1) = some f) (hname : nameOf f.1 = m.1)
    (hnew : ms.get? m.1 = none) (hv : f.2.ReadsAt depth m.2) (hi : m.2.isIntegral = true)
    (hf : (prettyChars level m.2).length < fuel) (hr : Stops tail)
    (hs : nextKey first s = .ok (true, (memberChars level m).map some ++ tail))
    (ht : readMembers fuel depth fields false (ms.insert m.1 m.2) tail = .ok (ms', rest)) :
    readMembers (fuel + 1) depth fields first ms s = .ok (ms', rest) := by
  have hread := hv fuel level (some ' ' :: _) tail hf hr (skipSpace_prettyChars hi level tail)
  have hcolon (s : Received) : colon (some ':' :: s) = .ok s := rfl
  have hcontains : ms.contains m.1 = false := by
    rw [Members.contains, hnew]
    rfl
  rw [readMembers, hs]
  simp only [bind, Except.bind, lift_ok, string_memberChars, hfind, hname, hcontains,
    hcolon, hread, ht, Bool.not_true, Bool.false_eq_true, ↓reduceIte]

end Steps

section Lists

variable {depth : Nat} {item : Shape} {vs : List Json}

/-- The form reads what a list holds. -/
def ItemsReadAt (item : Shape) (depth : Nat) (vs : List Json) : Prop :=
  ∀ v ∈ vs, item.ReadsAt depth v ∧ v.isIntegral = true

theorem readItems_next (h : item.ItemsReadAt depth vs) {fuel level : Nat}
    (hf : (prettyItems level vs).length < fuel) (rest : Received) :
    readItems fuel depth item false ((prettyItems level vs).map some ++ rest) = .ok (vs, rest) := by
  induction vs generalizing fuel with
  | nil =>
    obtain ⟨fuel, rfl⟩ := Nat.exists_eq_add_one_of_ne_zero (by omega : fuel ≠ 0)
    exact readItems_end (nextItem_last level rest)
  | cons v vs ih =>
    obtain ⟨⟨hv, hi⟩, hvs⟩ := List.forall_mem_cons.mp h
    have hlen := length_prettyItems level vs v
    obtain ⟨fuel, rfl⟩ := Nat.exists_eq_add_one_of_ne_zero (by omega : fuel ≠ 0)
    exact readItems_step (level + 1) hv hi (by omega) (stops_prettyItems level vs rest)
      (nextItem_next level vs rest hi) (ih hvs (by omega))

theorem readItems_first (h : item.ItemsReadAt depth vs) {fuel level : Nat}
    (hf : (listChars level vs).length < fuel) (rest : Received) :
    readItems fuel depth item true ((listChars level vs).map some ++ rest) = .ok (vs, rest) := by
  obtain ⟨fuel, rfl⟩ := Nat.exists_eq_add_one_of_ne_zero (by omega : fuel ≠ 0)
  cases vs with
  | nil => exact readItems_end rfl
  | cons v vs =>
    obtain ⟨⟨hv, hi⟩, hvs⟩ := List.forall_mem_cons.mp h
    have hlen := length_listChars level vs v
    exact readItems_step (level + 1) hv hi (by omega) (stops_prettyItems level vs rest)
      (nextItem_first level vs rest hi) (readItems_next hvs (by omega) rest)

end Lists

section Records

variable {depth : Nat} {fields : List (List String × Shape)} {ms : List (String × Json)}

/-- The forms of the fields read what the members hold. -/
def MembersReadAt (fields : List (List String × Shape)) (depth : Nat)
    (ms : List (String × Json)) : Prop :=
  ∀ m ∈ ms, (∃ f, fields.find? (fun f ↦ f.1.contains m.1) = some f ∧ nameOf f.1 = m.1 ∧
    f.2.ReadsAt depth m.2) ∧ m.2.isIntegral = true

theorem readMembers_next (h : MembersReadAt fields depth ms) (hs : Members.Sorted ms)
    {fuel level : Nat} (hf : (prettyMembers level ms).length < fuel) {ms' : Members}
    (hnew : ∀ m ∈ ms, ms'.get? m.1 = none) (rest : Received) :
    readMembers fuel depth fields false ms' ((prettyMembers level ms).map some ++ rest) =
      .ok (ms.foldl (fun ms m ↦ ms.insert m.1 m.2) ms', rest) := by
  induction ms generalizing fuel ms' with
  | nil =>
    obtain ⟨fuel, rfl⟩ := Nat.exists_eq_add_one_of_ne_zero (by omega : fuel ≠ 0)
    exact readMembers_end (nextKey_last level rest)
  | cons m ms ih =>
    obtain ⟨⟨⟨f, hfind, hname, hv⟩, hi⟩, hms⟩ := List.forall_mem_cons.mp h
    obtain ⟨hm, hnew⟩ := List.forall_mem_cons.mp hnew
    obtain ⟨hlt, hs⟩ := List.pairwise_cons.mp hs
    have hlen := length_prettyMembers level m ms
    obtain ⟨fuel, rfl⟩ := Nat.exists_eq_add_one_of_ne_zero (by omega : fuel ≠ 0)
    have hnew' : ∀ m' ∈ ms, (ms'.insert m.1 m.2).get? m'.1 = none := fun m' hm' ↦ by
      rw [Members.get?_insert, if_neg (String.ne_of_lt (hlt m' hm')), hnew m' hm']
    exact readMembers_step (level + 1) hfind hname hm hv hi (by omega)
      (stops_prettyMembers level ms rest) (nextKey_next level m ms rest)
      (ih hms hs (by omega) hnew')

theorem readMembers_first (h : MembersReadAt fields depth ms) (hs : Members.Sorted ms)
    {fuel level : Nat} (hf : (objectChars level ms).length < fuel) (rest : Received) :
    readMembers fuel depth fields true [] ((objectChars level ms).map some ++ rest) =
      .ok (Members.ofList ms, rest) := by
  obtain ⟨fuel, rfl⟩ := Nat.exists_eq_add_one_of_ne_zero (by omega : fuel ≠ 0)
  cases ms with
  | nil => exact readMembers_end rfl
  | cons m ms =>
    obtain ⟨⟨⟨f, hfind, hname, hv⟩, hi⟩, hms⟩ := List.forall_mem_cons.mp h
    obtain ⟨hlt, hs⟩ := List.pairwise_cons.mp hs
    have hlen := length_objectChars level m ms
    have hnew : ∀ m' ∈ ms, Members.get? [(m.1, m.2)] m'.1 = none := fun m' hm' ↦ by
      rw [Members.get?, if_neg (String.ne_of_lt (hlt m' hm')), Members.get?]
    exact readMembers_step (level + 1) hfind hname rfl hv hi (by omega)
      (stops_prettyMembers level ms rest) (nextKey_first level m ms rest)
      (readMembers_next hms hs (by omega) hnew rest)

end Records

theorem Admits.readsAt {shape : Shape} {v : Json} (h : shape.Admits v) {n depth : Nat}
    (hv : v.Within n) (hi : v.isIntegral = true) (hd : n < depth) : shape.ReadsAt depth v := by
  induction h generalizing n depth with
  | whole hcheck =>
    intro fuel level s rest hf hr hs
    obtain ⟨fuel, rfl⟩ := Nat.exists_eq_add_one_of_ne_zero (by omega : fuel ≠ 0)
    rw [read, readsAt_of_within hv hi hd fuel level s rest (by omega) hr hs]
    simp only [bind, Except.bind, lift_ok, hcheck]
    rfl
  | @list item vs h ih =>
    obtain ⟨k, rfl, hvs⟩ := hv.arr_inv
    obtain ⟨depth, rfl⟩ : ∃ d, depth = d + 2 := ⟨depth - 2, by omega⟩
    rw [isIntegral_arr] at hi
    intro fuel level s rest hf hr hs
    obtain ⟨fuel, rfl⟩ := Nat.exists_eq_add_one_of_ne_zero (by omega : fuel ≠ 0)
    rw [prettyChars_arr] at hf hs
    have hread : item.ItemsReadAt (depth + 1) vs :=
      fun v hv ↦ ⟨ih v hv (hvs v hv) (hi v hv) (by omega), hi v hv⟩
    have hitems := readItems_first hread (by simpa using hf) rest
    rw [read, hs]
    exact Except.bind_eq_ok_iff.mpr ⟨_, hitems, rfl⟩
  | map ms =>
    intro fuel level s rest hf hr hs
    obtain ⟨fuel, rfl⟩ := Nat.exists_eq_add_one_of_ne_zero (by omega : fuel ≠ 0)
    have hvalue := readsAt_of_within hv hi hd fuel level
      ((prettyChars level (.obj ms)).map some ++ rest) rest (by omega) hr (by
        rw [prettyChars_obj]
        exact skipSpace_of_not (by decide) _)
    rw [prettyChars_obj] at hs hvalue
    rw [read, hs]
    exact congrArg lift hvalue
  | @record name fields ms hf h ih =>
    obtain ⟨hsorted, k, rfl, hms⟩ := hv.obj_inv
    obtain ⟨depth, rfl⟩ : ∃ d, depth = d + 2 := ⟨depth - 2, by omega⟩
    rw [isIntegral_obj] at hi
    have hmembers : MembersReadAt fields (depth + 1) ms := fun m hm ↦ by
      obtain ⟨f, hfind, hname⟩ := hf m hm
      exact ⟨⟨f, hfind, hname, ih m hm f hfind (hms m hm) (hi m hm) (by omega)⟩, hi m hm⟩
    intro fuel level s rest hfuel hr hs
    obtain ⟨fuel, rfl⟩ := Nat.exists_eq_add_one_of_ne_zero (by omega : fuel ≠ 0)
    rw [prettyChars_obj] at hfuel hs
    have hread := readMembers_first hmembers hsorted (by simpa using hfuel) rest
    rw [hsorted.ofList_eq] at hread
    rw [read, hs]
    exact Except.bind_eq_ok_iff.mpr ⟨_, hread, rfl⟩

/-- A tree that the form admits is read from its text. -/
theorem parse_pretty {shape : Shape} {v : Json} (h : shape.Admits v) {n : Nat} (hv : v.Within n)
    (hi : v.isIntegral = true) (hn : n < maxDepth) :
    shape.parse ((prettyChars 0 v ++ ['\n']).map some) = .ok v := by
  have hread := h.readsAt hv hi hn (fuelFor ((prettyChars 0 v ++ ['\n']).map some)) 0
    ((prettyChars 0 v ++ ['\n']).map some) [some '\n'] (length_lt_fuelFor _) (.line [])
    (skipSpace_text hi)
  rw [parse, hread]
  rfl

/-- The bytes of the text of a tree that the form admits are read as the tree. -/
theorem parse_canonicalText {shape : Shape} {n : Nat} {l : List (String × Json)}
    (h : shape.Admits (ofMembers l)) (hl : Members.Within n l)
    (hi : (ofMembers l).isIntegral = true) (hn : n + 1 < Reader.maxDepth) :
    shape.parse (Text.received (Text.utf8String (obj l).canonicalText)) = .ok (ofMembers l) := by
  rw [Text.utf8String, canonicalText, String.toList_ofList, Text.received_utf8, canonical_obj hl]
  exact parse_pretty h (within_ofMembers hl) hi hn

/-! Records that are written field by field -/

/-- The field with the key of the member goes by that name and admits what the member holds. -/
def Fits (fields : List (List String × Shape)) (m : String × Json) : Prop :=
  match fields.find? fun f ↦ f.1.contains m.1 with
  | some f => nameOf f.1 = m.1 ∧ f.2.Admits m.2
  | none => False

section Fits

variable {fields : List (List String × Shape)}

theorem admits_obj (name : String) {ms : Members} (h : ∀ m ∈ ms, Fits fields m) :
    (record name fields).Admits (.obj ms) := by
  have hfind {m : String × Json} (hm : m ∈ ms) {f : List String × Shape}
      (hf : fields.find? (fun f ↦ f.1.contains m.1) = some f) :
      nameOf f.1 = m.1 ∧ f.2.Admits m.2 := by
    simpa only [Fits, hf] using h m hm
  refine .record name (fun m hm ↦ ?_) fun m hm f hf ↦ (hfind hm hf).2
  cases hf : fields.find? fun f ↦ f.1.contains m.1 with
  | none =>
    have hm := h m hm
    simp only [Fits, hf] at hm
  | some f => exact ⟨f, rfl, (hfind hm hf).1⟩

theorem admits_ofMembers (name : String) {l : List (String × Json)}
    (h : ∀ m ∈ l, Fits fields m) : (record name fields).Admits (ofMembers l) :=
  admits_obj name fun m hm ↦ h m (Members.mem_ofList hm)

theorem fits_present {α : Type} {name : String} {write : α → Json} {o : Option α}
    (h : ∀ a ∈ o, Fits fields (name, write a)) :
    ∀ m ∈ Record.present name write o, Fits fields m := by
  cases o with
  | none => simp [Record.present]
  | some a => simpa [Record.present] using h

theorem fits_flag {name : String} (h : Fits fields (name, .bool true)) (b : Bool) :
    ∀ m ∈ Record.flag name b, Fits fields m := by
  cases b with
  | false => simp [Record.flag]
  | true => simpa [Record.flag] using h

theorem fits_items {α : Type} {name : String} {write : α → Json} {as : List α}
    (h : Fits fields (name, .arr (as.map write))) :
    ∀ m ∈ Record.items name write as, Fits fields m := by
  by_cases has : as.isEmpty
  · simp [Record.items, has]
  · simpa [Record.items, has] using h

end Fits

end DeliveryCharts.Json.Shape
