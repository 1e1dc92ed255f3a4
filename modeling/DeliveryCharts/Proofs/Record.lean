import DeliveryCharts.Coerce
import DeliveryCharts.Proofs.Json.Tree
import DeliveryCharts.Record

/-!
Fields that are written and read again. A reader takes what its writer leaves to be the value that
was written; where the value has several readings, reading normalises it first.
-/

namespace DeliveryCharts

open Json (Fault)

instance Except.decidableEq {ε α : Type} [DecidableEq ε] [DecidableEq α] :
    DecidableEq (Except ε α)
  | .ok a, .ok b => decidable_of_iff (a = b) (by simp)
  | .error e, .error f => decidable_of_iff (e = f) (by simp)
  | .ok _, .error _ => isFalse (by simp)
  | .error _, .ok _ => isFalse (by simp)

theorem Except.bind_eq_ok_iff {ε α β : Type} {x : Except ε α} {f : α → Except ε β} {b : β} :
    x >>= f = .ok b ↔ ∃ a, x = .ok a ∧ f a = .ok b := by
  cases x with
  | error e => simp [bind, Except.bind]
  | ok a => simp [bind, Except.bind]

theorem Except.bind_eq_error_iff {ε α β : Type} {x : Except ε α} {f : α → Except ε β} {e : ε} :
    x >>= f = .error e ↔ x = .error e ∨ ∃ a, x = .ok a ∧ f a = .error e := by
  cases x with
  | error e => simp [bind, Except.bind]
  | ok a => simp [bind, Except.bind]

theorem Except.exists_error_iff {ε α : Type} {x : Except ε α} :
    (∃ e, x = .error e) ↔ ¬ ∃ a, x = .ok a := by
  cases x <;> simp

theorem Except.map_eq_ok_iff {ε α β : Type} {x : Except ε α} {f : α → β} {b : β} :
    x.map f = .ok b ↔ ∃ a, x = .ok a ∧ f a = b := by
  cases x <;> simp [Except.map]

@[simp]
theorem Except.mapError_ok {ε ε' α : Type} (f : ε → ε') (a : α) :
    (Except.ok a).mapError f = .ok a := rfl

@[simp]
theorem Except.mapError_error {ε ε' α : Type} (f : ε → ε') (e : ε) :
    (Except.error e : Except ε α).mapError f = .error (f e) := rfl

theorem Except.mapError_eq_ok_iff {ε ε' α : Type} {x : Except ε α} {f : ε → ε'} {a : α} :
    x.mapError f = .ok a ↔ x = .ok a := by
  cases x <;> simp

theorem Except.mapError_eq_error_iff {ε ε' α : Type} {x : Except ε α} {f : ε → ε'} {e : ε'} :
    x.mapError f = .error e ↔ ∃ e', x = .error e' ∧ f e' = e := by
  cases x <;> simp

theorem Except.mem_mapM {ε α β : Type} {f : α → Except ε β} {as : List α} {bs : List β}
    (h : as.mapM f = .ok bs) {b : β} (hb : b ∈ bs) : ∃ a ∈ as, f a = .ok b := by
  induction as generalizing bs with
  | nil =>
    cases h
    exact absurd hb List.not_mem_nil
  | cons a as ih =>
    simp only [List.mapM_cons, Except.bind_eq_ok_iff] at h
    obtain ⟨c, hc, cs, hcs, hbs⟩ := h
    cases hbs
    rcases List.mem_cons.mp hb with rfl | hb
    · exact ⟨a, List.mem_cons_self, hc⟩
    · obtain ⟨a', ha', h'⟩ := ih hcs hb
      exact ⟨a', List.mem_cons_of_mem _ ha', h'⟩

theorem Except.exists_of_mapM_error {ε α β : Type} {f : α → Except ε β} {as : List α} {e : ε}
    (h : as.mapM f = .error e) : ∃ a ∈ as, f a = .error e := by
  induction as with
  | nil => cases h
  | cons a as ih =>
    simp only [List.mapM_cons, Except.bind_eq_error_iff] at h
    rcases h with h | ⟨b, -, h | ⟨bs, -, h⟩⟩
    · exact ⟨a, List.mem_cons_self, h⟩
    · obtain ⟨a', ha', h'⟩ := ih h
      exact ⟨a', List.mem_cons_of_mem _ ha', h'⟩
    · cases h

theorem Except.map_mapM {ε α β γ : Type} {f : α → Except ε β} {g : β → γ} {k : α → γ}
    (hg : ∀ a b, f a = .ok b → g b = k a) {as : List α} {bs : List β} (h : as.mapM f = .ok bs) :
    bs.map g = as.map k := by
  induction as generalizing bs with
  | nil =>
    cases h
    rfl
  | cons a as ih =>
    simp only [List.mapM_cons, Except.bind_eq_ok_iff] at h
    obtain ⟨b, hb, bs, hbs, h⟩ := h
    cases h
    rw [List.map_cons, List.map_cons, hg a b hb, ih hbs]

/-- Where some of the results are dropped, the others keep their order. -/
theorem Except.sublist_mapM {ε α β γ : Type} {f : α → Except ε (Option β)} {g : β → γ} {k : α → γ}
    (hg : ∀ a b, f a = .ok (some b) → g b = k a) {as : List α} {bs : List (Option β)}
    (h : as.mapM f = .ok bs) : ((bs.filterMap id).map g).Sublist (as.map k) := by
  induction as generalizing bs with
  | nil =>
    cases h
    exact .slnil
  | cons a as ih =>
    simp only [List.mapM_cons, Except.bind_eq_ok_iff] at h
    obtain ⟨o, ho, bs, hbs, h⟩ := h
    cases h
    cases o with
    | none => exact (ih hbs).cons _
    | some b =>
      have hkept : (some b :: bs).filterMap id = b :: bs.filterMap id := rfl
      rw [hkept, List.map_cons, List.map_cons, hg a b ho]
      exact (ih hbs).cons_cons _

theorem Except.mapM_eq_map {ε α β : Type} {f : α → Except ε β} {g : α → β} {as : List α}
    (h : ∀ a ∈ as, f a = .ok (g a)) : as.mapM f = .ok (as.map g) := by
  induction as with
  | nil => rfl
  | cons a as ih =>
    obtain ⟨ha, has⟩ := List.forall_mem_cons.mp h
    rw [List.mapM_cons, ha, ih has]
    rfl

theorem Except.mapM_map {ε α β : Type} {f : β → Except ε α} {g : α → β} {as : List α}
    (h : ∀ a ∈ as, f (g a) = .ok a) : (as.map g).mapM f = .ok as := by
  induction as with
  | nil => rfl
  | cons a as ih =>
    have ha := h a List.mem_cons_self
    have has := ih fun b hb ↦ h b (List.mem_cons_of_mem _ hb)
    simp only [List.map_cons, List.mapM_cons, ha, has]
    rfl

theorem Except.mapM_commutes {ε α β : Type} {f : α → Except ε β} {g : α → α} {k : β → β}
    (h : ∀ a b, f a = .ok b → f (g a) = .ok (k b)) {as : List α} {bs : List β}
    (has : as.mapM f = .ok bs) : (as.map g).mapM f = .ok (bs.map k) := by
  induction as generalizing bs with
  | nil =>
    cases has
    rfl
  | cons a as ih =>
    simp only [List.mapM_cons, Except.bind_eq_ok_iff] at has
    obtain ⟨b, hb, bs, hbs, has⟩ := has
    cases has
    simp only [List.map_cons, List.mapM_cons, h a b hb, ih hbs]
    rfl

theorem Except.mapM_ok {ε α : Type} (as : List α) : as.mapM (.ok : α → Except ε α) = .ok as := by
  have h : ∀ a ∈ as, (.ok (id a) : Except ε α) = .ok a := fun _ _ ↦ rfl
  simpa using Except.mapM_map h

namespace Width

theorem signed_iff {z : Int} :
    signed 64 z = true ↔ -9223372036854775808 ≤ z ∧ z < 9223372036854775808 := by
  have h : (twoPow (64 - 1) : Int) = 9223372036854775808 := rfl
  simp [signed, h]

theorem signed_clamp (z : Int) : signed 64 (clamp 64 z) = true := by
  have h : (twoPow (64 - 1) : Int) = 9223372036854775808 := rfl
  rw [signed_iff, clamp, h]
  split
  · omega
  · split <;> omega

theorem clamp_of_signed {z : Int} (hz : signed 64 z = true) : clamp 64 z = z := by
  have h : (twoPow (64 - 1) : Int) = 9223372036854775808 := rfl
  rw [signed_iff] at hz
  rw [clamp, h, if_neg (by omega), if_pos (by omega)]

end Width

namespace Coerce

@[simp]
theorem string_str (s : String) : string (.str s) = .ok s := rfl

@[simp]
theorem boolean_bool (b : Bool) : boolean (.bool b) = .ok b := rfl

theorem optString_str {s : String} (h : s ≠ "") : optString (.str s) = .ok (some s) := by
  simp [optString, string_str, Except.map, h]

theorem ne_empty_of_optString {v : Json} {o : Option String} (h : optString v = .ok o) :
    o ≠ some "" := by
  rw [optString, Except.map_eq_ok_iff] at h
  obtain ⟨s, -, rfl⟩ := h
  split
  · simp
  · rename_i hs
    simpa using hs

theorem signed_of_scalarInt? {v : Json} {z : Int} (h : scalarInt? v = some z) :
    Width.signed 64 z = true := by
  cases v with
  | num x =>
    cases x with
    | int y =>
      cases h
      exact Width.signed_clamp y
    | float x =>
      simp only [scalarInt?, Option.map_eq_some_iff] at h
      obtain ⟨y, -, rfl⟩ := h
      exact Width.signed_clamp y
  | str s => exact (Option.filter_eq_some_iff.mp h).2
  | bool b => cases b <;> cases h <;> rfl
  | null | arr | obj => cases h

theorem orFault_eq_ok_iff {α : Type} {wanted : String} {v : Json} {o : Option α} {a : α} :
    orFault wanted v o = .ok a ↔ o = some a := by
  cases o <;> simp [orFault]

theorem signed_of_int {v : Json} {z : Int} (h : int v = .ok z) : Width.signed 64 z = true := by
  rw [int] at h
  split at h
  · cases h
    rfl
  · exact signed_of_scalarInt? (orFault_eq_ok_iff.mp h)

theorem signed_of_optInt {v : Json} {o : Option Int} (h : optInt v = .ok o) :
    ∀ z ∈ o, Width.signed 64 z = true := by
  rw [optInt] at h
  split at h
  · cases h
    simp
  · obtain ⟨z, hz, rfl⟩ := Except.map_eq_ok_iff.mp h
    simpa using signed_of_scalarInt? (orFault_eq_ok_iff.mp hz)

theorem signed_of_intList {v : Json} {zs : List Int} (h : intList v = .ok zs) :
    ∀ z ∈ zs, Width.signed 64 z = true := by
  have one (v : Json) (h : (orFault "an integer list" v (scalarInt? v)).map ([·]) = .ok zs) :
      ∀ z ∈ zs, Width.signed 64 z = true := by
    obtain ⟨z, hz, rfl⟩ := Except.map_eq_ok_iff.mp h
    simpa using signed_of_scalarInt? (orFault_eq_ok_iff.mp hz)
  cases v with
  | null =>
    cases h
    simp
  | arr vs =>
    intro z hz
    obtain ⟨v, -, hv⟩ := Except.mem_mapM h hz
    exact signed_of_scalarInt? (orFault_eq_ok_iff.mp hv)
  | bool b => exact one (.bool b) h
  | num x => exact one (.num x) h
  | str s => exact one (.str s) h
  | obj ms => exact one (.obj ms) h

theorem scalarInt?_ofInt {z : Int} (hz : Width.signed 64 z = true) :
    scalarInt? (.ofInt z) = some z := by
  simp [scalarInt?, Json.ofInt, Width.clamp_of_signed hz]

theorem int_ofInt {z : Int} (hz : Width.signed 64 z = true) : int (.ofInt z) = .ok z := by
  simp only [int, scalarInt?_ofInt hz]
  rfl

theorem optInt_ofInt {z : Int} (hz : Width.signed 64 z = true) :
    optInt (.ofInt z) = .ok (some z) := by
  simp only [optInt, scalarInt?_ofInt hz]
  rfl

theorem intList_ofInt {zs : List Int} (hz : ∀ z ∈ zs, Width.signed 64 z = true) :
    intList (.arr (zs.map .ofInt)) = .ok zs :=
  Except.mapM_map fun z h ↦ by rw [scalarInt?_ofInt (hz z h)]; rfl

@[simp]
theorem stringList_strings (ss : List String) : stringList (Record.strings ss) = .ok ss :=
  Except.mapM_map fun _ _ ↦ rfl

end Coerce

namespace Record

theorem field_eq {α : Type} (ms : Members) (name : String) (default : α)
    (read : Json → Except Fault α) :
    field ms name default read = (ms.get? name).elim (.ok default) read := by
  rw [field]
  cases ms.get? name <;> rfl

theorem field_sole {α : Type} {name : String} {default a : α} {read : Json → Except Fault α}
    {v : Json} (h : read v = .ok a) :
    field (Members.ofList [(name, v)]) name default read = .ok a := by
  simp [field_eq, h]

/-- What a field gives is its default or was read. -/
theorem field_inv {α : Type} {ms : Members} {name : String} {default a : α}
    {read : Json → Except Fault α} (h : field ms name default read = .ok a) :
    a = default ∨ ∃ v, ms.get? name = some v ∧ read v = .ok a := by
  rw [field_eq] at h
  cases hv : ms.get? name with
  | none =>
    rw [hv] at h
    cases h
    exact .inl rfl
  | some v =>
    rw [hv] at h
    exact .inr ⟨v, rfl, h⟩

/-- A property of the default and of all that is read. -/
theorem field_all {α : Type} {ms : Members} {name : String} {default a : α}
    {read : Json → Except Fault α} {P : α → Prop} (h : field ms name default read = .ok a)
    (hd : P default) (hr : ∀ v, read v = .ok a → P a) : P a := by
  rcases field_inv h with rfl | ⟨v, -, hv⟩
  · exact hd
  · exact hr v hv

theorem read_inv {α : Type} {origin : Origin} {typeName : String} {fields : List String}
    {decode : Members → Except Fault α} {v : Json} {a : α}
    (h : read origin typeName fields decode v = .ok a) : ∃ ms, decode ms = .ok a := by
  cases v with
  | obj ms => exact ⟨ms, h⟩
  | arr vs =>
    simp only [read, positional, Except.bind_eq_ok_iff] at h
    obtain ⟨b, ⟨-, -, hb⟩, h⟩ := h
    split at h
    · cases h
    · cases h
      exact ⟨_, hb⟩
  | null | bool | num | str => cases h

section Inversion

variable {α : Type} {ms : Members} {name : String} {read : Json → Except Fault α}

theorem signed_of_int {z : Int} (h : field ms name 0 Coerce.int = .ok z) : Width.signed 64 z :=
  field_all (P := (Width.signed 64 ·)) h rfl fun _ ↦ Coerce.signed_of_int

theorem signed_of_optInt {o : Option Int} (h : field ms name none Coerce.optInt = .ok o) :
    ∀ z ∈ o, Width.signed 64 z :=
  field_all (P := (∀ z ∈ ·, Width.signed 64 z)) h (by simp) fun _ ↦ Coerce.signed_of_optInt

theorem signed_of_intList {zs : List Int} (h : field ms name [] Coerce.intList = .ok zs) :
    ∀ z ∈ zs, Width.signed 64 z :=
  field_all (P := (∀ z ∈ ·, Width.signed 64 z)) h (by simp) fun _ ↦ Coerce.signed_of_intList

theorem ne_empty_of_optString {o : Option String}
    (h : field ms name none Coerce.optString = .ok o) : o ≠ some "" :=
  field_all (P := (· ≠ some "")) h (by simp) fun _ ↦ Coerce.ne_empty_of_optString

theorem optional_inv {o : Option α} (h : field ms name none (optional read) = .ok o) :
    ∀ a ∈ o, ∃ v, read v = .ok a := by
  have some_read (v : Json) (h : (read v).map some = .ok o) : ∀ a ∈ o, ∃ v, read v = .ok a := by
    obtain ⟨a, ha, rfl⟩ := Except.map_eq_ok_iff.mp h
    simpa using ⟨v, ha⟩
  rcases field_inv h with rfl | ⟨v, -, hv⟩
  · simp
  · cases v with
    | null =>
      cases hv
      simp
    | bool b => exact some_read (.bool b) hv
    | num x => exact some_read (.num x) hv
    | str s => exact some_read (.str s) hv
    | arr vs => exact some_read (.arr vs) hv
    | obj ms => exact some_read (.obj ms) hv

theorem list_inv {as : List α} (h : field ms name [] (list read) = .ok as) :
    ∀ a ∈ as, ∃ v, read v = .ok a := by
  rcases field_inv h with rfl | ⟨v, -, hv⟩
  · simp
  · cases v with
    | arr vs =>
      intro a ha
      obtain ⟨w, -, hw⟩ := Except.mem_mapM hv ha
      exact ⟨w, hw⟩
    | null | bool | num | str | obj => cases hv

/-- What is read as a map is what the member holds. -/
theorem map_inv {ms' : Members} (h : field ms name [] map = .ok ms') :
    ms' = [] ∨ ms.get? name = some (.obj ms') := by
  rcases field_inv h with rfl | ⟨v, hv, hm⟩
  · exact .inl rfl
  · cases v with
    | obj ms =>
      cases hm
      exact .inr hv
    | null | bool | num | str | arr => cases hm

theorem nullableList_inv {vs : List Json} (h : field ms name [] (nullableList .ok) = .ok vs) :
    vs = [] ∨ ms.get? name = some (.arr vs) := by
  rcases field_inv h with rfl | ⟨v, hv, hl⟩
  · exact .inl rfl
  · cases v with
    | null =>
      cases hl
      exact .inl rfl
    | arr ws =>
      have hws : list .ok (.arr ws) = .ok ws := Except.mapM_ok ws
      cases hws.symm.trans hl
      exact .inr hv
    | bool | num | str | obj => cases hl

theorem nullableList_map_inv {mss : List Members}
    (h : field ms name [] (nullableList map) = .ok mss) :
    mss = [] ∨ ms.get? name = some (.arr (mss.map .obj)) := by
  have go (vs : List Json) (mss : List Members) (h : vs.mapM map = .ok mss) :
      vs = mss.map .obj := by
    induction vs generalizing mss with
    | nil =>
      cases h
      rfl
    | cons v vs ih =>
      simp only [List.mapM_cons, Except.bind_eq_ok_iff] at h
      obtain ⟨ms, hv, mss, hvs, ⟨⟩⟩ := h
      rw [List.map_cons, ← ih mss hvs]
      cases v with
      | obj =>
        cases hv
        rfl
      | null | bool | num | str | arr => cases hv
  rcases field_inv h with rfl | ⟨v, hv, hl⟩
  · exact .inl rfl
  · cases v with
    | null =>
      cases hl
      exact .inl rfl
    | arr vs => exact .inr (go vs mss hl ▸ hv)
    | bool | num | str | obj => cases hl

end Inversion

/-! What a key holds in the parts of a record that is written. -/

section Lookup

variable {α : Type} (name key : String)

@[simp]
theorem get?_present (write : α → Json) (o : Option α) :
    (Members.ofList (present name write o)).get? key =
      if name = key then o.map write else none := by
  cases o <;> simp [present, Members.get?_ofList, Members.get?]

@[simp]
theorem get?_items (write : α → Json) (as : List α) :
    (Members.ofList (items name write as)).get? key =
      if name = key then (if as = [] then none else some (.arr (as.map write))) else none := by
  cases as <;> simp [items, Members.get?_ofList, Members.get?]

@[simp]
theorem get?_members (ms : Members) :
    (Members.ofList (members name ms)).get? key =
      if name = key then (if ms = [] then none else some (.obj ms)) else none := by
  cases ms <;> simp [members, Members.get?_ofList, Members.get?]

@[simp]
theorem get?_flag (b : Bool) :
    (Members.ofList (flag name b)).get? key =
      if name = key then (if b then some (.bool true) else none) else none := by
  cases b <;> simp [flag, Members.get?_ofList, Members.get?]

@[simp]
theorem get?_text (s : String) :
    (Members.ofList (text name s)).get? key =
      if name = key then (if s = "" then none else some (.str s)) else none := by
  by_cases hs : s = "" <;> simp [text, hs, Members.get?_ofList, Members.get?]

end Lookup

section Keys

variable {α : Type} {keys : List String} {name : String}

@[simp]
theorem among_present (h : name ∈ keys) (write : α → Json) (o : Option α) :
    Members.Among keys (present name write o) := by
  cases o <;> simp [present, h]

@[simp]
theorem among_items (h : name ∈ keys) (write : α → Json) (as : List α) :
    Members.Among keys (items name write as) := by
  cases as <;> simp [items, h]

@[simp]
theorem among_members (h : name ∈ keys) (ms : Members) :
    Members.Among keys (members name ms) := by
  cases ms <;> simp [members, h]

@[simp]
theorem among_flag (h : name ∈ keys) (b : Bool) : Members.Among keys (flag name b) := by
  cases b <;> simp [flag, h]

@[simp]
theorem among_text (h : name ∈ keys) (s : String) : Members.Among keys (text name s) := by
  by_cases hs : s = "" <;> simp [text, hs, h]

end Keys

/-! Reading the parts back. -/

theorem elim_optString {o : Option String} (h : o ≠ some "") :
    (o.map Json.str).elim (.ok none) Coerce.optString = .ok o := by
  cases o with
  | none => rfl
  | some s => exact Coerce.optString_str fun hs ↦ h (congrArg some hs)

@[simp]
theorem elim_optBool (o : Option Bool) :
    o.elim (.ok none) (Coerce.optBool ∘ Json.bool) = .ok o := by
  cases o <;> rfl

theorem elim_optInt {o : Option Int} (h : ∀ z ∈ o, Width.signed 64 z = true) :
    (o.map Json.ofInt).elim (.ok none) Coerce.optInt = .ok o := by
  cases o with
  | none => rfl
  | some z => exact Coerce.optInt_ofInt (h z rfl)

@[simp]
theorem elim_flag (b : Bool) :
    (if b then some (Json.bool true) else none).elim (.ok false) Coerce.boolean = .ok b := by
  cases b <;> rfl

@[simp]
theorem elim_text (s : String) :
    (if s = "" then none else some (Json.str s)).elim (.ok "") Coerce.string = .ok s := by
  by_cases h : s = "" <;> simp [h, Coerce.string_str]

@[simp]
theorem elim_members (ms : Members) :
    (if ms = [] then none else some (Json.obj ms)).elim (.ok []) map = .ok ms := by
  by_cases h : ms = [] <;> simp [h, map]

theorem elim_optional {α : Type} {read : Json → Except Fault α} {write : α → Json} {o : Option α}
    (h : ∀ a ∈ o, read (write a) = .ok a ∧ write a ≠ .null) :
    (o.map write).elim (.ok none) (optional read) = .ok o := by
  cases o with
  | none => rfl
  | some a =>
    obtain ⟨ha, hn⟩ := h a rfl
    have hr : optional read (write a) = (read (write a)).map some := by
      cases hw : write a <;> first | rfl | exact absurd hw hn
    simp only [Option.map_some, Option.elim_some, hr, ha]
    rfl

theorem list_map {α : Type} {read : Json → Except Fault α} {write : α → Json} {as : List α}
    (h : ∀ a ∈ as, read (write a) = .ok a) : list read (.arr (as.map write)) = .ok as :=
  Except.mapM_map h

theorem elim_list {α : Type} {read : Json → Except Fault α} {write : α → Json} {as : List α}
    (h : ∀ a ∈ as, read (write a) = .ok a) :
    (if as = [] then none else some (Json.arr (as.map write))).elim (.ok []) (list read) =
      .ok as := by
  by_cases has : as = []
  · simp [has]
  · simp [has, list_map h]

theorem elim_intList {zs : List Int} (h : ∀ z ∈ zs, Width.signed 64 z = true) :
    (if zs = [] then none else some (Json.arr (zs.map .ofInt))).elim (.ok []) Coerce.intList =
      .ok zs := by
  by_cases hz : zs = []
  · simp [hz]
  · simp [hz, Coerce.intList_ofInt h]

@[simp]
theorem elim_stringList (ss : List String) :
    (if ss = [] then none else some (Json.arr (ss.map .str))).elim (.ok []) Coerce.stringList =
      .ok ss := by
  by_cases hs : ss = []
  · simp [hs]
  · have h : Coerce.stringList (.arr (ss.map .str)) = .ok ss := Coerce.stringList_strings ss
    simp [hs, h]

/-! Levels of what is written. -/

section Levels

variable {α : Type} {n : Nat} {name : String}

@[simp]
theorem within_strings (ss : List String) : (strings ss).Within (n + 1) := by
  simp [strings]

@[simp]
theorem within_present {write : α → Json} {o : Option α} :
    Members.Within n (present name write o) ↔ ∀ a ∈ o, (write a).Within n := by
  cases o <;> simp [present]

@[simp]
theorem within_flag (b : Bool) : Members.Within n (flag name b) := by
  cases b <;> simp [flag]

@[simp]
theorem within_text (s : String) : Members.Within n (text name s) := by
  by_cases hs : s = "" <;> simp [text, hs]

theorem within_items {write : α → Json} {as : List α} (h : ∀ a ∈ as, (write a).Within n) :
    Members.Within (n + 1) (items name write as) := by
  by_cases has : as.isEmpty
  · simp [items, has]
  · simpa [items, has] using h

theorem within_members {ms : Members} (h : (Json.obj ms).Within n) :
    Members.Within n (members name ms) := by
  by_cases hms : ms.isEmpty
  · simp [members, hms]
  · simpa [members, hms] using h

theorem within_of_map {ms ms' : Members} (hn : 1 ≤ n) (hms : ms.Within n)
    (h : field ms name [] map = .ok ms') : (Json.obj ms').Within n := by
  obtain ⟨n, rfl⟩ := Nat.exists_eq_add_one_of_ne_zero (by omega : n ≠ 0)
  rcases map_inv h with rfl | h
  · exact .obj .nil fun _ hm ↦ absurd hm List.not_mem_nil
  · exact hms.get? h

theorem within_of_nullableList {ms : Members} {vs : List Json} (hn : 1 ≤ n) (hms : ms.Within n)
    (h : field ms name [] (nullableList .ok) = .ok vs) : (Json.arr vs).Within n := by
  obtain ⟨n, rfl⟩ := Nat.exists_eq_add_one_of_ne_zero (by omega : n ≠ 0)
  rcases nullableList_inv h with rfl | h
  · simp
  · exact hms.get? h

theorem within_of_maps {ms : Members} {mss : List Members} (hn : 1 ≤ n) (hms : ms.Within n)
    (h : field ms name [] (nullableList map) = .ok mss) :
    (Json.arr (mss.map .obj)).Within n := by
  obtain ⟨n, rfl⟩ := Nat.exists_eq_add_one_of_ne_zero (by omega : n ≠ 0)
  rcases nullableList_map_inv h with rfl | h
  · simp
  · exact hms.get? h

end Levels

end Record

end DeliveryCharts
