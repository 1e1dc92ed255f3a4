import DeliveryCharts.Proofs.Json.Decoding

/-!
The order of members. Two neighbouring members of an object may change places anywhere in a text,
unless they have the same key, without a change to what is read from it.
-/

namespace DeliveryCharts

namespace Members

theorem contains_insert {ms : Members} {key name : String} {v : Json} :
    (ms.insert key v).contains name = false ↔ key ≠ name ∧ ms.contains name = false := by
  by_cases h : key = name <;> simp [contains, get?_insert, h]

theorem once?_eq (ms : Members) (l : List (String × Json)) : ms.once? l =
    if (l.map Prod.fst).Nodup ∧ ∀ m ∈ l, ms.contains m.1 = false then
      some (l.foldl (fun ms m ↦ ms.insert m.1 m.2) ms) else none := by
  induction l generalizing ms with
  | nil => simp [once?]
  | cons m l ih =>
    obtain ⟨name, v⟩ := m
    rw [once?]
    cases hname : ms.contains name with
    | true => simp [hname]
    | false =>
      simp only [Bool.false_eq_true, ↓reduceIte, ih, contains_insert, List.map_cons,
        List.nodup_cons, List.forall_mem_cons, hname, true_and, List.foldl_cons]
      refine ite_congr (propext ?_) (fun _ ↦ rfl) fun _ ↦ rfl
      constructor
      · rintro ⟨hnodup, hfresh⟩
        refine ⟨⟨fun hmem ↦ ?_, hnodup⟩, fun m hm ↦ (hfresh m hm).2⟩
        obtain ⟨m, hm, rfl⟩ := List.mem_map.mp hmem
        exact (hfresh m hm).1 rfl
      · rintro ⟨⟨hmem, hnodup⟩, hfresh⟩
        refine ⟨hnodup, fun m hm ↦ ⟨fun he ↦ hmem ?_, hfresh m hm⟩⟩
        exact he ▸ List.mem_map_of_mem hm

theorem once?_nil (l : List (String × Json)) :
    once? [] l = if (l.map Prod.fst).Nodup then some (ofList l) else none := by
  rw [once?_eq]
  simp [contains, get?, ofList]

theorem ofList_swap {l l' : List (String × Json)} {a b : String × Json} (h : a.1 ≠ b.1) :
    ofList (l ++ a :: b :: l') = ofList (l ++ b :: a :: l') := by
  obtain ⟨k, v⟩ := a
  obtain ⟨k', v'⟩ := b
  refine ofList_congr fun key ↦ ?_
  simp only [get?_ofList_append, get?_ofList_cons]
  by_cases hk : k = key
  · have hk' : k' ≠ key := fun hk' ↦ h (hk.trans hk'.symm)
    simp [hk']
  · simp [hk]

theorem once?_swap (l l' : List (String × Json)) (a b : String × Json) :
    once? [] (l ++ a :: b :: l') = once? [] (l ++ b :: a :: l') := by
  have hperm : List.Perm (l ++ a :: b :: l') (l ++ b :: a :: l') :=
    .append_left l (.swap b a l')
  rw [once?_nil, once?_nil]
  refine ite_congr (propext (hperm.map Prod.fst).nodup_iff) (fun hnodup ↦ ?_) fun _ ↦ rfl
  have hne : a.1 ≠ b.1 := by
    intro he
    simp [he, List.nodup_append] at hnodup
  rw [ofList_swap hne]

end Members

namespace Json.Source

variable {depth : Nat}

/-- A member of an object, if its key is a text and its value can be read. -/
def member? (depth : Nat) (m : Option String × Source) : Option (String × Json) :=
  m.1.bind fun key ↦ (m.2.toJson? depth).map (key, ·)

theorem key_of_member? {m : Option String × Source} {a : String × Json}
    (h : member? depth m = some a) : m.1 = some a.1 := by
  obtain ⟨key, hkey, hv⟩ := Option.bind_eq_some_iff.mp h
  obtain ⟨v, -, rfl⟩ := Option.map_eq_some_iff.mp hv
  exact hkey

theorem toMembers?_cons (m : Option String × Source) (ms : List (Option String × Source)) :
    toMembers? depth (m :: ms) =
      (member? depth m).bind fun a ↦ (toMembers? depth ms).map (a :: ·) := by
  obtain ⟨key, v⟩ := m
  rw [toMembers?, member?]
  cases key with
  | none => rfl
  | some key =>
    cases v.toJson? depth with
    | none => rfl
    | some j => cases toMembers? depth ms <;> rfl

theorem toMembers?_append (ms ms' : List (Option String × Source)) :
    toMembers? depth (ms ++ ms') =
      (toMembers? depth ms).bind fun l ↦ (toMembers? depth ms').map (l ++ ·) := by
  induction ms with
  | nil => cases h : toMembers? depth ms' <;> simp [toMembers?, h]
  | cons m ms ih =>
    rw [List.cons_append, toMembers?_cons, toMembers?_cons, ih]
    cases member? depth m with
    | none => rfl
    | some a =>
      cases toMembers? depth ms with
      | none => rfl
      | some l => cases toMembers? depth ms' <;> rfl

theorem fields?_cons (fields : List (List String × Shape)) (m : Option String × Source)
    (ms : List (Option String × Source)) : fields? depth fields (m :: ms) =
      (fields? depth fields [m]).bind fun l ↦ (fields? depth fields ms).map (l ++ ·) := by
  obtain ⟨key, v⟩ := m
  cases key with
  | none => rfl
  | some key =>
    cases hf : fields.find? fun f ↦ f.1.contains key with
    | none =>
      rw [fields?_undeclared hf, fields?_undeclared hf]
      cases fields? depth fields ms <;> rfl
    | some f =>
      rw [fields?_declared hf, fields?_declared hf]
      cases shaped? depth f.2 v with
      | none => rfl
      | some j => cases fields? depth fields ms <;> rfl

theorem fields?_singleton {fields : List (List String × Shape)} {m : Option String × Source}
    {l : List (String × Json)} (h : fields? depth fields [m] = some l) :
    l = [] ∨ ∃ a, l = [a] := by
  obtain ⟨key, v⟩ := m
  cases key with
  | none => cases h
  | some key =>
    cases hf : fields.find? fun f ↦ f.1.contains key with
    | none =>
      rw [fields?_undeclared hf] at h
      cases h
      exact .inl rfl
    | some f =>
      rw [fields?_declared hf] at h
      obtain ⟨j, -, h⟩ := Option.bind_eq_some_iff.mp h
      cases h
      exact .inr ⟨_, rfl⟩

theorem fields?_append (fields : List (List String × Shape))
    (ms ms' : List (Option String × Source)) : fields? depth fields (ms ++ ms') =
      (fields? depth fields ms).bind fun l ↦ (fields? depth fields ms').map (l ++ ·) := by
  induction ms with
  | nil => cases h : fields? depth fields ms' <;> simp [fields?, h]
  | cons m ms ih =>
    rw [List.cons_append, fields?_cons, ih, fields?_cons fields m ms]
    cases fields? depth fields [m] with
    | none => rfl
    | some l =>
      cases fields? depth fields ms with
      | none => rfl
      | some l' => cases fields? depth fields ms' <;> simp

theorem shapedItems?_append (item : Shape) (vs vs' : List Source) :
    shapedItems? depth item (vs ++ vs') =
      (shapedItems? depth item vs).bind fun js ↦ (shapedItems? depth item vs').map (js ++ ·) := by
  induction vs with
  | nil => cases h : shapedItems? depth item vs' <;> simp [shapedItems?, h]
  | cons v vs ih =>
    rw [List.cons_append, shapedItems?, shapedItems?, ih]
    cases shaped? depth item v with
    | none => rfl
    | some j =>
      cases shapedItems? depth item vs with
      | none => rfl
      | some js => cases shapedItems? depth item vs' <;> rfl

theorem positional?_append (fields : List (List String × Shape)) (vs vs' : List Source) :
    positional? depth fields (vs ++ vs') =
      (positional? depth fields vs).bind fun l ↦
        (positional? depth (fields.drop vs.length) vs').map (l ++ ·) := by
  induction vs generalizing fields with
  | nil => cases h : positional? depth fields vs' <;> simp [positional?, h]
  | cons v vs ih =>
    cases fields with
    | nil => rfl
    | cons f fields =>
      rw [List.cons_append, positional?, positional?, ih]
      cases shaped? depth f.2 v with
      | none => rfl
      | some j =>
        cases positional? depth fields vs with
        | none => rfl
        | some l =>
          simp only [List.drop_succ_cons, List.length_cons]
          cases positional? depth (fields.drop vs.length) vs' <;> rfl

/-- Two neighbouring members with different keys in some object change places. -/
inductive Swap : Source → Source → Prop
  | here {ms ms' : List (Option String × Source)} {key key' : Option String} {v v' : Source}
    (h : key = key' → key = none) :
    Swap (.obj (ms ++ (key, v) :: (key', v') :: ms')) (.obj (ms ++ (key', v') :: (key, v) :: ms'))
  | item {vs vs' : List Source} {v w : Source} (h : Swap v w) :
    Swap (.arr (vs ++ v :: vs')) (.arr (vs ++ w :: vs'))
  | member {ms ms' : List (Option String × Source)} {key : Option String} {v w : Source}
    (h : Swap v w) : Swap (.obj (ms ++ (key, v) :: ms')) (.obj (ms ++ (key, w) :: ms'))

theorem toItems?_congr {v w : Source} (h : v.toJson? depth = w.toJson? depth)
    (vs vs' : List Source) :
    toItems? depth (vs ++ v :: vs') = toItems? depth (vs ++ w :: vs') := by
  induction vs with
  | nil => simp only [List.nil_append, toItems?, h]
  | cons u vs ih => simp only [List.cons_append, toItems?, ih]

theorem toMembers?_congr {v w : Source} (h : v.toJson? depth = w.toJson? depth)
    (key : Option String) (ms ms' : List (Option String × Source)) :
    toMembers? depth (ms ++ (key, v) :: ms') = toMembers? depth (ms ++ (key, w) :: ms') := by
  simp only [toMembers?_append, toMembers?, h]

theorem Swap.toJson?_eq {v w : Source} (h : Swap v w) (depth : Nat) :
    v.toJson? depth = w.toJson? depth := by
  induction h generalizing depth with
  | @here ms ms' key key' v v' hkey =>
    rw [toJson?, toJson?]
    refine ite_congr rfl (fun _ ↦ rfl) fun _ ↦ ?_
    rw [toMembers?_append, toMembers?_append]
    cases toMembers? (depth - 1) ms with
    | none => rfl
    | some l =>
      simp only [Option.bind_some, toMembers?_cons]
      cases hm : member? (depth - 1) (key, v) with
      | none => cases member? (depth - 1) (key', v') <;> rfl
      | some m =>
        cases hm' : member? (depth - 1) (key', v') with
        | none => rfl
        | some m' =>
          have hne : m.1 ≠ m'.1 := by
            intro he
            have hk : key = some m.1 := key_of_member? hm
            have hk' : key' = some m'.1 := key_of_member? hm'
            rw [hk, hk', he] at hkey
            exact absurd (hkey rfl) nofun
          cases toMembers? (depth - 1) ms' with
          | none => rfl
          | some l' => simp [ofMembers, Members.ofList_swap hne]
  | item h ih => rw [toJson?, toJson?, toItems?_congr (ih _)]
  | member h ih => rw [toJson?, toJson?, toMembers?_congr (ih _)]

theorem fields?_congr {fields : List (List String × Shape)} {v w : Source}
    (h : ∀ shape, shaped? depth shape v = shaped? depth shape w) (key : Option String)
    (ms ms' : List (Option String × Source)) :
    fields? depth fields (ms ++ (key, v) :: ms') =
      fields? depth fields (ms ++ (key, w) :: ms') := by
  simp only [fields?_append, fields?, h]

theorem shapedItems?_congr {item : Shape} {v w : Source}
    (h : shaped? depth item v = shaped? depth item w) (vs vs' : List Source) :
    shapedItems? depth item (vs ++ v :: vs') = shapedItems? depth item (vs ++ w :: vs') := by
  simp only [shapedItems?_append, shapedItems?, h]

theorem positional?_congr {fields : List (List String × Shape)} {v w : Source}
    (h : ∀ shape, shaped? depth shape v = shaped? depth shape w) (vs vs' : List Source) :
    positional? depth fields (vs ++ v :: vs') = positional? depth fields (vs ++ w :: vs') := by
  rw [positional?_append, positional?_append]
  cases fields.drop vs.length with
  | nil => rfl
  | cons f fields => simp only [positional?, h]

theorem Swap.shaped?_eq {v w : Source} (h : Swap v w) (depth : Nat) (shape : Shape) :
    shaped? depth shape v = shaped? depth shape w := by
  induction h generalizing depth shape with
  | @here ms ms' key key' v v' hkey =>
    have hswap : Swap (.obj (ms ++ (key, v) :: (key', v') :: ms'))
        (.obj (ms ++ (key', v') :: (key, v) :: ms')) := .here hkey
    have hjson := hswap.toJson?_eq depth
    cases shape with
    | whole check => rw [shaped?, shaped?, hjson]
    | list item => rfl
    | map => rw [shaped?, shaped?, hjson]
    | record name fields =>
      rw [shaped?, shaped?]
      refine ite_congr rfl (fun _ ↦ rfl) fun _ ↦ ?_
      simp only [fields?_append, fields?_cons _ (key, v) (_ :: _),
        fields?_cons _ (key', v') (_ :: _), fields?_cons _ (key, v) ms',
        fields?_cons _ (key', v') ms']
      cases fields? (depth - 1) fields ms with
      | none => rfl
      | some l =>
        cases ha : fields? (depth - 1) fields [(key, v)] with
        | none => cases fields? (depth - 1) fields [(key', v')] <;> rfl
        | some la =>
          cases hb : fields? (depth - 1) fields [(key', v')] with
          | none => rfl
          | some lb =>
            cases fields? (depth - 1) fields ms' with
            | none => rfl
            | some l' =>
              rcases fields?_singleton ha with rfl | ⟨a, rfl⟩
              · simp
              · rcases fields?_singleton hb with rfl | ⟨b, rfl⟩
                · simp
                · simp [Members.once?_swap]
  | @item vs vs' v w h ih =>
    have hswap : Swap (.arr (vs ++ v :: vs')) (.arr (vs ++ w :: vs')) := .item h
    have hjson := hswap.toJson?_eq depth
    cases shape with
    | whole check => rw [shaped?, shaped?, hjson]
    | list item => rw [shaped?, shaped?, shapedItems?_congr (ih _ item)]
    | map => rfl
    | record name fields => rw [shaped?, shaped?, positional?_congr (ih _)]
  | @member ms ms' key v w h ih =>
    have hswap : Swap (.obj (ms ++ (key, v) :: ms')) (.obj (ms ++ (key, w) :: ms')) := .member h
    have hjson := hswap.toJson?_eq depth
    cases shape with
    | whole check => rw [shaped?, shaped?, hjson]
    | list item => rfl
    | map => rw [shaped?, shaped?, hjson]
    | record name fields => rw [shaped?, shaped?, fields?_congr (ih _)]

end Json.Source

end DeliveryCharts
