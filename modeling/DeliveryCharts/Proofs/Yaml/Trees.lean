import DeliveryCharts.Proofs.Record
import DeliveryCharts.Yaml.Document

/-!
What a YAML text can give: trees of at most `maxDepth` levels, with integers of 64 bits and objects
in key order.
-/

namespace DeliveryCharts.Yaml

variable {n : Nat} {v : Json}

theorem fits_of_integer? {cs : List Char} {z : Int} (h : integer? cs = .ok (some z)) :
    (Number.int z).Fits := by
  rw [integer?] at h
  split at h
  · cases h
  · rename_i y hy
    split at h
    · rename_i hz
      cases h
      simpa [Number.Fits] using hz
    · split at h <;> cases h

theorem within_real? {cs : List Char} (h : real? cs = some v) : v.Within n := by
  unfold real? at h
  extract_lets unsigned at h
  split at h
  · cases h
    exact .null n
  · split at h
    · cases h
    · split at h
      · split at h
        · cases h
          exact .num n trivial
        · cases h
      · cases h

theorem within_plainValue {s : String} (h : plainValue s = .ok v) : v.Within n := by
  simp only [plainValue] at h
  split at h
  · cases h
    exact .null n
  · split at h
    · cases h
      exact .bool n _
    · obtain ⟨o, ho, h⟩ := Except.bind_eq_ok_iff.mp h
      split at h
      · cases h
        exact .num n (fits_of_integer? ho)
      · split at h
        · split at h
          · rename_i hr
            cases h
            exact within_real? hr
          · cases h
            exact .str n s
        · cases h
          exact .str n s

theorem orBadTag_eq_ok_iff {o : Option Json} : orBadTag o = .ok v ↔ o = some v := by
  cases o <;> simp [orBadTag]

theorem within_scalarValue {tag : Option String} {isPlain : Bool} {s : String}
    (h : scalarValue tag isPlain s = .ok v) : v.Within n := by
  simp only [scalarValue, Except.bind_eq_ok_iff] at h
  obtain ⟨-, -, h⟩ := h
  split at h
  · split at h
    · exact within_plainValue h
    · cases h
      exact .str n s
  · split at h
    · obtain ⟨b, -, rfl⟩ := Option.map_eq_some_iff.mp (orBadTag_eq_ok_iff.mp h)
      exact .bool n b
    · split at h
      · obtain ⟨o, ho, h⟩ := Except.bind_eq_ok_iff.mp h
        obtain ⟨z, rfl, rfl⟩ := Option.map_eq_some_iff.mp (orBadTag_eq_ok_iff.mp h)
        exact .num n (fits_of_integer? ho)
      · split at h
        · exact within_real? (orBadTag_eq_ok_iff.mp h)
        · split at h
          · have h := orBadTag_eq_ok_iff.mp h
            split at h
            · cases h
              exact .null n
            · cases h
          · cases h
            exact .str n s

namespace Graph

/-- Where a walk succeeds, its result has the property. -/
def Walk.Gives {α : Type} (P : α → Prop) (x : Walk α) : Prop :=
  ∀ ⦃count a count'⦄, x.run count = .ok (a, count') → P a

namespace Walk.Gives

variable {α β : Type} {P : α → Prop} {Q : β → Prop}

theorem pure {a : α} (h : P a) : Gives P (Pure.pure a) := by
  rintro count a' count' ⟨⟩
  exact h

theorem throw (e : Fault) : Gives P (MonadExcept.throw e) := by
  rintro count a count' ⟨⟩

theorem lift {x : Except Fault α} (h : ∀ a, x = .ok a → P a) : Gives P (liftM x) := by
  intro count a count' ha
  cases x with
  | error e => cases ha
  | ok b =>
    cases ha
    exact h a rfl

theorem bind {x : Walk α} {f : α → Walk β} (hx : Gives P x) (hf : ∀ a, P a → Gives Q (f a)) :
    Gives Q (x >>= f) := by
  intro count b count' hb
  obtain ⟨⟨a, count₁⟩, ha, hb⟩ := Except.bind_eq_ok_iff.mp hb
  exact hf a (hx ha) hb

theorem andThen {x : Walk α} {f : α → Walk β} (hf : ∀ a, Gives Q (f a)) : Gives Q (x >>= f) :=
  bind (P := fun _ ↦ True) (fun _ _ _ _ ↦ trivial) fun a _ ↦ hf a

theorem mapM {f : α → Walk β} {as : List α} (hf : ∀ a, Gives Q (f a)) :
    Gives (fun bs ↦ ∀ b ∈ bs, Q b) (as.mapM f) := by
  induction as with
  | nil => exact pure fun b hb ↦ absurd hb List.not_mem_nil
  | cons a as ih =>
    rw [List.mapM_cons]
    exact (hf a).bind fun b hb ↦ ih.bind fun bs hbs ↦ pure (List.forall_mem_cons.mpr ⟨hb, hbs⟩)

end Walk.Gives

theorem gives_valueOf (g : Graph) (depth : Nat) (t : Tree) :
    Walk.Gives (·.Within depth) (g.valueOf depth t) := by
  induction depth generalizing t with
  | zero =>
    rw [valueOf]
    refine .andThen fun t ↦ ?_
    cases t with
    | scalar tag isPlain text => exact .lift fun v hv ↦ within_scalarValue hv
    | seq => exact .andThen fun _ ↦ .throw _
    | map => exact .andThen fun _ ↦ .throw _
    | reference => exact .throw _
  | succ depth ih =>
    rw [valueOf]
    refine .andThen fun t ↦ ?_
    cases t with
    | scalar tag isPlain text => exact .lift fun v hv ↦ within_scalarValue hv
    | seq tag items =>
      refine .andThen fun _ ↦ ?_
      exact (Walk.Gives.mapM ih).bind fun vs hvs ↦ .pure (.arr hvs)
    | map tag entries =>
      refine .andThen fun _ ↦ ?_
      have hentry (e : Tree × Tree) : Walk.Gives (fun m : String × Json ↦ m.2.Within depth)
          (do return (← g.keyText e.1, ← g.valueOf depth e.2)) :=
        .andThen fun key ↦ (ih e.2).bind fun v hv ↦ .pure hv
      exact (Walk.Gives.mapM hentry).bind fun ms hms ↦ .pure (Json.within_ofMembers hms)
    | reference => exact .throw _

theorem within_toJson {g : Graph} (h : g.toJson = .ok v) : v.Within maxDepth := by
  obtain ⟨⟨w, count⟩, hw, rfl⟩ := Except.map_eq_ok_iff.mp h
  exact g.gives_valueOf maxDepth g.root hw

end Graph

theorem within_of_mem_stream {s : String} (h : .ok v ∈ stream s) : v.Within maxDepth := by
  obtain ⟨d, -, hd⟩ := List.mem_map.mp h
  obtain ⟨g, -, hg⟩ := Except.bind_eq_ok_iff.mp hd
  exact Graph.within_toJson hg

end DeliveryCharts.Yaml
