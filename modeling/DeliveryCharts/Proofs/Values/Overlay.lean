import DeliveryCharts.Proofs.Values.Merge

/-!
Setting a value and merging. To set a value at a path of what is merged is to merge first and the
value alone afterwards, over every base, just where there are only objects on the path and the value
covers what is at its end.
-/

namespace DeliveryCharts

namespace Json

/-- Whatever is merged over a base with `u` is the same when `v` comes on top: the value is no
object, or an object with all keys of `u`, which it covers one by one. -/
inductive Covers : Json → Json → Prop
  | leaf {v u : Json} (h : v.isObject = false) : Covers v u
  | obj {ms ns : Members} (hkeys : ∀ key u, ns.get? key = some u → ∃ w, ms.get? key = some w)
      (h : ∀ key u w, ns.get? key = some u → ms.get? key = some w → Covers w u) :
      Covers (obj ms) (obj ns)

end Json

namespace Values

open Json (Covers Ordered)

variable {v : Json}

/-- The members that are merged into: none but those of an object. -/
def ground (b : Option Json) : Members := (b.bind Json.members?).getD []

theorem mergeMembers_nil {ms : Members} (h : ms.Sorted) : mergeMembers [] ms = ms := by
  refine (sorted_mergeMembers List.Pairwise.nil ms).ext h fun key ↦ ?_
  rw [get?_mergeMembers [] h]
  exact none_overlaid _

theorem overlaid_obj {ms : Members} (h : ms.Sorted) (b : Option Json) :
    overlaid b (some (.obj ms)) = some (.obj (mergeMembers (ground b) ms)) := by
  have hnil := mergeMembers_nil h
  cases b with
  | none => simp [ground, hnil]
  | some w => cases w <;> simp [overlaid, mergeTrees, ground, Json.members?, hnil]

theorem ground_obj (ms : Members) : ground (some (.obj ms)) = ms := rfl

theorem ordered_ground {b : Option Json} (h : ∀ x ∈ b, x.Ordered) :
    (Json.obj (ground b)).Ordered := by
  cases b with
  | none => simp [ground, Members.Sorted]
  | some x =>
    cases x with
    | obj ms => exact h _ rfl
    | null | bool | num | str | arr => simp [ground, Json.members?, Members.Sorted]

theorem ordered_get?_ground {b : Option Json} (h : ∀ x ∈ b, x.Ordered) (key : String) :
    ∀ x ∈ (ground b).get? key, x.Ordered := fun _ hx ↦ (ordered_ground h).get? hx

/-- Over objects in key order, what is merged is determined by what each key holds. -/
theorem mergeMembers_congr {ms ns ms' ns' : Members} (hms : ms.Sorted) (hns : ns.Sorted)
    (hms' : ms'.Sorted) (hns' : ns'.Sorted)
    (h : ∀ key, overlaid (ms.get? key) (ns.get? key) = overlaid (ms'.get? key) (ns'.get? key)) :
    mergeMembers ms ns = mergeMembers ms' ns' := by
  refine (sorted_mergeMembers hms ns).ext (sorted_mergeMembers hms' ns') fun key ↦ ?_
  rw [get?_mergeMembers ms hns, get?_mergeMembers ms' hns', h]

/-! A value over what it covers. -/

theorem overlaid_covered {u : Json} (h : Covers v u) (hv : v.Ordered) (hu : u.Ordered)
    {b : Option Json} (hb : ∀ x ∈ b, x.Ordered) :
    overlaid (overlaid b (some u)) (some v) = overlaid b (some v) := by
  induction h generalizing b with
  | leaf hleaf => rw [overlaid_leaf hleaf, overlaid_leaf hleaf]
  | @obj ms ns hkeys _ ih =>
    have hground := (ordered_ground hb).sorted
    rw [overlaid_obj hu.sorted, overlaid_obj hv.sorted, overlaid_obj hv.sorted, ground_obj]
    refine congrArg (some ∘ Json.obj) (mergeMembers_congr (sorted_mergeMembers hground ns) hv.sorted
      hground hv.sorted fun key ↦ ?_)
    rw [get?_mergeMembers _ hu.sorted]
    cases hn : Members.get? ns key with
    | none => rw [overlaid_none]
    | some y =>
      obtain ⟨w, hw⟩ := hkeys key y hn
      rw [hw]
      exact ih key y w hn hw (hv.get? hw) (hu.get? hn) (ordered_get?_ground hb key)

theorem exists_absent (ms : Members) : ∃ key, ms.get? key = none := by
  have hlonger : ∃ n, ∀ m ∈ ms, m.1.length < n := by
    induction ms with
    | nil => exact ⟨0, List.forall_mem_nil _⟩
    | cons m ms ih =>
      obtain ⟨n, hn⟩ := ih
      refine ⟨max n (m.1.length + 1), List.forall_mem_cons.mpr ⟨by omega, fun l hl ↦ ?_⟩⟩
      have hlt := hn l hl
      omega
  obtain ⟨n, hn⟩ := hlonger
  refine ⟨.ofList (List.replicate n 'x'), Members.get?_eq_none_iff.mpr fun m hm he ↦ ?_⟩
  have hlt := hn m hm
  rw [he] at hlt
  simp at hlt

theorem isObject_iff {u : Json} : u.isObject = true ↔ ∃ ms, u = .obj ms := by
  cases u <;> simp [Json.isObject]

theorem ground_of_isObject_eq_false {u : Json} (h : u.isObject = false) :
    ground (some u) = [] := by
  cases u with
  | obj _ => cases h
  | null | bool | num | str | arr => rfl

theorem sorted_single (key : String) (x : Json) : Members.Sorted [(key, x)] :=
  List.pairwise_singleton _ _

theorem ordered_single {key : String} {x : Json} (h : x.Ordered) :
    (Json.obj [(key, x)]).Ordered := by
  simpa [Members.Sorted] using h

section Base

variable {u : Json} {ms : Members}

/-- Something that is no object hides what the base has, and an object alone does not. -/
theorem exists_overlaid_leaf_ne (hu : u.isObject = false) (hms : ms.Sorted) :
    ∃ bs : Members, (Json.obj bs).Ordered ∧
      overlaid (overlaid (some (.obj bs)) (some u)) (some (.obj ms)) ≠
        overlaid (some (.obj bs)) (some (.obj ms)) := by
  obtain ⟨key, hkey⟩ := exists_absent ms
  refine ⟨[(key, .null)], ordered_single (.leaf rfl), fun heq ↦ ?_⟩
  rw [overlaid_leaf hu, overlaid_obj hms, overlaid_obj hms, ground_obj,
    ground_of_isObject_eq_false hu] at heq
  have hget := congrArg (fun o ↦ (ground o).get? key) heq
  simp only [ground_obj, get?_mergeMembers _ hms, hkey, overlaid_none, Members.get?,
    ↓reduceIte] at hget
  cases hget

/-- Where merging objects gives the same, merging what they have at a key does as well. -/
theorem overlaid_at {bs ns ms' : Members} (hns : ns.Sorted) (hms : ms.Sorted) (hms' : ms'.Sorted)
    (h : overlaid (overlaid (some (.obj bs)) (some (.obj ns))) (some (.obj ms)) =
      overlaid (some (.obj bs)) (some (.obj ms'))) (key : String) :
    overlaid (overlaid (bs.get? key) (ns.get? key)) (ms.get? key) =
      overlaid (bs.get? key) (ms'.get? key) := by
  rw [overlaid_obj hns, overlaid_obj hms, overlaid_obj hms'] at h
  have hget := congrArg (fun o ↦ (ground o).get? key) h
  simpa only [ground_obj, get?_mergeMembers _ hns, get?_mergeMembers _ hms,
    get?_mergeMembers _ hms'] using hget

/-- What a value does not cover shows through over some base. -/
theorem covers_of_overlaid (hv : v.Ordered) (hu : u.Ordered)
    (h : ∀ bs : Members, (Json.obj bs).Ordered →
      overlaid (overlaid (some (.obj bs)) (some u)) (some v) = overlaid (some (.obj bs)) (some v)) :
    Covers v u := by
  induction hv generalizing u with
  | leaf hleaf => exact .leaf hleaf
  | @obj ms hms _ ih =>
    cases hobj : u.isObject with
    | false =>
      obtain ⟨bs, hbs, hne⟩ := exists_overlaid_leaf_ne hobj hms
      exact absurd (h bs hbs) hne
    | true =>
      obtain ⟨ns, rfl⟩ := isObject_iff.mp hobj
      refine .obj (fun key y hy ↦ ?_) fun key y w hy hw ↦ ?_
      · -- Over an empty base the keys show, and over one with a single member what is below its key.
        have hget := overlaid_at hu.sorted hms hms (h [] (by simp [Members.Sorted])) key
        cases hw : ms.get? key with
        | none =>
          rw [hy, hw] at hget
          cases hget
        | some w => exact ⟨w, rfl⟩
      · refine ih key w hw (hu.get? hy) fun bs hbs ↦ ?_
        have hget := overlaid_at hu.sorted hms hms (h [(key, .obj bs)] (ordered_single hbs)) key
        simpa [Members.get?, hy, hw] using hget

end Base

/-! A value at the end of a path. -/

/-- Nothing on the path is anything but an object, and the value covers what is at its end. -/
def Extends : List String → Json → Json → Prop
  | [], v, t => Covers v t
  | key :: keys, v, t =>
    t.isObject = true ∧ ∀ child, t.get? key = some child → Extends keys v child

/-- The members of what is set at a path, in what may be there already. -/
theorem setAt_cons (key : String) (keys : List String) (v : Json) (t : Option Json) :
    setAt (key :: keys) v (t.getD .null) =
      .obj ((ground t).insert key (setAt keys v (((ground t).get? key).getD .null))) := by
  cases t <;> rfl

theorem setAt_cons_null (key : String) (keys : List String) (v : Json) :
    setAt (key :: keys) v .null = .obj [(key, setAt keys v .null)] := rfl

theorem ordered_setAt (hv : v.Ordered) (keys : List String) {t : Json} (ht : t.Ordered) :
    (setAt keys v t).Ordered := by
  induction keys generalizing t with
  | nil => exact hv
  | cons key keys ih =>
    have hbase : ∀ x ∈ some t, x.Ordered := by
      rintro x ⟨⟩
      exact ht
    rw [← Option.getD_some (a := t) (b := .null), setAt_cons]
    refine .obj ((ordered_ground hbase).sorted.insert _ _) fun k x hx ↦ ?_
    rw [Members.get?_insert] at hx
    split at hx
    · cases hx
      apply ih
      cases hkey : (ground (some t)).get? key with
      | none => exact .leaf rfl
      | some y => exact ordered_get?_ground hbase key y hkey
    · exact ordered_get?_ground hbase k x hx

theorem ground_overlaid {t : Option Json} (ht : ∀ x ∈ t, x.Ordered)
    (hobj : ∀ x ∈ t, x.isObject = true) (b : Option Json) :
    ground (overlaid b t) = mergeMembers (ground b) (ground t) := by
  cases t with
  | none => rw [overlaid_none]; rfl
  | some x =>
    cases x with
    | obj ms => rw [overlaid_obj (ht _ rfl).sorted]; rfl
    | null | bool | num | str | arr => cases hobj _ rfl

/-- To set a value and then to merge is to merge and then to merge the value alone. -/
theorem overlaid_setAt (hv : v.Ordered) {keys : List String} {t b : Option Json}
    (ht : ∀ x ∈ t, x.Ordered) (hb : ∀ x ∈ b, x.Ordered) (h : ∀ x ∈ t, Extends keys v x) :
    overlaid b (some (setAt keys v (t.getD .null))) =
      overlaid (overlaid b t) (some (setAt keys v .null)) := by
  induction keys generalizing t b with
  | nil =>
    cases t with
    | none => rw [overlaid_none]; rfl
    | some x => exact (overlaid_covered (h x rfl) hv (ht x rfl) hb).symm
  | cons key keys ih =>
    have hbase := (ordered_ground hb).sorted
    have htop := (ordered_ground ht).sorted
    have hins := htop.insert key (setAt keys v (((ground t).get? key).getD .null))
    rw [setAt_cons, setAt_cons_null, overlaid_obj hins, overlaid_obj (sorted_single _ _),
      ground_overlaid ht fun x hx ↦ (h x hx).1]
    refine congrArg (some ∘ Json.obj) (mergeMembers_congr hbase hins (sorted_mergeMembers hbase _)
      (sorted_single _ _) fun k ↦ ?_)
    rw [Members.get?_insert, get?_mergeMembers _ htop]
    by_cases hk : key = k
    · subst k
      simp only [↓reduceIte, Members.get?]
      refine ih (ordered_get?_ground ht key) (ordered_get?_ground hb key) fun x hx ↦ ?_
      cases t with
      | none => cases hx
      | some y =>
        obtain ⟨ms, rfl⟩ := isObject_iff.mp (h y rfl).1
        exact (h _ rfl).2 x hx
    · simp only [hk, ↓reduceIte, Members.get?, overlaid_none]

/-- Where this holds over every base, the value extends what is there. -/
theorem extends_of_overlaid (hv : v.Ordered) {keys : List String} {t : Json} (ht : t.Ordered)
    (h : ∀ bs : Members, (Json.obj bs).Ordered →
      overlaid (some (.obj bs)) (some (setAt keys v t)) =
        overlaid (overlaid (some (.obj bs)) (some t)) (some (setAt keys v .null))) :
    Extends keys v t := by
  induction keys generalizing t with
  | nil => exact covers_of_overlaid hv ht fun bs hbs ↦ (h bs hbs).symm
  | cons key keys ih =>
    have hset := setAt_cons key keys v (some t)
    rw [Option.getD_some] at hset
    rw [hset, setAt_cons_null] at h
    cases hobj : t.isObject with
    | false =>
      obtain ⟨bs, hbs, hne⟩ := exists_overlaid_leaf_ne hobj (sorted_single _ (setAt keys v .null))
      rw [ground_of_isObject_eq_false hobj] at h
      exact absurd (h bs hbs).symm hne
    | true =>
      obtain ⟨ms, rfl⟩ := isObject_iff.mp hobj
      refine ⟨rfl, fun child hchild ↦ ih (ht.get? hchild) fun bs hbs ↦ ?_⟩
      have hkey : Members.get? ms key = some child := hchild
      have hget := overlaid_at ht.sorted (sorted_single _ _) (ht.sorted.insert _ _)
        (h [(key, .obj bs)] (ordered_single hbs)).symm key
      simp only [ground_obj, Members.get?_insert, hkey, Members.get?, ↓reduceIte,
        Option.getD_some] at hget
      exact hget.symm

end Values

end DeliveryCharts
