import DeliveryCharts.Proofs.Json.Tree
import DeliveryCharts.Values.Basic

/-!
Merging values, path by path. What the overlay has at a path is merged with what the base has there,
and a path of which the overlay has nothing is that of the base, unless it leads through something
of the overlay that is no object.
-/

namespace DeliveryCharts

namespace Json

/-- Objects that are reached through objects are in key order. -/
inductive Ordered : Json → Prop
  | leaf {v : Json} (h : v.isObject = false) : Ordered v
  | obj {ms : Members} (hs : ms.Sorted) (h : ∀ key v, ms.get? key = some v → Ordered v) :
      Ordered (obj ms)

theorem Within.ordered {n : Nat} {v : Json} (h : v.Within n) : v.Ordered := by
  induction h with
  | null | bool | num | str | arr => exact .leaf rfl
  | obj hs _ ih => exact .obj hs fun key v hv ↦ ih _ (Members.mem_of_get? hv)

theorem Ordered.get? {v w : Json} (h : v.Ordered) {key : String} (hw : v.get? key = some w) :
    w.Ordered := by
  cases h with
  | leaf h => cases v <;> simp [isObject, Json.get?] at h hw
  | obj _ h => exact h key w hw

@[simp]
theorem ordered_obj_iff {ms : Members} :
    (Json.obj ms).Ordered ↔ ms.Sorted ∧ ∀ m ∈ ms, m.2.Ordered := by
  constructor
  · intro h
    cases h with
    | leaf h => cases h
    | obj hs h =>
      refine ⟨hs, fun m hm ↦ h m.1 m.2 ?_⟩
      obtain ⟨before, after, rfl⟩ := List.append_of_mem hm
      have hlt := (List.pairwise_append.mp hs).2.2
      have habsent : Members.get? before m.1 = none :=
        Members.get?_eq_none_iff.mpr fun n hn he ↦
          String.ne_of_lt (hlt n hn m List.mem_cons_self) he
      rw [Members.get?_append, habsent]
      simp [Members.get?]
  · rintro ⟨hs, h⟩
    exact .obj hs fun key v hv ↦ h (key, v) (Members.mem_of_get? hv)

theorem Ordered.sorted {ms : Members} (h : (Json.obj ms).Ordered) : ms.Sorted := by
  exact (ordered_obj_iff.mp h).1

@[simp]
theorem ordered_ofInt (z : Int) : (ofInt z).Ordered := .leaf rfl

@[simp]
theorem ordered_str (s : String) : (str s).Ordered := .leaf rfl

end Json

namespace Values

/-- What stands over the base at a place of which the overlay may have nothing. -/
def overlaid : Option Json → Option Json → Option Json
  | b, none => b
  | none, some v => some v
  | some w, some v => some (mergeTrees w v)

@[simp]
theorem overlaid_none (b : Option Json) : overlaid b none = b := by cases b <;> rfl

@[simp]
theorem none_overlaid (v : Option Json) : overlaid none v = v := by cases v <;> rfl

theorem mergeTrees_leaf {v : Json} (h : v.isObject = false) (w : Json) : mergeTrees w v = v := by
  cases v with
  | obj ms => cases h
  | null | bool | num | str | arr => cases w <;> rfl

theorem leaf_mergeTrees {w : Json} (h : w.isObject = false) (v : Json) : mergeTrees w v = v := by
  cases w with
  | obj ms => cases h
  | null | bool | num | str | arr => cases v <;> rfl

theorem overlaid_leaf {v : Json} (h : v.isObject = false) (b : Option Json) :
    overlaid b (some v) = some v := by
  cases b with
  | none => rfl
  | some w => exact congrArg some (mergeTrees_leaf h w)

theorem mergeTrees_obj (ms ns : Members) :
    mergeTrees (.obj ms) (.obj ns) = .obj (mergeMembers ms ns) := rfl

theorem get?_mergeMembers (ms : Members) {ns : Members} (h : ns.Sorted) (key : String) :
    Members.get? (mergeMembers ms ns) key = overlaid (ms.get? key) (Members.get? ns key) := by
  induction ns generalizing ms with
  | nil => simp [mergeMembers, Members.get?]
  | cons n ns ih =>
    obtain ⟨k, v⟩ := n
    obtain ⟨hk, hns⟩ := List.pairwise_cons.mp h
    rw [mergeMembers, ih _ hns, Members.get?_insert, Members.get?.eq_2]
    split
    · rename_i hkey
      subst key
      have habsent : Members.get? ns k = none :=
        Members.get?_eq_none_iff.mpr fun m hm he ↦ String.ne_of_lt (hk m hm) he.symm
      rw [habsent]
      cases ms.get? k <;> rfl
    · rfl

theorem sorted_mergeMembers {ms : Members} (h : ms.Sorted) (ns : Members) :
    Members.Sorted (mergeMembers ms ns) := by
  induction ns generalizing ms with
  | nil => simpa [mergeMembers] using h
  | cons n ns ih =>
    rw [mergeMembers]
    exact ih (h.insert _ _)

theorem get?_mergeTrees {w v : Json} (hv : v.Ordered) (hw : w.isObject = true)
    (hobj : v.isObject = true) (key : String) :
    (mergeTrees w v).get? key = overlaid (w.get? key) (v.get? key) := by
  cases w with
  | obj ms =>
    cases v with
    | obj ns => exact get?_mergeMembers ms hv.sorted key
    | null | bool | num | str | arr => cases hobj
  | null | bool | num | str | arr => cases hw

theorem ordered_mergeTrees {w v : Json} (hw : w.Ordered) (hv : v.Ordered) :
    (mergeTrees w v).Ordered := by
  induction hv generalizing w with
  | leaf h =>
    rw [mergeTrees_leaf h]
    exact .leaf h
  | @obj ns hs h ih =>
    cases hw with
    | leaf hleaf =>
      rw [leaf_mergeTrees hleaf]
      exact .obj hs h
    | @obj ms hms hw =>
      rw [mergeTrees_obj]
      refine .obj (sorted_mergeMembers hms ns) fun key x hx ↦ ?_
      rw [get?_mergeMembers ms hs] at hx
      cases hm : ms.get? key with
      | none =>
        rw [hm, none_overlaid] at hx
        exact h key x hx
      | some w =>
        cases hn : ns.get? key with
        | none =>
          rw [hm, hn] at hx
          cases hx
          exact hw key x hm
        | some v =>
          rw [hm, hn] at hx
          cases hx
          exact ih key v hn (hw key w hm)

/-! Along a path of keys. -/

/-- The path leads on through something that is no object. -/
def Blocks (t : Json) (keys : List String) : Prop :=
  ∃ ks v, ks <+: keys ∧ ks ≠ keys ∧ getAt ks t = some v ∧ v.isObject = false

theorem getAt_leaf {t : Json} (h : t.isObject = false) (key : String) (keys : List String) :
    getAt (key :: keys) t = none := by
  cases t with
  | obj ms => cases h
  | null | bool | num | str | arr => rfl

theorem blocks_leaf {t : Json} (h : t.isObject = false) (key : String) (keys : List String) :
    Blocks t (key :: keys) :=
  ⟨[], t, List.nil_prefix, by simp, rfl, h⟩

theorem blocks_cons {t v : Json} {key : String} {keys : List String} (ht : t.isObject = true)
    (hv : t.get? key = some v) : Blocks t (key :: keys) ↔ Blocks v keys := by
  constructor
  · rintro ⟨ks, x, hprefix, hne, hx, hleaf⟩
    cases ks with
    | nil =>
      cases hx
      rw [ht] at hleaf
      cases hleaf
    | cons k ks =>
      obtain ⟨rfl, htail⟩ := List.cons_prefix_cons.mp hprefix
      refine ⟨ks, x, htail, fun he ↦ hne (by rw [he]), ?_, hleaf⟩
      simpa [getAt, hv] using hx
  · rintro ⟨ks, x, hprefix, hne, hx, hleaf⟩
    refine ⟨key :: ks, x, List.cons_prefix_cons.mpr ⟨rfl, hprefix⟩, by simpa using hne, ?_, hleaf⟩
    simpa [getAt, hv] using hx

theorem not_blocks_of_get?_eq_none {t : Json} {key : String} {keys : List String}
    (ht : t.isObject = true) (hv : t.get? key = none) : ¬ Blocks t (key :: keys) := by
  rintro ⟨ks, x, hprefix, hne, hx, hleaf⟩
  cases ks with
  | nil =>
    cases hx
    rw [ht] at hleaf
    cases hleaf
  | cons k ks =>
    obtain ⟨rfl, -⟩ := List.cons_prefix_cons.mp hprefix
    simp [getAt, hv] at hx

theorem getAt_cons_of_get? {t : Json} {key : String} {o : Option Json} (h : t.get? key = o)
    (keys : List String) : getAt (key :: keys) t = o.bind (getAt keys) := by
  rw [getAt, h]

/-- What the overlay has at a path, over what the base has there. -/
theorem getAt_mergeTrees_of_some {v : Json} (hv : v.Ordered) {keys : List String} {x : Json}
    (h : getAt keys v = some x) (w : Json) :
    getAt keys (mergeTrees w v) = overlaid (getAt keys w) (some x) := by
  induction keys generalizing v w with
  | nil =>
    cases h
    rfl
  | cons key keys ih =>
    cases hobj : v.isObject with
    | false =>
      rw [getAt_leaf hobj] at h
      cases h
    | true =>
      obtain ⟨y, hy, hx⟩ := Option.bind_eq_some_iff.mp h
      cases hw : w.isObject with
      | false => rw [leaf_mergeTrees hw, getAt_leaf hw, h, none_overlaid]
      | true =>
        have hget := get?_mergeTrees hv hw hobj key
        rw [hy] at hget
        rw [getAt_cons_of_get? hget]
        cases hkey : w.get? key with
        | none =>
          rw [getAt_cons_of_get? hkey]
          exact hx
        | some z =>
          rw [getAt_cons_of_get? hkey]
          exact ih (hv.get? hy) hx z

/-- Where the overlay has nothing at a path, the base is hidden just where the overlay has something
in the way. -/
theorem getAt_mergeTrees_of_none {v : Json} (hv : v.Ordered) {keys : List String}
    (h : getAt keys v = none) (w : Json) :
    (Blocks v keys → getAt keys (mergeTrees w v) = none) ∧
    (¬ Blocks v keys → getAt keys (mergeTrees w v) = getAt keys w) := by
  induction keys generalizing v w with
  | nil => cases h
  | cons key keys ih =>
    cases hobj : v.isObject with
    | false =>
      rw [mergeTrees_leaf hobj]
      exact ⟨fun _ ↦ h, fun hblocks ↦ absurd (blocks_leaf hobj key keys) hblocks⟩
    | true =>
      cases hw : w.isObject with
      | false =>
        rw [leaf_mergeTrees hw, getAt_leaf hw, h]
        exact ⟨fun _ ↦ rfl, fun _ ↦ rfl⟩
      | true =>
        have hget := get?_mergeTrees hv hw hobj key
        cases hkey : v.get? key with
        | none =>
          rw [hkey, overlaid_none] at hget
          refine ⟨fun hblocks ↦ absurd hblocks (not_blocks_of_get?_eq_none hobj hkey), fun _ ↦ ?_⟩
          rw [getAt, getAt, hget]
        | some y =>
          rw [hkey] at hget
          rw [getAt_cons_of_get? hkey] at h
          rw [blocks_cons hobj hkey, getAt_cons_of_get? hget]
          cases hbase : w.get? key with
          | none =>
            rw [getAt_cons_of_get? hbase]
            exact ⟨fun _ ↦ h, fun _ ↦ h⟩
          | some z =>
            rw [getAt_cons_of_get? hbase]
            exact ih (hv.get? hkey) h z

/-- The values after a merge, at every path. Of the overlay, what is no object replaces what the
base has there, and an object is merged with an object. Where it has nothing, the base shows
through, unless the overlay has something that is no object on the way. -/
theorem merge_path_by_path {overlay : Values} (h : overlay.tree.Ordered) (base : Values)
    (path : String) :
    (∀ v, overlay.get? path = some v → v.isObject = false →
      (base.merge overlay).get? path = some v) ∧
    (∀ v, overlay.get? path = some v → v.isObject = true →
      (∀ w, base.get? path = some w → w.isObject = true →
        (base.merge overlay).get? path = some ((⟨w⟩ : Values).merge ⟨v⟩).tree) ∧
      ((∀ w, base.get? path = some w → w.isObject = false) →
        (base.merge overlay).get? path = some v)) ∧
    (overlay.get? path = none →
      (Blocks overlay.tree (pathKeys path) → (base.merge overlay).get? path = none) ∧
      (¬ Blocks overlay.tree (pathKeys path) →
        (base.merge overlay).get? path = base.get? path)) := by
  refine ⟨?_, ?_, fun hnone ↦ getAt_mergeTrees_of_none h hnone base.tree⟩
  · intro v hv hleaf
    rw [get?, merge, getAt_mergeTrees_of_some h hv]
    exact overlaid_leaf hleaf _
  · intro v hv _
    constructor
    · intro w hw _
      rw [get?] at hw
      rw [get?, merge, getAt_mergeTrees_of_some h hv, hw]
      rfl
    · intro hbase
      rw [get?, merge, getAt_mergeTrees_of_some h hv]
      cases hw : getAt (pathKeys path) base.tree with
      | none => rfl
      | some w => exact congrArg some (leaf_mergeTrees (hbase w hw) v)

section Witness

def shopDefaults : Values :=
  ⟨.obj [("image", .obj [("name", .str "shop"), ("tag", .ofInt 1)]), ("wait", .ofInt 10)]⟩

def shopOverlay : Values :=
  ⟨.obj [("image", .obj [("tag", .ofInt 2)]), ("wait", .obj [("time", .ofInt 5)])]⟩

theorem ordered_shopOverlay : shopOverlay.tree.Ordered := by
  refine Json.ordered_obj_iff.mpr ⟨List.pairwise_pair.mpr (by decide +kernel), ?_⟩
  simp [Members.Sorted]

theorem merge_path_by_path_shop :
    shopOverlay.tree.Ordered ∧
    (shopOverlay.get? "image.tag" = some (.ofInt 2) ∧
      (shopDefaults.merge shopOverlay).get? "image.tag" = some (.ofInt 2)) ∧
    (shopOverlay.get? "image" = some (.obj [("tag", .ofInt 2)]) ∧
      (shopDefaults.merge shopOverlay).get? "image" =
        some (.obj [("name", .str "shop"), ("tag", .ofInt 2)])) ∧
    (shopOverlay.get? "wait" = some (.obj [("time", .ofInt 5)]) ∧
      (shopDefaults.merge shopOverlay).get? "wait" = some (.obj [("time", .ofInt 5)])) ∧
    (¬ Blocks shopOverlay.tree (pathKeys "image.name") ∧
      (shopDefaults.merge shopOverlay).get? "image.name" = some (.str "shop")) ∧
    (Blocks shopOverlay.tree (pathKeys "image.tag.minor") ∧
      (shopDefaults.merge shopOverlay).get? "image.tag.minor" = none) := by
  have htag : shopOverlay.get? "image.tag" = some (.ofInt 2) := by decide +kernel
  have himage : shopOverlay.get? "image" = some (.obj [("tag", .ofInt 2)]) := by decide +kernel
  have hwait : shopOverlay.get? "wait" = some (.obj [("time", .ofInt 5)]) := by decide +kernel
  have hname : pathKeys "image.name" = ["image", "name"] := by decide +kernel
  have hminor : pathKeys "image.tag.minor" = ["image", "tag", "minor"] := by decide +kernel
  have hopen : ¬ Blocks shopOverlay.tree (pathKeys "image.name") := by
    rw [hname, blocks_cons (v := .obj [("tag", .ofInt 2)]) rfl rfl]
    exact not_blocks_of_get?_eq_none rfl rfl
  have hblocked : Blocks shopOverlay.tree (pathKeys "image.tag.minor") :=
    ⟨["image", "tag"], .ofInt 2, by simp [hminor], by simp [hminor], rfl, rfl⟩
  refine ⟨ordered_shopOverlay, ⟨htag, ?_⟩, ⟨himage, ?_⟩, ⟨hwait, ?_⟩, ⟨hopen, ?_⟩, hblocked, ?_⟩
  · exact (merge_path_by_path ordered_shopOverlay shopDefaults "image.tag").1 _ htag rfl
  · exact ((merge_path_by_path ordered_shopOverlay shopDefaults "image").2.1 _ himage rfl).1
      (.obj [("name", .str "shop"), ("tag", .ofInt 1)]) (by decide +kernel) rfl
  · refine ((merge_path_by_path ordered_shopOverlay shopDefaults "wait").2.1 _ hwait rfl).2 ?_
    have hbase : shopDefaults.get? "wait" = some (.ofInt 10) := by decide +kernel
    simp [hbase, Json.ofInt, Json.isObject]
  · have hbase : shopDefaults.get? "image.name" = some (.str "shop") := by decide +kernel
    rw [← hbase]
    exact ((merge_path_by_path ordered_shopOverlay shopDefaults "image.name").2.2
      (by decide +kernel)).2 hopen
  · exact ((merge_path_by_path ordered_shopOverlay shopDefaults "image.tag.minor").2.2
      (by decide +kernel)).1 hblocked

end Witness

end Values

end DeliveryCharts
