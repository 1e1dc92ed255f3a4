import DeliveryCharts.Proofs.Template.Conversion
import DeliveryCharts.Proofs.Values.Merge
import DeliveryCharts.Template.Filter.Table

/-!
Merging in a template. The filter changes members where they stand, the values of a chart are put in
their order anew; on trees whose members are in order both come to the same.
-/

namespace DeliveryCharts

theorem Members.Sorted.map_eq_insert {ms : Members} (h : ms.Sorted) {key : String} {w : Json}
    (hw : ms.get? key = some w) (f : Json → Json) :
    (ms.map fun m ↦ if m.1 = key then (key, f m.2) else m) = ms.insert key (f w) := by
  induction ms with
  | nil => cases hw
  | cons m ms ih =>
    obtain ⟨k, v⟩ := m
    obtain ⟨hk, hms⟩ := List.pairwise_cons.mp h
    rw [Members.get?] at hw
    rw [List.map_cons, Members.insert]
    by_cases hkey : k = key
    · subst hkey
      obtain rfl : v = w := by simpa using hw
      have htail : ∀ m ∈ ms, (if m.1 = k then (k, f m.2) else m) = id m := fun m hm ↦
        if_neg fun he ↦ String.ne_of_lt (hk m hm) he.symm
      rw [List.map_congr_left htail, List.map_id, if_pos rfl, if_pos rfl]
    · rw [if_neg hkey] at hw
      have hlt : k < key := hk _ (mem_of_get? hw)
      rw [if_neg hkey, if_neg hkey, if_neg (String.lt_asymm hlt), ih hms hw]

namespace Json

theorem Ordered.insert {ms : Members} (h : (Json.obj ms).Ordered) {v : Json} (hv : v.Ordered)
    (key : String) : (Json.obj (ms.insert key v)).Ordered := by
  obtain ⟨hs, hms⟩ := ordered_obj_iff.mp h
  refine ordered_obj_iff.mpr ⟨hs.insert key v, fun m hm ↦ ?_⟩
  rcases Members.mem_insert hm with rfl | hm
  · exact hv
  · exact hms m hm

end Json

namespace Values

variable {ms : Members} {ns : List (String × Json)}

theorem forall_mem_mergeMembers {P : Json → Prop} (hms : ∀ m ∈ ms, P m.2)
    (hns : ∀ n ∈ ns, P n.2 ∧ ∀ w, P w → P (mergeTrees w n.2)) :
    ∀ m ∈ mergeMembers ms ns, P m.2 := by
  induction ns generalizing ms with
  | nil => simpa [mergeMembers] using hms
  | cons n ns ih =>
    obtain ⟨key, v⟩ := n
    obtain ⟨⟨hv, hmerge⟩, hns⟩ := List.forall_mem_cons.mp hns
    rw [mergeMembers]
    refine ih (fun m hm ↦ ?_) hns
    rcases Members.mem_insert hm with rfl | hm
    · cases hw : ms.get? key with
      | none => exact hv
      | some w => exact hmerge w (hms _ (Members.mem_of_get? hw))
    · exact hms m hm

/-- A merge is nested as deep as its parts, and its numbers are theirs. -/
theorem within_mergeTrees {n : Nat} {v w : Json} (hv : v.Within n) (hvi : v.isIntegral = true)
    (hw : w.Within n) (hwi : w.isIntegral = true) :
    (mergeTrees w v).Within n ∧ (mergeTrees w v).isIntegral = true := by
  induction hv generalizing w with
  | null n | bool n b | str n s =>
    rw [mergeTrees_leaf rfl]
    simp [Json.isIntegral]
  | num n h =>
    rw [mergeTrees_leaf rfl]
    exact ⟨.num n h, hvi⟩
  | arr h =>
    rw [mergeTrees_leaf rfl]
    exact ⟨.arr h, hvi⟩
  | @obj n ns hns h ih =>
    cases w with
    | obj ms =>
      obtain ⟨hms, k, hk, hm⟩ := hw.obj_inv
      obtain rfl := Nat.succ.inj hk
      have hall := forall_mem_mergeMembers (P := fun v ↦ v.Within n ∧ v.isIntegral = true)
        (fun m hmem ↦ ⟨hm m hmem, Json.isIntegral_obj.mp hwi m hmem⟩)
        (fun m hmem ↦ ⟨⟨h m hmem, Json.isIntegral_obj.mp hvi m hmem⟩, fun w hw ↦
          ih m hmem (Json.isIntegral_obj.mp hvi m hmem) hw.1 hw.2⟩)
      exact ⟨.obj (sorted_mergeMembers hms ns) fun m hmem ↦ (hall m hmem).1,
        Json.isIntegral_obj.mpr fun m hmem ↦ (hall m hmem).2⟩
    | null | bool | num | str | arr =>
      rw [leaf_mergeTrees rfl]
      exact ⟨.obj hns h, hvi⟩

end Values

namespace Template.Filter

open Values (mergeTrees mergeMembers)

mutual

theorem mergeInto_eq (base : Json) (hb : base.Ordered) :
    ∀ overlay : Json, overlay.Ordered → mergeInto base overlay = mergeTrees base overlay
  | .obj ns, h => by
    cases base with
    | obj ms =>
      exact congrArg Json.obj (mergeMembersInto_eq ms hb ns (Json.ordered_obj_iff.mp h).2)
    | null | bool | num | str | arr => rfl
  | .null, _ => by cases base <;> rfl
  | .bool _, _ => by cases base <;> rfl
  | .num _, _ => by cases base <;> rfl
  | .str _, _ => by cases base <;> rfl
  | .arr _, _ => by cases base <;> rfl

theorem mergeMembersInto_eq (ms : Members) (hms : (Json.obj ms).Ordered) :
    ∀ ns : List (String × Json), (∀ n ∈ ns, n.2.Ordered) →
      mergeMembersInto ms ns = mergeMembers ms ns
  | [], _ => rfl
  | (key, v) :: ns, h => by
    obtain ⟨hv, hns⟩ := List.forall_mem_cons.mp h
    rw [mergeMembersInto, mergeMembers, Members.contains]
    cases hw : ms.get? key with
    | none => exact mergeMembersInto_eq _ (hms.insert hv key) ns hns
    | some w =>
      have hword : w.Ordered := (Json.ordered_obj_iff.mp hms).2 _ (Members.mem_of_get? hw)
      have hmerged := mergeInto_eq w hword v hv
      rw [hms.sorted.map_eq_insert hw (mergeInto · v), hmerged]
      exact mergeMembersInto_eq _ (hms.insert (Values.ordered_mergeTrees hword hv) key) ns hns

end

/-- The filter takes the two values as they are. -/
theorem apply_merge (mode : Mode) (base overlay : Value) :
    apply mode "merge" [base, overlay] = merge base overlay := by
  have htake : apply mode "merge" [base, overlay] =
      Take.all mode [] (Take.finish (merge base overlay)) := rfl
  rw [htake]
  cases merge base overlay <;> rfl

/-- Merging in a template comes to the same as merging the values of a chart: two trees of integers,
made template values and merged by the filter, are the tree that the values come to. -/
theorem merge_refines_values {n k : Nat} {base overlay : Json} (hbase : base.Within n)
    (hb : base.isIntegral = true) (hoverlay : overlay.Within k) (ho : overlay.isIntegral = true)
    (mode : Mode) :
    ∃ v, apply mode "merge" [.ofJson base, .ofJson overlay] = .ok v ∧
      v.toJson = .ok ((⟨base⟩ : Values).merge ⟨overlay⟩).tree := by
  have hmerged := Values.within_mergeTrees (hoverlay.mono (Nat.le_max_right n k)) ho
    (hbase.mono (Nat.le_max_left n k)) hb
  refine ⟨.ofJson (mergeTrees base overlay), ?_, Value.toJson_ofJson hmerged.1 hmerged.2⟩
  rw [apply_merge, merge, Value.toJson_ofJson hbase hb, Value.toJson_ofJson hoverlay ho]
  exact congrArg (Except.ok ∘ Value.ofJson)
    (mergeInto_eq base hbase.ordered overlay hoverlay.ordered)

section Witness

theorem within_shopDefaults : Values.shopDefaults.tree.Within 2 := by
  refine .obj (List.pairwise_pair.mpr (by decide +kernel)) ?_
  refine List.forall_mem_cons.mpr ⟨.obj (List.pairwise_pair.mpr (by decide +kernel)) ?_, ?_⟩
  · simpa using Json.within_ofInt (by decide) 0
  · simpa using Json.within_ofInt (by decide) 1

theorem within_shopOverlay : Values.shopOverlay.tree.Within 2 := by
  refine .obj (List.pairwise_pair.mpr (by decide +kernel)) ?_
  have htag : (Json.obj [("tag", .ofInt 2)]).Within 1 :=
    .obj (List.pairwise_singleton _ _) (by simpa using Json.within_ofInt (by decide) 0)
  have htime : (Json.obj [("time", .ofInt 5)]).Within 1 :=
    .obj (List.pairwise_singleton _ _) (by simpa using Json.within_ofInt (by decide) 0)
  exact List.forall_mem_cons.mpr ⟨htag, List.forall_mem_singleton.mpr htime⟩

/-- An object and an object, and an object in place of a number. -/
theorem merge_refines_values_shop :
    (Values.shopDefaults.tree.Within 2 ∧ Values.shopDefaults.tree.isIntegral = true) ∧
    (Values.shopOverlay.tree.Within 2 ∧ Values.shopOverlay.tree.isIntegral = true) ∧
    ∃ v, apply ⟨true, false⟩ "merge"
        [.ofJson Values.shopDefaults.tree, .ofJson Values.shopOverlay.tree] = .ok v ∧
      v.toJson = .ok (.obj
        [("image", .obj [("name", .str "shop"), ("tag", .ofInt 2)]),
          ("wait", .obj [("time", .ofInt 5)])]) := by
  obtain ⟨v, hv, htree⟩ := merge_refines_values within_shopDefaults rfl within_shopOverlay rfl
    ⟨true, false⟩
  have hmerged : (Values.shopDefaults.merge Values.shopOverlay).tree =
      .obj [("image", .obj [("name", .str "shop"), ("tag", .ofInt 2)]),
        ("wait", .obj [("time", .ofInt 5)])] := by decide +kernel
  exact ⟨⟨within_shopDefaults, rfl⟩, ⟨within_shopOverlay, rfl⟩, v, hv,
    htree.trans (congrArg Except.ok hmerged)⟩

end Witness

end Template.Filter

end DeliveryCharts
