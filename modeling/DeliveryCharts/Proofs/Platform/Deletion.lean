import DeliveryCharts.Proofs.Platform.Reconciliation

/-!
Deleting objects from the platform in memory. A run over any list of objects succeeds, and what it
leaves is read off the platform that it started on: without the objects of the list, and without
the pipelines of each application of the list that was there.
-/

namespace DeliveryCharts.Platform

open Manifest (ManifestSet)

/-- Deleting the first object, where it is stored, deletes the second one. -/
def Object.takes (o : Object) : Object → Bool
  | .application app => o = .application app
  | .pipeline app name => o = .pipeline app name ∨ o = .application app

theorem Objects.contains_eq_false_iff {s : Objects} {o : Object} :
    s.contains o = false ↔ s.get? o = none := by
  simp [contains]

theorem Objects.get?_filter (p : Object → Bool) (s : Objects) (o : Object) :
    get? (s.filter fun e ↦ p e.1) o = if p o then s.get? o else none := by
  induction s with
  | nil => simp [get?]
  | cons e s ih =>
    obtain ⟨k, payload⟩ := e
    simp only [get?] at ih ⊢
    rw [List.filter_cons, List.lookup_cons]
    by_cases hk : o = k
    · subst hk
      cases hp : p o <;> simp [hp, ih]
    · have hne : (o == k) = false := beq_eq_false_iff_ne.mpr hk
      cases hp : p k <;> simp [List.lookup_cons, hne, ih]

namespace Store

variable {s : Store} {o o' : Object} {os : List Object}

theorem without_eq (s : Store) (o : Object) :
    s.without o = s.objects.filter fun e ↦ !o.takes e.1 := by
  cases o with
  | pipeline app name =>
    refine List.filter_congr fun e _ ↦ ?_
    cases he : e.1 <;> simp [Object.takes, eq_comm]
  | application app =>
    rw [without, Objects.erasePipelines, Objects.erase, List.filter_filter]
    refine List.filter_congr fun e _ ↦ ?_
    cases he : e.1 <;> simp [Object.takes, eq_comm]

theorem get?_without (s : Store) (o o' : Object) :
    (s.without o).get? o' = if o.takes o' then none else s.objects.get? o' := by
  rw [without_eq, Objects.get?_filter fun k ↦ !o.takes k]
  cases o.takes o' <;> rfl

def deletion (s : Store) (o : Object) : Deletion :=
  if s.objects.contains o then .deleted else .absent

def deleted (s : Store) (o : Object) : Store :=
  { s with objects := if s.objects.contains o then s.without o else s.objects
           deletes := s.deletes + 1 }

theorem on_delete (s : Store) (o : Object) :
    (client.delete o).on s = (.ok (s.deletion o), s.deleted o) := by
  simp only [client, Request.on_bind, Request.on_modify, Request.on_get, deletion, deleted]
  cases s.objects.contains o <;> rfl

def deletions (s : Store) : List Object → List (Object × Deletion)
  | [] => []
  | o :: os => (o, s.deletion o) :: (s.deleted o).deletions os

theorem on_deletions (s : Store) (os : List Object) :
    (os.mapM fun o ↦ do return (o, ← client.delete o)).on s =
      (.ok (s.deletions os), os.foldl deleted s) := by
  induction os generalizing s with
  | nil => rfl
  | cons o os ih =>
    rw [List.mapM_cons]
    simp only [Request.on_bind, on_delete, Request.on_pure, ih]
    rfl

theorem map_fst_deletions (s : Store) (os : List Object) : (s.deletions os).map Prod.fst = os := by
  induction os generalizing s with
  | nil => rfl
  | cons o os ih => rw [deletions, List.map_cons, ih]

theorem getElem?_deletions (s : Store) (os : List Object) (i : Nat) :
    (s.deletions os)[i]? = os[i]?.map fun o ↦ (o, ((os.take i).foldl deleted s).deletion o) := by
  induction os generalizing s i with
  | nil => rfl
  | cons o os ih =>
    cases i with
    | zero => rfl
    | succ i => exact ih (s.deleted o) i

theorem get?_deleted (s : Store) (o o' : Object) : (s.deleted o).objects.get? o' =
    if s.objects.contains o && o.takes o' then none else s.objects.get? o' := by
  rw [deleted]
  cases hs : s.objects.contains o with
  | false => rfl
  | true => exact s.get?_without o o'

/-- An object of the list takes the other one along: it is that object or its application, and it
was stored when the run started. -/
def Removed (s : Store) (os : List Object) (o : Object) : Prop :=
  ∃ d ∈ os, s.objects.contains d = true ∧ d.takes o = true

theorem takes_trans {a b c : Object} (hab : a.takes b = true) (hbc : b.takes c = true) :
    a.takes c = true := by
  cases c <;> cases b <;> simp_all [Object.takes]

theorem contains_deleted (s : Store) (o o' : Object) : (s.deleted o).objects.contains o' =
    (s.objects.contains o' && !(s.objects.contains o && o.takes o')) := by
  rw [Objects.contains, get?_deleted]
  cases s.objects.contains o && o.takes o' <;> simp [Objects.contains]

/-- An application that is deleted earlier has taken its pipelines along then, so that the presence
of an object at the start decides. -/
theorem removed_cons : s.Removed (o :: os) o' ↔
    (s.objects.contains o = true ∧ o.takes o' = true) ∨ (s.deleted o).Removed os o' := by
  constructor
  · rintro ⟨d, hd, hs, ht⟩
    by_cases ho : s.objects.contains o = true ∧ o.takes o' = true
    · exact .inl ho
    · have hkeep : ¬(s.objects.contains o = true ∧ o.takes d = true) := by
        intro h
        exact ho ⟨h.1, takes_trans h.2 ht⟩
      rcases List.mem_cons.mp hd with rfl | hd
      · exact absurd ⟨hs, ht⟩ ho
      · refine .inr ⟨d, hd, ?_, ht⟩
        rw [contains_deleted, hs]
        cases hso : s.objects.contains o <;> simp_all
  · rintro (⟨hs, ht⟩ | ⟨d, hd, hs, ht⟩)
    · exact ⟨o, List.mem_cons_self, hs, ht⟩
    · rw [contains_deleted, Bool.and_eq_true] at hs
      exact ⟨d, List.mem_cons_of_mem o hd, hs.1, ht⟩

theorem get?_foldl_deleted (s : Store) (os : List Object) (o : Object) :
    (s.Removed os o → (os.foldl deleted s).objects.get? o = none) ∧
      (¬ s.Removed os o → (os.foldl deleted s).objects.get? o = s.objects.get? o) := by
  induction os generalizing s with
  | nil => exact ⟨fun ⟨_, hd, _⟩ ↦ absurd hd List.not_mem_nil, fun _ ↦ rfl⟩
  | cons d os ih =>
    rw [removed_cons, List.foldl_cons]
    obtain ⟨hremoved, hkept⟩ := ih (s.deleted d)
    have hget := s.get?_deleted d o
    refine ⟨fun h ↦ ?_, fun h ↦ ?_⟩
    · by_cases hlater : (s.deleted d).Removed os o
      · exact hremoved hlater
      · rw [hkept hlater, hget, if_pos (by simpa using h.resolve_right hlater)]
    · obtain ⟨hd, hlater⟩ := not_or.mp h
      rw [hkept hlater, hget, if_neg (by simpa using hd)]

theorem contains_foldl_deleted (s : Store) (os : List Object) (o : Object) :
    (os.foldl deleted s).objects.contains o = true ↔
      s.objects.contains o = true ∧ ¬ s.Removed os o := by
  obtain ⟨hremoved, hkept⟩ := s.get?_foldl_deleted os o
  rw [Objects.contains]
  by_cases h : s.Removed os o
  · simp [hremoved h, h]
  · simp [hkept h, h, Objects.contains]

theorem get?_foldl_deleted_of_absent (h : s.objects.contains o = false) (os : List Object) :
    (os.foldl deleted s).objects.get? o = none := by
  obtain ⟨hremoved, hkept⟩ := s.get?_foldl_deleted os o
  by_cases ho : s.Removed os o
  · exact hremoved ho
  · rw [hkept ho, Objects.contains_eq_false_iff.mp h]

theorem takes_self (o : Object) : o.takes o = true := by cases o <;> simp [Object.takes]

theorem not_contains_of_mem (h : o ∈ os) : (os.foldl deleted s).objects.contains o = false := by
  refine Bool.eq_false_iff.mpr fun hc ↦ ?_
  obtain ⟨hs, hr⟩ := (s.contains_foldl_deleted os o).mp hc
  exact hr ⟨o, h, hs, takes_self o⟩

/-- Where none of the objects is stored, deleting them changes nothing. -/
theorem on_deletions_of_absent (h : ∀ o ∈ os, s.objects.contains o = false) :
    s.deletions os = os.map (·, .absent) ∧
      os.foldl deleted s = { s with deletes := s.deletes + os.length } := by
  induction os generalizing s with
  | nil => exact ⟨rfl, rfl⟩
  | cons o os ih =>
    obtain ⟨ho, hos⟩ := List.forall_mem_cons.mp h
    have hdeleted : s.deleted o = { s with deletes := s.deletes + 1 } := by
      rw [deleted, ho]
      rfl
    obtain ⟨hdeletions, hfold⟩ := ih (s := s.deleted o) (by rw [hdeleted]; exact hos)
    constructor
    · rw [deletions, hdeletions, deletion, ho]
      rfl
    · rw [List.foldl_cons, hfold, hdeleted, List.length_cons, Nat.add_right_comm, Nat.add_assoc]

/-- What the set describes on this platform: its objects, and the pipelines of those of its
applications that are stored. -/
def Described (s : Store) (set : ManifestSet) (o : Object) : Prop :=
  o ∈ Client.deletionOrder set ∨
    ∃ m ∈ set.applications, s.objects.contains (.application m.spec.name) = true ∧
      ∃ name, o = .pipeline m.spec.name name

theorem removed_iff (hs : s.objects.contains o = true) (set : ManifestSet) :
    s.Removed (Client.deletionOrder set) o ↔ s.Described set o := by
  constructor
  · rintro ⟨d, hd, hstored, ht⟩
    by_cases hdo : d = o
    · exact .inl (hdo ▸ hd)
    · cases o with
      | application app => exact absurd (by simpa [Object.takes] using ht) hdo
      | pipeline app name =>
        have happ : d = .application app := by
          simpa [Object.takes, hdo] using ht
        subst happ
        simp only [Client.deletionOrder, Object.ofCompiled, List.mem_append, List.mem_map,
          reduceCtorEq, and_false, exists_false, false_or, Object.application.injEq] at hd
        obtain ⟨m, hm, rfl⟩ := hd
        exact .inr ⟨m, hm, hstored, name, rfl⟩
  · rintro (ho | ⟨m, hm, hstored, name, rfl⟩)
    · exact ⟨o, ho, hs, takes_self o⟩
    · refine ⟨.application m.spec.name, ?_, hstored, by simp [Object.takes]⟩
      exact List.mem_append_right _ (List.mem_map_of_mem hm)

/-- Pipelines come first, so that none of them has been deleted with its application when its turn
comes. -/
theorem removed_take_iff {set : ManifestSet} {i : Nat} (hs : s.objects.contains o = true)
    (ho : (Client.deletionOrder set)[i]? = some o) :
    s.Removed ((Client.deletionOrder set).take i) o ↔ o ∈ (Client.deletionOrder set).take i := by
  constructor
  · rintro ⟨d, hd, -, ht⟩
    cases o with
    | application app =>
      have hdo : d = .application app := by simpa [Object.takes] using ht
      exact hdo ▸ hd
    | pipeline app name =>
      have hcases : d = .pipeline app name ∨ d = .application app := by
        simpa [Object.takes] using ht
      refine hcases.elim (fun hdo ↦ hdo ▸ hd) fun hdo ↦ ?_
      subst hdo
      have hi : i < set.pipelines.length := by
        refine Nat.lt_of_not_le fun hi ↦ ?_
        rw [Client.deletionOrder, List.getElem?_append_right (by simpa using hi),
          List.getElem?_map] at ho
        obtain ⟨_, -, ⟨⟩⟩ := Option.map_eq_some_iff.mp ho
      rw [Client.deletionOrder, List.take_append_of_le_length (by simpa using Nat.le_of_lt hi),
        ← List.map_take] at hd
      obtain ⟨_, -, ⟨⟩⟩ := List.mem_map.mp hd
  · intro hd
    exact ⟨o, hd, hs, takes_self o⟩

/-- Deleting a set always succeeds. What is reported as deleted was stored at first and has not come
before in the report; all that the set describes is gone, all else is as it was, and deleting the
set once more finds nothing. -/
theorem deleteAll_removes_set (s : Store) (set : ManifestSet) :
    ∃ report t, (client.deleteAll set).on s = (.ok report, t) ∧
      report.map Prod.fst =
        set.pipelines.map (fun m ↦ .pipeline m.spec.application m.spec.name) ++
          set.applications.map (fun m ↦ .application m.spec.name) ∧
      (∀ i o outcome, report[i]? = some (o, outcome) → (outcome = .deleted ↔
        s.objects.contains o = true ∧ o ∉ (report.take i).map Prod.fst)) ∧
      (∀ o, s.Described set o → t.objects.get? o = none) ∧
      (∀ o, ¬ s.Described set o → t.objects.get? o = s.objects.get? o) ∧
      (client.deleteAll set).on t = (.ok (report.map fun e ↦ (e.1, .absent)),
        { t with deletes := t.deletes + report.length }) := by
  have horder := s.map_fst_deletions (Client.deletionOrder set)
  refine ⟨_, _, on_deletions s (Client.deletionOrder set), horder, ?_, ?_, ?_, ?_⟩
  · intro i o outcome h
    rw [getElem?_deletions] at h
    obtain ⟨o, ho, ⟨⟩⟩ := Option.map_eq_some_iff.mp h
    have hcontains := s.contains_foldl_deleted ((Client.deletionOrder set).take i) o
    rw [List.map_take, horder]
    by_cases hs : s.objects.contains o = true
    · rw [removed_take_iff hs ho] at hcontains
      rw [deletion, ← hcontains]
      split <;> simp_all
    · have hlater : ((Client.deletionOrder set).take i |>.foldl deleted s).objects.contains o =
          false := Bool.eq_false_iff.mpr fun h ↦ hs (hcontains.mp h).1
      simp [deletion, hlater, hs]
  · intro o ho
    cases hs : s.objects.contains o with
    | true => exact (s.get?_foldl_deleted _ o).1 ((removed_iff hs set).mpr ho)
    | false => exact get?_foldl_deleted_of_absent hs _
  · intro o ho
    cases hs : s.objects.contains o with
    | true => exact (s.get?_foldl_deleted _ o).2 (mt (removed_iff hs set).mp ho)
    | false =>
      rw [get?_foldl_deleted_of_absent hs, Objects.contains_eq_false_iff.mp hs]
  · have habsent : ∀ o ∈ Client.deletionOrder set,
        ((Client.deletionOrder set).foldl deleted s).objects.contains o = false :=
      fun o ho ↦ not_contains_of_mem ho
    obtain ⟨hdeletions, hfold⟩ := on_deletions_of_absent habsent
    have hmap : (s.deletions (Client.deletionOrder set)).map (fun e ↦ (e.1, Deletion.absent)) =
        (Client.deletionOrder set).map (·, .absent) := by
      conv => rhs; rw [← horder, List.map_map]
      rfl
    have hlength : (s.deletions (Client.deletionOrder set)).length =
        (Client.deletionOrder set).length := by
      rw [← List.length_map (f := Prod.fst), horder]
    rw [Client.deleteAll, on_deletions, hdeletions, hfold, hmap, hlength]

section Witness

def twice : ManifestSet := ⟨[shop, shop], [release, release]⟩

def crowded : Store where
  objects := [(.application "shop", []), (.pipeline "shop" "canary", []),
    (.pipeline "shop" "release", []), (.application "web", []), (.pipeline "web" "release", [])]

theorem deleteAll_removes_set_twice :
    ∃ t, (client.deleteAll twice).on crowded =
        (.ok [(.pipeline "shop" "release", .deleted), (.pipeline "shop" "release", .absent),
          (.application "shop", .deleted), (.application "shop", .absent)], t) ∧
      t.objects.get? (.pipeline "shop" "canary") = none ∧
      t.objects.get? (.pipeline "web" "release") = some [] ∧
      (client.deleteAll twice).on t =
        (.ok [(.pipeline "shop" "release", .absent), (.pipeline "shop" "release", .absent),
          (.application "shop", .absent), (.application "shop", .absent)],
          { t with deletes := t.deletes + 4 }) := by
  obtain ⟨report, t, hrun, -, -, hgone, hkept, hagain⟩ := deleteAll_removes_set crowded twice
  have hreport : ((client.deleteAll twice).on crowded).1 =
      .ok [(.pipeline "shop" "release", .deleted), (.pipeline "shop" "release", .absent),
        (.application "shop", .deleted), (.application "shop", .absent)] := by decide
  rw [hrun] at hreport
  cases hreport
  refine ⟨t, hrun, hgone _ (.inr ⟨shop, by decide, by decide, "canary", rfl⟩), hkept _ ?_, hagain⟩
  rintro (h | ⟨m, hm, -, name, h⟩)
  · exact absurd h (by decide)
  · obtain rfl : m = shop := by simpa [twice] using hm
    have howner : "web" = "shop" := congrArg Object.owner h
    exact absurd howner (by decide)

end Witness

end Store

end DeliveryCharts.Platform
