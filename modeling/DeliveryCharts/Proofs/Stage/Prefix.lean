import DeliveryCharts.Proofs.Stage.Binding

/-!
Prefixes of a pipeline. What a stage resolves to depends on the stages before it, and on the number
of all stages only by which error is reported; so the stages of a prefix resolve to the same,
whatever follows them.
-/

namespace DeliveryCharts.Stage

section Total

variable {ctx : Context} {t : Nat}

theorem Context.positionOf_total (ht : ctx.index < t) {stage reference : String} {j : Nat}
    (h : ctx.positionOf stage reference = .ok j) :
    Context.positionOf { ctx with total := t } stage reference = .ok j := by
  rw [positionOf] at h ⊢
  split at h
  · rename_i n hn
    split at h
    · cases h
    · split at h
      · cases h
      · have hzero : ¬ (n = 0 ∨ t < n) := by omega
        have hindex : ¬ ctx.index ≤ n - 1 := by assumption
        simp only [hzero, hindex, ↓reduceIte]
        exact h
  · exact h

theorem Context.boundBake_total (ht : ctx.index < t) {header : Header} {given : Option String}
    {b : Bake} (h : ctx.boundBake header given = .ok b) :
    Context.boundBake { ctx with total := t } header given = .ok b := by
  simp only [boundBake, Except.bind_eq_ok_iff, Except.mapError_eq_ok_iff] at h ⊢
  obtain ⟨reference, hr, j, hj, hb⟩ := h
  exact ⟨reference, hr, j, positionOf_total ht hj, hb⟩

theorem Context.boundArtifactId_total (ht : ctx.index < t) {header : Header}
    {given : Option String} {id : String} (h : ctx.boundArtifactId header given = .ok id) :
    Context.boundArtifactId { ctx with total := t } header given = .ok id := by
  rw [boundArtifactId, Except.bind_eq_ok_iff] at h ⊢
  obtain ⟨b, hb, hid⟩ := h
  exact ⟨b, boundBake_total ht hb, hid⟩

variable {σ : Type} {raw stage : Members} {refId : String}

theorem resolveAs_total {c : Codec σ} {expand : σ → Header → Context → Except Error σ}
    (he : ∀ s h s', expand s h ctx = .ok s' → expand s h { ctx with total := t } = .ok s')
    (h : resolveAs c expand raw refId ctx = .ok stage) :
    resolveAs c expand raw refId { ctx with total := t } = .ok stage := by
  obtain ⟨header, p, o, s₀, s, hh, hp, ho, hs₀, hs, rfl⟩ := resolveAs_eq_ok_iff.mp h
  exact resolveAs_eq_ok_iff.mpr ⟨header, p, o, s₀, s, hh, hp, ho, hs₀, he _ _ _ hs, rfl⟩

/-- A stage that resolves does so whatever the number of stages behind it. -/
theorem Kind.resolve_total {k : Kind} (ht : ctx.index < t)
    (h : k.resolve raw refId ctx = .ok stage) :
    k.resolve raw refId { ctx with total := t } = .ok stage := by
  cases k with
  | bake | delete | jenkins | manualJudgment | nestedPipeline | wait =>
    rw [Kind.resolve] at h ⊢
    apply resolveAs_total _ h
    intro s header s' hs
    exact hs
  | deploy =>
    rw [Kind.resolve] at h ⊢
    apply resolveAs_total _ h
    intro d header d' hd
    obtain ⟨id, hid, hd'⟩ := Deploy.expand_eq_ok_iff.mp hd
    exact Deploy.expand_eq_ok_iff.mpr ⟨id, Context.boundArtifactId_total ht hid, hd'⟩
  | runJob =>
    rw [Kind.resolve] at h ⊢
    apply resolveAs_total _ h
    intro j header j' hj
    obtain ⟨id, hid, hj'⟩ := RunJob.expand_eq_ok_iff.mp hj
    exact RunJob.expand_eq_ok_iff.mpr ⟨id, Context.boundArtifactId_total ht hid, hj'⟩

theorem resolveStage_total {r : Registry} {seen : List String} (ht : ctx.index < t)
    (h : resolveStage r ctx seen raw = .ok (stage, refId)) :
    resolveStage r { ctx with total := t } seen raw = .ok (stage, refId) := by
  obtain ⟨header, k, hh, hr, hseen, hk, hout⟩ := resolveStage_eq_ok_iff.mp h
  exact resolveStage_eq_ok_iff.mpr ⟨header, k, hh, hr, hseen, hk, Kind.resolve_total ht hout⟩

end Total

variable {r : Registry} {application pipeline : String} {total : Nat}
  {raws done : List Members} {seen : List String}

namespace Resolved

theorem withTotal {t : Nat} (h : Resolved r application pipeline total raws done seen)
    (ht : raws.length ≤ t) : Resolved r application pipeline t raws done seen := by
  induction h with
  | nil => exact .nil
  | @snoc raws done seen raw stage refId h hs ih =>
    rw [List.length_append, List.length_singleton] at ht
    have hs' := resolveStage_total (t := t) (by simp only [h.length_eq]; omega) hs
    exact .snoc (ih (by omega)) hs'

theorem take (h : Resolved r application pipeline total raws done seen) (k : Nat) :
    ∃ seen', Resolved r application pipeline total (raws.take k) (done.take k) seen' := by
  induction h with
  | nil =>
    refine ⟨[], ?_⟩
    simpa using Resolved.nil
  | @snoc raws done seen raw stage refId h hs ih =>
    have hlength := h.length_eq
    by_cases hk : k ≤ raws.length
    · rw [List.take_append_of_le_length hk, List.take_append_of_le_length (by omega)]
      exact ih
    · refine ⟨seen ++ [refId], ?_⟩
      rw [List.take_of_length_le (by simp; omega), List.take_of_length_le (by simp; omega)]
      exact h.snoc hs

theorem resolveFrom_eq (h : Resolved r application pipeline total raws done seen) :
    resolveFrom r application pipeline total [] [] raws = ⟨done, none⟩ := by
  have hrun := h.resolveFrom_append []
  rwa [List.append_nil] at hrun

end Resolved

/-- A run does not touch the stages that are resolved already. -/
theorem isPrefix_resolveFrom (r : Registry) (application pipeline : String) (total : Nat)
    (done : List Members) (seen : List String) (rest : List Members) :
    done <+: (resolveFrom r application pipeline total done seen rest).stages := by
  induction rest generalizing done seen with
  | nil => exact List.prefix_rfl
  | cons raw rest ih =>
    rw [resolveFrom]
    split
    · exact (List.prefix_append done _).trans (ih _ _)
    · exact List.prefix_append done _

/-- The stages before a position resolve, and the one there fails behind them. -/
def FailsAt (r : Registry) (application pipeline : String) (stages : List Members) (k : Nat)
    (e : Error) : Prop :=
  ∃ raw done seen, stages[k]? = some raw ∧
    Resolved r application pipeline stages.length (stages.take k) done seen ∧
    resolveStage r ⟨application, pipeline, k, done, stages.length⟩ seen raw = .error e

section Failure

variable {stages : List Members} {k : Nat} {e : Error}

theorem exists_failsAt (h : (resolveAll r application pipeline stages).error = some e) :
    ∃ k, FailsAt r application pipeline stages k e := by
  rw [resolveAll] at h
  have hnil : Resolved r application pipeline stages.length [] [] [] := .nil
  rcases hnil.run stages with ⟨out, seen, -, hrun⟩ |
    ⟨first, raw, last, done, seen, e', hs, hd, he, hrun⟩
  · rw [hrun] at h
    cases h
  · rw [hrun] at h
    cases h
    rw [List.nil_append] at hd
    rw [hd.length_eq] at he
    refine ⟨first.length, raw, done, seen, ?_, ?_, he⟩
    · simp [hs]
    · simpa only [hs, List.take_left] using hd

/-- The run stops at the position, whatever follows it there. -/
theorem FailsAt.stops (h : FailsAt r application pipeline stages k e) :
    ∃ raw done seen, stages[k]? = some raw ∧
      Resolved r application pipeline stages.length (stages.take k) done seen ∧
      ∀ rest, resolveFrom r application pipeline stages.length [] []
        (stages.take k ++ raw :: rest) = ⟨done ++ raw :: rest, some e⟩ := by
  obtain ⟨raw, done, seen, hraw, hd, he⟩ := h
  have hlength : done.length = k := by
    have hk := (List.getElem?_eq_some_iff.mp hraw).1
    rw [hd.length_eq, List.length_take]
    omega
  refine ⟨raw, done, seen, hraw, hd, ?_⟩
  intro rest
  rw [hd.resolveFrom_append, resolveFrom, hlength]
  simp only [he]

/-- A run that fails leaves the stages from there on as they are. -/
theorem FailsAt.run (h : FailsAt r application pipeline stages k e) :
    ∃ done seen, Resolved r application pipeline stages.length (stages.take k) done seen ∧
      resolveAll r application pipeline stages = ⟨done ++ stages.drop k, some e⟩ := by
  obtain ⟨raw, done, seen, hraw, hd, hrun⟩ := h.stops
  obtain ⟨hk, rfl⟩ := List.getElem?_eq_some_iff.mp hraw
  have hrun := hrun (stages.drop (k + 1))
  rw [← List.drop_eq_getElem_cons hk, List.take_append_drop] at hrun
  exact ⟨done, seen, hd, hrun⟩

/-- The stages up to the one that fails do not resolve on their own either. -/
theorem FailsAt.take_succ (h : FailsAt r application pipeline stages k e) (out : List Members) :
    resolve r application pipeline (stages.take (k + 1)) ≠ .ok out := by
  intro hout
  obtain ⟨raw, done, seen, hraw, -, hrun⟩ := h.stops
  obtain ⟨seen', h'⟩ := resolve_eq_ok_iff.mp hout
  have hok := (h'.withTotal (List.length_take_le' _ _)).resolveFrom_eq
  rw [List.take_add_one, hraw, Option.toList_some, hrun []] at hok
  cases hok

end Failure

/-- Whatever follows the stages of a pipeline, they resolve to the same, and if all resolve then
they do. A run fails at a position: the stages before it are resolved as on their own, and those
from there on are left as they are. -/
theorem resolution_prefix_stable (r : Registry) (application pipeline : String) :
    (∀ xs ys rs, resolve r application pipeline xs = .ok rs →
      (resolveAll r application pipeline (xs ++ ys)).stages.take xs.length = rs) ∧
    (∀ xs ys out, resolve r application pipeline (xs ++ ys) = .ok out →
      resolve r application pipeline xs = .ok (out.take xs.length)) ∧
    (∀ stages e, (resolveAll r application pipeline stages).error = some e →
      ∃ k, FailsAt r application pipeline stages k e) ∧
    ∀ stages k e, FailsAt r application pipeline stages k e →
      (∀ out, resolve r application pipeline (stages.take (k + 1)) ≠ .ok out) ∧
      ∃ done, resolve r application pipeline (stages.take k) = .ok done ∧
        resolveAll r application pipeline stages = ⟨done ++ stages.drop k, some e⟩ := by
  refine ⟨?_, ?_, fun stages e ↦ exists_failsAt, ?_⟩
  · intro xs ys rs hrs
    obtain ⟨seen, h⟩ := resolve_eq_ok_iff.mp hrs
    have hrun := (h.withTotal (t := (xs ++ ys).length) (by simp)).resolveFrom_append ys
    have hkept := isPrefix_resolveFrom r application pipeline (xs ++ ys).length rs seen ys
    rw [resolveAll, hrun, ← h.length_eq]
    exact (List.prefix_iff_eq_take.mp hkept).symm
  · intro xs ys out hout
    obtain ⟨seen, h⟩ := resolve_eq_ok_iff.mp hout
    obtain ⟨seen', h'⟩ := h.take xs.length
    rw [List.take_left] at h'
    exact resolve_eq_ok_iff.mpr ⟨seen', h'.withTotal (Nat.le_refl _)⟩
  · intro stages k e h
    obtain ⟨done, seen, hd, hrun⟩ := h.run
    have hdone := resolve_eq_ok_iff.mpr ⟨seen, hd.withTotal (Nat.le_refl _)⟩
    exact ⟨h.take_succ, done, hdone, hrun⟩

section Witness

/-- A stage that is to be bound to itself. -/
def webUnbound : Members := [("bakeStageRefIds", .str "2"), ("type", .str "deployManifest")]

theorem resolution_prefix_stable_web :
    (resolve .builtin "shop" "release" [webBake] = .ok [webBaked] ∧
      (resolveAll .builtin "shop" "release" ([webBake] ++ [webUnbound])).stages.take 1 =
        [webBaked]) ∧
    (resolve .builtin "shop" "release" ([webBake] ++ [webDeploy]) =
        .ok [webBaked, webDeployed] ∧
      resolve .builtin "shop" "release" [webBake] = .ok ([webBaked, webDeployed].take 1)) ∧
    (resolveAll .builtin "shop" "release" [webBake, webUnbound]).error =
      some (.reference (.forwardReference "#2" 2)) ∧
    ∃ k done, resolve .builtin "shop" "release" ([webBake, webUnbound].take k) = .ok done ∧
      resolveAll .builtin "shop" "release" [webBake, webUnbound] =
        ⟨done ++ [webBake, webUnbound].drop k, some (.reference (.forwardReference "#2" 2))⟩ := by
  have hbake : resolve .builtin "shop" "release" [webBake] = .ok [webBaked] := by decide +kernel
  have hdeploy : resolve .builtin "shop" "release" ([webBake] ++ [webDeploy]) =
      .ok [webBaked, webDeployed] := by decide +kernel
  have hfails : (resolveAll .builtin "shop" "release" [webBake, webUnbound]).error =
      some (.reference (.forwardReference "#2" 2)) := by decide +kernel
  obtain ⟨kept, within, position, stops⟩ :=
    resolution_prefix_stable .builtin "shop" "release"
  obtain ⟨k, hk⟩ := position _ _ hfails
  obtain ⟨-, done, hdone, hrun⟩ := stops _ k _ hk
  exact ⟨⟨hbake, kept _ [webUnbound] _ hbake⟩, ⟨hdeploy, within _ _ _ hdeploy⟩, hfails, k, done,
    hdone, hrun⟩

end Witness

end DeliveryCharts.Stage
