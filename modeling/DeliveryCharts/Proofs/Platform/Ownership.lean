import DeliveryCharts.Proofs.Platform.Deletion
import DeliveryCharts.Proofs.Platform.Order

/-!
Every pipeline on the platform has its application there. Each request keeps this, whether it
succeeds or fails, and so does every run that is made of them.
-/

namespace DeliveryCharts.Platform

open Manifest (Compiled ManifestSet)
open Text (Bytes)

namespace Request

variable {σ α β : Type} {P : σ → Prop}

/-- What holds of the state before the request holds after it, also where it fails. -/
def Keeps (P : σ → Prop) (x : Request σ α) : Prop := ∀ s, P s → P (x.on s).2

theorem Keeps.pure (a : α) : Keeps P (pure a : Request σ α) := by
  intro s hs
  exact hs

theorem Keeps.bind {x : Request σ α} {f : α → Request σ β} (hx : Keeps P x)
    (hf : ∀ a, Keeps P (f a)) : Keeps P (x >>= f) := by
  intro s hs
  rw [on_bind]
  cases hon : x.on s with
  | mk answer t =>
    have hafter : P t := by simpa only [hon] using hx s hs
    cases answer with
    | error e => exact hafter
    | ok a => exact hf a t hafter

theorem Keeps.mapM {f : α → Request σ β} (hf : ∀ a, Keeps P (f a)) (as : List α) :
    Keeps P (as.mapM f) := by
  induction as with
  | nil => exact .pure []
  | cons a as ih =>
    rw [List.mapM_cons]
    refine (hf a).bind fun b ↦ ih.bind fun bs ↦ .pure (b :: bs)

end Request

namespace Store

variable {s : Store} {o : Object}

/-- Every pipeline that is stored is owned by an application that is stored. -/
def Owned (s : Store) : Prop :=
  ∀ app name, s.objects.contains (.pipeline app name) = true →
    s.objects.contains (.application app) = true

theorem Owned.insert (h : s.Owned) (howner : s.hasOwner o = true) (payload : Bytes) :
    (s.insert o payload).Owned := by
  intro app name hstored
  have hcontains (o' : Object) : (s.insert o payload).objects.contains o' =
      (decide (o' = o) || s.objects.contains o') := by
    simp only [Store.insert, Objects.contains, Objects.get?_insert]
    by_cases ho : o' = o <;> simp [ho]
  rw [hcontains, Bool.or_eq_true, decide_eq_true_eq] at hstored ⊢
  rcases hstored with rfl | hstored
  · exact .inr howner
  · exact .inr (h app name hstored)

theorem Owned.deleted (h : s.Owned) (o : Object) : (s.deleted o).Owned := by
  intro app name hstored
  rw [contains_deleted, Bool.and_eq_true] at hstored ⊢
  obtain ⟨hstored, hkept⟩ := hstored
  refine ⟨h app name hstored, ?_⟩
  -- what takes the application takes its pipelines as well
  have htakes : o.takes (.application app) = true → o.takes (.pipeline app name) = true :=
    fun ht ↦ takes_trans ht (by simp [Object.takes])
  cases hs : s.objects.contains o <;> cases ht : o.takes (.application app) <;> simp_all

theorem keeps_save (o : Object) (spec : Option Bytes) :
    Request.Keeps Owned (client.save o spec) := by
  intro s hs
  cases spec with
  | none =>
    simp only [client, Request.on_bind, Request.on_modify, Request.on_get]
    cases ({ s with saves := s.saves + 1 } : Store).hasOwner o <;> exact hs
  | some payload =>
    rw [on_save]
    split
    · rename_i howner
      exact hs.insert howner payload
    · exact hs

theorem keeps_delete (o : Object) : Request.Keeps Owned (client.delete o) := by
  intro s hs
  rw [on_delete]
  exact hs.deleted o

theorem keeps_reconcile (o : Options) (c : Compiled) :
    Request.Keeps Owned (client.reconcile o c) := by
  intro s hs
  rw [on_reconcile]
  split
  · exact hs
  · split
    · split
      · rename_i howner
        exact hs.insert howner _
      · exact hs
    · exact hs

/-- What an empty platform becomes by requests and runs, with any of them failing. -/
inductive Reachable : Store → Prop
  | empty : Reachable {}
  | save {s : Store} (h : Reachable s) (o : Object) (spec : Option Bytes) :
    Reachable ((client.save o spec).on s).2
  | delete {s : Store} (h : Reachable s) (o : Object) : Reachable ((client.delete o).on s).2
  | reconcileAll {s : Store} (h : Reachable s) (o : Options) (set : ManifestSet) :
    Reachable ((client.reconcileAll o set).on s).2
  | deleteAll {s : Store} (h : Reachable s) (set : ManifestSet) :
    Reachable ((client.deleteAll set).on s).2

/-- There are no pipelines without their application, whatever was done and whatever failed. -/
theorem no_orphans (h : Reachable s) (app name : String)
    (hstored : s.objects.contains (.pipeline app name) = true) :
    s.objects.contains (.application app) = true := by
  have howned : s.Owned := by
    clear hstored
    induction h with
    | empty => exact fun _ _ h ↦ nomatch h
    | save _ o spec ih => exact keeps_save o spec _ ih
    | delete _ o ih => exact keeps_delete o _ ih
    | reconcileAll _ o set ih => exact Request.Keeps.mapM (keeps_reconcile o) set.objects _ ih
    | deleteAll _ set ih =>
      refine Request.Keeps.mapM (fun o ↦ ?_) (Client.deletionOrder set) _ ih
      exact (keeps_delete o).bind fun d ↦ .pure (o, d)
  exact howned app name hstored

section Witness

/-- A set whose second pipeline has no application is applied, and one of its pipelines deleted. -/
def partlyApplied : Store :=
  ((client.delete (.pipeline "shop" "canary")).on
    ((client.reconcileAll (.apply false) ⟨[shop], [release, canary]⟩).on {}).2).2

theorem no_orphans_partlyApplied :
    ((client.reconcileAll (.apply false) ⟨[shop], [release, canary]⟩).on {}).1 =
      .error (.applicationMissing (.pipeline "web" "canary")) ∧
    partlyApplied.objects.contains (.pipeline "shop" "release") = true ∧
    partlyApplied.objects.contains (.application "shop") = true := by
  have hreachable : Reachable partlyApplied := .delete (.reconcileAll .empty _ _) _
  have hstored : partlyApplied.objects.contains (.pipeline "shop" "release") = true := by
    decide +kernel
  exact ⟨by decide +kernel, hstored, no_orphans hreachable "shop" "release" hstored⟩

end Witness

end Store

end DeliveryCharts.Platform
