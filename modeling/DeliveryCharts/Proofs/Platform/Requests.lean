import DeliveryCharts.Platform.Reconcile
import DeliveryCharts.Platform.Store

/-!
Requests to the platform in memory, and runs that reconcile one object after the other: what they
answer, and that none of them touches an object that it is not about.
-/

namespace DeliveryCharts.Platform

open Manifest (Compiled)
open Text (Bytes)

namespace Request

variable {σ α β : Type}

/-- What a request answers in a state, and the state that it leaves. -/
def on (x : Request σ α) (s : σ) : Except Failure α × σ := x.run s

theorem on_bind (x : Request σ α) (f : α → Request σ β) (s : σ) :
    on (x >>= f) s =
      match x.on s with
      | (.ok a, t) => (f a).on t
      | (.error e, t) => (.error e, t) := by
  have h : on (x >>= f) s = ExceptT.bindCont f (x.on s).1 (x.on s).2 := rfl
  rw [h]
  obtain ⟨e | a, t⟩ := x.on s <;> rfl

theorem on_bind_eq_ok_iff {x : Request σ α} {f : α → Request σ β} {s t : σ} {b : β} :
    on (x >>= f) s = (.ok b, t) ↔ ∃ a u, x.on s = (.ok a, u) ∧ (f a).on u = (.ok b, t) := by
  rw [on_bind]
  obtain ⟨e | a, u⟩ := x.on s
  · simp
  · simp [and_assoc]

theorem on_bind_eq_error_iff {x : Request σ α} {f : α → Request σ β} {s t : σ} {e : Failure} :
    on (x >>= f) s = (.error e, t) ↔
      x.on s = (.error e, t) ∨ ∃ a u, x.on s = (.ok a, u) ∧ (f a).on u = (.error e, t) := by
  rw [on_bind]
  obtain ⟨e | a, u⟩ := x.on s
  · simp
  · simp [and_assoc]

theorem on_pure (a : α) (s : σ) : on (pure a) s = (.ok a, s) := rfl

theorem on_modify (f : σ → σ) (s : σ) : on (modify f) s = (.ok (), f s) := rfl

theorem on_get (s : σ) : on get s = (.ok s, s) := rfl

end Request

namespace Objects

theorem get?_erase {s : Objects} {o o' : Object} (h : o' ≠ o) :
    (s.erase o).get? o' = s.get? o' := by
  induction s with
  | nil => rfl
  | cons e s ih =>
    obtain ⟨k, payload⟩ := e
    simp only [erase, get?] at ih ⊢
    by_cases hk : k = o
    · subst k
      have hne : (o' == o) = false := by simpa using h
      simp only [List.lookup_cons, hne, ← ih]
      simp
    · rw [List.filter_cons_of_pos (by simpa using hk), List.lookup_cons, List.lookup_cons, ih]

theorem get?_insert (s : Objects) (o o' : Object) (payload : Bytes) :
    (s.insert o payload).get? o' = if o' = o then some payload else s.get? o' := by
  rw [insert, get?, List.lookup_cons]
  by_cases h : o' = o
  · simp [h]
  · have hne : (o' == o) = false := by simpa using h
    rw [if_neg h, hne]
    exact get?_erase h

end Objects

namespace Store

theorem on_save (s : Store) (o : Object) (payload : Bytes) :
    (client.save o (some payload)).on s =
      if s.hasOwner o then (.ok (), { s.insert o payload with saves := s.saves + 1 })
      else (.error (.applicationMissing o), { s with saves := s.saves + 1 }) := by
  have howner : ({ s with saves := s.saves + 1 } : Store).hasOwner o = s.hasOwner o := by
    cases o <;> rfl
  simp only [client, Request.on_bind, Request.on_modify, Request.on_get, howner]
  cases s.hasOwner o <;> rfl

end Store

/-- The canonical text of what is stored for an object, if anything is. -/
def existingText (s : Objects) (c : Compiled) : Except Failure (Option String) :=
  match s.get? (.ofCompiled c) with
  | none => .ok none
  | some payload => ((storedText c payload).map some).mapError .core

/-- What is reported of an object of which the platform has the given copy. -/
def reportOf (o : Options) (c : Compiled) (existing : Option String) : Report :=
  let outcome := compare existing c.canonicalText
  { object := .ofCompiled c, outcome, diff := diffOf o existing c.canonicalText
    saved := !o.dryRun && outcome ≠ .unchanged }

namespace Store

/-- After the platform was asked for an object. -/
def asked (s : Store) : Store := { s with gets := s.gets + 1 }

/-- After an object was saved. -/
def saved (s : Store) (c : Compiled) : Store :=
  { s.insert (.ofCompiled c) (Text.utf8String c.canonicalText) with saves := s.saves + 1 }

theorem on_existing (s : Store) (c : Compiled) :
    (client.existing c).on s = (existingText s.objects c, s.asked) := by
  have hget : (client.get (.ofCompiled c)).on s =
      (.ok (s.objects.get? (.ofCompiled c)), s.asked) := rfl
  rw [Client.existing, Request.on_bind, hget, existingText]
  cases s.objects.get? (.ofCompiled c) with
  | none => rfl
  | some payload =>
    simp only
    cases storedText c payload <;> rfl

theorem on_reconcile (s : Store) (o : Options) (c : Compiled) :
    (client.reconcile o c).on s =
      match existingText s.objects c with
      | .error e => (.error e, s.asked)
      | .ok existing =>
        if (reportOf o c existing).saved then
          if s.hasOwner (.ofCompiled c) then (.ok (reportOf o c existing), s.asked.saved c)
          else (.error (.applicationMissing (.ofCompiled c)),
            { s.asked with saves := s.saves + 1 })
        else (.ok (reportOf o c existing), s.asked) := by
  have howner : s.asked.hasOwner (.ofCompiled c) = s.hasOwner (.ofCompiled c) := by
    cases c <;> rfl
  have hreport : client.reconcile o c = client.existing c >>= fun existing ↦ do
      if (reportOf o c existing).saved then
        client.save (.ofCompiled c) (some (Text.utf8String c.canonicalText))
      return reportOf o c existing := rfl
  rw [hreport, Request.on_bind, on_existing]
  cases existingText s.objects c with
  | error e => rfl
  | ok existing =>
    simp only
    cases (reportOf o c existing).saved with
    | false => rfl
    | true =>
      simp only [↓reduceIte, Request.on_bind, on_save, howner]
      cases s.hasOwner (.ofCompiled c) <;> rfl

/-- An object is reconciled where its copy can be read, and it is saved if it has to be and can. -/
theorem on_reconcile_eq_ok_iff {s t : Store} {o : Options} {c : Compiled} {report : Report} :
    (client.reconcile o c).on s = (.ok report, t) ↔
      ∃ existing, existingText s.objects c = .ok existing ∧ report = reportOf o c existing ∧
        if report.saved then s.hasOwner (.ofCompiled c) ∧ t = s.asked.saved c else t = s.asked := by
  rw [on_reconcile]
  cases existingText s.objects c with
  | error e => simp
  | ok existing =>
    simp only [Except.ok.injEq, exists_eq_left']
    split
    · rename_i hsaved
      split
      · rename_i howner
        simp only [Prod.mk.injEq, Except.ok.injEq]
        constructor
        · rintro ⟨rfl, rfl⟩
          simp [hsaved, howner]
        · rintro ⟨rfl, h⟩
          rw [if_pos hsaved] at h
          exact ⟨rfl, h.2.symm⟩
      · rename_i howner
        simp only [Prod.mk.injEq, reduceCtorEq, false_and, false_iff]
        rintro ⟨rfl, h⟩
        rw [if_pos hsaved] at h
        exact howner h.1
    · rename_i hsaved
      simp only [Prod.mk.injEq, Except.ok.injEq]
      constructor
      · rintro ⟨rfl, rfl⟩
        simp [hsaved]
      · rintro ⟨rfl, h⟩
        rw [if_neg hsaved] at h
        exact ⟨rfl, h.symm⟩

/-- An object cannot be reconciled where its copy cannot be read, or where it has to be saved and
has no owner. Nothing is stored then. -/
theorem on_reconcile_eq_error {s t : Store} {o : Options} {c : Compiled} {e : Failure}
    (h : (client.reconcile o c).on s = (.error e, t)) :
    t.objects = s.objects ∧
      (existingText s.objects c = .error e ∨
        o.dryRun = false ∧ s.hasOwner (.ofCompiled c) = false ∧
          e = .applicationMissing (.ofCompiled c)) := by
  rw [on_reconcile] at h
  cases he : existingText s.objects c with
  | error e' =>
    rw [he] at h
    cases h
    exact ⟨rfl, .inl rfl⟩
  | ok existing =>
    simp only [he] at h
    split at h
    · rename_i hsaved
      split at h
      · cases h
      · rename_i howner
        cases h
        have hdry : o.dryRun = false := by
          simp only [reportOf, Bool.and_eq_true, Bool.not_eq_true'] at hsaved
          exact hsaved.1
        exact ⟨rfl, .inr ⟨hdry, by simpa using howner, rfl⟩⟩
    · cases h

/-- No other object is touched. -/
theorem get?_of_on_reconcile {s t : Store} {o : Options} {c : Compiled} {report : Report}
    (h : (client.reconcile o c).on s = (.ok report, t)) {object : Object}
    (hne : object ≠ .ofCompiled c) : t.objects.get? object = s.objects.get? object := by
  obtain ⟨existing, -, -, ht⟩ := on_reconcile_eq_ok_iff.mp h
  split at ht
  · obtain ⟨-, rfl⟩ := ht
    exact (Objects.get?_insert _ _ _ _).trans (if_neg hne)
  · rw [ht]
    rfl

/-- The objects are reconciled one after the other, with these reports. -/
inductive Reconciles (o : Options) : List Compiled → Store → List Report → Store → Prop
  | nil (s : Store) : Reconciles o [] s [] s
  | cons {c : Compiled} {cs : List Compiled} {s t u : Store} {report : Report}
      {reports : List Report} (h : (client.reconcile o c).on s = (.ok report, t))
      (hs : Reconciles o cs t reports u) : Reconciles o (c :: cs) s (report :: reports) u

/-- The first `k` objects are reconciled, and the next one fails with this error. -/
inductive FailsAt (o : Options) : List Compiled → Store → Nat → Failure → Store → Prop
  | here {c : Compiled} {cs : List Compiled} {s t : Store} {e : Failure}
      (h : (client.reconcile o c).on s = (.error e, t)) : FailsAt o (c :: cs) s 0 e t
  | later {c : Compiled} {cs : List Compiled} {s t u : Store} {report : Report} {k : Nat}
      {e : Failure} (h : (client.reconcile o c).on s = (.ok report, t))
      (hs : FailsAt o cs t k e u) : FailsAt o (c :: cs) s (k + 1) e u

variable {o : Options} {cs : List Compiled} {s t : Store} {reports : List Report}

theorem on_mapM_eq_ok_iff :
    (cs.mapM (client.reconcile o)).on s = (.ok reports, t) ↔ Reconciles o cs s reports t := by
  induction cs generalizing s reports with
  | nil =>
    rw [List.mapM_nil, Request.on_pure]
    constructor
    · rintro ⟨⟩
      exact .nil _
    · rintro ⟨⟩
      rfl
  | cons c cs ih =>
    rw [List.mapM_cons]
    simp only [Request.on_bind_eq_ok_iff, Request.on_pure]
    constructor
    · rintro ⟨report, u, h, reports, v, hs, ⟨⟩⟩
      exact .cons h (ih.mp hs)
    · rintro (_ | ⟨h, hs⟩)
      exact ⟨_, _, h, _, _, ih.mpr hs, rfl⟩

theorem on_mapM_eq_error_iff {e : Failure} :
    (cs.mapM (client.reconcile o)).on s = (.error e, t) ↔ ∃ k, FailsAt o cs s k e t := by
  induction cs generalizing s with
  | nil =>
    rw [List.mapM_nil, Request.on_pure]
    constructor
    · rintro ⟨⟩
    · rintro ⟨k, ⟨⟩⟩
  | cons c cs ih =>
    rw [List.mapM_cons]
    simp only [Request.on_bind_eq_error_iff, Request.on_pure]
    constructor
    · rintro (h | ⟨report, u, h, hs | ⟨_, _, -, ⟨⟩⟩⟩)
      · exact ⟨0, .here h⟩
      · obtain ⟨k, hs⟩ := ih.mp hs
        exact ⟨k + 1, .later h hs⟩
    · rintro ⟨k, h | ⟨h, hs⟩⟩
      · exact .inl h
      · exact .inr ⟨_, _, h, .inl (ih.mpr ⟨_, hs⟩)⟩

theorem reconciles_append_iff {ds : List Compiled} : Reconciles o (cs ++ ds) s reports t ↔
    ∃ first last u, reports = first ++ last ∧ Reconciles o cs s first u ∧
      Reconciles o ds u last t := by
  induction cs generalizing s reports with
  | nil =>
    constructor
    · exact fun h ↦ ⟨[], reports, s, rfl, .nil s, h⟩
    · rintro ⟨_, _, _, rfl, ⟨⟩, h⟩
      exact h
  | cons c cs ih =>
    constructor
    · rintro (_ | ⟨h, hs⟩)
      obtain ⟨first, last, u, rfl, hfirst, hlast⟩ := ih.mp hs
      exact ⟨_ :: first, last, u, rfl, .cons h hfirst, hlast⟩
    · rintro ⟨_, last, u, rfl, _ | ⟨h, hs⟩, hlast⟩
      exact .cons h (ih.mpr ⟨_, last, u, rfl, hs, hlast⟩)

/-- What precedes the object at which a run fails is reconciled. -/
theorem FailsAt.split {k : Nat} {e : Failure} (h : FailsAt o cs s k e t) :
    ∃ c reports u, cs[k]? = some c ∧ Reconciles o (cs.take k) s reports u ∧
      (client.reconcile o c).on u = (.error e, t) := by
  induction h with
  | here h => exact ⟨_, [], _, rfl, .nil _, h⟩
  | later h _ ih =>
    obtain ⟨c, reports, u, hc, hrun, he⟩ := ih
    exact ⟨c, _ :: reports, u, hc, .cons h hrun, he⟩

namespace Reconciles

theorem get?_eq (h : Reconciles o cs s reports t) {object : Object}
    (hne : ∀ c ∈ cs, object ≠ .ofCompiled c) :
    t.objects.get? object = s.objects.get? object := by
  induction h with
  | nil => rfl
  | cons h hs ih =>
    obtain ⟨hc, hcs⟩ := List.forall_mem_cons.mp hne
    exact (ih hcs).trans (get?_of_on_reconcile h hc)

end Reconciles

end Store

end DeliveryCharts.Platform
