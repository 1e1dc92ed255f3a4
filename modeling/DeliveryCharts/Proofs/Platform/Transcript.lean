import DeliveryCharts.Platform.Spin
import DeliveryCharts.Proofs.Platform.Reconciliation

/-!
What the program behind the platform is asked, whatever it answers. A run asks for one object after
the other, each of them once, and hands over those that have to be saved; it stops at the first
answer that is of no use, and it never deletes.
-/

namespace DeliveryCharts.Platform

open Manifest (Compiled ManifestSet)
open Text (Bytes)

variable {σ : Type}

theorem Request.on_tryCatch {α : Type} (x : Request σ α) (f : Failure → Request σ α) (s : σ) :
    on (tryCatch x f) s =
      match x.on s with
      | (.ok a, t) => (.ok a, t)
      | (.error e, t) => (f e).on t := by
  cases h : x.on s with
  | mk answer t =>
    have hx : x s = (answer, t) := h
    simp only [on, ExceptT.run, tryCatch, tryCatchThe, MonadExceptOf.tryCatch, ExceptT.tryCatch,
      bind, ExceptT.mk, StateT.bind, hx]
    cases answer <;> rfl

theorem Request.on_discard {α : Type} (x : Request σ α) (s : σ) :
    on (discard x) s = ((x.on s).1.map fun _ ↦ (), (x.on s).2) := by
  have h : discard x = x >>= fun _ ↦ pure () := rfl
  rw [h, on_bind]
  obtain ⟨e | a, t⟩ := x.on s <;> rfl

abbrev Transcript := List (Call × Except String Response)

/-- The program, with its transcript. -/
def recorded (p : Program σ) : Program (σ × Transcript) := fun call s ↦
  ((p call s.1).1, (p call s.1).2, s.2 ++ [(call, (p call s.1).1)])

namespace Spin

variable (spin : Spin) (o : Options) (c : Compiled)

def getCall : Call := spin.call (.ofCompiled c) .get none

def saveCall : Call :=
  spin.call (.ofCompiled c) .save (some (Text.utf8String c.canonicalText))

def result (object : Object) (a : Action) (answer : Except String Response) :
    Except Failure Bytes :=
  match answer with
  | .error cause => .error (.spawn spin.program cause)
  | .ok r =>
    if r.exit = 0 then .ok r.stdout
    else
      let command := Text.joinStrings " " ("spin" :: spin.arguments object a)
      .error (classify object command (Response.message r))

/-- The canonical text of the stored copy that the answer shows, if there is a copy. -/
def copyIn (answer : Except String Response) : Except Failure (Option String) :=
  match spin.result (.ofCompiled c) .get answer with
  | .ok body =>
    if isBlank body then .ok none else ((storedText c body).map some).mapError .core
  | .error e => if e.isNotFound then .ok none else .error e

/-- The calls for one object, and what comes of it. -/
inductive Exchange : Transcript → Except Failure Report → Prop
  | useless {answer : Except String Response} {e : Failure}
    (h : spin.copyIn c answer = .error e) : Exchange [(spin.getCall c, answer)] (.error e)
  | kept {answer : Except String Response} {existing : Option String}
    (h : spin.copyIn c answer = .ok existing) (hs : (reportOf o c existing).saved = false) :
    Exchange [(spin.getCall c, answer)] (.ok (reportOf o c existing))
  | saved {answer answer' : Except String Response} {existing : Option String} {output : Bytes}
    (h : spin.copyIn c answer = .ok existing) (hs : (reportOf o c existing).saved = true)
    (hsave : spin.result (.ofCompiled c) .save answer' = .ok output) :
    Exchange [(spin.getCall c, answer), (spin.saveCall c, answer')] (.ok (reportOf o c existing))
  | refused {answer answer' : Except String Response} {existing : Option String} {e : Failure}
    (h : spin.copyIn c answer = .ok existing) (hs : (reportOf o c existing).saved = true)
    (hsave : spin.result (.ofCompiled c) .save answer' = .error e) :
    Exchange [(spin.getCall c, answer), (spin.saveCall c, answer')] (.error e)

/-- The calls for one object after the other, up to the first error. -/
inductive Conversation : List Compiled → Transcript → Except Failure (List Report) → Prop
  | nil : Conversation [] [] (.ok [])
  | stop {c : Compiled} {cs : List Compiled} {log : Transcript} {e : Failure}
    (h : spin.Exchange o c log (.error e)) : Conversation (c :: cs) log (.error e)
  | next {c : Compiled} {cs : List Compiled} {log logs : Transcript} {report : Report}
    {reports : Except Failure (List Report)} (h : spin.Exchange o c log (.ok report))
    (hs : Conversation cs logs reports) :
    Conversation (c :: cs) (log ++ logs) (reports.map (report :: ·))

def callsFor (report : Report) : List Call :=
  spin.getCall c :: if report.saved then [spin.saveCall c] else []

structure Served (cs : List Compiled) (reports : List Report) (log : Transcript) : Prop where
  /-- The reports are what the answers say. -/
  conversation : spin.Conversation o cs log (.ok reports)
  calls : log.map Prod.fst = (cs.zip reports).flatMap fun e ↦ spin.callsFor e.1 e.2
  objects : reports.map (·.object) = cs.map .ofCompiled
  saved : ∀ r ∈ reports, r.saved = true ↔
    o.dryRun = false ∧ (r.outcome = .new ∨ r.outcome = .changed)

section Runs

variable {spin o c} {object : Object} {p : Program σ}

theorem on_request (spin : Spin) (p : Program σ) (object : Object) (a : Action)
    (spec : Option Bytes) (st : σ) (log : Transcript) :
    (spin.request (recorded p) object a spec).on (st, log) =
      (spin.result object a (p (spin.call object a spec) st).1,
        (p (spin.call object a spec) st).2,
        log ++ [(spin.call object a spec, (p (spin.call object a spec) st).1)]) := by
  simp only [request, Request.on_bind, Request.on_get, recorded, result]
  cases hp : p (spin.call object a spec) st with
  | mk answer t =>
    simp only
    cases answer with
    | error cause => rfl
    | ok r =>
      by_cases hr : r.exit = 0
      · simp only [hr, ↓reduceIte]
        rfl
      · simp only [hr, ↓reduceIte]
        rfl

theorem on_get {p : Program σ} {s : σ} : ((spin.client p).get object).on s =
    match (spin.request p object .get none).on s with
    | (.ok body, t) => (.ok (if isBlank body then none else some body), t)
    | (.error e, t) => (if e.isNotFound then .ok none else .error e, t) := by
  simp only [client, Request.on_bind, Request.on_tryCatch]
  obtain ⟨e | body, t⟩ := (spin.request p object .get none).on s
  · cases he : e.isNotFound
    · simp only [he]
      rfl
    · simp only [he]
      rfl
  · rfl

theorem on_existing (st : σ) (log : Transcript) :
    ((spin.client (recorded p)).existing c).on (st, log) =
      (spin.copyIn c (p (spin.getCall c) st).1, (p (spin.getCall c) st).2,
        log ++ [(spin.getCall c, (p (spin.getCall c) st).1)]) := by
  have hrequest := on_request spin p (.ofCompiled c) .get none st log
  rw [← getCall] at hrequest
  rw [Client.existing, Request.on_bind, on_get, hrequest, copyIn]
  cases spin.result (.ofCompiled c) .get (p (spin.getCall c) st).1 with
  | error e =>
    cases he : e.isNotFound
    · simp only [he]
      rfl
    · simp only [he]
      rfl
  | ok body =>
    cases hb : isBlank body
    · simp only [hb, Bool.false_eq_true, ↓reduceIte]
      cases storedText c body <;> rfl
    · simp only [hb]
      rfl

/-- Reconciling an object is an exchange about it, whatever the program answers. -/
theorem exchange_of_on_reconcile (spin : Spin) (o : Options) (c : Compiled) (p : Program σ)
    (st : σ) (log : Transcript) : ∃ report t more,
    ((spin.client (recorded p)).reconcile o c).on (st, log) = (report, t, log ++ more) ∧
      spin.Exchange o c more report := by
  have hreport : (spin.client (recorded p)).reconcile o c =
      (spin.client (recorded p)).existing c >>= fun existing ↦ do
        if (reportOf o c existing).saved then
          discard (spin.request (recorded p) (.ofCompiled c) .save
            (some (Text.utf8String c.canonicalText)))
        return reportOf o c existing := rfl
  rw [hreport, Request.on_bind, on_existing]
  generalize hget : p (spin.getCall c) st = first
  obtain ⟨answer, t⟩ := first
  cases hcopy : spin.copyIn c answer with
  | error e => exact ⟨_, _, _, rfl, .useless hcopy⟩
  | ok existing =>
    simp only
    cases hs : (reportOf o c existing).saved with
    | false => exact ⟨_, _, _, rfl, .kept hcopy hs⟩
    | true =>
      have hrequest := on_request spin p (.ofCompiled c) .save
        (some (Text.utf8String c.canonicalText)) t (log ++ [(spin.getCall c, answer)])
      rw [← saveCall] at hrequest
      simp only [↓reduceIte, Request.on_bind, Request.on_discard, hrequest, List.append_assoc]
      generalize p (spin.saveCall c) t = second
      obtain ⟨answer', u⟩ := second
      cases hsave : spin.result (.ofCompiled c) .save answer' with
      | error e => exact ⟨_, _, _, rfl, .refused hcopy hs hsave⟩
      | ok output => exact ⟨_, _, _, rfl, .saved hcopy hs hsave⟩

theorem conversation_of_on_mapM (spin : Spin) (o : Options) (p : Program σ) (cs : List Compiled)
    (st : σ) (log : Transcript) :
    ∃ reports t more, (cs.mapM ((spin.client (recorded p)).reconcile o)).on (st, log) =
      (reports, t, log ++ more) ∧ spin.Conversation o cs more reports := by
  induction cs generalizing st log with
  | nil => exact ⟨_, st, [], by rw [List.append_nil]; rfl, .nil⟩
  | cons c cs ih =>
    obtain ⟨report, t, more, hrun, hexchange⟩ :=
      exchange_of_on_reconcile spin o c p st log
    rw [List.mapM_cons, Request.on_bind, hrun]
    cases report with
    | error e => exact ⟨_, t, more, rfl, .stop hexchange⟩
    | ok report =>
      obtain ⟨reports, u, rest, hrest, hconversation⟩ := ih t (log ++ more)
      refine ⟨reports.map (report :: ·), u, more ++ rest, ?_, .next hexchange hconversation⟩
      simp only [Request.on_bind, hrest, List.append_assoc]
      cases reports <;> rfl

end Runs

variable {spin o c}

theorem reportOf_saved {existing : Option String} : (reportOf o c existing).saved = true ↔
    o.dryRun = false ∧ ((reportOf o c existing).outcome = .new ∨
      (reportOf o c existing).outcome = .changed) := by
  simp only [reportOf]
  cases o.dryRun <;> cases compare existing c.canonicalText <;> decide

theorem Exchange.ok {log : Transcript} {report : Report} (h : spin.Exchange o c log (.ok report)) :
    log.map Prod.fst = spin.callsFor c report ∧ ∃ existing, report = reportOf o c existing := by
  cases h with
  | kept h hs => exact ⟨by simp [callsFor, hs], _, rfl⟩
  | saved h hs hsave => exact ⟨by simp [callsFor, hs], _, rfl⟩

/-- An exchange asks for the object, and it hands the object over at most once and not in a plan. -/
theorem Exchange.mem {log : Transcript} {report : Except Failure Report}
    (h : spin.Exchange o c log report) {call : Call} (hcall : call ∈ log.map Prod.fst) :
    call = spin.getCall c ∨ o.dryRun = false ∧ call = spin.saveCall c := by
  cases h with
  | useless h => exact .inl (by simpa using hcall)
  | kept h hs => exact .inl (by simpa using hcall)
  | saved h hs hsave =>
    have hdry := (reportOf_saved.mp hs).1
    simpa [hdry] using hcall
  | refused h hs hsave =>
    have hdry := (reportOf_saved.mp hs).1
    simpa [hdry] using hcall

namespace Conversation

variable {cs : List Compiled} {log : Transcript}

theorem mem {reports : Except Failure (List Report)} (h : spin.Conversation o cs log reports)
    {call : Call} (hcall : call ∈ log.map Prod.fst) :
    ∃ c ∈ cs, call = spin.getCall c ∨ o.dryRun = false ∧ call = spin.saveCall c := by
  induction h with
  | nil => cases hcall
  | stop h => exact ⟨_, List.mem_cons_self, h.mem hcall⟩
  | next h hs ih =>
    rw [List.map_append, List.mem_append] at hcall
    rcases hcall with hcall | hcall
    · exact ⟨_, List.mem_cons_self, h.mem hcall⟩
    · obtain ⟨c, hc, hcall⟩ := ih hcall
      exact ⟨c, List.mem_cons_of_mem _ hc, hcall⟩

theorem served {result : Except Failure (List Report)} (h : spin.Conversation o cs log result)
    {reports : List Report} (hok : result = .ok reports) : spin.Served o cs reports log := by
  induction h generalizing reports with
  | nil =>
    obtain rfl := Except.ok.inj hok
    exact ⟨.nil, rfl, rfl, by simp⟩
  | stop h => cases hok
  | next h hs ih =>
    obtain ⟨rest, rfl, rfl⟩ := Except.map_eq_ok_iff.mp hok
    obtain ⟨hcalls, existing, rfl⟩ := h.ok
    have hrest := ih rfl
    refine ⟨.next h hs, ?_, ?_, ?_⟩
    · simp [hcalls, hrest.calls]
    · simp [hrest.objects, reportOf]
    · exact List.forall_mem_cons.mpr ⟨reportOf_saved, hrest.saved⟩

/-- A conversation that fails is one that ends well, and behind it an exchange that fails. -/
theorem split {result : Except Failure (List Report)} (h : spin.Conversation o cs log result)
    {e : Failure} (herror : result = .error e) :
    ∃ first c rest reports earlier last, cs = first ++ c :: rest ∧ log = earlier ++ last ∧
      spin.Conversation o first earlier (.ok reports) ∧ spin.Exchange o c last (.error e) := by
  induction h with
  | nil => cases herror
  | @stop c cs log e' h =>
    obtain rfl := Except.error.inj herror
    exact ⟨[], c, cs, [], [], log, rfl, rfl, .nil, h⟩
  | @next c cs log logs report result h hs ih =>
    cases result with
    | ok reports => cases herror
    | error e' =>
      obtain ⟨first, d, rest, reports, earlier, last, rfl, rfl, hfirst, hlast⟩ :=
        ih (congrArg _ (Except.error.inj herror))
      exact ⟨c :: first, d, rest, report :: reports, log ++ earlier, last, rfl,
        (List.append_assoc ..).symm, .next h hfirst, hlast⟩

end Conversation

end Spin

/-- The object that a tree names. -/
def Object.named? (json : Json) : Manifest.Kind → Option Object
  | .application => do return application (← (← json.get? "name").str?)
  | .pipeline => do
    return pipeline (← (← json.get? "application").str?) (← (← json.get? "name").str?)

theorem get?_ofList_canonicalMembers (ms : List (String × Json)) (key : String) :
    (Members.ofList (Json.canonicalMembers ms)).get? key =
      ((Members.ofList ms).get? key).map Json.canonical := by
  induction ms with
  | nil => rfl
  | cons m ms ih =>
    rw [Json.canonicalMembers, Members.get?_ofList_cons, Members.get?_ofList_cons, ih]
    cases (Members.ofList ms).get? key with
    | some v => rfl
    | none => by_cases h : m.1 = key <;> simp [h]

theorem named?_canonicalText (c : Compiled) : ∃ json : Json,
    c.canonicalText = .ofList (json.prettyChars 0 ++ ['\n']) ∧
      Object.named? json c.kind = some (.ofCompiled c) := by
  cases c with
  | application m =>
    have hname : (Members.ofList m.spec.encode).get? "name" = some (.str m.spec.name) := by
      simp [Manifest.Application.encode]
    refine ⟨m.spec.toJson.canonical, rfl, ?_⟩
    simp [Object.named?, Compiled.kind, Manifest.Application.toJson, Json.canonical, Json.get?,
      get?_ofList_canonicalMembers, hname, Json.str?, Object.ofCompiled]
  | pipeline m =>
    have hname : (Members.ofList m.spec.toPlatform.encode).get? "name" =
        some (.str m.spec.name) := by
      simp [Manifest.Pipeline.encode, Manifest.Pipeline.toPlatform]
    have happlication : (Members.ofList m.spec.toPlatform.encode).get? "application" =
        some (.str m.spec.application) := by
      simp [Manifest.Pipeline.encode, Manifest.Pipeline.toPlatform]
    refine ⟨m.spec.toPlatform.toJson.canonical, rfl, ?_⟩
    simp [Object.named?, Compiled.kind, Manifest.Pipeline.toJson, Json.canonical, Json.get?,
      get?_ofList_canonicalMembers, hname, happlication, Json.str?, Object.ofCompiled]

namespace Spin

variable {spin : Spin}

theorem getCall_ne_delete (c : Compiled) (object : Object) (spec : Option Bytes) :
    spin.getCall c ≠ spin.call object .delete spec := by
  intro h
  have harguments := congrArg (fun call ↦ call.arguments[3]?) h
  simp [getCall, call, arguments, actionWord] at harguments

theorem saveCall_ne_delete (c : Compiled) (object : Object) (spec : Option Bytes) :
    spin.saveCall c ≠ spin.call object .delete spec := by
  intro h
  have harguments := congrArg (fun call ↦ call.arguments[3]?) h
  simp [saveCall, call, arguments, actionWord] at harguments

/-- Whatever the program answers, and however it is called in the end, a run asks for one object
after the other, and right behind that it hands the object over if and only if it does not only plan
and the object is new or changed. With the first answer of no use it ends. It never deletes, a plan
only asks, and what is handed over is the canonical text of the object that was asked for. -/
theorem calls_follow_protocol (spin : Spin) (p : Program σ) (o : Options) (set : ManifestSet)
    (st : σ) : ∃ result t log,
      ((spin.client (recorded p)).reconcileAll o set).on (st, []) = (result, t, log) ∧
      ((∃ reports, result = .ok reports ∧ spin.Served o set.objects reports log) ∨
        ∃ e first c rest reports earlier last, result = .error e ∧
          set.objects = first ++ c :: rest ∧ log = earlier ++ last ∧
          spin.Served o first reports earlier ∧ spin.Exchange o c last (.error e)) ∧
      (∀ call ∈ log.map Prod.fst, (∀ object spec, call ≠ spin.call object .delete spec) ∧
        ∃ c ∈ set.objects, call = spin.getCall c ∨ o.dryRun = false ∧ call = spin.saveCall c) ∧
      ∀ c ∈ set.objects, spin.getCall c = spin.call (.ofCompiled c) .get none ∧
        ∃ json : Json, Object.named? json c.kind = some (.ofCompiled c) ∧
          spin.saveCall c = spin.call (.ofCompiled c) .save
            (some (Text.utf8String (.ofList (json.prettyChars 0 ++ ['\n'])))) := by
  obtain ⟨result, t, log, hrun, hconversation⟩ :=
    conversation_of_on_mapM spin o p set.objects st []
  refine ⟨result, t, log, hrun, ?_, fun call hcall ↦ ?_, fun c hc ↦ ?_⟩
  · cases hresult : result with
    | ok reports => exact .inl ⟨reports, rfl, hconversation.served hresult⟩
    | error e =>
      obtain ⟨first, c, rest, reports, earlier, last, hset, hlog, hfirst, hlast⟩ :=
        hconversation.split hresult
      exact .inr ⟨e, first, c, rest, reports, earlier, last, rfl, hset, hlog, hfirst.served rfl,
        hlast⟩
  · obtain ⟨c, hc, hcall⟩ := hconversation.mem hcall
    refine ⟨fun object spec ↦ ?_, c, hc, hcall⟩
    rcases hcall with rfl | ⟨-, rfl⟩
    · exact getCall_ne_delete c object spec
    · exact saveCall_ne_delete c object spec
  · obtain ⟨json, htext, hnamed⟩ := named?_canonicalText c
    exact ⟨rfl, json, hnamed, by rw [saveCall, htext]⟩

end Spin

end DeliveryCharts.Platform
