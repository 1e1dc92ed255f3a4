import DeliveryCharts.Proofs.Template.Placeless
import DeliveryCharts.Proofs.Template.Relabelling

/-!
A rendering does not look at lines: where all lines are renumbered it goes the same way, and the
line of what it fails with is renumbered.
-/

namespace DeliveryCharts.Template

variable {α β γ δ : Type} {φ : Nat → Nat} {f : Fault}

/-! What is renumbered. -/

def Fault.relabel (φ : Nat → Nat) (f : Fault) : Fault := { f with line := f.line.map φ }

def Versions.relabel (φ : Nat → Nat) (v : Versions) : Versions :=
  { v with bodies := v.bodies.map (relabelBody φ) }

def relabelBlocks (φ : Nat → Nat) (blocks : List (String × Versions)) : List (String × Versions) :=
  blocks.map fun b ↦ (b.1, b.2.relabel φ)

def relabelAgain (φ : Nat → Nat) (again : Target × List Stmt) : Target × List Stmt :=
  (again.1.relabel φ, relabelBody φ again.2)

def Loop.relabel (φ : Nat → Nat) (l : Loop) : Loop :=
  { l with again := l.again.map (relabelAgain φ) }

def Procedure.relabel (φ : Nat → Nat) (p : Procedure) : Procedure :=
  { p with defaults := p.defaults.map (Expr.relabel φ), body := relabelBody φ p.body }

def Machine.relabel (φ : Nat → Nat) (s : Machine) : Machine :=
  { s with
    blocks := relabelBlocks φ s.blocks
    parent := s.parent.map (relabelBody φ)
    procedures := s.procedures.map (Procedure.relabel φ)
    loops := s.loops.map (Loop.relabel φ) }

def Site.relabel (φ : Nat → Nat) (site : Site) : Site :=
  { site with sources := site.sources.map (Source.relabel φ) }

def Part.relabel (φ : Nat → Nat) : Part → Part
  | .procedure id args given => .procedure id args given
  | .block name => .block name
  | .nextVersion => .nextVersion
  | .loop items => .loop items
  | .template source => .template (source.relabel φ)

theorem Fault.relabel_of_line (h : f.line = none) : f.relabel φ = f := by
  rw [relabel, h]
  cases f
  cases h
  rfl

theorem Fault.relabel_locate (f : Fault) (line : Nat) :
    (f.locate line).relabel φ = (f.relabel φ).locate (φ line) := by
  cases f with
  | mk kind detail known => cases known <;> rfl

/-! Runs. -/

def relabelOutcome (φ : Nat → Nat) (g : α → β) :
    Except Fault (α × Machine) → Except Fault (β × Machine)
  | .ok (a, s) => .ok (g a, s.relabel φ)
  | .error f => .error (f.relabel φ)

/-- With all lines renumbered the second run goes like the first one, and returns what the first one
does in another form. -/
def Along (φ : Nat → Nat) (g : α → β) (m : Run α) (m' : Run β) : Prop :=
  ∀ site s, m' (site.relabel φ) (s.relabel φ) = relabelOutcome φ g (m site s)

/-- It returns the same. -/
abbrev Alike (φ : Nat → Nat) (m m' : Run α) : Prop := Along φ id m m'

namespace Along

variable {g : α → β} {h : γ → δ} {m : Run α} {m' : Run β}

theorem pure (a : α) : Along φ g (pure a) (pure (g a)) := fun _ _ ↦ rfl

theorem throw (hf : f.line = none) : Along φ g (throw f) (throw f) := by
  intro site s
  change Except.error f = Except.error (f.relabel φ)
  rw [Fault.relabel_of_line hf]

theorem bindBy {k : α → Run γ} {k' : β → Run δ} (hm : Along φ g m m')
    (hk : ∀ a, Along φ h (k a) (k' (g a))) : Along φ h (m >>= k) (m' >>= k') := by
  intro site s
  change (m' (site.relabel φ) (s.relabel φ) >>= fun p ↦ k' p.1 (site.relabel φ) p.2) =
    relabelOutcome φ h (m site s >>= fun p ↦ k p.1 site p.2)
  rw [hm site s]
  cases m site s with
  | error f => rfl
  | ok p => exact hk p.1 site p.2

theorem ite {c : Prop} [Decidable c] {k : Run α} {k' : Run β} (hm : c → Along φ g m m')
    (hk : ¬ c → Along φ g k k') :
    Along φ g (if c then m else k) (if c then m' else k') := by
  split
  · exact hm ‹_›
  · exact hk ‹_›

theorem onLine (hm : Along φ g m m') (line : Nat) :
    Along φ g (Run.onLine line m) (Run.onLine (φ line) m') := by
  intro site s
  rw [Run.onLine, Run.onLine, hm site s]
  cases m site s with
  | error f => exact congrArg Except.error (f.relabel_locate line).symm
  | ok p => rfl

theorem wrapped (hm : Along φ g m m') (kind : FaultKind) (detail : String) :
    Along φ g (Run.wrapped kind detail m) (Run.wrapped kind detail m') := by
  intro site s
  rw [Run.wrapped, Run.wrapped, hm site s]
  cases m site s <;> rfl

/-- For runs that return the same. -/
theorem bind {m m' : Run α} {k : α → Run γ} {k' : α → Run δ} (hm : Alike φ m m')
    (hk : ∀ a, Along φ h (k a) (k' a)) : Along φ h (m >>= k) (m' >>= k') :=
  bindBy hm hk

theorem get {k : Machine → Run γ} {k' : Machine → Run δ}
    (hk : ∀ s, Along φ h (k s) (k' (s.relabel φ))) : Along φ h (get >>= k) (get >>= k') :=
  fun site s ↦ hk s site s

theorem read {k : Site → Run γ} {k' : Site → Run δ}
    (hk : ∀ site, Along φ h (k site) (k' (site.relabel φ))) :
    Along φ h (read >>= k) (read >>= k') :=
  fun site s ↦ hk site site s

theorem set {s s' : Machine} (hs : s' = s.relabel φ) : Alike φ (set s) (set s') := by
  rw [hs]
  exact fun _ _ ↦ rfl

theorem modify {u u' : Machine → Machine} (hu : ∀ s, u' (s.relabel φ) = (u s).relabel φ) :
    Alike φ (modify u) (modify u') :=
  fun _ s ↦ congrArg (fun t ↦ Except.ok (PUnit.unit, t)) (hu s)

theorem lift {x : Except Fault α} (hx : Placeless x) : Alike φ (x : Run α) (x : Run α) := by
  intro site s
  cases x with
  | error f => exact congrArg Except.error (Fault.relabel_of_line (hx f rfl)).symm
  | ok a => rfl

theorem forM {u u' : α → Run PUnit} (hu : ∀ a, Alike φ (u a) (u' a)) (as : List α) :
    Alike φ (as.forM u) (as.forM u') := by
  induction as with
  | nil => exact .pure PUnit.unit
  | cons a as ih => exact bind (hu a) fun _ ↦ ih

theorem forMap {u : α → Run PUnit} {u' : β → Run PUnit} {r : α → β}
    (hu : ∀ a, Alike φ (u a) (u' (r a))) (as : List α) :
    Alike φ (as.forM u) ((as.map r).forM u') := by
  induction as with
  | nil => exact .pure PUnit.unit
  | cons a as ih => exact bind (hu a) fun _ ↦ ih

theorem mapM {u u' : α → Run β} (hu : ∀ a, Alike φ (u a) (u' a)) (as : List α) :
    Alike φ (as.mapM u) (as.mapM u') := by
  induction as with
  | nil => exact .pure []
  | cons a as ih =>
    rw [List.mapM_cons, List.mapM_cons]
    exact bind (hu a) fun b ↦ bind ih fun bs ↦ .pure (b :: bs)

theorem filterM {u u' : α → Run Bool} (hu : ∀ a, Alike φ (u a) (u' a)) (as : List α) :
    Alike φ (as.filterM u) (as.filterM u') := by
  have hkept (as kept : List α) : Alike φ (as.filterAuxM u kept) (as.filterAuxM u' kept) := by
    induction as generalizing kept with
    | nil => exact .pure kept
    | cons a as ih => exact bind (hu a) fun passed ↦ ih (cond passed (a :: kept) kept)
  exact bind (hkept as []) fun kept ↦ .pure kept.reverse

end Along

namespace Run

variable {g : α → β} {m : Run α} {m' : Run β}

/-! Frames and text. -/

theorem alike_mode : Alike φ mode mode := fun _ _ ↦ rfl

theorem alike_depth : Alike φ depth depth := fun _ _ ↦ rfl

theorem alike_checkDepth : Alike φ checkDepth checkDepth := by
  refine .bind alike_depth fun n ↦ ?_
  split
  · exact .throw rfl
  · exact .pure ()

theorem alike_pushFrame (f : Frame) : Alike φ (pushFrame f) (pushFrame f) :=
  .bind (.modify fun _ ↦ rfl) fun _ ↦ alike_checkDepth

theorem alike_popFrame : Alike φ popFrame popFrame := .modify fun _ ↦ rfl

theorem along_withFrame (f : Frame) (hm : Along φ g m m') :
    Along φ g (withFrame f m) (withFrame f m') :=
  .bind (alike_pushFrame f) fun _ ↦ .bindBy hm fun a ↦ .bind alike_popFrame fun _ ↦ .pure a

theorem alike_topFrame : Alike φ topFrame topFrame := fun _ _ ↦ rfl

theorem alike_setTopFrame (f : Frame) : Alike φ (setTopFrame f) (setTopFrame f) :=
  .modify fun _ ↦ rfl

theorem alike_write (text : String) : Alike φ (write text) (write text) := by
  refine .modify fun s ↦ ?_
  simp only [Machine.relabel]
  split <;> rfl

theorem alike_isDiscarding : Alike φ isDiscarding isDiscarding := fun _ _ ↦ rfl

theorem alike_startOutput (output : Option String) :
    Alike φ (startOutput output) (startOutput output) :=
  .modify fun _ ↦ rfl

theorem alike_endOutput : Alike φ endOutput endOutput := fun _ _ ↦ rfl

theorem alike_capture {m m' : Run Unit} (hm : Alike φ m m') : Alike φ (capture m) (capture m') :=
  .bind (alike_startOutput _) fun _ ↦ .bind hm fun _ ↦ .bind alike_endOutput fun _ ↦
    fun _ _ ↦ rfl

theorem along_discard (hm : Along φ g m m') : Along φ g (discard m) (discard m') :=
  .bind (alike_startOutput none) fun _ ↦ .bindBy hm fun a ↦ .bind alike_endOutput fun _ ↦ .pure a

/-! Names. -/

theorem alike_loopValue (id : Nat) : Alike φ (loopValue id) (loopValue id) := by
  refine .get fun s ↦ ?_
  simp only [Machine.relabel, Array.getElem?_map]
  cases s.loops[id]? <;> exact .pure _

theorem alike_inFrame? (f : Frame) (name : String) :
    Alike φ (inFrame? f name) (inFrame? f name) := by
  rw [inFrame?.eq_def]
  split
  · exact .pure _
  · split
    · exact .bind (alike_loopValue _) fun v ↦ .pure (some v)
    · exact fun _ _ ↦ rfl

theorem along_findSomeM? {g : β → γ} {u : α → Run (Option β)} {u' : α → Run (Option γ)}
    (hu : ∀ a, Along φ (Option.map g) (u a) (u' a)) (as : List α) :
    Along φ (Option.map g) (as.findSomeM? u) (as.findSomeM? u') := by
  induction as with
  | nil => exact .pure none
  | cons a as ih =>
    refine .bindBy (hu a) fun b ↦ ?_
    cases b with
    | none => exact ih
    | some b => exact .pure (some b)

theorem alike_findSomeM? {u u' : α → Run (Option β)} (hu : ∀ a, Alike φ (u a) (u' a))
    (as : List α) : Alike φ (as.findSomeM? u) (as.findSomeM? u') := by
  have hmap : (Option.map id : Option β → Option β) = id := Option.map_id
  rw [Alike, ← hmap]
  refine along_findSomeM? (fun a ↦ ?_) as
  rw [hmap]
  exact hu a

theorem alike_lookup? (name : String) : Alike φ (lookup? name) (lookup? name) := by
  refine .get fun s ↦ .bind (alike_findSomeM? (alike_inFrame? · name) s.frames) fun v ↦ ?_
  cases v with
  | none => exact .pure _
  | some v => exact .pure _

theorem alike_store (name : String) (v : Value) : Alike φ (store name v) (store name v) := by
  refine .bind alike_topFrame fun f ↦ .bind (alike_setTopFrame _) fun _ ↦ ?_
  split
  · exact .modify fun _ ↦ rfl
  · exact .pure ()

theorem alike_enclose (name : String) : Alike φ (enclose name) (enclose name) := by
  have hkeep (id : Nat) : Alike φ (do
      let kept := ((← get).closures[id]?).getD []
      if (kept.lookup name).isNone then
        let v := (← lookup? name).getD .missing
        modify fun s ↦ { s with closures := s.closures.modify id (assign name v) })
      (do
      let kept := ((← get).closures[id]?).getD []
      if (kept.lookup name).isNone then
        let v := (← lookup? name).getD .missing
        modify fun s ↦ { s with closures := s.closures.modify id (assign name v) }) := by
    refine .get fun s ↦ .ite (fun _ ↦ .bind (alike_lookup? name) fun v ↦ ?_) fun _ ↦ .pure ()
    exact .modify fun _ ↦ rfl
  refine .bind alike_topFrame fun f ↦ ?_
  dsimp only
  split
  · exact .bind (.pure _) fun id ↦ hkeep id
  · refine .get fun s ↦ .bind (.set rfl) fun _ ↦ .bind (alike_setTopFrame _) fun _ ↦
      .bind (.pure _) fun id ↦ hkeep id

/-! Records and loops. -/

theorem alike_record (entries : List (Value × Value)) : Alike φ (record entries) (record entries) :=
  fun _ _ ↦ rfl

theorem alike_settle (v : Value) : Alike φ (settle v) (settle v) := by
  rw [settle.eq_def]
  split
  · exact fun _ _ ↦ rfl
  · exact .pure _

theorem along_loop? : Along φ (Option.map (Loop.relabel φ)) loop? loop? := by
  intro site s
  have hfound : (s.relabel φ).loops = s.loops.map (Loop.relabel φ) := rfl
  change Except.ok (((s.frames.findSome? Frame.loop).bind fun l ↦ (s.relabel φ).loops[l.1]?),
      s.relabel φ) =
    Except.ok (((s.frames.findSome? Frame.loop).bind fun l ↦ s.loops[l.1]?).map _, s.relabel φ)
  rw [hfound]
  cases s.frames.findSome? Frame.loop with
  | none => rfl
  | some l => simp

theorem alike_newLoop (items : List Value) (again : Option (Target × List Stmt)) :
    Alike φ (newLoop items again) (newLoop items (again.map (relabelAgain φ))) := by
  refine .bindBy along_loop? fun outer ↦ .get fun s ↦ ?_
  have hset (depth : Nat) : Alike φ
      (do
        set { s with loops := s.loops.push { items := items.toArray, depth, again } }
        return s.loops.size)
      (do
        set { s.relabel φ with
          loops := (s.relabel φ).loops.push
            { items := items.toArray, depth, again := again.map (relabelAgain φ) } }
        return (s.relabel φ).loops.size) := by
    have hsize : (s.relabel φ).loops.size = s.loops.size := Array.size_map
    rw [hsize]
    refine .bind (.set ?_) fun _ ↦ .pure _
    simp only [Machine.relabel, Array.map_push]
    rfl
  cases outer with
  | none => exact hset 0
  | some l =>
    obtain ⟨items', index, depth, last, again'⟩ := l
    cases again' with
    | none => exact hset 0
    | some again' => exact hset (depth + 1)

/-- A loop goes on without a look at its lines. -/
theorem modify_relabel (φ : Nat → Nat) (loops : Array Loop) (id : Nat) (u : Loop → Loop)
    (hu : ∀ l, u (l.relabel φ) = (u l).relabel φ) :
    (loops.map (Loop.relabel φ)).modify id u = (loops.modify id u).map (Loop.relabel φ) := by
  apply Array.ext_getElem?
  intro i
  rw [Array.getElem?_modify, Array.getElem?_map, Array.getElem?_map, Array.getElem?_modify]
  split
  · cases loops[i]? with
    | none => rfl
    | some l => exact congrArg some (hu l)
  · rfl

theorem alike_iterate (items : List Value) (again : Option (Target × List Stmt)) (named : Bool)
    {body body' : Value → Run Unit} (hbody : ∀ v, Alike φ (body v) (body' v)) :
    Alike φ (iterate items again named body)
      (iterate items (again.map (relabelAgain φ)) named body') := by
  refine .bind (alike_newLoop items again) fun id ↦ along_withFrame _ (.forM (fun p ↦ ?_) _)
  refine .bind (.modify fun s ↦ ?_) fun _ ↦ hbody p.1
  have hloops := modify_relabel φ s.loops id (fun l ↦ { l with index := p.2 }) fun _ ↦ rfl
  exact congrArg (fun loops ↦ { s.relabel φ with loops }) hloops

theorem alike_field? (v : Value) (name : String) : Alike φ (field? v name) (field? v name) := by
  refine .get fun s ↦ ?_
  cases v with
  | handle h =>
    cases h with
    | loop id label =>
      simp only [Machine.relabel, Array.getElem?_map]
      cases s.loops[id]? <;> exact .pure _
    | procedure id label =>
      simp only [Machine.relabel, Array.getElem?_map]
      cases s.procedures[id]? <;> exact .pure _
    | record _ | function _ => exact .pure _
  | undefined _ | none | bool _ | int _ | float _ | text _ _ | list _ _ | map _ _ => exact .pure _

theorem alike_item? (v index : Value) : Alike φ (item? v index) (item? v index) := by
  rw [item?.eq_def]
  split
  · exact alike_field? _ _
  · exact fun _ _ ↦ rfl
  · exact .pure _

theorem alike_orMissing (v : Value) (found : Option Value) :
    Alike φ (orMissing v found) (orMissing v found) := by
  rw [orMissing.eq_def]
  split
  · exact .pure _
  · split
    · exact .throw rfl
    · exact .pure _

theorem alike_truth (v : Value) : Alike φ (truth v) (truth v) := by
  rw [truth.eq_def]
  split
  · exact .read fun site ↦ .ite (fun _ ↦ .throw rfl) fun _ ↦ .pure false
  · exact .pure _

theorem alike_print (v : Value) : Alike φ (print v) (print v) := by
  rw [print.eq_def]
  split
  · exact .read fun site ↦ .ite (fun _ ↦ .throw rfl) fun _ ↦ .pure ()
  · exact .get fun s ↦ .bind (alike_settle _) fun w ↦ alike_write _

/-! Calls. -/

theorem alike_makeRecord (args : List Value) : Alike φ (makeRecord args) (makeRecord args) := by
  rw [makeRecord.eq_def]
  split
  all_goals first
    | exact alike_record _
    | exact .throw rfl

theorem alike_changed (id : Nat) (args : List Value) :
    Alike φ (changed id args) (changed id args) := by
  refine .get fun s ↦ ?_
  have hlast : ((s.relabel φ).loops[id]?).bind Loop.changed = (s.loops[id]?).bind Loop.changed := by
    simp only [Machine.relabel, Array.getElem?_map]
    cases s.loops[id]? <;> rfl
  rw [hlast]
  refine .ite (fun _ ↦ .pure _) fun _ ↦ .bind (.modify fun s ↦ ?_) fun _ ↦ .pure _
  have hloops := modify_relabel φ s.loops id (fun l ↦ { l with changed := some args }) fun _ ↦ rfl
  exact congrArg (fun loops ↦ { s.relabel φ with loops }) hloops

theorem alike_cycled (id : Nat) (args : List Value) : Alike φ (cycled id args) (cycled id args) := by
  refine .get fun s ↦ ?_
  simp only [Machine.relabel, Array.getElem?_map]
  cases s.loops[id]? <;> exact .pure _

theorem alike_callFunction (name : String) (args : List Value) :
    Alike φ (callFunction name args) (callFunction name args) := by
  refine .bind (.mapM alike_settle args) fun args ↦ ?_
  split
  · exact alike_makeRecord args
  · rename_i t ht
    exact .bind alike_mode fun mode ↦
      .lift (Take.placeless_all (Function.placeless_table ht) mode args)
  · exact .pure _

section Enter

variable {enter : Part → Run Unit}
  (henter : ∀ part, Alike φ (enter part) (enter (part.relabel φ)))

include henter

theorem alike_callProcedure (id : Nat) (args : List Value) :
    Alike φ (callProcedure enter id args) (callProcedure enter id args) := by
  refine .get fun s ↦ ?_
  simp only [Machine.relabel, Array.getElem?_map]
  cases s.procedures[id]? with
  | none => exact .pure _
  | some p =>
    exact .bind (.lift (placeless_take p args)) fun taken ↦
      alike_capture (henter (.procedure id taken.1 taken.2))

theorem alike_callValue (v : Value) (args : List Value) :
    Alike φ (callValue enter v args) (callValue enter v args) := by
  rw [callValue.eq_def]
  split
  · exact alike_callFunction _ args
  · exact alike_callProcedure henter _ args
  all_goals exact .throw rfl

theorem alike_callName (name : String) (args : List Value) :
    Alike φ (callName enter name args) (callName enter name args) := by
  rw [callName.eq_def]
  split
  · exact alike_capture (henter .nextVersion)
  · exact .throw rfl
  · exact alike_capture (henter (.loop _))
  · exact .throw rfl
  · refine .bind (alike_lookup? _) fun v ↦ ?_
    cases v with
    | none => exact .throw rfl
    | some v => exact alike_callValue henter v _

theorem alike_callMethod (v : Value) (name : String) (args : List Value) :
    Alike φ (callMethod enter v name args) (callMethod enter v name args) := by
  rw [callMethod.eq_def]
  split
  · exact alike_changed _ args
  · exact alike_cycled _ args
  · exact .throw rfl
  · refine .bind (alike_field? _ _) fun f ↦ ?_
    cases f with
    | none => exact .throw rfl
    | some f => exact alike_callValue henter f args

theorem alike_callBlock (name : String) :
    Alike φ (callBlock enter name) (callBlock enter name) := by
  refine .get fun s ↦ .bind alike_isDiscarding fun discarding ↦ ?_
  have hparent : (s.relabel φ).parent.isNone = s.parent.isNone := Option.isNone_map
  rw [hparent]
  exact .ite (fun _ ↦ henter (.block name)) fun _ ↦ .pure ()

end Enter

theorem alike_applyOperator (op : Operator) (v w : Value) :
    Alike φ (applyOperator op v w) (applyOperator op v w) := by
  refine .bind (alike_settle v) fun v ↦ .bind (alike_settle w) fun w ↦ ?_
  have hlast := Along.lift (φ := φ) (Value.placeless_apply v w op)
  dsimp only
  split
  · exact .read fun site ↦ .ite (fun _ ↦ .bind (.throw rfl) fun _ ↦ hlast) fun _ ↦ hlast
  · exact .bind (.pure ()) fun _ ↦ hlast

theorem alike_sliceOf (v start stop step : Value) :
    Alike φ (sliceOf v start stop step) (sliceOf v start stop step) := by
  have hlast := Along.lift (φ := φ) (Value.placeless_slice v start stop step)
  exact .read fun site ↦ .ite (fun _ ↦ .bind (.throw rfl) fun _ ↦ hlast) fun _ ↦ hlast

theorem alike_namedEntries (v : Value) : Alike φ (namedEntries v) (namedEntries v) := by
  refine .bind (alike_settle v) fun v ↦ ?_
  split
  · exact .pure _
  · exact .throw rfl

/-! Steps of statements. -/

theorem alike_unpack (count : Nat) (v : Value) : Alike φ (unpack count v) (unpack count v) := by
  refine .bind (alike_settle v) fun v ↦ ?_
  dsimp only
  split
  · exact .bind (.pure _) fun items ↦
      .ite (fun _ ↦ .bind (.throw rfl) fun _ ↦ .pure items) fun _ ↦ .pure items
  · exact .bind (.pure _) fun items ↦
      .ite (fun _ ↦ .bind (.throw rfl) fun _ ↦ .pure items) fun _ ↦ .pure items
  · exact .bind (.throw rfl) fun items ↦
      .ite (fun _ ↦ .bind (.throw rfl) fun _ ↦ .pure items) fun _ ↦ .pure items

theorem alike_setField (owner : Value) (name : String) (v : Value) :
    Alike φ (setField owner name v) (setField owner name v) := by
  rw [setField.eq_def]
  split
  · exact .modify fun _ ↦ rfl
  · exact .throw rfl

theorem placeless_markupOf (v : Value) : Placeless (markupOf v) := by
  rw [markupOf.eq_def]
  dsimp only
  split <;> simp

theorem along_withMarkup {g : α → β} {m : Run α} {m' : Run β} (html : Bool) (hm : Along φ g m m') :
    Along φ g (withMarkup html m) (withMarkup html m') :=
  .get fun _ ↦ .bind (.modify fun _ ↦ rfl) fun _ ↦ .bindBy hm fun a ↦
    .bind (.modify fun _ ↦ rfl) fun _ ↦ .pure a

theorem along_findSource (name : String) :
    Along φ (Option.map (Source.relabel φ)) (findSource name) (findSource name) := by
  intro site s
  have hfind : (site.relabel φ).sources.find? (·.name == name) =
      (site.sources.find? (·.name == name)).map (Source.relabel φ) := List.find?_map ..
  exact congrArg (fun source ↦ Except.ok (source, s.relabel φ)) hfind

theorem lookup_relabelBlocks (blocks : List (String × Versions)) (name : String) :
    (relabelBlocks φ blocks).lookup name = (blocks.lookup name).map (Versions.relabel φ) := by
  induction blocks with
  | nil => rfl
  | cons b blocks ih =>
    rw [relabelBlocks, List.map_cons, List.lookup_cons, List.lookup_cons]
    split
    · rfl
    · exact ih

theorem addVersion_relabel (blocks : List (String × Versions)) (block : String × List Stmt) :
    extend.addVersion (relabelBlocks φ blocks) (block.1, relabelBody φ block.2) =
      relabelBlocks φ (extend.addVersion blocks block) := by
  rw [extend.addVersion, lookup_relabelBlocks, extend.addVersion]
  cases blocks.lookup block.1 with
  | none => simp [relabelBlocks, Versions.relabel]
  | some v =>
    simp only [Option.map_some, relabelBlocks, List.map_map]
    refine List.map_congr_left fun b _ ↦ ?_
    simp only [Function.comp_apply]
    split <;> simp [Versions.relabel]

theorem foldl_addVersion_relabel (added : List (String × List Stmt))
    (blocks : List (String × Versions)) :
    (added.map fun b ↦ (b.1, relabelBody φ b.2)).foldl extend.addVersion (relabelBlocks φ blocks) =
      relabelBlocks φ (added.foldl extend.addVersion blocks) := by
  induction added generalizing blocks with
  | nil => rfl
  | cons b added ih => rw [List.map_cons, List.foldl_cons, addVersion_relabel, ih, List.foldl_cons]

theorem alike_extend (template : Value) : Alike φ (extend template) (extend template) := by
  refine .get fun s ↦ ?_
  have hparent : (s.relabel φ).parent.isSome = s.parent.isSome := Option.isSome_map
  rw [hparent]
  dsimp only
  refine .ite (fun _ ↦ .bind (.throw rfl) fun _ ↦ ?_) fun _ ↦ ?_
  all_goals
    split
    · rename_i name safe
      refine .get fun s ↦ .ite (fun _ ↦ .bind (.throw rfl) fun _ ↦ ?_) fun _ ↦ ?_
      all_goals
        refine .bindBy (along_findSource name) fun source ↦ ?_
        cases source with
        | none => exact .throw rfl
        | some source =>
          refine .bind (.modify fun s ↦ ?_) fun _ ↦ alike_startOutput none
          exact congrArg (fun blocks ↦ { s.relabel φ with
            loaded := name :: s.loaded, parent := some (relabelBody φ source.body), blocks })
            (foldl_addVersion_relabel source.blocks s.blocks)
    · exact .throw rfl

theorem along_choose (template : Value) :
    Along φ (Option.map (Source.relabel φ)) (choose template) (choose template) := by
  rw [choose.eq_def]
  split
  · refine along_findSomeM? (fun v ↦ ?_) _
    split
    · exact along_findSource _
    · exact .throw rfl
  · exact along_findSource _
  · exact .throw rfl

theorem versionsOf_relabel (φ : Nat → Nat) (source : Source) :
    runTemplate.versionsOf (source.relabel φ) = relabelBlocks φ (runTemplate.versionsOf source) := by
  simp [runTemplate.versionsOf, relabelBlocks, Source.relabel, Versions.relabel]

theorem alike_define (name : String) (params : List String) (defaults : List Expr)
    (body : List Stmt) : Alike φ (define name params defaults body)
      (define name params (defaults.map (Expr.relabel φ)) (relabelBody φ body)) := by
  rw [define, define, freeNames_relabel]
  refine .bind (.forM alike_enclose _) fun _ ↦ .bind alike_topFrame fun f ↦ .get fun s ↦ ?_
  have hsize : (s.relabel φ).procedures.size = s.procedures.size := Array.size_map
  rw [hsize]
  refine .bind (.set ?_) fun _ ↦ .pure _
  simp only [Machine.relabel, Array.map_push]
  rfl

/-- Blocks and loops write their text themselves; any other value is printed. -/
def Printed (e : Expr) : Prop :=
  (∀ name line, e ≠ .block name line) ∧ (∀ line, e ≠ .call "super" [] line) ∧
    ∀ items line, e ≠ .call "loop" [.plain items] line

theorem emit_eq (enter : Part → Run Unit) {e : Expr} (he : Printed e) (line : Nat) :
    emit enter e line = (do
      let v ← eval enter e
      onLine e.line (print v)) := by
  obtain ⟨hblock, hsuper, hloop⟩ := he
  rw [emit.eq_def]
  split
  · exact absurd rfl (hblock _ _)
  · exact absurd rfl (hsuper _)
  · exact absurd rfl (hloop _ _)
  · rfl

theorem Printed.relabel {e : Expr} (he : Printed e) : Printed (e.relabel φ) := by
  obtain ⟨hblock, hsuper, hloop⟩ := he
  refine ⟨fun name line h ↦ ?_, fun line h ↦ ?_, fun items line h ↦ ?_⟩
  · cases e with
    | block name' line' => exact hblock name' line' rfl
    | _ => cases h
  · cases e with
    | call name args line' =>
      cases args with
      | nil =>
        obtain ⟨rfl, -⟩ := Expr.call.inj h
        exact hsuper line' rfl
      | cons a as => simp [Expr.relabel, relabelArguments] at h
    | _ => cases h
  · cases e with
    | call name args line' =>
      match args with
      | [.plain items'] =>
        obtain ⟨rfl, -⟩ := Expr.call.inj h
        exact hloop items' line' rfl
      | [] | [.spread _] | [.named _ _] | [.spreadNamed _] | _ :: _ :: _ =>
        simp [Expr.relabel, relabelArguments, Argument.relabel] at h
    | _ => cases h

section Enter

variable {enter : Part → Run Unit}
  (henter : ∀ part, Alike φ (enter part) (enter (part.relabel φ)))

include henter

-- the linter does not see that the five theorems use each other
set_option linter.unusedSectionVars false in
mutual

theorem alike_eval : (e : Expr) → Alike φ (eval enter e) (eval enter (e.relabel φ))
  | .const v _ => .pure v
  | .var name _ => .bind (alike_lookup? name) fun v ↦ .pure (v.getD .missing)
  | .given _ => fun _ _ ↦ rfl
  | .list items _ => .bind (alike_evalItems items) fun _ ↦ .pure _
  | .map entries _ => .bind (alike_evalEntries entries) fun es ↦ .pure _
  | .field e name line =>
    .bind (alike_eval e) fun v ↦
      .onLine (.bind (alike_field? v name) fun found ↦ alike_orMissing v found) line
  | .item e index line =>
    .bind (alike_eval e) fun v ↦ .bind (alike_eval index) fun i ↦
      .onLine (.bind (alike_item? v i) fun found ↦ alike_orMissing v found) line
  | .slice e start stop step line =>
    .bind (alike_eval e) fun v ↦ .bind (alike_eval start) fun i ↦ .bind (alike_eval stop) fun j ↦
      .bind (alike_eval step) fun n ↦ .onLine (alike_sliceOf v i j n) line
  | .not e line =>
    .bind (alike_eval e) fun v ↦ .bind (.onLine (alike_truth v) line) fun _ ↦ .pure _
  | .neg e line =>
    .bind (alike_eval e) fun v ↦ .onLine (.lift (Value.placeless_neg v)) line
  | .binary op e f line =>
    .bind (alike_eval e) fun v ↦ .bind (alike_eval f) fun w ↦
      .onLine (alike_applyOperator op v w) line
  | .and e f _ => by
    refine .bind (alike_eval e) fun v ↦ ?_
    rw [Expr.line_relabel]
    exact .bind (.onLine (alike_truth v) _) fun b ↦ .ite (fun _ ↦ alike_eval f) fun _ ↦ .pure v
  | .or e f _ => by
    refine .bind (alike_eval e) fun v ↦ ?_
    rw [Expr.line_relabel]
    exact .bind (.onLine (alike_truth v) _) fun b ↦ .ite (fun _ ↦ .pure v) fun _ ↦ alike_eval f
  | .choice test yes no _ => by
    refine .bind (alike_eval test) fun v ↦ ?_
    rw [Expr.line_relabel]
    exact .bind (.onLine (alike_truth v) _) fun b ↦
      .ite (fun _ ↦ alike_eval yes) fun _ ↦ alike_eval no
  | .filter name e args line =>
    .bind (alike_eval e) fun v ↦ .bind (alike_evalPlain args) fun plain ↦
      .bind (alike_evalNamed args) fun named ↦
        .onLine (.bind (.mapM alike_settle _) fun vs ↦ .bind alike_mode fun mode ↦
          .lift (Filter.placeless_apply mode name vs)) line
  | .test name e args line => by
    refine .bind (alike_eval e) fun v ↦ .bind (alike_evalPlain args) fun plain ↦
      .bind (alike_evalNamed args) fun named ↦ .onLine (.bind (.mapM alike_settle _) fun vs ↦
        .bind alike_mode fun mode ↦ ?_) line
    exact .bind (.lift (Test.placeless_apply mode name vs)) fun _ ↦ .pure _
  | .call name args line =>
    .bind (alike_evalPlain args) fun plain ↦ .bind (alike_evalNamed args) fun named ↦
      .onLine (alike_callName henter name _) line
  | .method e name args line =>
    .bind (alike_eval e) fun v ↦ .bind (alike_evalPlain args) fun plain ↦
      .bind (alike_evalNamed args) fun named ↦ .onLine (alike_callMethod henter v name _) line
  | .apply e args line =>
    .bind (alike_eval e) fun v ↦ .bind (alike_evalPlain args) fun plain ↦
      .bind (alike_evalNamed args) fun named ↦ .onLine (alike_callValue henter v _) line
  | .block name line => .onLine (alike_capture (alike_callBlock henter name)) line

theorem alike_evalItems :
    (es : List Expr) → Alike φ (evalItems enter es) (evalItems enter (relabelItems φ es))
  | [] => .pure []
  | e :: es => .bind (alike_eval e) fun v ↦ .bind (alike_evalItems es) fun vs ↦ .pure (v :: vs)

theorem alike_evalEntries : (es : List (Expr × Expr)) →
    Alike φ (evalEntries enter es) (evalEntries enter (relabelEntries φ es))
  | [] => .pure []
  | (k, e) :: es =>
    .bind (alike_eval k) fun key ↦ .bind (alike_eval e) fun v ↦
      .bind (alike_evalEntries es) fun vs ↦ .pure ((key, v) :: vs)

theorem alike_evalPlain : (as : List Argument) →
    Alike φ (evalPlain enter as) (evalPlain enter (relabelArguments φ as))
  | [] => .pure []
  | .plain e :: as =>
    .bind (alike_eval e) fun v ↦ .bind (alike_evalPlain as) fun vs ↦ .pure (v :: vs)
  | .spread e :: as =>
    .bind (alike_eval e) fun v ↦ .bind (.lift v.placeless_iterate) fun vs ↦
      .bind (alike_evalPlain as) fun ws ↦ .pure (vs ++ ws)
  | .named _ _ :: as => alike_evalPlain as
  | .spreadNamed _ :: as => alike_evalPlain as

theorem alike_evalNamed : (as : List Argument) →
    Alike φ (evalNamed enter as) (evalNamed enter (relabelArguments φ as))
  | [] => .pure none
  | .named _ e :: as => .bind (alike_eval e) fun _ ↦ .bind (alike_evalNamed as) fun _ ↦ .pure _
  | .spreadNamed e :: as =>
    .bind (alike_eval e) fun v ↦ .bind (alike_namedEntries v) fun _ ↦
      .bind (alike_evalNamed as) fun _ ↦ .pure _
  | .plain _ :: as => alike_evalNamed as
  | .spread _ :: as => alike_evalNamed as

end

theorem alike_evalCall {block block' : Run Value} (hblock : Alike φ block block') (e : Expr) :
    Alike φ (evalCall enter block e) (evalCall enter block' (e.relabel φ)) := by
  have hargs (args : List Argument) : Alike φ
      (do
        let vs := splitNamed (joinNamed (← evalPlain enter args) (← evalNamed enter args))
        return vs.1 ++
          [.map (Value.insertEntry (.ofString "caller") (← block) (vs.2.getD [])) true])
      (do
        let vs := splitNamed (joinNamed (← evalPlain enter (relabelArguments φ args))
          (← evalNamed enter (relabelArguments φ args)))
        return vs.1 ++
          [.map (Value.insertEntry (.ofString "caller") (← block') (vs.2.getD [])) true]) :=
    .bind (alike_evalPlain henter args) fun plain ↦ .bind (alike_evalNamed henter args) fun named ↦
      .bind hblock fun b ↦ .pure _
  cases e with
  | call name args line =>
    exact .bind (hargs args) fun vs ↦ .onLine (alike_callName henter name vs) line
  | method e name args line =>
    exact .bind (alike_eval henter e) fun v ↦ .bind (hargs args) fun vs ↦
      .onLine (alike_callMethod henter v name vs) line
  | apply e args line =>
    exact .bind (alike_eval henter e) fun v ↦ .bind (hargs args) fun vs ↦
      .onLine (alike_callValue henter v vs) line
  | _ => exact alike_eval henter _

/-! Statements. -/

theorem alike_embed (template : Value) (optional : Bool) :
    Alike φ (embed enter template optional) (embed enter template optional) := by
  refine .bindBy (along_choose template) fun source ↦ ?_
  cases source with
  | some source => exact henter (.template source)
  | none =>
    refine .ite (fun _ ↦ ?_) fun _ ↦ .pure ()
    split
    · exact .pure ()
    all_goals exact .throw rfl

set_option linter.unusedSectionVars false in
mutual

theorem alike_assignTo : (t : Target) → (v : Value) →
    Alike φ (assignTo enter t v) (assignTo enter (t.relabel φ) v)
  | .var name _, v => alike_store name v
  | .field e name line, v =>
    .bind (alike_eval henter e) fun owner ↦ .onLine (alike_setField owner name v) line
  | .tuple targets line, v => by
    rw [assignTo, Target.relabel, assignTo, length_relabelTargets]
    exact .bind (.onLine (alike_unpack _ v) line) fun vs ↦ alike_assignEach targets vs

theorem alike_assignEach : (ts : List Target) → (vs : List Value) →
    Alike φ (assignEach enter ts vs) (assignEach enter (relabelTargets φ ts) vs)
  | t :: ts, v :: vs => .bind (alike_assignTo t v) fun _ ↦ alike_assignEach ts vs
  | [], _ => .pure ()
  | _ :: _, [] => .pure ()

end

theorem alike_select (target : Target) (items : List Value) (only : Expr) :
    Alike φ (select enter target items only)
      (select enter (target.relabel φ) items (only.relabel φ)) := by
  rw [select, select, Expr.line_relabel]
  exact .bind (alike_newLoop items none) fun id ↦ along_withFrame _ <|
    .filterM (fun item ↦ .bind (alike_assignTo henter target item) fun _ ↦
      .bind (alike_eval henter only) fun v ↦ .onLine (alike_truth v) _) items

theorem alike_loopItems (target : Target) (items : Expr) (only : Option Expr) :
    Alike φ (loopItems enter target items only)
      (loopItems enter (target.relabel φ) (items.relabel φ) (only.map (Expr.relabel φ))) := by
  rw [loopItems, loopItems, Expr.line_relabel]
  refine .bind (alike_eval henter items) fun v ↦ .bind (.onLine (.bind alike_mode fun mode ↦
    .bind (alike_settle v) fun w ↦ .lift (Filter.placeless_itemsOf mode w)) _) fun all ↦ ?_
  cases only with
  | none => exact .pure all
  | some only => exact alike_select henter target all only

theorem alike_filtered (chain : Expr) (text : Value) :
    Alike φ (filtered enter chain text) (filtered enter (chain.relabel φ) text) :=
  .bind (.modify fun _ ↦ rfl) fun _ ↦ alike_eval henter chain

theorem alike_emit (e : Expr) (line : Nat) :
    Alike φ (emit enter e line) (emit enter (e.relabel φ) (φ line)) := by
  by_cases hblock : ∃ name l, e = .block name l
  · obtain ⟨name, l, rfl⟩ := hblock
    exact .onLine (alike_callBlock henter name) line
  by_cases hsuper : ∃ l, e = .call "super" [] l
  · obtain ⟨l, rfl⟩ := hsuper
    exact .onLine (henter .nextVersion) l
  by_cases hloop : ∃ items l, e = .call "loop" [.plain items] l
  · obtain ⟨items, l, rfl⟩ := hloop
    exact .bind (alike_eval henter items) fun v ↦ .onLine (henter (.loop v)) l
  have he : Printed e :=
    ⟨fun name l h ↦ hblock ⟨name, l, h⟩, fun l h ↦ hsuper ⟨l, h⟩, fun v l h ↦ hloop ⟨v, l, h⟩⟩
  rw [emit_eq enter he, emit_eq enter he.relabel, Expr.line_relabel]
  exact .bind (alike_eval henter e) fun v ↦ .onLine (alike_print v) _

omit henter in
theorem alike_imported (names : List (String × Nat × Target)) :
    Alike φ (names.mapM fun n ↦ do return (← lookup? n.1).getD .missing)
      (names.mapM fun n ↦ do return (← lookup? n.1).getD .missing) := by
  have hname (n : String × Nat × Target) :
      Alike φ (do return (← lookup? n.1).getD .missing)
        (do return (← lookup? n.1).getD .missing) :=
    .bind (alike_lookup? n.1) fun _ ↦ .pure _
  exact .mapM hname names

set_option linter.unusedSectionVars false in
mutual

theorem alike_exec : (s : Stmt) → Alike φ (exec enter s) (exec enter (s.relabel φ))
  | .text s _ => alike_write s
  | .emit e line => alike_emit henter e line
  | .loop target items only recursive body otherwise line => by
    have hagain : (if recursive then some (target.relabel φ, relabelBody φ body) else none) =
        (if recursive then some (target, body) else none).map (relabelAgain φ) := by
      cases recursive <;> rfl
    rw [exec, Stmt.relabel, exec, hagain]
    exact .bind (alike_loopItems henter target items only) fun all ↦
      .bind (.onLine (alike_iterate all _ true fun v ↦
        .bind (alike_assignTo henter target v) fun _ ↦ alike_execAll body) line) fun _ ↦
      .ite (fun _ ↦ alike_execAll otherwise) fun _ ↦ .pure ()
  | .cond test yes no => by
    rw [exec, Stmt.relabel, exec, Expr.line_relabel]
    exact .bind (alike_eval henter test) fun v ↦ .bind (.onLine (alike_truth v) _) fun _ ↦
      .ite (fun _ ↦ alike_execAll yes) fun _ ↦ alike_execAll no
  | .scope assignments body => by
    rw [exec, Stmt.relabel, exec]
    refine along_withFrame _ (.bind (.forMap ?_ assignments) fun _ ↦ alike_execAll body)
    exact fun a ↦ .bind (alike_eval henter a.2) fun v ↦ alike_assignTo henter a.1 v
  | .set target e =>
    .bind (alike_eval henter e) fun v ↦ alike_assignTo henter target v
  | .setBlock target filter body => by
    rw [exec, Stmt.relabel, exec]
    refine .bind (alike_capture (alike_execAll body)) fun text ↦ ?_
    cases filter with
    | none => exact alike_assignTo henter target text
    | some chain =>
      exact .bind (alike_filtered henter chain text) fun v ↦ alike_assignTo henter target v
  | .escape mode body => by
    rw [exec, Stmt.relabel, exec, Expr.line_relabel]
    exact .bind (alike_eval henter mode) fun v ↦
      .bind (.onLine (.lift (placeless_markupOf v)) _) fun html ↦
        along_withMarkup html (alike_execAll body)
  | .filter chain body => by
    rw [exec, Stmt.relabel, exec, Expr.line_relabel]
    exact .bind (alike_capture (alike_execAll body)) fun text ↦
      .bind (alike_filtered henter chain text) fun v ↦ .onLine (alike_print v) _
  | .block name _ line => .onLine (alike_callBlock henter name) line
  | .extend template line =>
    .bind (alike_eval henter template) fun v ↦ .onLine (alike_extend v) line
  | .embed template optional line =>
    .bind (alike_eval henter template) fun v ↦ .onLine (alike_embed henter v optional) line
  | .importAs template target line =>
    .bind (along_discard (along_withFrame _ (.bind (alike_eval henter template) fun v ↦
      .bind (.onLine (alike_embed henter v false) line) fun _ ↦
        .bind alike_topFrame fun f ↦ .pure f.locals))) fun entries ↦
      alike_assignTo henter target _
  | .importNames template names line => by
    rw [exec, Stmt.relabel, exec, List.mapM_map]
    have hvalues := along_discard <| along_withFrame {} <|
      Along.bind (alike_eval henter template) fun v ↦
        .bind (.onLine (alike_embed henter v false) line) fun _ ↦
          alike_imported names
    refine .bind hvalues fun values ↦ ?_
    rw [List.zip_map_left, ← List.map_reverse]
    exact .forMap (fun p ↦ alike_assignTo henter p.1.2.2 p.2) _
  | .procedure name params defaults body _ =>
    .bind (alike_define name params defaults body) fun v ↦ alike_store name v
  | .callWith call params defaults body _ => by
    rw [exec, Stmt.relabel, exec, Expr.line_relabel]
    exact .bind (alike_evalCall henter (alike_define "caller" params defaults body) call) fun v ↦
      .onLine (alike_print v) _
  | .perform call => .bind (alike_eval henter call) fun _ ↦ .pure ()

theorem alike_execAll :
    (body : List Stmt) → Alike φ (execAll enter body) (execAll enter (relabelBody φ body))
  | [] => .pure ()
  | s :: ss => .bind (alike_exec s) fun _ ↦ alike_execAll ss

end

/-! Parts. -/

theorem alike_runChain (n : Nat) (body : List Stmt) :
    Alike φ (runChain enter n body) (runChain enter n (relabelBody φ body)) := by
  induction n generalizing body with
  | zero => exact .pure ()
  | succ n ih =>
    refine .bind (alike_execAll henter body) fun _ ↦ .get fun s ↦ ?_
    simp only [Machine.relabel]
    cases s.parent with
    | none => exact .pure ()
    | some parent =>
      exact .bind alike_endOutput fun _ ↦ .bind (.modify fun _ ↦ rfl) fun _ ↦ ih parent

theorem alike_runBody (body : List Stmt) :
    Alike φ (runBody enter body) (runBody enter (relabelBody φ body)) := by
  refine .read fun site ↦ ?_
  have hlength : (site.relabel φ).sources.length = site.sources.length := List.length_map _
  rw [hlength]
  exact alike_runChain henter _ body

theorem alike_bindParams (params : List (String × Value)) (defaults : List Expr) :
    Alike φ (bindParams enter params defaults)
      (bindParams enter params (defaults.map (Expr.relabel φ))) := by
  induction params generalizing defaults with
  | nil => cases defaults <;> exact .pure ()
  | cons p params ih =>
    obtain ⟨name, v⟩ := p
    cases defaults with
    | nil => exact .bind (alike_store name v) fun _ ↦ ih []
    | cons e defaults =>
      have hlast (w : Value) : Alike φ (do
          store name w
          bindParams enter params defaults) (do
          store name w
          bindParams enter params (defaults.map (Expr.relabel φ))) :=
        .bind (alike_store name w) fun _ ↦ ih defaults
      exact .ite (fun _ ↦ .bind (alike_eval henter e) hlast) fun _ ↦ .bind (.pure v) hlast

theorem alike_runProcedure (p : Procedure) (args : List Value) (block : Option Value) :
    Alike φ (runProcedure enter p args block) (runProcedure enter (p.relabel φ) args block) := by
  refine .get fun s ↦ .bind alike_depth fun n ↦ .bind (.set rfl) fun _ ↦
    .bind alike_checkDepth fun _ ↦ .bind ?_ fun _ ↦ .bind (alike_execAll henter p.body) fun _ ↦
      .modify fun _ ↦ rfl
  have hdefaults := alike_bindParams henter (p.params.zip args).reverse p.defaults.reverse
  rw [List.map_reverse] at hdefaults
  exact hdefaults

omit henter in
theorem body_relabel (v : Versions) : (v.relabel φ).bodies[(v.relabel φ).current]?.getD [] =
    relabelBody φ (v.bodies[v.current]?.getD []) := by
  simp only [Versions.relabel, List.getElem?_map]
  cases v.bodies[v.current]? <;> rfl

theorem alike_runVersion (body : List Stmt) :
    Alike φ (runVersion enter body) (runVersion enter (relabelBody φ body)) :=
  .get fun _ ↦ .bind (.modify fun _ ↦ rfl) fun _ ↦
    .bind (along_withFrame _ (alike_runBody henter body)) fun _ ↦ .modify fun _ ↦ rfl

theorem alike_runBlock (name : String) :
    Alike φ (runBlock enter name) (runBlock enter name) := by
  refine .get fun s ↦ ?_
  simp only [Machine.relabel, lookup_relabelBlocks]
  cases s.blocks.lookup name with
  | none => exact .throw rfl
  | some v =>
    refine .get fun s ↦ .bind (.modify fun _ ↦ rfl) fun _ ↦ .bind ?_ fun _ ↦ .modify fun _ ↦ rfl
    rw [body_relabel]
    exact alike_runVersion henter _

omit henter in
theorem alike_setVersion (name : String) (version : Nat) :
    Alike φ (setVersion name version) (setVersion name version) := by
  refine .modify fun s ↦ ?_
  have hblocks : (relabelBlocks φ s.blocks).map (fun b ↦
        if b.1 == name then (b.1, { b.2 with current := version }) else b) =
      relabelBlocks φ (s.blocks.map fun b ↦
        if b.1 == name then (b.1, { b.2 with current := version }) else b) := by
    rw [relabelBlocks, relabelBlocks, List.map_map, List.map_map]
    refine List.map_congr_left fun b _ ↦ ?_
    simp only [Function.comp_apply]
    split <;> rfl
  exact congrArg (fun blocks ↦ { s.relabel φ with blocks }) hblocks

theorem alike_runNextVersion : Alike φ (runNextVersion enter) (runNextVersion enter) := by
  refine .get fun s ↦ ?_
  have hblock : (s.relabel φ).block = s.block := rfl
  rw [hblock]
  cases s.block with
  | none => exact .throw rfl
  | some name =>
    refine .get fun s ↦ ?_
    have hlookup : (s.relabel φ).blocks.lookup name =
        (s.blocks.lookup name).map (Versions.relabel φ) := lookup_relabelBlocks s.blocks name
    rw [hlookup]
    cases s.blocks.lookup name with
    | none => exact .throw rfl
    | some v =>
      have hbody : (v.relabel φ).bodies[v.current + 1]? =
          v.bodies[v.current + 1]?.map (relabelBody φ) := List.getElem?_map ..
      dsimp only [Option.map_some]
      rw [show (v.relabel φ).current = v.current from rfl, hbody]
      cases v.bodies[v.current + 1]? with
      | none => exact .throw rfl
      | some body =>
        exact .bind (alike_setVersion name _) fun _ ↦
          .bind (.wrapped (alike_runVersion henter body) _ _) fun _ ↦ alike_setVersion name _

theorem alike_runLoop (items : Value) :
    Alike φ (runLoop enter items) (runLoop enter items) := by
  refine .bindBy along_loop? fun l ↦ ?_
  cases l with
  | none => exact .throw rfl
  | some l =>
    obtain ⟨items', index, depth, last, again⟩ := l
    cases again with
    | none => exact .throw rfl
    | some again =>
      exact .bind alike_mode fun mode ↦ .bind (alike_settle items) fun v ↦
        .bind (.lift (Filter.placeless_itemsOf mode v)) fun all ↦
          alike_iterate all (some again) true fun v ↦
            .bind (alike_assignTo henter again.1 v) fun _ ↦ alike_execAll henter again.2

theorem alike_runTemplate (source : Source) :
    Alike φ (runTemplate enter source) (runTemplate enter (source.relabel φ)) := by
  refine .get fun s ↦ .bind alike_topFrame fun f ↦ .bind alike_topFrame fun g ↦
    .bind (alike_setTopFrame _) fun _ ↦ .bind (.modify fun t ↦ ?_) fun _ ↦
      .bind alike_checkDepth fun _ ↦ .bind (.wrapped (alike_runBody henter source.body) _ _)
        fun _ ↦ .bind (.modify fun _ ↦ rfl) fun _ ↦ .bind alike_topFrame fun g ↦
          alike_setTopFrame _
  exact congrArg (fun blocks ↦ { t.relabel φ with
    outer := t.outer + 10, html := Markup.isMarkup source.name, blocks, parent := none })
      (versionsOf_relabel φ source)

theorem alike_runPart (part : Part) :
    Alike φ (runPart enter part) (runPart enter (part.relabel φ)) := by
  cases part with
  | procedure id args block =>
    refine .get fun s ↦ ?_
    simp only [Machine.relabel, Array.getElem?_map]
    cases s.procedures[id]? with
    | none => exact .pure ()
    | some p => exact alike_runProcedure henter p args block
  | block name => exact alike_runBlock henter name
  | nextVersion => exact alike_runNextVersion henter
  | loop items => exact alike_runLoop henter items
  | template source => exact alike_runTemplate henter source

end Enter

end Run

theorem Part.alike_run (n : Nat) (part : Part) :
    Alike φ (Part.run n part) (Part.run n (part.relabel φ)) := by
  induction n generalizing part with
  | zero => exact .throw rfl
  | succ n ih => exact Run.alike_runPart ih part

/-- The machine that a rendering starts from. -/
def Source.machine (names : List (String × Value)) (source : Source) : Machine where
  frames := [{ base := some 0 }]
  html := Markup.isMarkup source.name
  blocks := Run.runTemplate.versionsOf source
  loaded := [source.name]
  closures := #[names]

theorem Source.machine_relabel (φ : Nat → Nat) (names : List (String × Value)) (source : Source) :
    (source.relabel φ).machine names = (source.machine names).relabel φ := by
  rw [machine, Run.versionsOf_relabel]
  simp [machine, Machine.relabel, Source.relabel]

theorem Source.render_eq (sources : List Source) (strict : Bool) (names : List (String × Value))
    (source : Source) : source.render sources strict names =
      (Run.runBody (Part.run Run.maxDepth) source.body ⟨sources, strict⟩
        (source.machine names)).map fun p ↦ (p.2.outputs.head?.bind id).getD "" := rfl

theorem Source.render_relabel (φ : Nat → Nat) (sources : List Source) (strict : Bool)
    (names : List (String × Value)) (source : Source) :
    (source.relabel φ).render (sources.map (Source.relabel φ)) strict names =
      (source.render sources strict names).mapError (Fault.relabel φ) := by
  have hrun := Run.alike_runBody (Part.alike_run (φ := φ) Run.maxDepth) source.body
    ⟨sources, strict⟩ (source.machine names)
  rw [render_eq, render_eq, machine_relabel]
  refine (congrArg (Except.map _) hrun).trans ?_
  cases Run.runBody (Part.run Run.maxDepth) source.body ⟨sources, strict⟩ (source.machine names)
  · rfl
  · rfl

end DeliveryCharts.Template
