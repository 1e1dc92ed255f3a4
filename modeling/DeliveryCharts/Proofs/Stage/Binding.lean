import DeliveryCharts.Proofs.Stage.Resolution

/-!
Bindings of stages to bake stages. A bound stage names the artifact of the bake stage before it that
its reference designates, and where a reference designates a bake stage the binding succeeds.
-/

namespace DeliveryCharts

/-- The reference of a stage designates no earlier bake stage. -/
def ReferenceError.IsUnbound : ReferenceError → Prop
  | missingBinding _ => True
  | invalidReference _ _ => True
  | outOfRange _ _ _ => True
  | forwardReference _ _ => True
  | wrongStageType _ _ _ => True
  | _ => False

namespace Stage

open Members

/-- The key under which a stage that is bound to a bake stage may be given its reference. -/
def Kind.bindingKey? : Kind → Option String
  | deploy => some "bakeStageRefIds"
  | runJob => some "jobBakeStageRefIds"
  | _ => none

/-- A stage is bound by the reference given on purpose unless it is blank, and then by the first
stage that has to run before. -/
inductive Refers (given : Option String) (requisites : List String) : String → Prop
  | given {s : String} (h : given = some s) (hs : Text.trim s ≠ "") :
      Refers given requisites (Text.trim s)
  | requisite {reference : String} {rest : List String}
      (h : ∀ s, given = some s → Text.trim s = "") (hr : requisites = reference :: rest) :
      Refers given requisites reference

/-- The stage, from 0, that a reference designates: a number counts from 1, all else is a
`refId`. -/
def Designates (stages : List Members) (reference : String) (j : Nat) : Prop :=
  match stageNumber? (Text.trimChars reference.toList) with
  | some n => n = j + 1
  | none =>
    ∃ stage, stages[j]? = some stage ∧ stage.get? "refId" = some (.str (Text.trim reference))

/-- A bake stage whose first artifact has this id, which comes from the names of the artifact and of
the stage. -/
structure Produces (stage : Members) (id : String) : Prop where
  isBake : stage.get? "type" = some (.str Bake.typeName)
  artifact : ∃ (first : Members) (rest : List Json) (displayName name : String),
    stage.get? "expectedArtifacts" = some (.arr (.obj first :: rest)) ∧
    first.get? "displayName" = some (.str displayName) ∧ first.get? "id" = some (.str id) ∧
    stage.get? "name" = some (.str name) ∧ id = artifactId displayName name

theorem Produces.unique {stage : Members} {id id' : String} (h : Produces stage id)
    (h' : Produces stage id') : id = id' := by
  obtain ⟨first, rest, _, _, he, -, hid, -, -⟩ := h.artifact
  obtain ⟨first', rest', _, _, he', -, hid', -, -⟩ := h'.artifact
  cases he.symm.trans he'
  cases hid.symm.trans hid'
  rfl

theorem referenceOf_eq_ok_iff {h : Header} {given : Option String} {reference : String} :
    Context.referenceOf h given = .ok reference ↔ Refers given h.requisites reference := by
  have hnone (hg : ∀ s, given = some s → Text.trim s = "") :
      (given.map Text.trim).filter (!·.isEmpty) = none := by
    cases given with
    | none => rfl
    | some s => simp [hg s rfl]
  constructor
  · intro hr
    rw [Context.referenceOf] at hr
    split at hr
    · rename_i s hs
      cases hr
      obtain ⟨hs, hne⟩ := Option.filter_eq_some_iff.mp hs
      obtain ⟨s, rfl, rfl⟩ := Option.map_eq_some_iff.mp hs
      exact .given rfl (by simpa using hne)
    · rename_i hg
      split at hr
      · rename_i r rest hrest
        cases hr
        refine .requisite (fun s hs ↦ ?_) hrest
        subst given
        simpa using hg
      · cases hr
  · rintro (⟨rfl, hs⟩ | ⟨hg, hr⟩)
    · have hfilter : ((some _).map Text.trim).filter (!·.isEmpty) = some (Text.trim _) :=
        Option.filter_eq_some_iff.mpr ⟨rfl, by simpa using hs⟩
      rw [Context.referenceOf, hfilter]
    · rw [Context.referenceOf, hnone hg]
      simp only [hr]

theorem referenceOf_unbound {h : Header} {given : Option String} {e : ReferenceError}
    (he : Context.referenceOf h given = .error e) : e.IsUnbound := by
  rw [Context.referenceOf] at he
  split at he
  · cases he
  · split at he
    · cases he
    · cases he
      trivial

theorem positionOf_unbound {ctx : Context} {stage reference : String} {e : ReferenceError}
    (he : ctx.positionOf stage reference = .error e) : e.IsUnbound := by
  rw [Context.positionOf] at he
  split at he
  · split at he
    · cases he
      trivial
    · split at he
      · cases he
        trivial
      · cases he
  · split at he
    · cases he
    · cases he
      trivial

theorem Kind.typeName_injective (k l : Kind) : k.typeName = l.typeName → k = l := by
  cases k <;> cases l <;> decide

/-- A resolved stage keeps its `refId`, and if it bakes then it reads back as a stage whose first
artifact is the one that it produces. -/
structure Settled (stage : Members) (refId : String) : Prop where
  refId : stage.get? "refId" = some (.str refId)
  bake : stage.get? "type" = some (.str Bake.typeName) →
    ∃ s first rest, Bake.codec.read stage = .ok s ∧ s.spec.expectedArtifacts = first :: rest ∧
      Produces stage first.id

section Step

variable {r : Registry} {ctx : Context} {seen : List String} {raw stage : Members} {refId : String}

theorem Bake.read_resolve (h : Kind.bake.resolve raw refId ctx = .ok stage) :
    ∃ s, Bake.codec.read stage = .ok s ∧ s.spec.Expanded s.header ∧
      stage.get? "name" = some (.str s.header.name) ∧
      stage.get? "expectedArtifacts" =
        some (.arr (s.spec.expectedArtifacts.map ExpectedArtifact.toJson)) := by
  rw [Kind.resolve] at h
  obtain ⟨header, p, o, b₀, b, -, -, ho, hb₀, hb, rfl⟩ := resolveAs_eq_ok_iff.mp h
  have hextra := unclaimed_extra Bake.codec raw
  have hexpanded := expanded_of_expand hb
  have hn := ((normal_of_decode hb₀).expand hb).1
  refine ⟨_, lawful.read_write (Options.normal_of_decode ho) hextra (decode_encode hn),
    hexpanded, ?_, ?_⟩
  · rw [lawful.get?_write_header _ hextra (by decide)]
    simp [Header.encode]
  · rw [lawful.get?_write_spec _ hextra (by decide)]
    simp [codec, encode, hexpanded.nonempty]

theorem get?_type_resolve {k : Kind} {header : Header} (hh : Header.decode raw = .ok header)
    (h : k.resolve raw refId ctx = .ok stage) :
    stage.get? "type" = some (.str header.stageType) ∧
      stage.get? "requisiteStageRefIds" = some (Record.strings header.requisites) := by
  obtain ⟨header', hh', hget⟩ := Kind.get?_resolve h
  cases hh.symm.trans hh'
  rw [hget _ (by decide), hget _ (by decide)]
  simp [Header.encode]

theorem typeName_of_find? {name : String} {k : Kind} (h : r.find? name = some k) :
    k.typeName = name := by
  simpa using List.find?_some h

theorem settled_of_resolveStage (h : resolveStage r ctx seen raw = .ok (stage, refId)) :
    Settled stage refId := by
  obtain ⟨header, k, hh, rfl, -, hk, hout⟩ := resolveStage_eq_ok_iff.mp h
  obtain ⟨header', -, hget⟩ := Kind.get?_resolve hout
  constructor
  · rw [hget _ (by decide)]
    simp [Header.encode, effectiveRefId_ne]
  · intro htype
    rw [(get?_type_resolve hh hout).1] at htype
    have hbake : k.typeName = Kind.bake.typeName :=
      (typeName_of_find? hk).trans (Json.str.inj (Option.some.inj htype))
    obtain rfl := Kind.typeName_injective _ _ hbake
    obtain ⟨s, hs, hexpanded, hname, hartifacts⟩ := Bake.read_resolve hout
    obtain ⟨first, rest, hfirst⟩ := List.exists_cons_of_ne_nil hexpanded.nonempty
    have hid := hexpanded.id first (hfirst ▸ List.mem_cons_self)
    refine ⟨s, first, rest, hs, hfirst, ?_, _, _, first.displayName, s.header.name,
      by rw [hartifacts, hfirst]; rfl, ?_, ?_, hname, hid⟩
    · rw [(get?_type_resolve hh hout).1, htype]
    · simp
    · simp

end Step

theorem hasRefId_iff {stage : Members} {refId : String} :
    hasRefId refId stage = true ↔ stage.get? "refId" = some (.str refId) := by
  rw [hasRefId, decide_eq_true_eq, Option.bind_eq_some_iff]
  constructor
  · rintro ⟨v, hv, hs⟩
    cases v with
    | str s =>
      cases hs
      exact hv
    | null | bool | num | arr | obj => cases hs
  · exact fun h ↦ ⟨_, h, rfl⟩

theorem isBake_iff {stage : Members} :
    ((stage.get? "type").bind Json.str?).getD "" = Bake.typeName ↔
      stage.get? "type" = some (.str Bake.typeName) := by
  constructor
  · intro h
    cases hv : stage.get? "type" with
    | none => simp [hv, Bake.typeName] at h
    | some v =>
      cases v with
      | str s => simpa [hv, Json.str?] using h
      | null | bool | num | arr | obj => simp [hv, Json.str?, Bake.typeName] at h
  · intro h
    rw [h]
    rfl

namespace Resolved

variable {r : Registry} {application pipeline : String} {total : Nat}
  {raws done : List Members} {seen : List String}

theorem settled (h : Resolved r application pipeline total raws done seen) :
    ∀ stage ∈ done, ∃ refId, Settled stage refId := by
  induction h with
  | nil => simp
  | snoc h hs ih =>
    simp only [List.forall_mem_append, List.forall_mem_singleton]
    exact ⟨ih, _, settled_of_resolveStage hs⟩

theorem refIds (h : Resolved r application pipeline total raws done seen) :
    done.map (Members.get? · "refId") = seen.map fun refId ↦ some (.str refId) := by
  induction h with
  | nil => rfl
  | snoc h hs ih =>
    rw [List.map_append, List.map_append, ih]
    simp [(settled_of_resolveStage hs).refId]

theorem nodup (h : Resolved r application pipeline total raws done seen) : seen.Nodup := by
  induction h with
  | nil => exact .nil
  | snoc h hs ih =>
    obtain ⟨_, _, -, -, hnew, -, -⟩ := resolveStage_eq_ok_iff.mp hs
    rw [List.nodup_append]
    refine ⟨ih, by simp, fun a ha b hb he ↦ hnew ?_⟩
    rwa [← List.mem_singleton.mp hb, ← he]

theorem nodup_refIds (h : Resolved r application pipeline total raws done seen) :
    (done.map (Members.get? · "refId")).Nodup := by
  rw [h.refIds]
  exact List.Pairwise.map _ (fun a b hne he ↦ hne (by simpa using he)) h.nodup

/-- A `refId` belongs to one stage only. -/
theorem refId_unique (h : Resolved r application pipeline total raws done seen) {i j : Nat}
    {stage stage' : Members} {refId : String} (hi : done[i]? = some stage)
    (hj : done[j]? = some stage') (hs : stage.get? "refId" = some (.str refId))
    (hs' : stage'.get? "refId" = some (.str refId)) : i = j := by
  have hlt := (List.getElem?_eq_some_iff.mp hi).1
  refine (List.getElem?_inj (by simpa using hlt) h.nodup_refIds).mp ?_
  simp [hi, hj, hs, hs']

theorem positionOf_eq_ok_iff (h : Resolved r application pipeline total raws done seen)
    (ht : done.length ≤ total) {name reference : String} {j : Nat} :
    (⟨application, pipeline, done.length, done, total⟩ : Context).positionOf name reference =
      .ok j ↔ j < done.length ∧ Designates done reference j := by
  rw [Context.positionOf, Designates]
  simp only
  cases stageNumber? (Text.trimChars reference.toList) with
  | some n =>
    simp only
    split
    · simp
      omega
    · split
      · simp
        omega
      · simp
        omega
  | none =>
    have htrim : String.ofList (Text.trimChars reference.toList) = Text.trim reference := rfl
    simp only [htrim]
    constructor
    · intro hp
      split at hp
      · rename_i i hi
        cases hp
        obtain ⟨hlt, hj, -⟩ := List.findIdx?_eq_some_iff_getElem.mp hi
        exact ⟨hlt, _, List.getElem?_eq_getElem hlt, hasRefId_iff.mp hj⟩
      · cases hp
    · rintro ⟨hlt, stage, hstage, hs⟩
      have hfind : done.findIdx? (hasRefId (Text.trim reference)) = some j := by
        obtain ⟨hlt, hget⟩ := List.getElem?_eq_some_iff.mp hstage
        refine List.findIdx?_eq_some_iff_getElem.mpr
          ⟨hlt, hasRefId_iff.mpr (hget ▸ hs), fun i hi hi' ↦ ?_⟩
        -- an earlier stage with this name would be the same stage
        have heq := h.refId_unique (List.getElem?_eq_getElem (by omega)) hstage
          (hasRefId_iff.mp hi') hs
        omega
      rw [hfind]

/-- A bake stage that a reference designates can be read and has an artifact. -/
theorem boundBake_eq_ok_iff (h : Resolved r application pipeline total raws done seen)
    (ht : done.length ≤ total) {header : Header} {given : Option String} {b : Bake} :
    (⟨application, pipeline, done.length, done, total⟩ : Context).boundBake header given = .ok b ↔
      ∃ reference j bake s first rest, Refers given header.requisites reference ∧
        Designates done reference j ∧ done[j]? = some bake ∧ Bake.codec.read bake = .ok s ∧
        s.spec = b ∧ b.expectedArtifacts = first :: rest ∧ Produces bake first.id := by
  simp only [Context.boundBake, Context.lift, Except.bind_eq_ok_iff, Except.mapError_eq_ok_iff,
    referenceOf_eq_ok_iff, h.positionOf_eq_ok_iff ht]
  constructor
  · rintro ⟨reference, hr, j, ⟨hlt, hj⟩, hb⟩
    split at hb
    · cases hb
    · rename_i htype
      have hget : done[j]? = some (done.getD j []) := by simp [hlt]
      obtain ⟨refId, hsettled⟩ := h.settled _ (List.mem_of_getElem? hget)
      obtain ⟨s, first, rest, hs, hfirst, hp⟩ :=
        hsettled.bake (isBake_iff.mp (Decidable.not_not.mp htype))
      simp only [Except.bind_eq_ok_iff, Except.mapError_eq_ok_iff, hs] at hb
      obtain ⟨s', ⟨⟩, ⟨⟩⟩ := hb
      exact ⟨reference, j, _, s, first, rest, hr, hj, hget, hs, rfl, hfirst, hp⟩
  · rintro ⟨reference, j, bake, s, first, rest, hr, hj, hget, hs, rfl, -, hp⟩
    have hgetD : done.getD j [] = bake := by simp [hget]
    refine ⟨reference, hr, j, ⟨(List.getElem?_eq_some_iff.mp hget).1, hj⟩, ?_⟩
    rw [hgetD, if_neg (Decidable.not_not.mpr (isBake_iff.mpr hp.isBake)), hs]
    rfl

theorem boundBake_error (h : Resolved r application pipeline total raws done seen)
    (ht : done.length ≤ total) {header : Header} {given : Option String} {e : Error}
    (he : (⟨application, pipeline, done.length, done, total⟩ : Context).boundBake header given =
      .error e) : ∃ e', e = .reference e' ∧ e'.IsUnbound := by
  simp only [Context.boundBake, Context.lift, Except.bind_eq_error_iff,
    Except.mapError_eq_ok_iff, Except.mapError_eq_error_iff, h.positionOf_eq_ok_iff ht] at he
  rcases he with ⟨e', he, rfl⟩ | ⟨reference, -, ⟨e', he, rfl⟩ | ⟨j, ⟨hlt, -⟩, he⟩⟩
  · exact ⟨e', rfl, referenceOf_unbound he⟩
  · exact ⟨e', rfl, positionOf_unbound he⟩
  · split at he
    · cases he
      exact ⟨_, rfl, trivial⟩
    · rename_i htype
      have hget : done[j]? = some (done.getD j []) := by simp [hlt]
      obtain ⟨refId, hsettled⟩ := h.settled _ (List.mem_of_getElem? hget)
      obtain ⟨s, _, _, hs, -, -⟩ := hsettled.bake (isBake_iff.mp (Decidable.not_not.mp htype))
      rw [hs] at he
      cases he

/-- A binding succeeds where a reference designates an earlier bake stage, and gives the id of the
artifact that this stage produces. -/
theorem boundArtifactId_eq_ok_iff (h : Resolved r application pipeline total raws done seen)
    (ht : done.length ≤ total) {header : Header} {given : Option String} {id : String} :
    (⟨application, pipeline, done.length, done, total⟩ : Context).boundArtifactId header given =
      .ok id ↔ ∃ reference j bake, Refers given header.requisites reference ∧
        Designates done reference j ∧ done[j]? = some bake ∧ Produces bake id := by
  rw [Context.boundArtifactId, Except.bind_eq_ok_iff]
  constructor
  · rintro ⟨b, hb, hid⟩
    obtain ⟨reference, j, bake, s, first, rest, hr, hj, hget, -, rfl, hfirst, hp⟩ :=
      (h.boundBake_eq_ok_iff ht).mp hb
    rw [hfirst] at hid
    cases hid
    exact ⟨reference, j, bake, hr, hj, hget, hp⟩
  · rintro ⟨reference, j, bake, hr, hj, hget, hp⟩
    obtain ⟨refId, hsettled⟩ := h.settled _ (List.mem_of_getElem? hget)
    obtain ⟨s, first, rest, hs, hfirst, hp'⟩ := hsettled.bake hp.isBake
    refine ⟨s.spec, (h.boundBake_eq_ok_iff ht).mpr
      ⟨reference, j, bake, s, first, rest, hr, hj, hget, hs, rfl, hfirst, hp'⟩, ?_⟩
    rw [hfirst, hp.unique hp']
    rfl

/-- Where a binding fails, no bake stage is designated. -/
theorem boundArtifactId_error (h : Resolved r application pipeline total raws done seen)
    (ht : done.length ≤ total) {header : Header} {given : Option String} {e : Error}
    (he : (⟨application, pipeline, done.length, done, total⟩ : Context).boundArtifactId header
      given = .error e) : ∃ e', e = .reference e' ∧ e'.IsUnbound := by
  rw [Context.boundArtifactId, Except.bind_eq_error_iff] at he
  rcases he with he | ⟨b, hb, he⟩
  · exact h.boundBake_error ht he
  · obtain ⟨_, _, _, _, _, _, -, -, -, -, -, hfirst, -⟩ := (h.boundBake_eq_ok_iff ht).mp hb
    rw [hfirst] at he
    cases he

end Resolved

/-- What is written of a stage whose expansion binds it: its references as they were given, and the
artifact that it is bound to. -/
theorem Codec.Lawful.bound_of_resolveAs {σ : Type} {c : Codec σ}
    {expand : σ → Header → Context → Except Error σ} (hc : c.Lawful expand) {key : String}
    (hkey : key ∈ c.fields) (hartifact : "manifestArtifactId" ∈ c.fields)
    (hexpand : ∀ {s s' : σ} {header : Header} {ctx : Context}, expand s header ctx = .ok s' →
      ∃ given id, ctx.boundArtifactId header given = .ok id ∧
        (ofList (c.encode s')).get? key = given.map .str ∧
        (ofList (c.encode s')).get? "manifestArtifactId" = some (.str id))
    {raw stage : Members} {refId : String} {ctx : Context}
    (h : resolveAs c expand raw refId ctx = .ok stage) :
    ∃ header given id, ctx.boundArtifactId header given = .ok id ∧
      stage.get? key = given.map .str ∧
      stage.get? "requisiteStageRefIds" = some (Record.strings header.requisites) ∧
      stage.get? "manifestArtifactId" = some (.str id) := by
  obtain ⟨header, _, _, _, s, -, -, -, -, hs, rfl⟩ := resolveAs_eq_ok_iff.mp h
  obtain ⟨given, id, hid, hgiven, hnamed⟩ := hexpand hs
  have hextra := unclaimed_extra c raw
  refine ⟨_, given, id, hid, ?_, ?_, ?_⟩
  · rw [hc.get?_write_spec _ hextra hkey, hgiven]
  · rw [hc.get?_write_header _ hextra (by decide)]
    simp [Header.encode]
  · rw [hc.get?_write_spec _ hextra hartifact, hnamed]

/-- A stage that is bound keeps its references and names the artifact that it is bound to. -/
theorem Kind.bound_of_resolve {k : Kind} {key : String} (hk : k.bindingKey? = some key)
    {raw stage : Members} {refId : String} {ctx : Context}
    (h : k.resolve raw refId ctx = .ok stage) :
    ∃ header given id, ctx.boundArtifactId header given = .ok id ∧
      stage.get? key = given.map .str ∧
      stage.get? "requisiteStageRefIds" = some (Record.strings header.requisites) ∧
      stage.get? "manifestArtifactId" = some (.str id) := by
  cases k with
  | deploy =>
    cases hk
    refine Deploy.lawful.bound_of_resolveAs (by decide) (by decide) (fun hs ↦ ?_) h
    obtain ⟨id, hid, rfl⟩ := Deploy.expand_eq_ok_iff.mp hs
    exact ⟨_, id, hid, by simp [Deploy.codec, Deploy.encode], by simp [Deploy.codec, Deploy.encode]⟩
  | runJob =>
    cases hk
    refine RunJob.lawful.bound_of_resolveAs (by decide) (by decide) (fun hs ↦ ?_) h
    obtain ⟨id, hid, rfl⟩ := RunJob.expand_eq_ok_iff.mp hs
    exact ⟨_, id, hid, by simp [RunJob.codec, RunJob.encode], by simp [RunJob.codec, RunJob.encode]⟩
  | bake | delete | jenkins | manualJudgment | nestedPipeline | wait => cases hk

theorem Designates.of_take {stages : List Members} {reference : String} {i j : Nat} (hj : j < i)
    (h : Designates (stages.take i) reference j) : Designates stages reference j := by
  rw [Designates] at h ⊢
  split
  · simpa [*] using h
  · simpa [*, List.getElem?_take_of_lt hj] using h

/-- A bound stage of a resolved pipeline names the artifact of the earlier bake stage that its
reference designates. Whatever the stages before, binding succeeds where the reference designates a
bake stage among them, and its only errors are that it designates none. -/
theorem bindings_sound_complete (r : Registry) (application pipeline : String)
    (stages : List Members) :
    (∀ out, resolve r application pipeline stages = .ok out →
      ∀ (k : Kind) key i (stage : Members), k.bindingKey? = some key → out[i]? = some stage →
        stage.get? "type" = some (.str k.typeName) →
          ∃ requisites reference j bake id,
            stage.get? "requisiteStageRefIds" = some (Record.strings requisites) ∧
            Refers ((stage.get? key).bind Json.str?) requisites reference ∧
            Designates out reference j ∧ j < i ∧ out[j]? = some bake ∧ Produces bake id ∧
            stage.get? "manifestArtifactId" = some (.str id)) ∧
    (∀ first raw last done seen, stages = first ++ raw :: last →
      Resolved r application pipeline stages.length first done seen →
        ∀ header given,
          (∀ reference j (bake : Members), Refers given header.requisites reference →
            Designates done reference j → done[j]? = some bake →
            bake.get? "type" = some (.str Bake.typeName) →
              ∃ id, (⟨application, pipeline, done.length, done, stages.length⟩ :
                Context).boundArtifactId header given = .ok id ∧ Produces bake id) ∧
          ∀ e, (⟨application, pipeline, done.length, done, stages.length⟩ :
              Context).boundArtifactId header given = .error e →
            ∃ e', e = .reference e' ∧ e'.IsUnbound) := by
  constructor
  · intro out hout k key i stage hkey hi htype
    obtain ⟨seen, h⟩ := resolve_eq_ok_iff.mp hout
    obtain ⟨raws, seen', raw, refId, hbefore, hs⟩ := h.stage_at hi
    obtain ⟨header, l, hh, -, -, hl, hstage⟩ := resolveStage_eq_ok_iff.mp hs
    have hname := (get?_type_resolve hh hstage).1.symm.trans htype
    obtain rfl := Kind.typeName_injective l k
      ((typeName_of_find? hl).trans (Json.str.inj (Option.some.inj hname)))
    obtain ⟨header', given, id, hid, hgiven, hrequisites, hartifact⟩ :=
      Kind.bound_of_resolve hkey hstage
    have hlt : i < out.length := (List.getElem?_eq_some_iff.mp hi).1
    have htotal : (out.take i).length ≤ stages.length := by
      rw [← h.length_eq]
      exact List.length_take_le' _ _
    obtain ⟨reference, j, bake, hr, hj, hget, hp⟩ :=
      (hbefore.boundArtifactId_eq_ok_iff htotal).mp hid
    have hji : j < i := by
      have := (List.getElem?_eq_some_iff.mp hget).1
      simp at this
      omega
    refine ⟨header'.requisites, reference, j, bake, id, hrequisites, ?_, hj.of_take hji, hji, ?_,
      hp, hartifact⟩
    · rw [hgiven]
      cases given <;> exact hr
    · rwa [List.getElem?_take_of_lt hji] at hget
  · intro first raw last done seen hstages h header given
    have htotal : done.length ≤ stages.length := by
      rw [h.length_eq, hstages]
      simp
    refine ⟨fun reference j bake hr hj hget htype ↦ ?_,
      fun e he ↦ h.boundArtifactId_error htotal he⟩
    obtain ⟨refId, hsettled⟩ := h.settled bake (List.mem_of_getElem? hget)
    obtain ⟨s, a, rest, -, -, hp⟩ := hsettled.bake htype
    have hbound := (h.boundArtifactId_eq_ok_iff htotal).mpr ⟨reference, j, bake, hr, hj, hget, hp⟩
    exact ⟨a.id, hbound, hp⟩

section Witness

def webBake : Members :=
  [("expectedArtifacts", .arr [.obj [("displayName", .str "web")]]),
    ("inputArtifacts", .arr [.obj [("account", .str "git")]]), ("name", .str "Bake"),
    ("refId", .str "b"), ("type", .str "bakeManifest")]

def webDeploy : Members :=
  [("bakeStageRefIds", .str " b "), ("requisiteStageRefIds", .num (.int 9)),
    ("type", .str "deployManifest")]

def webBaked : Members :=
  [("completeOtherBranchesThenFail", .bool false), ("continuePipeline", .bool false),
    ("expectedArtifacts", .arr [.obj [("displayName", .str "web"),
      ("id", .str "30cf175e-83a6-5de3-beb8-cbdbfa92454a"),
      ("matchArtifact", .obj [("artifactAccount", .str ""), ("name", .str ""),
        ("type", .str "")])]]),
    ("failPipeline", .bool true),
    ("inputArtifacts", .arr [.obj [("account", .str "git"),
      ("artifact", .obj [("artifactAccount", .str "git"), ("name", .str ""), ("type", .str ""),
        ("version", .str "")])]]),
    ("name", .str "Bake"), ("namespace", .str ""), ("outputName", .str ""), ("refId", .str "b"),
    ("requisiteStageRefIds", .arr []), ("templateRenderer", .str ""),
    ("type", .str "bakeManifest")]

def webDeployed : Members :=
  [("bakeStageRefIds", .str " b "), ("cloudProvider", .str ""),
    ("completeOtherBranchesThenFail", .bool false), ("continuePipeline", .bool false),
    ("failPipeline", .bool true),
    ("manifestArtifactId", .str "30cf175e-83a6-5de3-beb8-cbdbfa92454a"),
    ("moniker", .obj [("app", .str "shop")]), ("name", .str ""), ("namespaceOverride", .str ""),
    ("refId", .str "2"), ("requisiteStageRefIds", .arr [.str "9"]), ("source", .str ""),
    ("type", .str "deployManifest")]

theorem bindings_sound_complete_web :
    resolve .builtin "shop" "release" [webBake, webDeploy] = .ok [webBaked, webDeployed] ∧
    (∃ requisites reference j bake id,
      webDeployed.get? "requisiteStageRefIds" = some (Record.strings requisites) ∧
      Refers ((webDeployed.get? "bakeStageRefIds").bind Json.str?) requisites reference ∧
      Designates [webBaked, webDeployed] reference j ∧ j < 1 ∧
      [webBaked, webDeployed][j]? = some bake ∧ Produces bake id ∧
      webDeployed.get? "manifestArtifactId" = some (.str id)) ∧
    ∃ id, (⟨"shop", "release", 1, [webBaked], 2⟩ : Context).boundArtifactId {} (some "1") =
      .ok id ∧ Produces webBaked id := by
  have hresolve : resolve .builtin "shop" "release" [webBake, webDeploy] =
      .ok [webBaked, webDeployed] := by decide +kernel
  have hbake : resolveStage .builtin ⟨"shop", "release", 0, [], 2⟩ [] webBake =
      .ok (webBaked, "b") := by decide +kernel
  have hreference : Refers (some "1") [] "1" := .given (s := "1") rfl (by decide)
  have hdesignates : Designates [webBaked] "1" 0 := by
    have hnumber : stageNumber? (Text.trimChars "1".toList) = some 1 := by decide +kernel
    rw [Designates, hnumber]
  obtain ⟨sound, complete⟩ :=
    bindings_sound_complete .builtin "shop" "release" [webBake, webDeploy]
  refine ⟨hresolve, sound _ hresolve .deploy _ 1 webDeployed rfl rfl (by decide), ?_⟩
  exact (complete [webBake] webDeploy [] [webBaked] ["b"] rfl (.snoc .nil hbake) {}
    (some "1")).1 "1" 0 webBaked hreference hdesignates rfl (by decide)

end Witness

end Stage

end DeliveryCharts
