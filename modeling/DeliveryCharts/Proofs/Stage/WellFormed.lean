import DeliveryCharts.Proofs.Stage.Binding

/-!
Well-formed pipelines. A resolved stage keeps what names and places its input, has a `refId` of its
own, and its flags are those of the phrase that its input gives.
-/

namespace DeliveryCharts

namespace Record

theorem field_optString {ms : Members} {name : String} {o : Option String}
    (h : field ms name none Coerce.optString = .ok o) :
    ∃ s, field ms name "" Coerce.string = .ok s ∧ o = if s = "" then none else some s := by
  rw [field_eq] at h ⊢
  cases hv : ms.get? name with
  | none =>
    rw [hv] at h
    cases h
    exact ⟨"", rfl, rfl⟩
  | some v =>
    rw [hv] at h
    obtain ⟨s, hs, rfl⟩ := Except.map_eq_ok_iff.mp h
    refine ⟨s, hs, ?_⟩
    simp only [String.isEmpty_iff]

end Record

namespace Stage

open Members
open Record (field)

/-- A stage at a position, from 0, goes by its weakly typed `refId`, or by its number if that is
empty. -/
def GoesBy (position : Nat) (raw : Members) (refId : String) : Prop :=
  ∃ given, field raw "refId" "" Coerce.string = .ok given ∧
    refId = if given = "" then Text.ofNat (position + 1) else given

/-- The flags are those of a phrase, without the blanks around it. A phrase that is empty or none of
the four halts the pipeline. -/
structure Follows (phrase : String) (stage : Members) : Prop where
  continues : stage.get? "continuePipeline" =
    some (.bool (Text.trim phrase = "ignore the failure"))
  fails : stage.get? "failPipeline" =
    some (.bool (Text.trim phrase ∉ ["halt this branch of the pipeline",
      "halt this branch and fail the pipeline once other branches complete",
      "ignore the failure"]))
  completes : stage.get? "completeOtherBranchesThenFail" = some (.bool
    (Text.trim phrase = "halt this branch and fail the pipeline once other branches complete"))
  kept : stage.get? "ifStageFails" =
    if phrase = "" then none else some (.str (OnFailure.ofPhrase (some phrase)).phrase)

/-- What a stage at a position, from 0, is resolved to. -/
structure Keeps (r : Registry) (position : Nat) (raw stage : Members) : Prop where
  name : ∃ s, field raw "name" "" Coerce.string = .ok s ∧ stage.get? "name" = some (.str s)
  type : ∃ s, field raw "type" "" Coerce.string = .ok s ∧ stage.get? "type" = some (.str s) ∧
    r.contains s = true
  requisites : ∃ ss, field raw "requisiteStageRefIds" [] Coerce.stringList = .ok ss ∧
    stage.get? "requisiteStageRefIds" = some (.arr (ss.map .str))
  refId : ∃ s, GoesBy position raw s ∧ stage.get? "refId" = some (.str s)
  policy : ∃ phrase, field raw "ifStageFails" "" Coerce.string = .ok phrase ∧
    Follows phrase stage

theorem GoesBy.unique {position : Nat} {raw : Members} {refId refId' : String}
    (h : GoesBy position raw refId) (h' : GoesBy position raw refId') : refId = refId' := by
  obtain ⟨given, hg, rfl⟩ := h
  obtain ⟨given', hg', rfl⟩ := h'
  cases hg.symm.trans hg'
  rfl

theorem Header.decode_eq_ok_iff {ms : Members} {h : Header} :
    decode ms = .ok h ↔ field ms "name" "" Coerce.string = .ok h.name ∧
      field ms "refId" "" Coerce.string = .ok h.refId ∧
      field ms "requisiteStageRefIds" [] Coerce.stringList = .ok h.requisites ∧
      field ms "type" "" Coerce.string = .ok h.stageType := by
  simp only [decode, Except.bind_eq_ok_iff]
  constructor
  · rintro ⟨name, hn, refId, hr, requisites, hq, stageType, ht, ⟨⟩⟩
    exact ⟨hn, hr, hq, ht⟩
  · rintro ⟨hn, hr, hq, ht⟩
    exact ⟨_, hn, _, hr, _, hq, _, ht, rfl⟩

theorem Policy.phrase_of_decode {ms : Members} {p : Policy} (h : decode ms = .ok p) :
    ∃ phrase, field ms "ifStageFails" "" Coerce.string = .ok phrase ∧
      p.ifStageFails = if phrase = "" then none else some phrase := by
  simp only [decode, Except.bind_eq_ok_iff] at h
  obtain ⟨_, -, _, -, _, -, o, ho, ⟨⟩⟩ := h
  exact Record.field_optString ho

namespace OnFailure

theorem ofPhrase_given (phrase : String) :
    ofPhrase (if phrase = "" then none else some phrase) = ofPhrase (some phrase) := by
  by_cases h : phrase = ""
  · have hempty : ofPhrase (some "") = haltPipeline := by decide
    rw [if_pos h, h, hempty, ofPhrase]
  · rw [if_neg h]

theorem flags_ofPhrase (phrase : String) :
    (ofPhrase (some phrase)).continues = decide (Text.trim phrase = "ignore the failure") ∧
      (ofPhrase (some phrase)).fails =
        decide (Text.trim phrase ∉ ["halt this branch of the pipeline",
          "halt this branch and fail the pipeline once other branches complete",
          "ignore the failure"]) ∧
      (ofPhrase (some phrase)).completes = decide (Text.trim phrase =
        "halt this branch and fail the pipeline once other branches complete") := by
  rw [ofPhrase]
  generalize Text.trim phrase = t
  split
  · rename_i h
    subst t
    decide
  · rename_i hbranch
    split
    · rename_i h
      subst t
      decide
    · rename_i hothers
      split
      · rename_i h
        subst t
        decide
      · rename_i hignore
        simp only [OnFailure.phrase] at hbranch hothers hignore
        simp [hbranch, hothers, hignore, continues, fails, completes]

end OnFailure

theorem Policy.follows_of_apply {p : Policy} {phrase : String} {stage : Members}
    (hp : p.ifStageFails = if phrase = "" then none else some phrase)
    (h : ∀ key ∈ Policy.fields, stage.get? key = (ofList p.apply.encode).get? key) :
    Follows phrase stage := by
  have hchoice : OnFailure.ofPhrase p.ifStageFails = OnFailure.ofPhrase (some phrase) := by
    rw [hp, OnFailure.ofPhrase_given]
  obtain ⟨hcontinues, hfails, hcompletes⟩ := OnFailure.flags_ofPhrase phrase
  constructor
  · rw [h _ (by decide), ← hcontinues]
    simp [apply, encode, hchoice]
  · rw [h _ (by decide), ← hfails]
    simp [apply, encode, hchoice]
  · rw [h _ (by decide), ← hcompletes]
    simp [apply, encode, hchoice]
  · rw [h _ (by decide)]
    by_cases hphrase : phrase = "" <;> simp [apply, encode, hp, hphrase]

section Step

variable {r : Registry} {ctx : Context} {seen : List String} {raw stage : Members} {refId : String}

theorem Kind.policy_resolve {k : Kind} (h : k.resolve raw refId ctx = .ok stage) :
    ∃ p, Policy.decode raw = .ok p ∧
      ∀ key ∈ Policy.fields, stage.get? key = (ofList p.apply.encode).get? key := by
  obtain ⟨σ, c, expand, hc, hk, -⟩ := k.exists_lawful
  rw [hk] at h
  obtain ⟨header, p, o, s₀, s, -, hp, -, -, -, rfl⟩ := resolveAs_eq_ok_iff.mp h
  exact ⟨p, hp, fun key ↦ hc.get?_write_policy _ (unclaimed_extra c raw)⟩

theorem keeps_of_resolveStage (h : resolveStage r ctx seen raw = .ok (stage, refId)) :
    Keeps r ctx.index raw stage := by
  have hsettled := settled_of_resolveStage h
  obtain ⟨header, k, hh, hr, -, hk, hout⟩ := resolveStage_eq_ok_iff.mp h
  obtain ⟨hname, hrefId, hrequisites, htype⟩ := Header.decode_eq_ok_iff.mp hh
  obtain ⟨htype', hrequisites'⟩ := get?_type_resolve hh hout
  obtain ⟨header', hh', hget⟩ := Kind.get?_resolve hout
  cases hh.symm.trans hh'
  obtain ⟨p, hp, hpolicy⟩ := Kind.policy_resolve hout
  obtain ⟨phrase, hphrase, hgiven⟩ := Policy.phrase_of_decode hp
  constructor
  · refine ⟨header.name, hname, ?_⟩
    rw [hget _ (by decide)]
    simp [Header.encode]
  · refine ⟨header.stageType, htype, htype', ?_⟩
    apply List.any_eq_true.mpr
    exact ⟨k, List.mem_of_find?_eq_some hk, by simpa using typeName_of_find? hk⟩
  · exact ⟨header.requisites, hrequisites, hrequisites'⟩
  · refine ⟨refId, ⟨header.refId, hrefId, ?_⟩, hsettled.refId⟩
    simp only [hr, effectiveRefId, String.isEmpty_iff]
  · exact ⟨phrase, hphrase, Policy.follows_of_apply hgiven hpolicy⟩

end Step

section Run

variable {r : Registry} {application pipeline : String} {total : Nat}
  {raws done : List Members} {seen : List String}

theorem Resolved.keeps (h : Resolved r application pipeline total raws done seen) (i : Nat)
    (raw stage : Members) (hraw : raws[i]? = some raw) (hstage : done[i]? = some stage) :
    Keeps r i raw stage := by
  obtain ⟨ctx, seen', refId, rfl, hs⟩ := h.input_at hraw hstage
  exact keeps_of_resolveStage hs

end Run

/-- A resolved pipeline has the length of its input, each stage keeps what names and places it and
gets the flags of its phrase, and the `refId`s are distinct. Where two stages go by the same `refId`
the pipeline does not resolve. -/
theorem resolved_wellFormed (r : Registry) (application pipeline : String)
    (stages : List Members) :
    (∀ out, resolve r application pipeline stages = .ok out →
      out.length = stages.length ∧
      (∀ i raw stage, stages[i]? = some raw → out[i]? = some stage → Keeps r i raw stage) ∧
      out.Pairwise fun a b ↦ a.get? "refId" ≠ b.get? "refId") ∧
    ∀ i j raw raw' refId, i ≠ j → stages[i]? = some raw → stages[j]? = some raw' →
      GoesBy i raw refId → GoesBy j raw' refId →
        ∃ e, resolve r application pipeline stages = .error e := by
  constructor
  · intro out hout
    obtain ⟨seen, h⟩ := resolve_eq_ok_iff.mp hout
    exact ⟨h.length_eq, h.keeps, List.pairwise_map.mp h.nodup_refIds⟩
  · intro i j raw raw' refId hne hi hj hgoes hgoes'
    cases hout : resolve r application pipeline stages with
    | error e => exact ⟨e, rfl⟩
    | ok out =>
      obtain ⟨seen, h⟩ := resolve_eq_ok_iff.mp hout
      have hlength := h.length_eq
      have hlt := (List.getElem?_eq_some_iff.mp hi).1
      have hlt' := (List.getElem?_eq_some_iff.mp hj).1
      have hstage := List.getElem?_eq_getElem (l := out) (i := i) (by omega)
      have hstage' := List.getElem?_eq_getElem (l := out) (i := j) (by omega)
      obtain ⟨s, hs, hget⟩ := (h.keeps i raw _ hi hstage).refId
      obtain ⟨s', hs', hget'⟩ := (h.keeps j raw' _ hj hstage').refId
      rw [← hgoes.unique hs] at hget
      rw [← hgoes'.unique hs'] at hget'
      exact absurd (h.refId_unique hstage hstage' hget hget') hne

section Witness

/-- Two stages whose fields are weakly typed, the first of which goes by its number. -/
def looseStages : List Members :=
  [[("continuePipeline", .bool false), ("ifStageFails", .str " ignore the failure "),
      ("name", .ofInt 7), ("requisiteStageRefIds", .ofInt 9), ("type", .str "wait")],
    [("failPipeline", .str "0"), ("ifStageFails", .str "keep calm"), ("refId", .ofInt 5),
      ("type", .str "wait")]]

def firmStages : List Members :=
  [[("completeOtherBranchesThenFail", .bool false), ("continuePipeline", .bool true),
      ("failPipeline", .bool false), ("ifStageFails", .str "ignore the failure"),
      ("name", .str "7"), ("refId", .str "1"), ("requisiteStageRefIds", .arr [.str "9"]),
      ("skipWaitText", .str ""), ("type", .str "wait"), ("waitTime", .ofInt 0)],
    [("completeOtherBranchesThenFail", .bool false), ("continuePipeline", .bool false),
      ("failPipeline", .bool true), ("ifStageFails", .str "halt the entire pipeline"),
      ("name", .str ""), ("refId", .str "5"), ("requisiteStageRefIds", .arr []),
      ("skipWaitText", .str ""), ("type", .str "wait"), ("waitTime", .ofInt 0)]]

/-- A stage that goes by the number of the one before it. -/
def clashingStages : List Members :=
  [[("type", .str "wait")], [("refId", .ofInt 1), ("type", .str "wait")]]

theorem resolved_wellFormed_loose :
    (resolve .builtin "shop" "release" looseStages = .ok firmStages ∧
      (firmStages.length = looseStages.length ∧
        (∀ i raw stage, looseStages[i]? = some raw → firmStages[i]? = some stage →
          Keeps .builtin i raw stage) ∧
        firmStages.Pairwise fun a b ↦ a.get? "refId" ≠ b.get? "refId")) ∧
    GoesBy 0 [("type", .str "wait")] "1" ∧
    GoesBy 1 [("refId", .ofInt 1), ("type", .str "wait")] "1" ∧
    ∃ e, resolve .builtin "shop" "release" clashingStages = .error e := by
  have hloose : resolve .builtin "shop" "release" looseStages = .ok firmStages := by
    decide +kernel
  have hnumber : GoesBy 0 [("type", .str "wait")] "1" := ⟨"", by decide +kernel⟩
  have hgiven : GoesBy 1 [("refId", .ofInt 1), ("type", .str "wait")] "1" :=
    ⟨"1", by decide +kernel⟩
  refine ⟨⟨hloose, (resolved_wellFormed .builtin "shop" "release" looseStages).1 _ hloose⟩,
    hnumber, hgiven, ?_⟩
  exact (resolved_wellFormed .builtin "shop" "release" clashingStages).2 0 1 _ _ "1" (by decide)
    rfl rfl hnumber hgiven

end Witness

end Stage

end DeliveryCharts
