import DeliveryCharts.Proofs.Stage.Codec

/-!
The fields of each type of stage, written and read again. Only deletions read back less than was
written: their location has a second name, which is never written, and their application is always
filled in.
-/

namespace DeliveryCharts.Stage

open Json (Fault within_ofMembers)
open Members
open Record (field_eq)

namespace DefaultArtifact

theorem ofJson_toJson (a : DefaultArtifact) : ofJson a.toJson = .ok a := by
  simp [ofJson, toJson, Record.read, Json.ofMembers, decode, field_eq]
  rfl

theorem within_toJson (a : DefaultArtifact) : a.toJson.Within 1 := within_ofMembers (by simp)

end DefaultArtifact

namespace MatchArtifact

structure Normal (a : MatchArtifact) : Prop where
  id : a.id ≠ some ""

theorem normal_of_ofJson {v : Json} {a : MatchArtifact} (h : ofJson v = .ok a) : a.Normal := by
  obtain ⟨ms, h⟩ := Record.read_inv h
  simp only [decode, Except.bind_eq_ok_iff] at h
  obtain ⟨_, -, _, -, _, h₁, _, -, _, -, ⟨⟩⟩ := h
  exact ⟨Record.ne_empty_of_optString h₁⟩

theorem ofJson_toJson {a : MatchArtifact} (h : a.Normal) : ofJson a.toJson = .ok a := by
  simp [ofJson, toJson, Record.read, Json.ofMembers, decode, field_eq, Record.elim_optString h.id]
  rfl

theorem within_toJson (a : MatchArtifact) : a.toJson.Within 1 := within_ofMembers (by simp)

end MatchArtifact

namespace ExpectedArtifact

structure Normal (a : ExpectedArtifact) : Prop where
  matchArtifact : a.matchArtifact.Normal

theorem normal_of_ofJson {v : Json} {a : ExpectedArtifact} (h : ofJson v = .ok a) : a.Normal := by
  obtain ⟨ms, h⟩ := Record.read_inv h
  simp only [decode, Except.bind_eq_ok_iff] at h
  obtain ⟨_, -, _, -, _, -, _, h₁, _, -, _, -, ⟨⟩⟩ := h
  exact ⟨Record.field_all h₁ ⟨by simp⟩ fun _ ↦ MatchArtifact.normal_of_ofJson⟩

theorem ofJson_toJson {a : ExpectedArtifact} (h : a.Normal) : ofJson a.toJson = .ok a := by
  have hd := Record.elim_optional (o := a.defaultArtifact) fun d _ ↦
    ⟨DefaultArtifact.ofJson_toJson d, by simp [DefaultArtifact.toJson, Json.ofMembers]⟩
  simp [ofJson, toJson, Record.read, Json.ofMembers, decode, field_eq, hd,
    MatchArtifact.ofJson_toJson h.matchArtifact]
  rfl

theorem within_toJson (a : ExpectedArtifact) : a.toJson.Within 2 := by
  refine within_ofMembers ?_
  have hd (d : DefaultArtifact) := d.within_toJson
  have hm := a.matchArtifact.within_toJson
  simp [hd, hm]

end ExpectedArtifact

namespace ArtifactRef

structure Normal (a : ArtifactRef) : Prop where
  id : a.id ≠ some ""

theorem normal_of_ofJson {v : Json} {a : ArtifactRef} (h : ofJson v = .ok a) : a.Normal := by
  obtain ⟨ms, h⟩ := Record.read_inv h
  simp only [decode, Except.bind_eq_ok_iff] at h
  obtain ⟨_, -, _, h₁, _, -, _, -, _, -, ⟨⟩⟩ := h
  exact ⟨Record.ne_empty_of_optString h₁⟩

theorem ofJson_toJson {a : ArtifactRef} (h : a.Normal) : ofJson a.toJson = .ok a := by
  simp [ofJson, toJson, Record.read, Json.ofMembers, decode, field_eq, Record.elim_optString h.id]
  rfl

theorem within_toJson (a : ArtifactRef) : a.toJson.Within 1 := within_ofMembers (by simp)

end ArtifactRef

namespace InputArtifact

structure Normal (a : InputArtifact) : Prop where
  artifact : a.artifact.Normal

theorem normal_of_ofJson {v : Json} {a : InputArtifact} (h : ofJson v = .ok a) : a.Normal := by
  obtain ⟨ms, h⟩ := Record.read_inv h
  simp only [decode, Except.bind_eq_ok_iff] at h
  obtain ⟨_, -, _, h₁, ⟨⟩⟩ := h
  exact ⟨Record.field_all h₁ ⟨by simp⟩ fun _ ↦ ArtifactRef.normal_of_ofJson⟩

theorem ofJson_toJson {a : InputArtifact} (h : a.Normal) : ofJson a.toJson = .ok a := by
  simp [ofJson, toJson, Record.read, Json.ofMembers, decode, field_eq,
    ArtifactRef.ofJson_toJson h.artifact]
  rfl

theorem within_toJson (a : InputArtifact) : a.toJson.Within 2 :=
  within_ofMembers (by simp [a.artifact.within_toJson])

end InputArtifact

namespace Bake

structure Normal (b : Bake) : Prop where
  account : b.account ≠ some ""
  expectedArtifacts : ∀ a ∈ b.expectedArtifacts, a.Normal
  inputArtifacts : ∀ a ∈ b.inputArtifacts, a.Normal

theorem normal_of_decode {ms : Members} {b : Bake} (h : decode ms = .ok b) : b.Normal := by
  simp only [decode, Except.bind_eq_ok_iff] at h
  obtain ⟨_, h₁, _, -, _, h₂, _, h₃, _, -, _, -, _, -, _, -, _, -, ⟨⟩⟩ := h
  refine ⟨Record.ne_empty_of_optString h₁, fun a ha ↦ ?_, fun a ha ↦ ?_⟩
  · obtain ⟨v, hv⟩ := Record.list_inv h₂ a ha
    exact ExpectedArtifact.normal_of_ofJson hv
  · obtain ⟨v, hv⟩ := Record.list_inv h₃ a ha
    exact InputArtifact.normal_of_ofJson hv

theorem decode_encode {b : Bake} (h : b.Normal) : decode (ofList b.encode) = .ok b := by
  have he := Record.elim_list fun a ha ↦ ExpectedArtifact.ofJson_toJson (h.expectedArtifacts a ha)
  have hi := Record.elim_list fun a ha ↦ InputArtifact.ofJson_toJson (h.inputArtifacts a ha)
  simp [decode, encode, field_eq, Record.elim_optString h.account, he, hi]
  rfl

theorem within_overrides {n : Nat} {ms : Members} {b : Bake} (hn : 4 ≤ n) (hms : ms.Within n)
    (h : decode ms = .ok b) : (Json.obj b.overrides).Within n := by
  simp only [decode, Except.bind_eq_ok_iff] at h
  obtain ⟨_, -, _, -, _, -, _, -, _, -, _, -, _, h₁, _, -, _, -, ⟨⟩⟩ := h
  exact Record.within_of_map (by omega) hms h₁

theorem within_encode {n : Nat} {b : Bake} (hn : 4 ≤ n) (h : (Json.obj b.overrides).Within n) :
    Members.Within n b.encode := by
  have he : Members.Within n
      (Record.items "expectedArtifacts" ExpectedArtifact.toJson b.expectedArtifacts) :=
    (Record.within_items fun a _ ↦ a.within_toJson).mono (by omega)
  have hi :
      Members.Within n (Record.items "inputArtifacts" InputArtifact.toJson b.inputArtifacts) :=
    (Record.within_items fun a _ ↦ a.within_toJson).mono (by omega)
  simp [encode, he, hi, Record.within_members h]

/-- What expansion leaves: at least one artifact, each with the id of its names, and the account of
each input repeated. -/
structure Expanded (b : Bake) (h : Header) : Prop where
  nonempty : b.expectedArtifacts ≠ []
  id : ∀ a ∈ b.expectedArtifacts, a.id = artifactId a.displayName h.name
  inputs : b.inputArtifacts ≠ []
  account : ∀ a ∈ b.inputArtifacts, a.artifact.artifactAccount = a.account

theorem expanded_of_expand {b b' : Bake} {h : Header} (he : b.expand h = .ok b') :
    b'.Expanded h := by
  rw [expand] at he
  split at he
  · cases he
  · rename_i hexpected
    split at he
    · cases he
    · rename_i hinputs
      cases he
      constructor
      · simpa using hexpected
      · simp
      · simpa using hinputs
      · simp

theorem Normal.expand {b b' : Bake} {h : Header} (hb : b.Normal) (he : b.expand h = .ok b') :
    b'.Normal ∧ b'.overrides = b.overrides := by
  rw [Bake.expand] at he
  split at he
  · cases he
  · split at he
    · cases he
    · cases he
      refine ⟨⟨hb.account, fun a ha ↦ ?_, fun a ha ↦ ?_⟩, rfl⟩
      · obtain ⟨c, hc, rfl⟩ := List.mem_map.mp ha
        exact ⟨(hb.expectedArtifacts c hc).matchArtifact⟩
      · obtain ⟨c, hc, rfl⟩ := List.mem_map.mp ha
        exact ⟨⟨(hb.inputArtifacts c hc).artifact.id⟩⟩

theorem Expanded.expand {b : Bake} {h : Header} (hb : b.Expanded h) : b.expand h = .ok b := by
  have hexpected (a : ExpectedArtifact) (ha : a ∈ b.expectedArtifacts) :
      { a with id := artifactId a.displayName h.name } = a := by rw [← hb.id a ha]
  have hinputs (a : InputArtifact) (ha : a ∈ b.inputArtifacts) :
      { a with artifact := { a.artifact with artifactAccount := a.account } } = a :=
    congrArg (fun account ↦ { a with artifact := { a.artifact with artifactAccount := account } })
      (hb.account a ha).symm
  simp [Bake.expand, hb.nonempty, hb.inputs, List.map_congr_left hexpected,
    List.map_congr_left hinputs]

theorem lawful : codec.Lawful fun b h _ ↦ b.expand h where
  distinct := by decide
  decode_congr h := by
    simp only [codec, List.forall_mem_cons] at h
    simp only [codec, decode, field_eq, h]
  among_encode b := by simp [codec, encode]
  again hd he := by
    have hb := ((normal_of_decode hd).expand he).1
    exact ⟨_, _, decode_encode hb, (expanded_of_expand he).expand, rfl⟩
  within hn hms hd he := by
    refine within_encode hn ?_
    rw [((normal_of_decode hd).expand he).2]
    exact within_overrides hn hms hd

end Bake

namespace Moniker

theorem ofJson_toJson (m : Moniker) : ofJson m.toJson = .ok m :=
  Except.bind_eq_ok_iff.mpr ⟨_, Record.field_sole (Coerce.string_str m.app), rfl⟩

theorem within_toJson (m : Moniker) : m.toJson.Within 1 := within_ofMembers (by simp)

end Moniker

namespace Deploy

structure Normal (d : Deploy) : Prop where
  account : d.account ≠ some ""
  bakeReference : d.bakeReference ≠ some ""

theorem normal_of_decode {ms : Members} {d : Deploy} (h : decode ms = .ok d) : d.Normal := by
  simp only [decode, Except.bind_eq_ok_iff] at h
  obtain ⟨_, h₁, _, h₂, _, -, _, -, _, -, _, -, _, -, _, -, ⟨⟩⟩ := h
  exact ⟨Record.ne_empty_of_optString h₁, Record.ne_empty_of_optString h₂⟩

theorem decode_encode {d : Deploy} (h : d.Normal) : decode (ofList d.encode) = .ok d := by
  simp [decode, encode, field_eq, Moniker.ofJson_toJson, Record.elim_optString h.account,
    Record.elim_optString h.bakeReference]
  rfl

theorem expand_eq_ok_iff {d d' : Deploy} {h : Header} {ctx : Context} :
    d.expand h ctx = .ok d' ↔ ∃ id, ctx.boundArtifactId h d.bakeReference = .ok id ∧
      d' = { d with moniker := { app := ctx.application }, manifestArtifactId := id } := by
  rw [expand, Except.bind_eq_ok_iff]
  constructor
  · rintro ⟨id, hid, ⟨⟩⟩
    exact ⟨id, hid, rfl⟩
  · rintro ⟨id, hid, rfl⟩
    exact ⟨id, hid, rfl⟩

theorem lawful : codec.Lawful expand where
  distinct := by decide
  decode_congr h := by
    simp only [codec, List.forall_mem_cons] at h
    simp only [codec, decode, field_eq, h]
  among_encode d := by simp [codec, encode]
  again hd he := by
    have hn := normal_of_decode hd
    obtain ⟨id, hid, rfl⟩ := expand_eq_ok_iff.mp he
    exact ⟨_, _, decode_encode ⟨hn.account, hn.bakeReference⟩,
      expand_eq_ok_iff.mpr ⟨id, hid, rfl⟩, rfl⟩
  within {n _ _ d _ _} hn _ _ _ := by
    simp [codec, encode, d.moniker.within_toJson.mono (by omega : 1 ≤ n)]

end Deploy

namespace LabelSelector

theorem ofJson_toJson (s : LabelSelector) : ofJson s.toJson = .ok s := by
  simp [ofJson, toJson, Record.read, Json.ofMembers, decode, field_eq]
  rfl

theorem within_toJson (s : LabelSelector) : s.toJson.Within 2 := within_ofMembers (by simp)

end LabelSelector

namespace LabelSelectors

theorem ofJson_toJson (s : LabelSelectors) : ofJson s.toJson = .ok s := by
  have hs : Record.list LabelSelector.ofJson (.arr (s.selectors.map LabelSelector.toJson)) =
      .ok s.selectors := Record.list_map fun l _ ↦ LabelSelector.ofJson_toJson l
  exact Except.bind_eq_ok_iff.mpr ⟨_, Record.field_sole hs, rfl⟩

theorem within_toJson (s : LabelSelectors) : s.toJson.Within 4 :=
  within_ofMembers (by simp [LabelSelector.within_toJson])

end LabelSelectors

namespace DeleteOptions

structure Normal (o : DeleteOptions) : Prop where
  gracePeriodSeconds : Width.signed 64 o.gracePeriodSeconds

theorem normal_of_ofJson {v : Json} {o : DeleteOptions} (h : ofJson v = .ok o) : o.Normal := by
  obtain ⟨ms, h⟩ := Record.read_inv h
  simp only [decode, Except.bind_eq_ok_iff] at h
  obtain ⟨_, -, _, h₁, ⟨⟩⟩ := h
  exact ⟨Record.signed_of_int h₁⟩

theorem ofJson_toJson {o : DeleteOptions} (h : o.Normal) : ofJson o.toJson = .ok o := by
  simp [ofJson, toJson, Record.read, Json.ofMembers, decode, field_eq,
    Coerce.int_ofInt h.gracePeriodSeconds]
  rfl

theorem within_toJson {o : DeleteOptions} (h : o.Normal) : o.toJson.Within 1 :=
  within_ofMembers (by simp [Json.within_ofInt h.gracePeriodSeconds])

end DeleteOptions

namespace Delete

structure Normal (d : Delete) : Prop where
  account : d.account ≠ some ""
  location : d.location ≠ some ""
  space : d.space ≠ some ""
  options : ∀ o ∈ d.options, o.Normal
  mode : d.mode ≠ some ""
  cloudProvider : d.cloudProvider ≠ some ""
  manifestArtifactId : d.manifestArtifactId ≠ some ""

theorem normal_of_decode {ms : Members} {d : Delete} (h : decode ms = .ok d) : d.Normal := by
  simp only [decode, Except.bind_eq_ok_iff] at h
  obtain ⟨_, h₁, _, -, _, h₂, _, -, _, -, _, h₃, _, h₄, _, h₅, _, h₆, _, h₇, ⟨⟩⟩ := h
  refine ⟨Record.ne_empty_of_optString h₁, Record.ne_empty_of_optString h₃,
    Record.ne_empty_of_optString h₆, fun o ho ↦ ?_, Record.ne_empty_of_optString h₅,
    Record.ne_empty_of_optString h₂, Record.ne_empty_of_optString h₄⟩
  obtain ⟨v, hv⟩ := Record.optional_inv h₇ o ho
  exact DeleteOptions.normal_of_ofJson hv

/-- What is read again: an empty application is no value, and there is no second location. -/
def kept (d : Delete) : Delete :=
  { d with app := if d.app = some "" then none else d.app, space := none }

theorem decode_encode {d : Delete} (h : d.Normal) : decode (ofList d.encode) = .ok d.kept := by
  have happ : (d.app.map Json.str).elim (.ok none) Coerce.optString =
      .ok (if d.app = some "" then none else d.app) := by
    split
    · rename_i h
      rw [h]
      rfl
    · rename_i h
      exact Record.elim_optString h
  have hl := Record.elim_optional (o := d.labelSelectors) fun s _ ↦
    ⟨LabelSelectors.ofJson_toJson s, by simp [LabelSelectors.toJson, Json.ofMembers]⟩
  have ho := Record.elim_optional fun o ho ↦
    ⟨DeleteOptions.ofJson_toJson (h.options o ho), by simp [DeleteOptions.toJson, Json.ofMembers]⟩
  simp [decode, encode, field_eq, happ, hl, ho, Record.elim_optString h.account,
    Record.elim_optString h.location, Record.elim_optString h.mode,
    Record.elim_optString h.cloudProvider, Record.elim_optString h.manifestArtifactId]
  rfl

theorem Normal.expand {d : Delete} (h : d.Normal) (ctx : Context) : (d.expand ctx).Normal := by
  refine ⟨h.account, ?_, h.space, h.options, h.mode, h.cloudProvider, h.manifestArtifactId⟩
  cases hl : d.location with
  | none => simpa [Delete.expand, hl] using h.space
  | some l => simpa [Delete.expand, hl] using h.location

theorem expand_kept (d : Delete) (ctx : Context) :
    ((d.expand ctx).kept.expand ctx).encode = (d.expand ctx).encode := by
  simp [encode, expand, kept]

theorem lawful : codec.Lawful fun d _ ctx ↦ .ok (d.expand ctx) where
  distinct := by decide
  decode_congr h := by
    simp only [codec, List.forall_mem_cons] at h
    simp only [codec, decode, field_eq, h]
  among_encode d := by simp [codec, encode]
  again hd he := by
    cases he
    exact ⟨_, _, decode_encode ((normal_of_decode hd).expand _), rfl, expand_kept _ _⟩
  within {n _ d₀ d _ ctx} hn _ hd he := by
    cases he
    have hk : Members.Within n (Record.items "kinds" .str d₀.kinds) :=
      (Record.within_items fun s _ ↦ .str 0 s).mono (by omega)
    have hl (s : LabelSelectors) : s.toJson.Within n := s.within_toJson.mono hn
    have ho (o : DeleteOptions) (ho : o ∈ d₀.options) : o.toJson.Within n :=
      (DeleteOptions.within_toJson ((normal_of_decode hd).options o ho)).mono (by omega)
    simpa [codec, encode, expand, hk, hl] using ho

end Delete

namespace RunJob

structure Normal (j : RunJob) : Prop where
  bakeReference : j.bakeReference ≠ some ""

theorem normal_of_decode {ms : Members} {j : RunJob} (h : decode ms = .ok j) : j.Normal := by
  simp only [decode, Except.bind_eq_ok_iff] at h
  obtain ⟨_, -, _, -, _, -, _, -, _, -, _, -, _, -, _, h₁, _, -, _, -, ⟨⟩⟩ := h
  exact ⟨Record.ne_empty_of_optString h₁⟩

theorem decode_encode {j : RunJob} (h : j.Normal) : decode (ofList j.encode) = .ok j := by
  simp [decode, encode, field_eq, Record.elim_optString h.bakeReference]
  rfl

theorem expand_eq_ok_iff {j j' : RunJob} {h : Header} {ctx : Context} :
    j.expand h ctx = .ok j' ↔ ∃ id, ctx.boundArtifactId h j.bakeReference = .ok id ∧
      j' = { j with
        application := if j.application.isEmpty then ctx.application else j.application
        manifestArtifactId := id } := by
  rw [expand, Except.bind_eq_ok_iff]
  constructor
  · rintro ⟨id, hid, ⟨⟩⟩
    exact ⟨id, hid, rfl⟩
  · rintro ⟨id, hid, rfl⟩
    exact ⟨id, hid, rfl⟩

theorem lawful : codec.Lawful expand where
  distinct := by decide
  decode_congr h := by
    simp only [codec, List.forall_mem_cons] at h
    simp only [codec, decode, field_eq, h]
  among_encode j := by simp [codec, encode]
  again {_ j _ _ ctx} hd he := by
    have hn := normal_of_decode hd
    obtain ⟨id, hid, rfl⟩ := expand_eq_ok_iff.mp he
    refine ⟨_, _, decode_encode ⟨hn.bakeReference⟩, expand_eq_ok_iff.mpr ⟨id, hid, rfl⟩, ?_⟩
    by_cases ha : j.application = "" <;> simp [ha]
  within _ _ _ _ := by simp [codec, encode]

end RunJob

namespace Jenkins

theorem decode_encode (j : Jenkins) : decode (ofList j.encode) = .ok j := by
  simp [decode, encode, field_eq, Record.map]
  rfl

theorem lawful : codec.Lawful fun j _ _ ↦ .ok j where
  distinct := by decide
  decode_congr h := by
    simp only [codec, List.forall_mem_cons] at h
    simp only [codec, decode, field_eq, h]
  among_encode j := by simp [codec, encode]
  again _ _ := ⟨_, _, decode_encode _, rfl, rfl⟩
  within hn hms hd he := by
    cases he
    simp only [codec, decode, Except.bind_eq_ok_iff] at hd
    obtain ⟨_, -, _, -, _, -, _, -, _, h₁, _, -, ⟨⟩⟩ := hd
    simp [codec, encode, Record.within_of_map (by omega) hms h₁]

end Jenkins

namespace Wait

theorem decode_encode {w : Wait} (h : Width.signed 64 w.waitTime) :
    decode (ofList w.encode) = .ok w := by
  simp [decode, encode, field_eq, Coerce.int_ofInt h]
  rfl

theorem signed_of_decode {ms : Members} {w : Wait} (h : decode ms = .ok w) :
    Width.signed 64 w.waitTime := by
  simp only [decode, Except.bind_eq_ok_iff] at h
  obtain ⟨_, -, _, -, _, h₁, ⟨⟩⟩ := h
  exact Record.signed_of_int h₁

theorem lawful : codec.Lawful fun w _ _ ↦ .ok w where
  distinct := by decide
  decode_congr h := by
    simp only [codec, List.forall_mem_cons] at h
    simp only [codec, decode, field_eq, h]
  among_encode w := by simp [codec, encode]
  again hd he := by
    cases he
    exact ⟨_, _, decode_encode (signed_of_decode hd), rfl, rfl⟩
  within _ _ hd he := by
    cases he
    simp [codec, encode, Json.within_ofInt (signed_of_decode hd)]

end Wait

namespace ManualJudgment

theorem decode_encode (j : ManualJudgment) : decode (ofList j.encode) = .ok j := by
  have hj : Record.nullableList .ok (.arr j.judgmentInputs) = .ok j.judgmentInputs :=
    Except.mapM_ok _
  simp [decode, encode, field_eq, hj]
  rfl

theorem lawful : codec.Lawful fun j _ _ ↦ .ok j where
  distinct := by decide
  decode_congr h := by
    simp only [codec, List.forall_mem_cons] at h
    simp only [codec, decode, field_eq, h]
  among_encode j := by simp [codec, encode]
  again _ _ := ⟨_, _, decode_encode _, rfl, rfl⟩
  within {n _ j _ _ _} hn hms hd he := by
    cases he
    have hr : Members.Within n (Record.items "selectedStageRoles" .str j.selectedStageRoles) :=
      (Record.within_items fun s _ ↦ .str 0 s).mono (by omega)
    simp only [codec, decode, Except.bind_eq_ok_iff] at hd
    obtain ⟨_, -, _, -, _, h₁, _, -, _, -, ⟨⟩⟩ := hd
    simp [codec, encode, hr, Record.within_of_nullableList (by omega) hms h₁]

end ManualJudgment

namespace NestedPipeline

theorem decode_encode (p : NestedPipeline) : decode (ofList p.encode) = .ok p := by
  simp [decode, encode, field_eq]
  rfl

theorem expand_expand (p : NestedPipeline) (ctx : Context) :
    (p.expand ctx).expand ctx = p.expand ctx := by
  by_cases h : p.application = "" <;> simp [expand, h]

theorem lawful : codec.Lawful fun p _ ctx ↦ .ok (p.expand ctx) where
  distinct := by decide
  decode_congr h := by
    simp only [codec, List.forall_mem_cons] at h
    simp only [codec, decode, field_eq, h]
  among_encode p := by simp [codec, encode]
  again _ he := by
    cases he
    exact ⟨_, _, decode_encode _, rfl, by rw [expand_expand]⟩
  within {n _ p _ _ ctx} hn hms hd he := by
    cases he
    simp only [codec, decode, Except.bind_eq_ok_iff] at hd
    obtain ⟨_, -, _, -, _, -, _, h₁, _, -, ⟨⟩⟩ := hd
    simp [codec, encode, expand, Record.within_members (Record.within_of_map (by omega) hms h₁)]

end NestedPipeline

end DeliveryCharts.Stage
