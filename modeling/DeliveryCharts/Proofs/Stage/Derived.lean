import DeliveryCharts.Proofs.Stage.WellFormed

/-!
Derived fields. Resolving a stage fills in some of its fields whatever its input holds there, so a
stage resolves to the same without them. Two pipelines that differ only in derived fields resolve to
the same.
-/

namespace DeliveryCharts

open Json (Fault)

namespace Members

/-- The members, with what one key holds changed. -/
def mapAt (ms : Members) (key : String) (f : Json → Json) : Members :=
  ms.map fun m ↦ if m.1 = key then (m.1, f m.2) else m

theorem get?_mapAt (ms : Members) (key key' : String) (f : Json → Json) :
    (ms.mapAt key f).get? key' = if key' = key then (ms.get? key').map f else ms.get? key' := by
  induction ms with
  | nil => simp [mapAt, get?]
  | cons m ms ih =>
    obtain ⟨k, v⟩ := m
    rw [mapAt] at ih
    by_cases hk : k = key
    · subst key
      by_cases hkey : k = key'
      · subst key'
        simp [mapAt, get?]
      · simp [mapAt, get?, hkey, ih]
    · by_cases hkey : k = key'
      · subst key'
        simp [mapAt, get?, hk]
      · simp [mapAt, get?, hk, hkey, ih]

theorem filter_erase {p : String → Bool} {key : String} (h : p key = false) (ms : Members) :
    (ms.erase key).filter (fun m ↦ p m.1) = ms.filter fun m ↦ p m.1 := by
  rw [erase, List.filter_filter]
  apply List.filter_congr
  intro m _
  by_cases hm : m.1 = key <;> simp [hm, h]

theorem filter_mapAt {p : String → Bool} {key : String} (h : p key = false) (f : Json → Json)
    (ms : Members) : (ms.mapAt key f).filter (fun m ↦ p m.1) = ms.filter fun m ↦ p m.1 := by
  induction ms with
  | nil => rfl
  | cons m ms ih =>
    rw [mapAt] at ih ⊢
    by_cases hm : m.1 = key <;> simp [List.filter_cons, hm, h, ih]

end Members

namespace Record

open Members

variable {α : Type} {read : Json → Except Fault α} {name name' : String} {default a : α}

/-- A record with its members changed. It may also be given as the list of its fields. -/
def amend (fields : List String) (f : Members → Members) : Json → Json
  | .obj ms => .obj (f ms)
  | .arr vs => .obj (f (ofList (fields.zip vs)))
  | v => v

def amendItems (f : Json → Json) : Json → Json
  | .arr vs => .arr (vs.map f)
  | v => v

theorem read_amend {origin : Origin} {typeName : String} {fields : List String}
    {decode : Members → Except Fault α} {f : Members → Members} {g : α → α}
    (hf : ∀ ms a, decode ms = .ok a → decode (f ms) = .ok (g a)) (v : Json) (a : α)
    (h : Record.read origin typeName fields decode v = .ok a) :
    Record.read origin typeName fields decode (amend fields f v) = .ok (g a) := by
  cases v with
  | obj ms => exact hf ms a h
  | arr vs =>
    simp only [Record.read, positional, Except.bind_eq_ok_iff] at h
    obtain ⟨b, ⟨-, -, hb⟩, h⟩ := h
    split at h
    · cases h
    · cases h
      exact hf _ a hb
  | null | bool | num | str => cases h

theorem list_amendItems {f : Json → Json} {g : α → α}
    (hf : ∀ v a, read v = .ok a → read (f v) = .ok (g a)) (v : Json) (as : List α)
    (h : list read v = .ok as) : list read (amendItems f v) = .ok (as.map g) := by
  cases v with
  | arr vs => exact Except.mapM_commutes hf h
  | null | bool | num | str | obj => cases h

theorem field_erase (ms : Members) (name : String) (default : α) (read : Json → Except Fault α) :
    field (ms.erase name) name default read = .ok default := by
  rw [field_eq, get?_erase, if_pos rfl]
  rfl

theorem field_erase_ne (h : name' ≠ name) (ms : Members) (default : α)
    (read : Json → Except Fault α) :
    field (ms.erase name) name' default read = field ms name' default read := by
  rw [field_eq, get?_erase, if_neg h, ← field_eq]

theorem field_mapAt {f : Json → Json} {g : α → α} {ms : Members}
    (hf : ∀ v a, read v = .ok a → read (f v) = .ok (g a)) (hd : g default = default)
    (h : field ms name default read = .ok a) :
    field (ms.mapAt name f) name default read = .ok (g a) := by
  rw [field_eq] at h
  rw [field_eq, get?_mapAt, if_pos rfl]
  cases hv : ms.get? name with
  | none =>
    rw [hv] at h
    cases h
    rw [hd]
    rfl
  | some v =>
    rw [hv] at h
    exact hf v a h

theorem field_mapAt_ne (h : name' ≠ name) (f : Json → Json) (ms : Members) (default : α)
    (read : Json → Except Fault α) :
    field (ms.mapAt name f) name' default read = field ms name' default read := by
  rw [field_eq, get?_mapAt, if_neg h, ← field_eq]

end Record

namespace Stage

open Members
open Record (field amend amendItems field_erase field_erase_ne field_mapAt field_mapAt_ne)

namespace ExpectedArtifact

def withoutId : Json → Json :=
  amend ["defaultArtifact", "displayName", "id", "matchArtifact", "useDefaultArtifact",
    "usePriorArtifact"] (erase · "id")

theorem decode_erase (ms : Members) (a : ExpectedArtifact) (h : decode ms = .ok a) :
    decode (ms.erase "id") = .ok { a with id := "" } := by
  simp only [decode, Except.bind_eq_ok_iff] at h
  obtain ⟨_, h₁, _, h₂, _, -, _, h₃, _, h₄, _, h₅, ⟨⟩⟩ := h
  simp only [decode, field_erase, ne_eq, String.reduceEq, not_false_eq_true, field_erase_ne, h₁, h₂,
    h₃, h₄, h₅]
  rfl

theorem ofJson_withoutId (v : Json) (a : ExpectedArtifact) (h : ofJson v = .ok a) :
    ofJson (withoutId v) = .ok { a with id := "" } :=
  Record.read_amend decode_erase v a h

end ExpectedArtifact

namespace ArtifactRef

def withoutAccount : Json → Json :=
  amend ["artifactAccount", "id", "name", "type", "version"] (erase · "artifactAccount")

theorem decode_erase (ms : Members) (a : ArtifactRef) (h : decode ms = .ok a) :
    decode (ms.erase "artifactAccount") = .ok { a with artifactAccount := "" } := by
  simp only [decode, Except.bind_eq_ok_iff] at h
  obtain ⟨_, -, _, h₁, _, h₂, _, h₃, _, h₄, ⟨⟩⟩ := h
  simp only [decode, field_erase, ne_eq, String.reduceEq, not_false_eq_true, field_erase_ne, h₁, h₂,
    h₃, h₄]
  rfl

theorem ofJson_withoutAccount (v : Json) (a : ArtifactRef) (h : ofJson v = .ok a) :
    ofJson (withoutAccount v) = .ok { a with artifactAccount := "" } :=
  Record.read_amend decode_erase v a h

end ArtifactRef

namespace InputArtifact

def withoutAccount : Json → Json :=
  amend ["account", "artifact"] (mapAt · "artifact" ArtifactRef.withoutAccount)

theorem decode_mapAt (ms : Members) (a : InputArtifact) (h : decode ms = .ok a) :
    decode (ms.mapAt "artifact" ArtifactRef.withoutAccount) =
      .ok { a with artifact := { a.artifact with artifactAccount := "" } } := by
  simp only [decode, Except.bind_eq_ok_iff] at h
  obtain ⟨_, h₁, _, h₂, ⟨⟩⟩ := h
  have h₂ := field_mapAt ArtifactRef.ofJson_withoutAccount rfl h₂
  simp only [decode, ne_eq, String.reduceEq, not_false_eq_true, field_mapAt_ne, h₁, h₂]
  rfl

theorem ofJson_withoutAccount (v : Json) (a : InputArtifact) (h : ofJson v = .ok a) :
    ofJson (withoutAccount v) =
      .ok { a with artifact := { a.artifact with artifactAccount := "" } } :=
  Record.read_amend decode_mapAt v a h

end InputArtifact

section Codec

variable {σ : Type}

/-- A change of the members of a stage that leaves alone all but the fields of its type. -/
structure Codec.Confines (c : Codec σ) (f : Members → Members) : Prop where
  get? {key : String} (h : key ∉ c.fields) (raw : Members) : (f raw).get? key = raw.get? key
  extra (raw : Members) :
    (f raw).filter (fun m ↦ !c.claims m.1) = raw.filter fun m ↦ !c.claims m.1

namespace Codec.Confines

variable {c : Codec σ} {f g : Members → Members}

theorem refl (c : Codec σ) : c.Confines id := ⟨fun _ _ ↦ rfl, fun _ ↦ rfl⟩

theorem comp (hf : c.Confines f) (hg : c.Confines g) : c.Confines (f ∘ g) := by
  constructor
  · intro key h raw
    exact (hf.get? h (g raw)).trans (hg.get? h raw)
  · intro raw
    exact (hf.extra (g raw)).trans (hg.extra raw)

theorem erase {key : String} (h : key ∈ c.fields) : c.Confines (Members.erase · key) := by
  constructor
  · intro key' h' raw
    have hne : key' ≠ key := fun he ↦ h' (he ▸ h)
    simp only [get?_erase, hne, ↓reduceIte]
  · intro raw
    exact filter_erase (p := fun k ↦ !c.claims k) (by simp [Codec.claims, h]) raw

theorem mapAt {key : String} (h : key ∈ c.fields) (change : Json → Json) :
    c.Confines (Members.mapAt · key change) := by
  constructor
  · intro key' h' raw
    have hne : key' ≠ key := fun he ↦ h' (he ▸ h)
    simp only [get?_mapAt, hne, ↓reduceIte]
  · intro raw
    exact filter_mapAt (p := fun k ↦ !c.claims k) (by simp [Codec.claims, h]) change raw

end Codec.Confines

/-- A change of fields that expansion fills in: what is expanded does not depend on it. -/
structure Codec.Overwrites (c : Codec σ) (expand : σ → Header → Context → Except Error σ)
    (f : Members → Members) : Prop where
  confines : c.Confines f
  expands {raw : Members} {s₀ s : σ} {h : Header} {ctx : Context} :
    c.decode raw = .ok s₀ → expand s₀ h ctx = .ok s →
      ∃ s₁, c.decode (f raw) = .ok s₁ ∧ expand s₁ h ctx = .ok s

theorem Codec.overwrites_id (c : Codec σ) (expand : σ → Header → Context → Except Error σ) :
    c.Overwrites expand id :=
  ⟨.refl c, fun hd he ↦ ⟨_, hd, he⟩⟩

end Codec

/-- A stage of a type without the fields of this type that are derived. -/
def Kind.withoutDerived : Kind → Members → Members
  | bake => (mapAt · "expectedArtifacts" (amendItems ExpectedArtifact.withoutId)) ∘
      (mapAt · "inputArtifacts" (amendItems InputArtifact.withoutAccount))
  | delete => (erase · "app")
  | deploy => (erase · "moniker") ∘ (erase · "manifestArtifactId")
  | runJob => (erase · "manifestArtifactId")
  | jenkins | manualJudgment | nestedPipeline | wait => id

namespace Bake

/-- A stage whose artifacts have no ids, and whose inputs do not repeat their accounts. -/
def blank (b : Bake) : Bake :=
  { b with
    expectedArtifacts := b.expectedArtifacts.map fun a ↦ { a with id := "" }
    inputArtifacts := b.inputArtifacts.map fun a ↦
      { a with artifact := { a.artifact with artifactAccount := "" } } }

theorem decode_withoutDerived {ms : Members} {b : Bake} (h : decode ms = .ok b) :
    decode (Kind.bake.withoutDerived ms) = .ok b.blank := by
  simp only [decode, Except.bind_eq_ok_iff] at h
  obtain ⟨_, h₁, _, h₂, _, h₃, _, h₄, _, h₅, _, h₆, _, h₇, _, h₈, _, h₉, ⟨⟩⟩ := h
  -- Both lists are changed, each where a change of the other one does not show.
  have hne : "expectedArtifacts" ≠ "inputArtifacts" := by decide
  rw [← field_mapAt_ne hne (amendItems InputArtifact.withoutAccount)] at h₃
  have h₃ := field_mapAt (Record.list_amendItems ExpectedArtifact.ofJson_withoutId) rfl h₃
  have h₄ := field_mapAt (Record.list_amendItems InputArtifact.ofJson_withoutAccount) rfl h₄
  simp only [Kind.withoutDerived, Function.comp_apply, decode, ne_eq, String.reduceEq,
    not_false_eq_true, field_mapAt_ne, h₁, h₂, h₃, h₄, h₅, h₆, h₇, h₈, h₉]
  rfl

theorem expand_blank (b : Bake) (h : Header) : b.blank.expand h = b.expand h := by
  simp [expand, blank, Function.comp_def]

theorem overwrites : codec.Overwrites (fun b h _ ↦ b.expand h) Kind.bake.withoutDerived where
  confines := (Codec.Confines.mapAt (by decide) _).comp (.mapAt (by decide) _)
  expands hd he := ⟨_, decode_withoutDerived hd, (expand_blank _ _).trans he⟩

end Bake

namespace Delete

theorem decode_erase {ms : Members} {d : Delete} (h : decode ms = .ok d) :
    decode (ms.erase "app") = .ok { d with app := none } := by
  simp only [decode, Except.bind_eq_ok_iff] at h
  obtain ⟨_, h₁, _, -, _, h₂, _, h₃, _, h₄, _, h₅, _, h₆, _, h₇, _, h₈, _, h₉, ⟨⟩⟩ := h
  simp only [decode, field_erase, ne_eq, String.reduceEq, not_false_eq_true, field_erase_ne, h₁, h₂,
    h₃, h₄, h₅, h₆, h₇, h₈, h₉]
  rfl

theorem overwrites :
    codec.Overwrites (fun d _ ctx ↦ .ok (d.expand ctx)) Kind.delete.withoutDerived where
  confines := .erase (by decide)
  expands hd he := ⟨_, decode_erase hd, he⟩

end Delete

namespace Deploy

theorem decode_erase {ms : Members} {d : Deploy} (h : decode ms = .ok d) :
    decode ((ms.erase "manifestArtifactId").erase "moniker") =
      .ok { d with moniker := {}, manifestArtifactId := "" } := by
  simp only [decode, Except.bind_eq_ok_iff] at h
  obtain ⟨_, h₁, _, h₂, _, h₃, _, -, _, -, _, h₄, _, h₅, _, h₆, ⟨⟩⟩ := h
  simp only [decode, field_erase, ne_eq, String.reduceEq, not_false_eq_true, field_erase_ne, h₁, h₂,
    h₃, h₄, h₅, h₆]
  rfl

theorem overwrites : codec.Overwrites expand Kind.deploy.withoutDerived where
  confines := (Codec.Confines.erase (by decide)).comp (.erase (by decide))
  expands hd he := by
    obtain ⟨id, hid, rfl⟩ := expand_eq_ok_iff.mp he
    exact ⟨_, decode_erase hd, expand_eq_ok_iff.mpr ⟨id, hid, rfl⟩⟩

end Deploy

namespace RunJob

theorem decode_erase {ms : Members} {j : RunJob} (h : decode ms = .ok j) :
    decode (ms.erase "manifestArtifactId") = .ok { j with manifestArtifactId := "" } := by
  simp only [decode, Except.bind_eq_ok_iff] at h
  obtain ⟨_, h₁, _, h₂, _, h₃, _, h₄, _, h₅, _, h₆, _, h₇, _, h₈, _, -, _, h₉, ⟨⟩⟩ := h
  simp only [decode, field_erase, ne_eq, String.reduceEq, not_false_eq_true, field_erase_ne, h₁, h₂,
    h₃, h₄, h₅, h₆, h₇, h₈, h₉]
  rfl

theorem overwrites : codec.Overwrites expand Kind.runJob.withoutDerived where
  confines := .erase (by decide)
  expands hd he := by
    obtain ⟨id, hid, rfl⟩ := expand_eq_ok_iff.mp he
    exact ⟨_, decode_erase hd, expand_eq_ok_iff.mpr ⟨id, hid, rfl⟩⟩

end RunJob

theorem Kind.exists_overwrites (k : Kind) :
    ∃ (σ : Type) (c : Codec σ) (expand : σ → Header → Context → Except Error σ),
      c.Lawful expand ∧ k.resolve = resolveAs c expand ∧ c.Overwrites expand k.withoutDerived := by
  cases k with
  | bake => exact ⟨_, _, _, Bake.lawful, rfl, Bake.overwrites⟩
  | delete => exact ⟨_, _, _, Delete.lawful, rfl, Delete.overwrites⟩
  | deploy => exact ⟨_, _, _, Deploy.lawful, rfl, Deploy.overwrites⟩
  | jenkins => exact ⟨_, _, _, Jenkins.lawful, rfl, Codec.overwrites_id _ _⟩
  | manualJudgment => exact ⟨_, _, _, ManualJudgment.lawful, rfl, Codec.overwrites_id _ _⟩
  | nestedPipeline => exact ⟨_, _, _, NestedPipeline.lawful, rfl, Codec.overwrites_id _ _⟩
  | runJob => exact ⟨_, _, _, RunJob.lawful, rfl, RunJob.overwrites⟩
  | wait => exact ⟨_, _, _, Wait.lawful, rfl, Codec.overwrites_id _ _⟩

/-- The flags of a policy, which follow from its phrase. -/
def Policy.flags : List String :=
  ["continuePipeline", "failPipeline", "completeOtherBranchesThenFail"]

def withoutFlags (raw : Members) : Members := raw.filter fun m ↦ m.1 ∉ Policy.flags

/-- The type that a stage names, weakly typed as it is. -/
def typeOf (raw : Members) : String := ((raw.get? "type").bind Coerce.scalarText?).getD ""

/-- A stage without its derived fields: the flags of its policy and those of its type. -/
def withoutDerived (raw : Members) : Members :=
  ((Kind.ofTypeName? (typeOf raw)).elim id Kind.withoutDerived) (withoutFlags raw)

theorem get?_withoutFlags (raw : Members) (key : String) :
    (withoutFlags raw).get? key = if key ∈ Policy.flags then none else raw.get? key :=
  get?_filter_not_mem Policy.flags raw key

theorem Policy.decode_unflagged {ms ms' : Members} {p : Policy} (h : decode ms = .ok p)
    (hphrase : ms'.get? "ifStageFails" = ms.get? "ifStageFails")
    (hflags : ∀ key ∈ flags, ms'.get? key = none) :
    ∃ p', decode ms' = .ok p' ∧ p'.apply = p.apply := by
  simp only [flags, List.forall_mem_cons] at hflags
  obtain ⟨hcontinue, hfail, hcomplete, -⟩ := hflags
  simp only [decode, Record.field_eq, Except.bind_eq_ok_iff] at h
  obtain ⟨_, -, _, -, _, -, o, ho, ⟨⟩⟩ := h
  refine ⟨{ ifStageFails := o }, ?_, rfl⟩
  simp only [decode, Record.field_eq, hcontinue, hfail, hcomplete, hphrase, ho]
  rfl

section Step

variable {σ : Type} {c : Codec σ} {expand : σ → Header → Context → Except Error σ}
  {f : Members → Members} {r : Registry} {ctx : Context} {seen : List String}
  {raw stage : Members} {refId : String}

theorem flags_claimed : ∀ key ∈ Policy.flags, key ∈ sharedFields := by decide

namespace Codec.Lawful

theorem not_mem_fields (hc : c.Lawful expand) {key : String} (h : key ∈ sharedFields) :
    key ∉ c.fields :=
  fun h' ↦ (List.nodup_append.mp hc.distinct).2.2 key h key h' rfl

theorem get?_unflagged (hc : c.Lawful expand) (hf : c.Confines f) {key : String}
    (h : key ∈ sharedFields) (raw : Members) :
    (f (withoutFlags raw)).get? key = if key ∈ Policy.flags then none else raw.get? key := by
  rw [hf.get? (hc.not_mem_fields h), get?_withoutFlags]

theorem header_unflagged (hc : c.Lawful expand) (hf : c.Confines f) (raw : Members) :
    Header.decode (f (withoutFlags raw)) = Header.decode raw := by
  have hall : ∀ key ∈ Header.fields, key ∈ sharedFields ∧ key ∉ Policy.flags := by decide
  apply Header.decode_congr
  intro key hkey
  rw [hc.get?_unflagged hf (hall key hkey).1, if_neg (hall key hkey).2]

theorem options_unflagged (hc : c.Lawful expand) (hf : c.Confines f) (raw : Members) :
    Options.decode (f (withoutFlags raw)) = Options.decode raw := by
  have hall : ∀ key ∈ Options.fields, key ∈ sharedFields ∧ key ∉ Policy.flags := by decide
  apply Options.decode_congr
  intro key hkey
  rw [hc.get?_unflagged hf (hall key hkey).1, if_neg (hall key hkey).2]

theorem policy_unflagged (hc : c.Lawful expand) (hf : c.Confines f) {p : Policy}
    (h : Policy.decode raw = .ok p) :
    ∃ p', Policy.decode (f (withoutFlags raw)) = .ok p' ∧ p'.apply = p.apply := by
  apply Policy.decode_unflagged h
  · rw [hc.get?_unflagged hf (by decide), if_neg (by decide)]
  · intro key hkey
    rw [hc.get?_unflagged hf (flags_claimed key hkey), if_pos hkey]

theorem decode_withoutFlags (hc : c.Lawful expand) (raw : Members) :
    c.decode (withoutFlags raw) = c.decode raw := by
  apply hc.decode_congr
  intro key hkey
  have hflag : key ∉ Policy.flags := fun h ↦ hc.not_mem_fields (flags_claimed key h) hkey
  rw [get?_withoutFlags, if_neg hflag]

theorem extra_unflagged (hf : c.Confines f) (raw : Members) :
    (f (withoutFlags raw)).filter (fun m ↦ !c.claims m.1) =
      raw.filter fun m ↦ !c.claims m.1 := by
  rw [hf.extra, withoutFlags, List.filter_filter]
  apply List.filter_congr
  intro m _
  by_cases hm : m.1 ∈ Policy.flags
  · have hclaimed : c.claims m.1 = true := by simp [Codec.claims, flags_claimed m.1 hm]
    simp [hclaimed]
  · simp [hm]

/-- A stage resolves to the same without its derived fields. -/
theorem resolveAs_unflagged (hc : c.Lawful expand) (hf : c.Overwrites expand f)
    (h : resolveAs c expand raw refId ctx = .ok stage) :
    resolveAs c expand (f (withoutFlags raw)) refId ctx = .ok stage := by
  obtain ⟨header, p, o, s₀, s, hh, hp, ho, hs₀, hs, rfl⟩ := resolveAs_eq_ok_iff.mp h
  -- The policy that is decoded now is another one, but `apply` sets the flags by the phrase.
  obtain ⟨p', hp', hpolicy⟩ := hc.policy_unflagged hf.confines hp
  rw [← hc.header_unflagged hf.confines] at hh
  rw [← hc.options_unflagged hf.confines] at ho
  rw [← hc.decode_withoutFlags] at hs₀
  obtain ⟨s₁, hs₁, hexpand⟩ := hf.expands hs₀ hs
  refine resolveAs_eq_ok_iff.mpr ⟨header, p', o, s₁, s, hh, hp', ho, hs₁, hexpand, ?_⟩
  rw [hpolicy, extra_unflagged hf.confines]

end Codec.Lawful

theorem typeOf_eq {header : Header} (h : Header.decode raw = .ok header) :
    typeOf raw = header.stageType := by
  obtain ⟨-, -, -, ht⟩ := Header.decode_eq_ok_iff.mp h
  rw [Record.field_eq] at ht
  rw [typeOf]
  cases hv : raw.get? "type" with
  | none =>
    rw [hv] at ht
    exact Except.ok.inj ht
  | some v =>
    rw [hv] at ht
    have htext := Coerce.orFault_eq_ok_iff.mp ht
    simp [htext]

theorem withoutDerived_eq {header : Header} {k : Kind} (h : Header.decode raw = .ok header)
    (hk : r.find? header.stageType = some k) :
    Stage.withoutDerived raw = k.withoutDerived (withoutFlags raw) := by
  -- A registry lists a kind under its own name, so the name alone decides what is derived.
  have hkind : Kind.ofTypeName? header.stageType = some k := by
    rw [← typeName_of_find? hk]
    cases k <;> decide
  rw [Stage.withoutDerived, typeOf_eq h, hkind]
  rfl

theorem resolveStage_withoutDerived (h : resolveStage r ctx seen raw = .ok (stage, refId)) :
    resolveStage r ctx seen (Stage.withoutDerived raw) = .ok (stage, refId) := by
  obtain ⟨header, k, hh, hrefId, hseen, hk, hout⟩ := resolveStage_eq_ok_iff.mp h
  obtain ⟨σ, c, expand, hc, hresolve, hf⟩ := k.exists_overwrites
  rw [withoutDerived_eq hh hk]
  rw [hresolve] at hout
  refine resolveStage_eq_ok_iff.mpr ⟨header, k, ?_, hrefId, hseen, hk, ?_⟩
  · rw [hc.header_unflagged hf.confines, hh]
  · rw [hresolve]
    exact hc.resolveAs_unflagged hf hout

end Step

section Run

variable {r : Registry} {application pipeline : String} {total : Nat}
  {raws done : List Members} {seen : List String}

theorem Resolved.withoutDerived (h : Resolved r application pipeline total raws done seen) :
    Resolved r application pipeline total (raws.map Stage.withoutDerived) done seen := by
  induction h with
  | nil => exact .nil
  | snoc h hs ih =>
    -- The stages before are resolved to the same, and nothing else of them is read from here on.
    rw [List.map_append, List.map_singleton]
    exact ih.snoc (resolveStage_withoutDerived hs)

/-- A pipeline resolves to the same without its derived fields, and so does each that differs from
it only there. -/
theorem derived_fields_overwritten (r : Registry) (application pipeline : String)
    (stages out : List Members) (h : resolve r application pipeline stages = .ok out) :
    resolve r application pipeline (stages.map Stage.withoutDerived) = .ok out ∧
    ∀ stages' out', stages'.map Stage.withoutDerived = stages.map Stage.withoutDerived →
      resolve r application pipeline stages' = .ok out' → out' = out := by
  have without (stages out : List Members) (h : resolve r application pipeline stages = .ok out) :
      resolve r application pipeline (stages.map Stage.withoutDerived) = .ok out := by
    obtain ⟨seen, h⟩ := resolve_eq_ok_iff.mp h
    refine resolve_eq_ok_iff.mpr ⟨seen, ?_⟩
    rw [List.length_map]
    exact h.withoutDerived
  refine ⟨without stages out h, ?_⟩
  intro stages' out' hsame h'
  have hout' := without stages' out' h'
  rw [hsame, without stages out h] at hout'
  exact (Except.ok.inj hout').symm

section Witness

/-- An artifact given as the list of its fields, and stages that state each kind of derived field. -/
def forgedStages : List Members :=
  [[("completeOtherBranchesThenFail", .bool true),
      ("expectedArtifacts", .arr [.obj [("displayName", .str "web"), ("id", .str "mine")],
        .arr [.null, .str "extra", .ofInt 7]]),
      ("inputArtifacts", .arr [.obj [("account", .str "git"),
        ("artifact", .obj [("artifactAccount", .str "other")])]]),
      ("name", .str "Bake"), ("refId", .str "b"), ("type", .str "bakeManifest")],
    [("bakeStageRefIds", .str " b "), ("manifestArtifactId", .str "mine"),
      ("moniker", .obj [("app", .str "bank")]), ("type", .str "deployManifest")],
    [("app", .str "bank"), ("failPipeline", .str "0"), ("type", .str "deleteManifest")]]

def plainStages : List Members :=
  [[("expectedArtifacts", .arr [.obj [("displayName", .str "web")], .arr [.null, .str "extra"]]),
      ("inputArtifacts", .arr [.obj [("account", .str "git"), ("artifact", .obj [])]]),
      ("name", .str "Bake"), ("refId", .str "b"), ("type", .str "bakeManifest")],
    [("bakeStageRefIds", .str " b "), ("type", .str "deployManifest")],
    [("type", .str "deleteManifest")]]

def derivedStages : List Members :=
  let anything := Json.obj [("artifactAccount", .str ""), ("name", .str ""), ("type", .str "")]
  let webId := Json.str "30cf175e-83a6-5de3-beb8-cbdbfa92454a"
  [[("completeOtherBranchesThenFail", .bool false), ("continuePipeline", .bool false),
      ("expectedArtifacts", .arr [
        .obj [("displayName", .str "web"), ("id", webId), ("matchArtifact", anything)],
        .obj [("displayName", .str "extra"), ("id", .str "39fd8051-3b97-5ed9-809e-3bc44518a1bc"),
          ("matchArtifact", anything)]]),
      ("failPipeline", .bool true),
      ("inputArtifacts", .arr [.obj [("account", .str "git"),
        ("artifact", .obj [("artifactAccount", .str "git"), ("name", .str ""), ("type", .str ""),
          ("version", .str "")])]]),
      ("name", .str "Bake"), ("namespace", .str ""), ("outputName", .str ""),
      ("refId", .str "b"), ("requisiteStageRefIds", .arr []), ("templateRenderer", .str ""),
      ("type", .str "bakeManifest")],
    [("bakeStageRefIds", .str " b "), ("cloudProvider", .str ""),
      ("completeOtherBranchesThenFail", .bool false), ("continuePipeline", .bool false),
      ("failPipeline", .bool true), ("manifestArtifactId", webId),
      ("moniker", .obj [("app", .str "shop")]), ("name", .str ""), ("namespaceOverride", .str ""),
      ("refId", .str "2"), ("requisiteStageRefIds", .arr []), ("source", .str ""),
      ("type", .str "deployManifest")],
    [("app", .str "shop"), ("completeOtherBranchesThenFail", .bool false),
      ("continuePipeline", .bool false), ("failPipeline", .bool true), ("name", .str ""),
      ("refId", .str "3"), ("requisiteStageRefIds", .arr []), ("type", .str "deleteManifest")]]

theorem derived_fields_overwritten_forged :
    resolve .builtin "shop" "release" forgedStages = .ok derivedStages ∧
    resolve .builtin "shop" "release" (forgedStages.map Stage.withoutDerived) =
      .ok derivedStages ∧
    plainStages ≠ forgedStages ∧
    plainStages.map Stage.withoutDerived = forgedStages.map Stage.withoutDerived ∧
    ∃ out, resolve .builtin "shop" "release" plainStages = .ok out ∧ out = derivedStages := by
  have hforged : resolve .builtin "shop" "release" forgedStages = .ok derivedStages := by
    decide +kernel
  have hsame : plainStages.map Stage.withoutDerived = forgedStages.map Stage.withoutDerived := by
    decide +kernel
  obtain ⟨out, hout⟩ : ∃ out, resolve .builtin "shop" "release" plainStages = .ok out :=
    ⟨derivedStages, by decide +kernel⟩
  obtain ⟨hwithout, hall⟩ :=
    derived_fields_overwritten .builtin "shop" "release" forgedStages derivedStages hforged
  exact ⟨hforged, hwithout, by decide +kernel, hsame, out, hout, hall _ _ hsame hout⟩

end Witness

end Run

end Stage

end DeliveryCharts
