import DeliveryCharts.Proofs.Stage.Shared
import DeliveryCharts.Stage.Resolve

/-!
A stage that is written and read again. The groups of fields have no key in common, so each group
finds its own members in what is written, and a stage that has been resolved resolves to itself.
-/

namespace DeliveryCharts.Stage

open Json (Fault)
open Members

variable {σ : Type}

/-- The type of a stage reads what it writes up to fields that its expansion fills in again. -/
structure Codec.Lawful (c : Codec σ) (expand : σ → Header → Context → Except Error σ) : Prop where
  distinct : (sharedFields ++ c.fields).Nodup
  decode_congr {ms ms' : Members} :
    (∀ key ∈ c.fields, ms.get? key = ms'.get? key) → c.decode ms = c.decode ms'
  among_encode (s : σ) : Among c.fields (c.encode s)
  again {ms : Members} {s₀ s : σ} {h : Header} {ctx : Context} :
    c.decode ms = .ok s₀ → expand s₀ h ctx = .ok s →
      ∃ s₁ s₂, c.decode (ofList (c.encode s)) = .ok s₁ ∧ expand s₁ h ctx = .ok s₂ ∧
        c.encode s₂ = c.encode s
  within {n : Nat} {ms : Members} {s₀ s : σ} {h : Header} {ctx : Context} :
    4 ≤ n → ms.Within n → c.decode ms = .ok s₀ → expand s₀ h ctx = .ok s →
      Members.Within n (c.encode s)

namespace Codec.Lawful

variable {c : Codec σ} {expand : σ → Header → Context → Except Error σ}

/-- What a key holds in a written stage is decided by the group that it belongs to. -/
theorem get?_write (hc : c.Lawful expand) (s : Stage σ)
    (hs : ∀ m ∈ s.extra, c.claims m.1 = false) (key : String) :
    (c.write s).get? key =
      if key ∈ Header.fields then (ofList s.header.encode).get? key
      else if key ∈ Policy.fields then (ofList s.policy.encode).get? key
      else if key ∈ Options.fields then (ofList s.options.encode).get? key
      else if key ∈ c.fields then (ofList (c.encode s.spec)).get? key
      else (ofList s.extra).get? key := by
  have hextra (h : key ∈ sharedFields ++ c.fields) : (ofList s.extra).get? key = none := by
    refine get?_ofList_eq_none fun m hm he ↦ ?_
    have hm := hs m hm
    simp [Codec.claims, he, h] at hm
  have hheader (h : key ∉ Header.fields) := (Header.among_encode s.header).get?_eq_none h
  have hpolicy (h : key ∉ Policy.fields) := (Policy.among_encode s.policy).get?_eq_none h
  have hoptions (h : key ∉ Options.fields) := (Options.among_encode s.options).get?_eq_none h
  have hspec (h : key ∉ c.fields) := (hc.among_encode s.spec).get?_eq_none h
  have hd := hc.distinct
  simp only [sharedFields, List.nodup_append, List.mem_append] at hd hextra
  simp only [Codec.write, get?_ofList_append]
  grind

variable (hc : c.Lawful expand) (s : Stage σ) (hs : ∀ m ∈ s.extra, c.claims m.1 = false)

include hc hs

theorem get?_write_header {key : String} (hkey : key ∈ Header.fields) :
    (c.write s).get? key = (ofList s.header.encode).get? key := by
  rw [hc.get?_write s hs, if_pos hkey]

theorem get?_write_spec {key : String} (hkey : key ∈ c.fields) :
    (c.write s).get? key = (ofList (c.encode s.spec)).get? key := by
  have hd := hc.distinct
  rw [hc.get?_write s hs]
  simp only [sharedFields, List.nodup_append, List.mem_append] at hd
  grind

theorem get?_write_policy {key : String} (hkey : key ∈ Policy.fields) :
    (c.write s).get? key = (ofList s.policy.encode).get? key := by
  have hd := hc.distinct
  rw [hc.get?_write s hs]
  simp only [sharedFields, List.nodup_append, List.mem_append] at hd
  grind

theorem header_write : Header.decode (c.write s) = .ok s.header := by
  rw [← Header.decode_encode s.header]
  exact Header.decode_congr fun key ↦ hc.get?_write_header s hs

theorem policy_write : Policy.decode (c.write s) = Policy.decode (ofList s.policy.encode) :=
  Policy.decode_congr fun _ ↦ hc.get?_write_policy s hs

theorem options_write : Options.decode (c.write s) = Options.decode (ofList s.options.encode) := by
  have hd := hc.distinct
  refine Options.decode_congr fun key hkey ↦ ?_
  rw [hc.get?_write s hs]
  simp only [sharedFields, List.nodup_append, List.mem_append] at hd
  grind

theorem decode_write : c.decode (c.write s) = c.decode (ofList (c.encode s.spec)) :=
  hc.decode_congr fun _ ↦ hc.get?_write_spec s hs

theorem extra_write : (c.write s).filter (fun m ↦ !c.claims m.1) = ofList s.extra := by
  have hsorted : (c.write s).Sorted := sorted_ofList _
  refine (hsorted.filter _).ext (sorted_ofList _) fun key ↦ ?_
  rw [get?_filter fun key ↦ !c.claims key, hc.get?_write s hs]
  cases hkey : c.claims key with
  | true =>
    refine (get?_ofList_eq_none fun m hm he ↦ ?_).symm
    rw [← he, hs m hm] at hkey
    cases hkey
  | false =>
    simp only [Codec.claims, sharedFields, List.mem_append, decide_eq_false_iff_not, not_or] at hkey
    simp [hkey]

end Codec.Lawful

theorem Codec.Lawful.read_write {c : Codec σ} {expand : σ → Header → Context → Except Error σ}
    (hc : c.Lawful expand) {h : Header} {p : Policy} {o : Options} {s s' : σ} {extra : Members}
    (ho : o.Normal) (hextra : ∀ m ∈ extra, c.claims m.1 = false)
    (hs : c.decode (ofList (c.encode s)) = .ok s') :
    c.read (c.write ⟨h, p.apply, o, s, extra⟩) = .ok ⟨h, p.apply, o, s', ofList extra⟩ := by
  rw [Codec.read, hc.header_write _ hextra, hc.policy_write _ hextra,
    Policy.decode_encode_apply, hc.options_write _ hextra, Options.decode_encode ho,
    hc.decode_write _ hextra, hs, hc.extra_write _ hextra]
  rfl

theorem resolveAs_eq_ok_iff {c : Codec σ} {expand : σ → Header → Context → Except Error σ}
    {raw : Members} {refId : String} {ctx : Context} {out : Members} :
    resolveAs c expand raw refId ctx = .ok out ↔
      ∃ h p o s₀ s, Header.decode raw = .ok h ∧ Policy.decode raw = .ok p ∧
        Options.decode raw = .ok o ∧ c.decode raw = .ok s₀ ∧
        expand s₀ { h with refId } ctx = .ok s ∧
        out = c.write ⟨{ h with refId }, p.apply, o, s, raw.filter fun m ↦ !c.claims m.1⟩ := by
  simp only [resolveAs, Codec.read, Context.lift, Except.bind_eq_ok_iff,
    Except.mapError_eq_ok_iff]
  constructor
  · rintro ⟨_, ⟨h, hh, p, hp, o, ho, s₀, hs₀, ⟨⟩⟩, s, hs, ⟨⟩⟩
    exact ⟨h, p, o, s₀, s, hh, hp, ho, hs₀, hs, rfl⟩
  · rintro ⟨h, p, o, s₀, s, hh, hp, ho, hs₀, hs, rfl⟩
    exact ⟨_, ⟨h, hh, p, hp, o, ho, s₀, hs₀, rfl⟩, s, hs, rfl⟩

theorem unclaimed_extra (c : Codec σ) (raw : Members) :
    ∀ m ∈ raw.filter (fun m ↦ !c.claims m.1), c.claims m.1 = false := by
  simp

/-- A stage that has been resolved resolves to itself. -/
theorem Codec.Lawful.resolveAs_again {c : Codec σ}
    {expand : σ → Header → Context → Except Error σ} (hc : c.Lawful expand) {raw out : Members}
    {refId : String} {ctx : Context} (h : resolveAs c expand raw refId ctx = .ok out) :
    resolveAs c expand out refId ctx = .ok out := by
  obtain ⟨h, p, o, s₀, s, hh, hp, ho, hs₀, hs, rfl⟩ := resolveAs_eq_ok_iff.mp h
  have hextra := unclaimed_extra c raw
  obtain ⟨s₁, s₂, hs₁, hs₂, he⟩ := hc.again hs₀ hs
  refine resolveAs_eq_ok_iff.mpr ⟨_, p.apply, o, s₁, s₂, hc.header_write _ hextra, ?_, ?_, ?_,
    hs₂, ?_⟩
  · rw [hc.policy_write _ hextra, Policy.decode_encode_apply]
  · rw [hc.options_write _ hextra, Options.decode_encode (Options.normal_of_decode ho)]
  · rw [hc.decode_write _ hextra, hs₁]
  · rw [hc.extra_write _ hextra, Policy.apply_apply]
    simp only [Codec.write, he, ofList_append_ofList]

end DeliveryCharts.Stage
