import DeliveryCharts.Proofs.Record
import DeliveryCharts.Stage.Basic

/-!
The fields that all stages share, written and read again. A record is normal when it is as reading
leaves it: no text that stands for no value, no number beyond 64 bits.
-/

namespace DeliveryCharts.Stage

open Json (Fault within_ofMembers)
open Members
open Record (field_eq)

namespace TimeRange

structure Normal (t : TimeRange) : Prop where
  startHour : Width.signed 64 t.startHour
  startMin : Width.signed 64 t.startMin
  endHour : Width.signed 64 t.endHour
  endMin : Width.signed 64 t.endMin

theorem normal_of_ofJson {v : Json} {t : TimeRange} (h : ofJson v = .ok t) : t.Normal := by
  obtain ⟨ms, h⟩ := Record.read_inv h
  simp only [decode, Except.bind_eq_ok_iff] at h
  obtain ⟨_, h₁, _, h₂, _, h₃, _, h₄, ⟨⟩⟩ := h
  exact ⟨Record.signed_of_int h₃, Record.signed_of_int h₄, Record.signed_of_int h₁,
    Record.signed_of_int h₂⟩

theorem ofJson_toJson {t : TimeRange} (h : t.Normal) : ofJson t.toJson = .ok t := by
  simp [ofJson, toJson, Record.read, Json.ofMembers, decode, field_eq, Coerce.int_ofInt,
    h.startHour, h.startMin, h.endHour, h.endMin]
  rfl

theorem within_toJson {t : TimeRange} (h : t.Normal) : t.toJson.Within 1 :=
  within_ofMembers (by simp [Json.within_ofInt, h.startHour, h.startMin, h.endHour, h.endMin])

end TimeRange

namespace Jitter

structure Normal (j : Jitter) : Prop where
  minDelay : ∀ z ∈ j.minDelay, Width.signed 64 z
  maxDelay : ∀ z ∈ j.maxDelay, Width.signed 64 z

theorem normal_of_ofJson {v : Json} {j : Jitter} (h : ofJson v = .ok j) : j.Normal := by
  obtain ⟨ms, h⟩ := Record.read_inv h
  simp only [decode, Except.bind_eq_ok_iff] at h
  obtain ⟨_, -, _, h₁, _, h₂, _, -, ⟨⟩⟩ := h
  exact ⟨Record.signed_of_optInt h₂, Record.signed_of_optInt h₁⟩

theorem ofJson_toJson {j : Jitter} (h : j.Normal) : ofJson j.toJson = .ok j := by
  simp [ofJson, toJson, Record.read, Json.ofMembers, decode, field_eq,
    Record.elim_optInt h.minDelay, Record.elim_optInt h.maxDelay]
  rfl

theorem within_toJson {j : Jitter} (h : j.Normal) : j.toJson.Within 1 :=
  within_ofMembers (by
    simpa using ⟨fun z hz ↦ Json.within_ofInt (h.minDelay z hz) 0,
      fun z hz ↦ Json.within_ofInt (h.maxDelay z hz) 0⟩)

end Jitter

namespace ExecutionWindow

structure Normal (w : ExecutionWindow) : Prop where
  days : ∀ z ∈ w.days, Width.signed 64 z
  whitelist : ∀ t ∈ w.whitelist, t.Normal
  jitter : ∀ j ∈ w.jitter, j.Normal

theorem normal_of_ofJson {v : Json} {w : ExecutionWindow} (h : ofJson v = .ok w) : w.Normal := by
  obtain ⟨ms, h⟩ := Record.read_inv h
  simp only [decode, Except.bind_eq_ok_iff] at h
  obtain ⟨_, h₁, _, h₂, _, h₃, ⟨⟩⟩ := h
  refine ⟨Record.signed_of_intList h₁, fun t ht ↦ ?_, fun j hj ↦ ?_⟩
  · obtain ⟨v, hv⟩ := Record.list_inv h₃ t ht
    exact TimeRange.normal_of_ofJson hv
  · obtain ⟨v, hv⟩ := Record.optional_inv h₂ j hj
    exact Jitter.normal_of_ofJson hv

theorem ofJson_toJson {w : ExecutionWindow} (h : w.Normal) : ofJson w.toJson = .ok w := by
  have hw := Record.elim_list fun t ht ↦ TimeRange.ofJson_toJson (h.whitelist t ht)
  have hj := Record.elim_optional fun j hj ↦
    ⟨Jitter.ofJson_toJson (h.jitter j hj), by simp [Jitter.toJson, Json.ofMembers]⟩
  simp [ofJson, toJson, Record.read, Json.ofMembers, decode, field_eq,
    Record.elim_intList h.days, hw, hj]
  rfl

theorem within_toJson {w : ExecutionWindow} (h : w.Normal) : w.toJson.Within 3 := by
  refine within_ofMembers ?_
  have hd : Members.Within 2 (Record.items "days" .ofInt w.days) :=
    Record.within_items fun z hz ↦ Json.within_ofInt (h.days z hz) 1
  have hw : Members.Within 2 (Record.items "whitelist" TimeRange.toJson w.whitelist) :=
    Record.within_items fun t ht ↦ TimeRange.within_toJson (h.whitelist t ht)
  simpa [hd, hw] using fun j hj ↦ (Jitter.within_toJson (h.jitter j hj)).mono (by omega)

end ExecutionWindow

namespace Enabled

theorem ofJson_toJson (e : Enabled) : ofJson e.toJson = .ok e := by
  simp [ofJson, toJson, Record.read, Json.ofMembers, decode, field_eq]
  rfl

theorem within_toJson (e : Enabled) : e.toJson.Within 1 := within_ofMembers (by simp)

end Enabled

namespace MessageText

theorem ofJson_toJson (m : MessageText) : ofJson m.toJson = .ok m :=
  Except.bind_eq_ok_iff.mpr ⟨_, Record.field_sole (Coerce.string_str m.text), rfl⟩

theorem within_toJson (m : MessageText) : m.toJson.Within 1 := within_ofMembers (by simp)

end MessageText

namespace NotificationMessage

theorem ofJson_toJson (m : NotificationMessage) : ofJson m.toJson = .ok m := by
  have hm (o : Option MessageText) := Record.elim_optional (o := o) fun t _ ↦
    ⟨MessageText.ofJson_toJson t, by simp [MessageText.toJson, Json.ofMembers]⟩
  simp [ofJson, toJson, Record.read, Json.ofMembers, decode, field_eq, Record.eitherField, hm]
  rfl

theorem within_toJson (m : NotificationMessage) : m.toJson.Within 2 :=
  within_ofMembers (by simp [MessageText.within_toJson])

end NotificationMessage

namespace Notification

structure Normal (n : Notification) : Prop where
  level : n.level ≠ some ""

theorem normal_of_ofJson {v : Json} {n : Notification} (h : ofJson v = .ok n) : n.Normal := by
  obtain ⟨ms, h⟩ := Record.read_inv h
  simp only [decode, Except.bind_eq_ok_iff] at h
  obtain ⟨_, -, _, h₁, _, -, _, -, _, -, ⟨⟩⟩ := h
  exact ⟨Record.ne_empty_of_optString h₁⟩

theorem ofJson_toJson {n : Notification} (h : n.Normal) : ofJson n.toJson = .ok n := by
  have hm := Record.elim_optional (o := n.message) fun m _ ↦
    ⟨NotificationMessage.ofJson_toJson m, by simp [NotificationMessage.toJson, Json.ofMembers]⟩
  simp [ofJson, toJson, Record.read, Json.ofMembers, decode, field_eq,
    Record.elim_optString h.level, hm]
  rfl

theorem within_toJson (n : Notification) : n.toJson.Within 3 := by
  refine within_ofMembers ?_
  have hw : Members.Within 2 (Record.items "when" .str n.events) :=
    Record.within_items fun s _ ↦ .str 1 s
  simp [hw, NotificationMessage.within_toJson]

end Notification

namespace Header

theorem decode_congr {ms ms' : Members} (h : ∀ key ∈ fields, ms.get? key = ms'.get? key) :
    decode ms = decode ms' := by
  simp only [fields, List.forall_mem_cons] at h
  simp only [decode, field_eq, h]

theorem decode_encode (h : Header) : decode (ofList h.encode) = .ok h := by
  simp [decode, encode, field_eq]
  rfl

theorem among_encode (h : Header) : Among fields h.encode := by simp [encode, fields]

theorem within_encode (h : Header) : Members.Within 1 h.encode := by simp [encode]

end Header

namespace OnFailure

theorem ofPhrase_phrase (c : OnFailure) : ofPhrase (some c.phrase) = c := by
  cases c <;> decide

end OnFailure

namespace Policy

theorem decode_congr {ms ms' : Members} (h : ∀ key ∈ fields, ms.get? key = ms'.get? key) :
    decode ms = decode ms' := by
  simp only [fields, List.forall_mem_cons] at h
  simp only [decode, field_eq, h]

theorem apply_apply (p : Policy) : p.apply.apply = p.apply := by
  cases h : p.ifStageFails with
  | none => simp [apply, h]
  | some s => simp [apply, h, OnFailure.ofPhrase_phrase]

theorem decode_encode_apply (p : Policy) : decode (ofList p.apply.encode) = .ok p.apply := by
  have h : p.apply.ifStageFails ≠ some "" := by
    cases hp : p.ifStageFails with
    | none => simp [apply, hp]
    | some s => cases hc : OnFailure.ofPhrase (some s) <;> simp [apply, hp, hc, OnFailure.phrase]
  simp [decode, encode, field_eq, Record.elim_optString h]
  rfl

theorem among_encode (p : Policy) : Among fields p.encode := by simp [encode, fields]

theorem within_encode (p : Policy) : Members.Within 1 p.encode := by simp [encode]

end Policy

namespace Options

structure Normal (o : Options) : Prop where
  executionWindow : ∀ w ∈ o.executionWindow, w.Normal
  skipWindowText : o.skipWindowText ≠ some ""
  timeoutMs : ∀ z ∈ o.timeoutMs, Width.signed 64 z
  notifications : ∀ n ∈ o.notifications, n.Normal
  comments : o.comments ≠ some ""

theorem decode_congr {ms ms' : Members} (h : ∀ key ∈ fields, ms.get? key = ms'.get? key) :
    decode ms = decode ms' := by
  simp only [fields, List.forall_mem_cons] at h
  simp only [decode, field_eq, h]

theorem normal_of_decode {ms : Members} {o : Options} (h : decode ms = .ok o) : o.Normal := by
  simp only [decode, Except.bind_eq_ok_iff] at h
  obtain ⟨_, h₁, _, -, _, h₂, _, -, _, h₃, _, -, _, h₄, _, -, _, h₅, ⟨⟩⟩ := h
  refine ⟨fun w hw ↦ ?_, Record.ne_empty_of_optString h₄, Record.signed_of_optInt h₅,
    fun n hn ↦ ?_, Record.ne_empty_of_optString h₁⟩
  · obtain ⟨v, hv⟩ := Record.optional_inv h₃ w hw
    exact ExecutionWindow.normal_of_ofJson hv
  · obtain ⟨v, hv⟩ := Record.list_inv h₂ n hn
    exact Notification.normal_of_ofJson hv

theorem decode_encode {o : Options} (h : o.Normal) : decode (ofList o.encode) = .ok o := by
  have hw := Record.elim_optional fun w hw ↦
    ⟨ExecutionWindow.ofJson_toJson (h.executionWindow w hw),
      by simp [ExecutionWindow.toJson, Json.ofMembers]⟩
  have he := Record.elim_optional (o := o.enabled) fun e _ ↦
    ⟨Enabled.ofJson_toJson e, by simp [Enabled.toJson, Json.ofMembers]⟩
  have hn := Record.elim_list fun n hn ↦ Notification.ofJson_toJson (h.notifications n hn)
  simp [decode, encode, field_eq, hw, he, hn, Record.elim_optString h.skipWindowText,
    Record.elim_optString h.comments, Record.elim_optInt h.timeoutMs]
  rfl

theorem among_encode (o : Options) : Among fields o.encode := by simp [encode, fields]

theorem within_encode {o : Options} (h : o.Normal) : Members.Within 4 o.encode := by
  have hw (w : ExecutionWindow) (hw : w ∈ o.executionWindow) : w.toJson.Within 4 :=
    (ExecutionWindow.within_toJson (h.executionWindow w hw)).mono (by omega)
  have he (e : Enabled) (_ : e ∈ o.enabled) : e.toJson.Within 4 :=
    e.within_toJson.mono (by omega)
  have hn : Members.Within 4 (Record.items "notifications" Notification.toJson o.notifications) :=
    Record.within_items fun n _ ↦ n.within_toJson
  have ht (z : Int) (hz : z ∈ o.timeoutMs) := Json.within_ofInt (h.timeoutMs z hz) 4
  simpa [encode, hn, and_assoc] using ⟨hw, ht, he⟩

end Options

end DeliveryCharts.Stage
