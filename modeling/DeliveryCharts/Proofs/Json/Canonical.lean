import DeliveryCharts.Proofs.Json.Levels
import DeliveryCharts.Proofs.Text.Utf8

/-!
The canonical text of a tree. Two trees have one text just if they differ in the order of members
at most, and the text is read back as such a tree.
-/

namespace DeliveryCharts

namespace Members

variable {ms : Members}

/-- Where each key stands once, a member is what its key holds. -/
theorem get?_eq_some_iff (h : (ms.map Prod.fst).Nodup) {key : String} {v : Json} :
    ms.get? key = some v ↔ (key, v) ∈ ms := by
  refine ⟨mem_of_get?, fun hm ↦ ?_⟩
  induction ms with
  | nil => exact absurd hm List.not_mem_nil
  | cons m ms ih =>
    rw [List.map_cons, List.nodup_cons] at h
    rcases List.mem_cons.mp hm with rfl | hm
    · exact if_pos rfl
    · have hne : m.1 ≠ key := by
        intro he
        exact h.1 (he ▸ List.mem_map_of_mem (f := Prod.fst) hm)
      rw [get?, if_neg hne]
      exact ih h.2 hm

theorem get?_ofList_of_nodup (h : (ms.map Prod.fst).Nodup) (key : String) :
    (ofList ms).get? key = ms.get? key := by
  have hreverse : (ms.reverse.map Prod.fst).Nodup :=
    ((List.reverse_perm ms).map Prod.fst).nodup_iff.mpr h
  apply Option.ext
  intro v
  rw [get?_ofList, get?_eq_some_iff hreverse, get?_eq_some_iff h, List.mem_reverse]

end Members

namespace Json

/-- Objects have distinct keys, and numbers are integers of 64 bits. -/
inductive Plain : Json → Prop
  | null : Plain null
  | bool (b : Bool) : Plain (bool b)
  | int {z : Int} (h : Number.Fits (.int z)) : Plain (num (.int z))
  | str (s : String) : Plain (str s)
  | arr {vs : List Json} (h : ∀ v ∈ vs, Plain v) : Plain (arr vs)
  | obj {ms : Members} (hkeys : (ms.map Prod.fst).Nodup) (h : ∀ m ∈ ms, Plain m.2) :
      Plain (obj ms)

/-- The trees are the same but for the order of members. -/
inductive Alike : Json → Json → Prop
  | null : Alike null null
  | bool (b : Bool) : Alike (bool b) (bool b)
  | num (n : Number) : Alike (num n) (num n)
  | str (s : String) : Alike (str s) (str s)
  | arr {vs ws : List Json} (hlength : vs.length = ws.length)
      (h : ∀ (i : Nat) v w, vs[i]? = some v → ws[i]? = some w → Alike v w) : Alike (arr vs) (arr ws)
  | obj {ms ns : Members} (hkeys : ∀ key, ms.contains key = ns.contains key)
      (h : ∀ key v w, ms.get? key = some v → ns.get? key = some w → Alike v w) :
      Alike (obj ms) (obj ns)

theorem get?_canonicalMembers (ms : Members) (key : String) :
    Members.get? (canonicalMembers ms) key = (ms.get? key).map canonical := by
  induction ms with
  | nil => rfl
  | cons m ms ih =>
    obtain ⟨k, v⟩ := m
    rw [canonicalMembers, Members.get?, Members.get?, ih]
    split <;> rfl

theorem nodup_canonicalMembers {ms : Members} (h : (ms.map Prod.fst).Nodup) :
    ((canonicalMembers ms).map Prod.fst).Nodup := by
  rw [canonicalMembers_eq, List.map_map]
  exact h

/-- What the keys of an object hold in the canonical form. -/
theorem get?_canonical {ms : Members} (h : (ms.map Prod.fst).Nodup) (key : String) :
    (Members.ofList (canonicalMembers ms)).get? key = (ms.get? key).map canonical := by
  rw [Members.get?_ofList_of_nodup (nodup_canonicalMembers h), get?_canonicalMembers]

theorem mem_canonical {ms : Members} (h : (ms.map Prod.fst).Nodup) {m : String × Json} :
    m ∈ Members.ofList (canonicalMembers ms) ↔ ∃ v, (m.1, v) ∈ ms ∧ m.2 = v.canonical := by
  constructor
  · intro hm
    have hm := Members.mem_ofList hm
    rw [canonicalMembers_eq] at hm
    obtain ⟨⟨k, v⟩, hv, rfl⟩ := List.mem_map.mp hm
    exact ⟨v, hv, rfl⟩
  · rintro ⟨v, hm, hv⟩
    have hget := get?_canonical h m.1
    rw [(Members.get?_eq_some_iff h).mpr hm, Option.map_some, ← hv] at hget
    exact Members.mem_of_get? hget

section Plain

variable {a b : Json}

theorem Plain.canonical (h : a.Plain) : a.canonical.Plain := by
  induction h with
  | null => exact .null
  | bool b => exact .bool b
  | int h => exact .int h
  | str s => exact .str s
  | @arr vs h ih =>
    rw [Json.canonical, canonicalItems_eq]
    refine .arr fun v hv ↦ ?_
    obtain ⟨w, hw, rfl⟩ := List.mem_map.mp hv
    exact ih w hw
  | @obj ms hkeys h ih =>
    rw [Json.canonical]
    refine .obj ?_ fun m hm ↦ ?_
    · apply List.Pairwise.map _ _ (Members.sorted_ofList _)
      intro a b hlt
      exact String.ne_of_lt hlt
    · obtain ⟨v, hv, he⟩ := (mem_canonical hkeys).mp hm
      rw [he]
      exact ih _ hv

theorem Plain.levels_canonical_le (h : a.Plain) (n : Nat) :
    a.canonical.levels ≤ n ↔ a.levels ≤ n := by
  induction h generalizing n with
  | null | bool | int | str => exact Iff.rfl
  | @arr vs h ih =>
    rw [Json.canonical, canonicalItems_eq]
    cases n with
    | zero => simp [levels]
    | succ n =>
      rw [levels_arr_le, levels_arr_le, List.forall_mem_map]
      exact forall₂_congr fun v hv ↦ ih v hv n
  | @obj ms hkeys h ih =>
    rw [Json.canonical]
    cases n with
    | zero => simp [levels]
    | succ n =>
      rw [levels_obj_le, levels_obj_le]
      constructor
      · intro hle m hm
        exact (ih m hm n).mp (hle (m.1, m.2.canonical) ((mem_canonical hkeys).mpr ⟨_, hm, rfl⟩))
      · intro hle m hm
        obtain ⟨v, hv, he⟩ := (mem_canonical hkeys).mp hm
        rw [he]
        exact (ih _ hv n).mpr (hle _ hv)

theorem Plain.levels_canonical (h : a.Plain) : a.canonical.levels = a.levels :=
  Nat.le_antisymm ((h.levels_canonical_le _).mpr (Nat.le_refl _))
    ((h.levels_canonical_le _).mp (Nat.le_refl _))

theorem Plain.within_canonical (h : a.Plain) : a.canonical.Within a.levels := by
  induction h with
  | null => exact .null _
  | bool b => exact .bool _ b
  | int h => exact .num _ h
  | str s => exact .str _ s
  | @arr vs h ih =>
    rw [Json.canonical, canonicalItems_eq]
    refine .arr fun v hv ↦ ?_
    obtain ⟨w, hw, rfl⟩ := List.mem_map.mp hv
    exact (ih w hw).mono (levels_arr_le.mp (Nat.le_refl _) w hw)
  | @obj ms hkeys h ih =>
    rw [Json.canonical]
    refine .obj (Members.sorted_ofList _) fun m hm ↦ ?_
    obtain ⟨v, hv, he⟩ := (mem_canonical hkeys).mp hm
    rw [he]
    exact (ih _ hv).mono (levels_obj_le.mp (Nat.le_refl _) _ hv)

theorem Plain.isIntegral (h : a.Plain) : a.isIntegral = true := by
  induction h with
  | null | bool | int | str => rfl
  | arr h ih => exact isIntegral_arr.mpr ih
  | obj hkeys h ih => exact isIntegral_obj.mpr ih

theorem alike_of_canonical_eq (ha : a.Plain) (hb : b.Plain) (h : a.canonical = b.canonical) :
    Alike a b := by
  induction ha generalizing b with
  | null | bool | int | str =>
    cases hb <;> cases h
    constructor
  | @arr vs hvs ih =>
    cases hb with
    | @arr ws hws =>
      simp only [canonical, canonicalItems_eq, arr.injEq] at h
      refine .arr (by simpa using congrArg List.length h) fun i v w hv hw ↦ ?_
      have hi := congrArg (·[i]?) h
      simp only [List.getElem?_map, hv, hw, Option.map_some, Option.some.injEq] at hi
      exact ih v (List.mem_of_getElem? hv) (hws w (List.mem_of_getElem? hw)) hi
    | _ => cases h
  | @obj ms hkeys hms ih =>
    cases hb with
    | @obj ns hkeys' hns =>
      simp only [canonical, obj.injEq] at h
      have hget (key : String) : (ms.get? key).map canonical = (ns.get? key).map canonical := by
        rw [← get?_canonical hkeys, ← get?_canonical hkeys', h]
      refine .obj (fun key ↦ ?_) fun key v w hv hw ↦ ?_
      · simpa [Members.contains] using congrArg Option.isSome (hget key)
      · have hvw := hget key
        rw [hv, hw] at hvw
        exact ih _ (Members.mem_of_get? hv) (hns _ (Members.mem_of_get? hw))
          (Option.some.inj hvw)
    | _ => cases h

theorem Alike.canonical_eq (h : Alike a b) (ha : a.Plain) (hb : b.Plain) :
    a.canonical = b.canonical := by
  induction h with
  | null | bool | num | str => rfl
  | @arr vs ws hlength h ih =>
    cases ha with
    | arr hvs =>
      cases hb with
      | arr hws =>
        rw [canonical, canonical, canonicalItems_eq, canonicalItems_eq]
        refine congrArg Json.arr (List.ext_getElem (by simpa using hlength) fun i hi hi' ↦ ?_)
        rw [List.length_map] at hi hi'
        rw [List.getElem_map, List.getElem_map]
        exact ih i _ _ (List.getElem?_eq_getElem hi) (List.getElem?_eq_getElem hi')
          (hvs _ (List.getElem_mem hi)) (hws _ (List.getElem_mem hi'))
  | @obj ms ns hkeys h ih =>
    cases ha with
    | obj hnodup hms =>
      cases hb with
      | obj hnodup' hns =>
        rw [canonical, canonical]
        refine congrArg Json.obj (Members.ofList_congr fun key ↦ ?_)
        rw [get?_canonical hnodup, get?_canonical hnodup']
        have hkey := hkeys key
        rw [Members.contains, Members.contains] at hkey
        cases hv : ms.get? key with
        | none =>
          rw [hv] at hkey
          have hw : ns.get? key = none := by simpa using hkey.symm
          rw [hw]
        | some v =>
          rw [hv] at hkey
          obtain ⟨w, hw⟩ := Option.isSome_iff_exists.mp hkey.symm
          rw [hw, Option.map_some, Option.map_some,
            ih key v w hv hw (hms _ (Members.mem_of_get? hv)) (hns _ (Members.mem_of_get? hw))]

theorem Plain.alike_canonical (h : a.Plain) : Alike a.canonical a :=
  alike_of_canonical_eq h.canonical h h.within_canonical.canonical_eq

end Plain

section Bytes

/-- The bytes by which a tree is compared. -/
def canonicalBytes (v : Json) : Text.Bytes := Text.utf8String v.canonicalText

/-- The tree of some bytes. -/
def parseBytes (b : Text.Bytes) : Except TextFault Json := parseReceived (Text.received b)

variable {a b : Json} {n k : Nat}

theorem received_canonicalBytes (a : Json) :
    Text.received a.canonicalBytes = (prettyChars 0 a.canonical ++ ['\n']).map some := by
  rw [canonicalBytes, canonicalText, Text.utf8String, String.toList_ofList, Text.received_utf8]

/-- Trees of any number of levels are told apart by their texts: the one text is read as both. -/
theorem prettyChars_inj (ha : a.Within n) (hi : a.isIntegral = true) (hb : b.Within k)
    (hi' : b.isIntegral = true) (h : prettyChars 0 a = prettyChars 0 b) : a = b := by
  have hreads : Reader.ReadsAt (max n k + 1) a := Reader.readsAt_of_within ha hi (by omega)
  have hreads' : Reader.ReadsAt (max n k + 1) b := Reader.readsAt_of_within hb hi' (by omega)
  have hread := hreads (prettyChars 0 a).length 0 _ [some '\n'] (Nat.le_refl _) (.line [])
    (Reader.skipSpace_prettyChars hi 0 _)
  have hread' := hreads' (prettyChars 0 b).length 0 _ [some '\n'] (Nat.le_refl _) (.line [])
    (Reader.skipSpace_prettyChars hi' 0 _)
  rw [← h] at hread'
  cases hread.symm.trans hread'
  rfl

theorem parseBytes_canonicalBytes (h : a.Plain) :
    parseBytes a.canonicalBytes =
      if a.levels < Reader.maxDepth then .ok a.canonical else .error .tooDeep := by
  rw [parseBytes, received_canonicalBytes,
    parse_prettyChars h.within_canonical h.canonical.isIntegral, h.levels_canonical]

theorem canonicalBytes_eq_iff (ha : a.Plain) (hb : b.Plain) :
    a.canonicalBytes = b.canonicalBytes ↔ Alike a b := by
  constructor
  · intro h
    have hchars := congrArg Text.received h
    rw [received_canonicalBytes, received_canonicalBytes] at hchars
    have hpretty := List.append_cancel_right
      ((List.map_inj_right fun _ _ ↦ Option.some.inj).mp hchars)
    exact alike_of_canonical_eq ha hb (prettyChars_inj ha.within_canonical
      ha.canonical.isIntegral hb.within_canonical hb.canonical.isIntegral hpretty)
  · intro h
    rw [canonicalBytes, canonicalBytes, canonicalText, canonicalText, h.canonical_eq ha hb]

end Bytes

section Witness

/-- A list in lists. -/
def nest : Nat → Json
  | 0 => .arr []
  | n + 1 => .arr [nest n]

theorem plain_nest (n : Nat) : (nest n).Plain := by
  induction n with
  | zero => exact .arr nofun
  | succ n ih => exact .arr (by simpa using ih)

theorem levels_nest (n : Nat) : (nest n).levels = n + 1 := by
  induction n with
  | zero => rfl
  | succ n ih => simp [nest, levels, levelsItems, ih]

/-- An object in no order, of a list and an integer without a sign. -/
def unsorted : Json :=
  .obj [("waits", .ofInt 18446744073709551615), ("notes", .arr [.str "é\n", .null])]

def sorted : Json :=
  .obj [("notes", .arr [.str "é\n", .null]), ("waits", .ofInt 18446744073709551615)]

theorem plain_unsorted : unsorted.Plain ∧ sorted.Plain := by
  have hnotes : (Json.arr [.str "é\n", .null]).Plain :=
    .arr (List.forall_mem_cons.mpr ⟨.str _, List.forall_mem_cons.mpr ⟨.null, nofun⟩⟩)
  have hwaits : (Json.ofInt 18446744073709551615).Plain := .int (.inr (by decide))
  exact ⟨.obj (by decide) (by simpa using ⟨hwaits, hnotes⟩),
    .obj (by decide) (by simpa using ⟨hnotes, hwaits⟩)⟩

end Witness

end Json

end DeliveryCharts
