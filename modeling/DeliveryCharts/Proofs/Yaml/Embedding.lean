import DeliveryCharts.Proofs.Json.Levels
import DeliveryCharts.Proofs.Yaml.Indentation

/-!
A tree that is written, moved to the right and put behind a key is read as it was.
-/

namespace DeliveryCharts.Yaml

open Writer (Style inline items entries styleOf isPrintable)

variable {α β γ : Type} {n : Nat} {v : Json} {vs : List Json} {ms : List (String × Json)}

/-! The node. -/

/-- Below a key at the start of the text, the text `w` is read as the node. -/
def Below (n : Nat) (node : Node) (w : List Char) : Prop :=
  ∃ t, StartsToken t ∧ Moves n true w (Writer.spaces n ++ t) ∧
    ∀ (handles : Handles) {fuel : Nat} {c : Cursor}, 4 * t.length + 3 ≤ fuel → AtToken n t c →
      ∃ next, blockNode handles fuel 1 true c = .ok (node, next) ∧ Behind c.line [] next

theorem below_of_leaf {cs : List Char} {node : Node} (hn : 0 < n) (h : Inline cs node)
    (hline : OneLine cs) : Below n node (cs ++ ['\n']) := by
  have hleaf := h.leaf 0
  refine ⟨cs ++ ['\n'], hleaf.starts, ?_, ?_⟩
  · have hmoves : Moves n false (cs ++ ['\n']) (cs ++ ['\n']) := Moves.ended hline
    simpa [Writer.spaces] using hmoves.spaces hleaf.starts 0
  · intro handles fuel c hfuel hc
    obtain ⟨k, rfl⟩ : ∃ k, fuel = k + 3 := ⟨fuel - 3, by omega⟩
    exact hleaf.read handles k (by rw [hc.rest, List.append_nil]) (by rw [hc.col]; exact hn) .nil

theorem below_of_items {w : List Char} (hn : 0 < n) (h : Places n 0 (.items (itemNodes vs)) w) :
    Below n (nodeOf (.arr vs)) w := by
  obtain ⟨t, ht, hmoves⟩ := h
  refine ⟨t, startsToken_of_items ht, hmoves.spaces (startsToken_of_items ht) 0, ?_⟩
  intro handles fuel c hfuel hc
  exact (ht.reads hn).node_of_items hn ht.starts hfuel (.inl hn) (by rwa [List.append_nil]) .nil
    handles

theorem below_of_entries {w : List Char} (hn : 0 < n)
    (h : Places n 0 (.entries (entryNodes ms)) w) : Below n (nodeOf (.obj ms)) w := by
  obtain ⟨t, ht, hmoves⟩ := h
  refine ⟨t, ht.starts.startsToken, hmoves.spaces ht.starts.startsToken 0, ?_⟩
  intro handles fuel c hfuel hc
  exact (ht.reads hn).2 handles true hfuel (by rwa [List.append_nil]) hn
    (Onward.nil : Onward n false [])

/-- A list or an object. -/
def IsCollection (v : Json) : Prop := (∃ vs, v = .arr vs) ∨ ∃ ms, v = .obj ms

theorem below_document {d : Nat} (hv : v.Within d) (hint : v.isIntegral = true)
    (htexts : v.allTexts keepsSeparators = true) (hcollection : IsCollection v) (hn : 0 < n) :
    Below n (nodeOf v) (Writer.document v) := by
  obtain ⟨vs, rfl⟩ | ⟨ms, rfl⟩ := hcollection
  · obtain ⟨d, -, hvs⟩ := hv.arr_inv
    have hall : ∀ v ∈ vs, PlacesAll n v := fun v hv ↦
      placesAll (hvs v hv) (Json.isIntegral_arr.mp hint v hv) (Json.allTexts_arr.mp htexts v hv) n
    cases vs with
    | nil => exact below_of_leaf hn inline_items (by decide)
    | cons v vs =>
      obtain ⟨hfirst, hmore⟩ := List.forall_mem_cons.mp hall
      have hitems := below_of_items hn (places_items hfirst hmore 0)
      rw [Writer.document, items]
      simpa [Writer.spaces] using hitems
  · obtain ⟨-, d, -, hms⟩ := hv.obj_inv
    have hall : ∀ m ∈ ms, keepsSeparators m.1 = true ∧ PlacesAll n m.2 := fun m hm ↦
      ⟨(Json.allTexts_obj.mp htexts m hm).1, placesAll (hms m hm) (Json.isIntegral_obj.mp hint m hm)
        (Json.allTexts_obj.mp htexts m hm).2 n⟩
    cases ms with
    | nil => exact below_of_leaf hn inline_entries (by decide)
    | cons m ms =>
      obtain ⟨⟨hkey, hfirst⟩, hmore⟩ := List.forall_mem_cons.mp hall
      have hentries := below_of_entries hn (places_entries hkey hfirst hmore 0)
      rw [Writer.document, entries]
      simpa [Writer.spaces, entryText] using hentries

/-- The value of the key is the node. -/
theorem Below.blockValue_eq {w : List Char} {node : Node} (h : Below n node w) (handles : Handles)
    {fuel : Nat} (hfuel : 4 * ('\n' :: shift n true w).length ≤ fuel) :
    ∃ next, blockValue handles fuel 1 (behindKey ('\n' :: shift n true w)) = .ok (node, next) ∧
      (next.skip false).rest = [] := by
  obtain ⟨t, ht, hmoves, hread⟩ := h
  have hshift : shift n true w = Writer.spaces n ++ t := by
    have heq := hmoves.shift_eq []
    simpa [shift] using heq
  rw [hshift] at hfuel ⊢
  rw [List.length_cons, List.length_append] at hfuel
  obtain ⟨fuel, rfl⟩ : ∃ k, fuel = k + 1 := ⟨fuel - 1, by omega⟩
  obtain ⟨hc, -⟩ := skip_below (c := behindKey ('\n' :: (Writer.spaces n ++ t))) rfl ht
  obtain ⟨next, hnode, hbehind⟩ := hread handles (show _ ≤ fuel by omega) hc
  exact ⟨next, by rw [blockValue.eq_2, hnode], hbehind.atEnd.1⟩

theorem isPrintable_of_mem_shift {cs : List Char} (h : ∀ ch ∈ cs, isPrintable ch = true) (n : Nat)
    (atStart : Bool) : ∀ ch ∈ shift n atStart cs, isPrintable ch = true := by
  induction cs generalizing atStart with
  | nil => exact fun _ hd ↦ absurd hd List.not_mem_nil
  | cons ch cs ih =>
    obtain ⟨hch, hcs⟩ := List.forall_mem_cons.mp h
    rw [shift]
    split
    · exact List.forall_mem_cons.mpr ⟨by decide, ih hcs true⟩
    · refine List.forall_mem_append.mpr ⟨fun d hd ↦ ?_, List.forall_mem_cons.mpr ⟨hch, ih hcs false⟩⟩
      split at hd
      · exact (oneLine_spaces n d hd).1
      · exact absurd hd List.not_mem_nil

theorem Below.isPrintable {w : List Char} {node : Node} (h : Below n node w) :
    ∀ ch ∈ w, Writer.isPrintable ch = true := by
  obtain ⟨_, -, hmoves, -⟩ := h
  exact hmoves.printable

/-- The document is read up to the values of its scalars. -/
theorem Below.parse_eq {w : List Char} {node : Node} (h : Below n node w) :
    parse (.ofList ('k' :: ':' :: '\n' :: shift n true w)) =
      Graph.ofNode (.map {} [(.scalar {} true "k", node)]) >>= Graph.toJson := by
  obtain ⟨next, hvalue, hend⟩ := h.blockValue_eq defaultHandles (Nat.le_add_right _ 23)
  obtain ⟨t, -, hmoves, -⟩ := h
  refine parse_entry rfl hend hvalue (List.forall_mem_cons.mpr ⟨rfl, fun ch hch ↦ ?_⟩)
  exact isAllowed_of_isPrintable (isPrintable_of_mem_shift hmoves.printable n true ch hch)

/-! The values. -/

/-- What a tree is read as, where collections may be nested `depth` deep. -/
def admitted (depth : Nat) (levels : Nat) (x : α) : Graph.Walk α :=
  if levels ≤ depth then pure x else throw .tooDeep

theorem admitted_of_le {depth levels : Nat} (h : levels ≤ depth) (x : α) :
    admitted depth levels x = pure x := if_pos h

theorem admitted_of_not_le {depth levels : Nat} (h : ¬ levels ≤ depth) (x : α) :
    admitted depth levels x = throw .tooDeep := if_neg h

theorem admitted_bind (depth k l : Nat) (x : α) (y : β) (f : α → β → γ) :
    (do let a ← admitted depth k x; let b ← admitted depth l y; return f a b) =
      admitted depth (max k l) (f x y) := by
  by_cases hk : k ≤ depth
  · by_cases hl : l ≤ depth
    · rw [admitted_of_le hk, admitted_of_le hl, admitted_of_le (Nat.max_le.mpr ⟨hk, hl⟩), pure_bind,
        pure_bind]
    · rw [admitted_of_le hk, admitted_of_not_le hl, admitted_of_not_le fun h ↦ hl (Nat.max_le.mp h).2]
      rfl
  · rw [admitted_of_not_le hk, admitted_of_not_le fun h ↦ hk (Nat.max_le.mp h).1]
    rfl

/-- A collection takes up a level. -/
theorem admitted_succ (depth levels : Nat) (x : α) (f : α → β) :
    (do return f (← admitted depth levels x)) = admitted (depth + 1) (levels + 1) (f x) := by
  by_cases h : levels ≤ depth
  · rw [admitted_of_le h, admitted_of_le (Nat.succ_le_succ h), pure_bind]
  · rw [admitted_of_not_le h, admitted_of_not_le (mt Nat.le_of_succ_le_succ h)]
    rfl

/-- The node has no anchors, and the tree `v` is its value. -/
def Stands (node : Node) (v : Json) : Prop :=
  ∃ t, (∀ names, Graph.number names node = .ok (t, names, [])) ∧
    ∀ (g : Graph) (depth : Nat), g.valueOf depth t = admitted depth v.levels v

theorem stands_scalar {isPlain : Bool} {s : String} (h : scalarValue none isPlain s = .ok v)
    (hlevels : v.levels = 0) : Stands (.scalar {} isPlain s) v := by
  refine ⟨.scalar none isPlain s, fun _ ↦ rfl, fun g depth ↦ ?_⟩
  have hvalue : g.valueOf depth (.scalar none isPlain s) = liftM (scalarValue none isPlain s) := by
    cases depth <;> rw [Graph.valueOf] <;> rfl
  rw [hvalue, h, hlevels, admitted_of_le (Nat.zero_le depth)]
  rfl

theorem stands_text (s : String) : Stands (textNode s) (.str s) := by
  refine stands_scalar ?_ rfl
  by_cases hstyle : styleOf s = Style.plain
  · rw [decide_eq_true hstyle]
    exact (inlineKey_plain hstyle 0).2
  · rw [decide_eq_false hstyle]
    rfl

theorem stands_items (h : ∀ v ∈ vs, Stands (nodeOf v) v) :
    ∃ ts, (∀ names, Graph.numberItems names (itemNodes vs) = .ok (ts, names, [])) ∧
      ∀ (g : Graph) (depth : Nat),
        ts.mapM (g.valueOf depth) = admitted depth (Json.levelsItems vs) vs := by
  induction vs with
  | nil => exact ⟨[], fun _ ↦ rfl, fun _ depth ↦ (admitted_of_le (Nat.zero_le depth) []).symm⟩
  | cons v vs ih =>
    obtain ⟨hv, hvs⟩ := List.forall_mem_cons.mp h
    obtain ⟨t, hnumber, hvalue⟩ := hv
    obtain ⟨ts, hnumbers, hvalues⟩ := ih hvs
    refine ⟨t :: ts, fun names ↦ ?_, fun g depth ↦ ?_⟩
    · rw [itemNodes, Graph.numberItems, hnumber]
      simp only [bind, Except.bind, hnumbers]
      rfl
    · rw [List.mapM_cons, hvalue, hvalues, Json.levelsItems]
      exact admitted_bind depth _ _ v vs List.cons

/-- What an entry of a map is read as. -/
def entryValue (g : Graph) (depth : Nat) (e : Tree × Tree) : Graph.Walk (String × Json) := do
  let key ← g.keyText e.1
  return (key, ← g.valueOf depth e.2)

theorem stands_entries (h : ∀ m ∈ ms, Stands (nodeOf m.2) m.2) :
    ∃ es, (∀ names, Graph.numberEntries names (entryNodes ms) = .ok (es, names, [])) ∧
      ∀ (g : Graph) (depth : Nat),
        es.mapM (entryValue g depth) = admitted depth (Json.levelsMembers ms) ms := by
  induction ms with
  | nil => exact ⟨[], fun _ ↦ rfl, fun _ depth ↦ (admitted_of_le (Nat.zero_le depth) []).symm⟩
  | cons m ms ih =>
    obtain ⟨k, v⟩ := m
    obtain ⟨hv, hms⟩ := List.forall_mem_cons.mp h
    obtain ⟨t, hnumber, hvalue⟩ := hv
    obtain ⟨es, hnumbers, hvalues⟩ := ih hms
    refine ⟨(.scalar none (decide (styleOf k = .plain)) k, t) :: es, fun names ↦ ?_,
      fun g depth ↦ ?_⟩
    · have hkey : Graph.number names (textNode k) =
          .ok (.scalar none (decide (styleOf k = .plain)) k, names, []) := rfl
      rw [entryNodes, Graph.numberEntries, hkey]
      simp only [bind, Except.bind, hnumber, hnumbers]
      rfl
    · have hentry : entryValue g depth (.scalar none (decide (styleOf k = .plain)) k, t) =
          (do return (k, ← admitted depth v.levels v)) := by
        rw [entryValue, hvalue]
        rfl
      rw [List.mapM_cons, hentry, hvalues, Json.levelsMembers, bind_assoc]
      exact admitted_bind depth _ _ v ms fun v ms ↦ (k, v) :: ms

theorem stands_list (h : ∀ v ∈ vs, Stands (nodeOf v) v) : Stands (nodeOf (.arr vs)) (.arr vs) := by
  obtain ⟨ts, hnumber, hvalues⟩ := stands_items h
  refine ⟨.seq none ts, fun names ↦ ?_, fun g depth ↦ ?_⟩
  · rw [nodeOf, Graph.number]
    show (Graph.numberItems names (itemNodes vs) >>= _) = _
    rw [hnumber]
    rfl
  · cases depth with
    | zero =>
      rw [Graph.valueOf]
      rfl
    | succ depth =>
      rw [Graph.valueOf]
      show (ts.mapM (g.valueOf depth) >>= fun vs ↦ pure (Json.arr vs)) = _
      rw [hvalues]
      exact admitted_succ depth _ vs Json.arr

theorem stands_map (hsorted : Members.Sorted ms) (h : ∀ m ∈ ms, Stands (nodeOf m.2) m.2) :
    Stands (nodeOf (.obj ms)) (.obj ms) := by
  obtain ⟨es, hnumber, hvalues⟩ := stands_entries h
  refine ⟨.map none es, fun names ↦ ?_, fun g depth ↦ ?_⟩
  · rw [nodeOf, Graph.number]
    show (Graph.numberEntries names (entryNodes ms) >>= _) = _
    rw [hnumber]
    rfl
  · cases depth with
    | zero =>
      rw [Graph.valueOf]
      rfl
    | succ depth =>
      rw [Graph.valueOf]
      show (es.mapM (entryValue g depth) >>= fun ms ↦ pure (Json.ofMembers ms)) = _
      rw [hvalues, admitted_succ depth _ ms Json.ofMembers, Json.ofMembers, hsorted.ofList_eq]
      rfl

/-- A tree of integers is the value of the node that is written for it. -/
theorem stands_nodeOf {d : Nat} (hv : v.Within d) (hint : v.isIntegral = true) :
    Stands (nodeOf v) v := by
  induction hv with
  | null => exact stands_scalar rfl rfl
  | bool d b => exact stands_scalar (by cases b <;> rfl) rfl
  | @num d x hfits =>
    cases x with
    | int z =>
      have hvalue : scalarValue none true (Text.ofInt z) = .ok (.ofInt z) := plainValue_ofInt hfits
      exact stands_scalar hvalue rfl
    | float x => cases hint
  | str d s => exact stands_text s
  | arr _ ih => exact stands_list fun v hv ↦ ih v hv (Json.isIntegral_arr.mp hint v hv)
  | obj hsorted _ ih =>
    exact stands_map hsorted fun m hm ↦ ih m hm (Json.isIntegral_obj.mp hint m hm)

/-- The node of a tree that is nested too deep has no value. -/
theorem toJson_nodeOf {d : Nat} (hv : v.Within d) (hint : v.isIntegral = true) :
    Graph.ofNode (nodeOf v) >>= Graph.toJson =
      if v.levels ≤ maxDepth then .ok v else .error .tooDeep := by
  obtain ⟨t, hnumber, hvalue⟩ := stands_nodeOf hv hint
  have hnode : Graph.ofNode (nodeOf v) = .ok ⟨t, [], (nodeOf v).events⟩ := by
    rw [Graph.ofNode, hnumber]
    rfl
  rw [hnode]
  show Graph.toJson _ = _
  rw [Graph.toJson, hvalue, admitted]
  split <;> rfl

end DeliveryCharts.Yaml
