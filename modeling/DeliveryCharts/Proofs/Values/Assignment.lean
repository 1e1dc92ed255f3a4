import DeliveryCharts.Proofs.Values.Merge

/-!
Setting a value at a path. The path leads to the value afterwards, objects stand on the way to it,
and a path that leads elsewhere is as it was.
-/

namespace DeliveryCharts.Values

variable {keys : List String} {v t : Json}

/-- The pieces of two texts with a character between them that separates. -/
theorem splitAll_between (p : Char → Bool) {ch : Char} (hch : p ch = true) (as bs : List Char) :
    Text.splitAll p (as ++ ch :: bs) = Text.splitAll p as ++ Text.splitAll p bs := by
  induction as with
  | nil => simp [Text.splitAll, hch]
  | cons a as ih =>
    rw [List.cons_append, Text.splitAll, Text.splitAll, ih]
    by_cases ha : p a = true
    · simp only [ha, if_true, List.cons_append]
    · obtain ⟨piece, pieces, hpieces⟩ := List.exists_cons_of_ne_nil (Text.splitAll_ne_nil p as)
      simp only [ha, Bool.false_eq_true, if_false, hpieces, List.cons_append]

/-- Behind a point the path goes on from where it leads before it. -/
theorem pathKeys_extended (path rest : String) :
    pathKeys (path ++ "." ++ rest) = pathKeys path ++ pathKeys rest := by
  have htext : (path ++ "." ++ rest).toList = path.toList ++ '.' :: rest.toList := by
    simp
  rw [pathKeys, htext, splitAll_between _ (by decide), List.map_append]
  rfl

theorem get?_setAt (key : String) (keys : List String) (v t : Json) (k : String) :
    (setAt (key :: keys) v t).get? k =
      if key = k then some (setAt keys v ((t.get? key).getD .null)) else t.get? k := by
  cases t with
  | obj ms => exact Members.get?_insert ms key k _
  | null | bool | num | str | arr => exact Members.get?_insert [] key k _

/-- From the end of the path on, there is what the value has. -/
theorem getAt_setAt_append (keys rest : List String) (v t : Json) :
    getAt (keys ++ rest) (setAt keys v t) = getAt rest v := by
  induction keys generalizing t with
  | nil => rfl
  | cons key keys ih =>
    have hget : (setAt (key :: keys) v t).get? key =
        some (setAt keys v ((t.get? key).getD .null)) := by
      rw [get?_setAt, if_pos rfl]
    rw [List.cons_append, getAt_cons_of_get? hget]
    exact ih _

/-- Where two paths part, nothing is there that was not there before. What is no object and has
been replaced on the way had nothing at the other path either. -/
theorem getAt_setAt_apart {other : List String} (hbelow : ¬ keys <+: other)
    (habove : ¬ other <+: keys) (v t : Json) : getAt other (setAt keys v t) = getAt other t := by
  induction keys generalizing other t with
  | nil => exact absurd List.nil_prefix hbelow
  | cons key keys ih =>
    cases other with
    | nil => exact absurd List.nil_prefix habove
    | cons k other =>
      rw [getAt_cons_of_get? (get?_setAt key keys v t k)]
      by_cases hk : key = k
      · subst k
        have hbelow' : ¬ keys <+: other := by simpa [List.cons_prefix_cons] using hbelow
        have habove' : ¬ other <+: keys := by simpa [List.cons_prefix_cons] using habove
        rw [if_pos rfl, Option.bind_some, ih hbelow' habove', getAt]
        cases ht : t.get? key with
        | some child => rfl
        | none =>
          obtain ⟨l, rest, rfl⟩ : ∃ l rest, other = l :: rest := by
            apply List.exists_cons_of_ne_nil
            intro hnil
            exact habove' (hnil ▸ List.nil_prefix)
          exact getAt_leaf rfl l rest
      · rw [if_neg hk]
        rfl

/-- On the way to the value there are objects only. -/
theorem exists_obj_of_proper_prefix {above : List String} (h : above <+: keys)
    (hne : above ≠ keys) (v t : Json) :
    ∃ ms, getAt above (setAt keys v t) = some (.obj ms) := by
  induction keys generalizing above t with
  | nil => exact absurd (List.prefix_nil.mp h) hne
  | cons key keys ih =>
    cases above with
    | nil => exact ⟨_, rfl⟩
    | cons k above =>
      obtain ⟨rfl, habove⟩ := List.cons_prefix_cons.mp h
      have hget : (setAt (k :: keys) v t).get? k =
          some (setAt keys v ((t.get? k).getD .null)) := by
        rw [get?_setAt, if_pos rfl]
      rw [getAt_cons_of_get? hget]
      apply ih habove
      intro he
      exact hne (by rw [he])

/-- Sets a value in a place that holds values. What is refused raises an error, and the place keeps
what it holds at that moment. -/
def assign (path : String) (v : Json) : ExceptT Error (StateM Values) Unit := do
  let values ← get
  let written ← ExceptT.mk (pure (values.set path v))
  MonadStateOf.set written

/-- A path with an empty key is refused, and nothing changes. At any other path the value is set:
the path leads to it, and a longer one to what the value has there; a path that neither starts with
this one nor is the start of it leads to what it led to before; and each shorter one leads to an
object. -/
theorem assign_frame (values : Values) (path : String) (v : Json) :
    ("" ∈ pathKeys path →
      (assign path v).run.run values =
        (.error (.valuesMerge s!"invalid values path: '{path}'"), values)) ∧
    ("" ∉ pathKeys path → ∃ after, (assign path v).run.run values = (.ok (), after) ∧
      after.get? path = some v ∧
      (∀ rest, after.get? (path ++ "." ++ rest) = (⟨v⟩ : Values).get? rest) ∧
      (∀ other, ¬ pathKeys path <+: pathKeys other → ¬ pathKeys other <+: pathKeys path →
        after.get? other = values.get? other) ∧
      (∀ above, above <+: pathKeys path → above ≠ pathKeys path →
        ∃ ms, getAt above after.tree = some (.obj ms))) := by
  have hany : (pathKeys path).any (·.isEmpty) = true ↔ "" ∈ pathKeys path := by
    simp
  constructor
  · intro hempty
    have hset : values.set path v = .error (.valuesMerge s!"invalid values path: '{path}'") :=
      if_pos (hany.mpr hempty)
    show (ExceptT.mk (pure (values.set path v)) >>= fun written ↦
      (MonadStateOf.set written : ExceptT Error (StateM Values) Unit)).run.run values = _
    rw [hset]
    rfl
  · intro hkeys
    have hset : values.set path v = .ok ⟨setAt (pathKeys path) v values.tree⟩ :=
      if_neg fun h ↦ hkeys (hany.mp h)
    refine ⟨⟨setAt (pathKeys path) v values.tree⟩, ?_, ?_, ?_, ?_, ?_⟩
    · show (ExceptT.mk (pure (values.set path v)) >>= fun written ↦
        (MonadStateOf.set written : ExceptT Error (StateM Values) Unit)).run.run values = _
      rw [hset]
      rfl
    · have hpath := getAt_setAt_append (pathKeys path) [] v values.tree
      rwa [List.append_nil] at hpath
    · intro rest
      rw [get?, pathKeys_extended]
      exact getAt_setAt_append _ _ v values.tree
    · intro other hbelow habove
      exact getAt_setAt_apart hbelow habove v values.tree
    · intro above habove hne
      exact exists_obj_of_proper_prefix habove hne v values.tree

theorem assign_frame_shop :
    ("" ∈ pathKeys "image..tag" ∧ (assign "image..tag" .null).run.run shopDefaults =
      (.error (.valuesMerge "invalid values path: 'image..tag'"), shopDefaults)) ∧
    ("" ∉ pathKeys "wait.time" ∧ ∃ after,
      (assign "wait.time" (.obj [("unit", .str "s")])).run.run shopDefaults = (.ok (), after) ∧
      after.get? "wait.time.unit" = some (.str "s") ∧
      (¬ pathKeys "wait.time" <+: pathKeys "image.tag" ∧
        ¬ pathKeys "image.tag" <+: pathKeys "wait.time" ∧
        after.get? "image.tag" = some (.ofInt 1)) ∧
      (["wait"] <+: pathKeys "wait.time" ∧ ["wait"] ≠ pathKeys "wait.time" ∧
        ∃ ms, getAt ["wait"] after.tree = some (.obj ms))) := by
  have hempty : "" ∈ pathKeys "image..tag" := by decide +kernel
  have hkeys : pathKeys "wait.time" = ["wait", "time"] := by decide +kernel
  have hother : pathKeys "image.tag" = ["image", "tag"] := by decide +kernel
  have hproper : "" ∉ pathKeys "wait.time" := by simp [hkeys]
  have hbelow : ¬ pathKeys "wait.time" <+: pathKeys "image.tag" := by simp [hkeys, hother]
  have habove : ¬ pathKeys "image.tag" <+: pathKeys "wait.time" := by simp [hkeys, hother]
  have hwait : ["wait"] <+: pathKeys "wait.time" := by simp [hkeys]
  have hne : ["wait"] ≠ pathKeys "wait.time" := by simp [hkeys]
  obtain ⟨after, hrun, -, hrest, happart, hobject⟩ :=
    (assign_frame shopDefaults "wait.time" (.obj [("unit", .str "s")])).2 hproper
  refine ⟨⟨hempty, (assign_frame shopDefaults "image..tag" .null).1 hempty⟩, hproper, after, hrun,
    ?_, ⟨hbelow, habove, ?_⟩, hwait, hne, hobject ["wait"] hwait hne⟩
  · have hunit := hrest "unit"
    rw [show (⟨.obj [("unit", .str "s")]⟩ : Values).get? "unit" = some (.str "s") by
      decide +kernel] at hunit
    exact hunit
  · rw [happart "image.tag" hbelow habove]
    decide +kernel

end DeliveryCharts.Values
