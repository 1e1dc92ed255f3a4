import DeliveryCharts.Files.Tree
import DeliveryCharts.Proofs.Record
import DeliveryCharts.Proofs.Text.Utf8

/-!
Directories as a file system has them, and what stands at a path in them.
-/

namespace DeliveryCharts

open Files

namespace Text

variable {p : Char → Bool} {cs ds : List Char}

theorem splitAll_of_none (h : ∀ c ∈ cs, p c = false) : splitAll p cs = [cs] := by
  induction cs with
  | nil => rfl
  | cons c cs ih =>
    obtain ⟨hc, hcs⟩ := List.forall_mem_cons.mp h
    rw [splitAll, hc, ih hcs]
    rfl

theorem splitAll_append {c : Char} (hc : p c = true) :
    splitAll p (cs ++ c :: ds) = splitAll p cs ++ splitAll p ds := by
  induction cs with
  | nil =>
    rw [List.nil_append, splitAll.eq_2, if_pos hc]
    rfl
  | cons b cs ih =>
    rw [List.cons_append, splitAll, splitAll, ih]
    split
    · rfl
    · obtain ⟨l, ls, hl⟩ := List.exists_cons_of_ne_nil (splitAll_ne_nil p cs)
      rw [hl]
      rfl

end Text

namespace Files.Path

/-- A name that an entry of a directory can have. -/
structure IsName (name : String) : Prop where
  ne_empty : name ≠ ""
  ne_point : name ≠ "."
  ne_points : name ≠ ".."
  slash : '/' ∉ name.toList
  zero : '\x00' ∉ name.toList
  size : name.utf8ByteSize ≤ FileTree.maxNameLength

instance (name : String) : Decidable (IsName name) :=
  decidable_of_iff (name ≠ "" ∧ name ≠ "." ∧ name ≠ ".." ∧ '/' ∉ name.toList ∧
      '\x00' ∉ name.toList ∧ name.utf8ByteSize ≤ FileTree.maxNameLength)
    ⟨fun ⟨h₁, h₂, h₃, h₄, h₅, h₆⟩ ↦ ⟨h₁, h₂, h₃, h₄, h₅, h₆⟩,
      fun ⟨h₁, h₂, h₃, h₄, h₅, h₆⟩ ↦ ⟨h₁, h₂, h₃, h₄, h₅, h₆⟩⟩

variable {path name : String}

theorem isAbsolute_of_isName (h : IsName name) : isAbsolute name = false := by
  refine decide_eq_false fun hhead ↦ h.slash ?_
  obtain ⟨r, hr⟩ := List.head?_eq_some_iff.mp hhead
  rw [hr]
  exact List.mem_cons_self

theorem pieces_of_isName (h : IsName name) : pieces name = [name.toList] := by
  refine Text.splitAll_of_none fun c hc ↦ beq_eq_false_iff_ne.mpr fun he ↦ ?_
  exact h.slash (he ▸ hc)

/-- A name is put behind a path, perhaps with a slash between. -/
theorem toList_join (path : String) (h : IsName name) :
    ∃ cs, (join path name).toList = path.toList ++ cs ∧ ∀ c ∈ cs, c = '/' ∨ c ∈ name.toList := by
  rw [join, isAbsolute_of_isName h, if_neg Bool.false_ne_true]
  split
  · exact ⟨_, String.toList_append, fun c hc ↦ .inr hc⟩
  · refine ⟨'/' :: name.toList, ?_, fun c hc ↦ List.mem_cons.mp hc⟩
    rw [String.toList_append, String.toList_append, List.append_assoc]
    rfl

theorem pieces_join (path : String) (h : IsName name) :
    ∃ ls, pieces (join path name) = ls ++ [name.toList] ∧
      ls.filter (fun p ↦ !p.isEmpty && p ≠ ['.']) =
        (pieces path).filter (fun p ↦ !p.isEmpty && p ≠ ['.']) := by
  have hname := pieces_of_isName h
  have hslash (cs : List Char) :
      Text.splitAll (· == '/') (cs ++ '/' :: name.toList) =
        Text.splitAll (· == '/') cs ++ [name.toList] := by
    rw [Text.splitAll_append (by rfl), ← hname]
    rfl
  rw [join, isAbsolute_of_isName h, if_neg Bool.false_ne_true]
  by_cases hempty : path = ""
  · subst hempty
    exact ⟨[], by simpa using hname, by decide⟩
  · have hempty' := String.isEmpty_eq_false_iff.mpr hempty
    by_cases hlast : path.toList.getLast? = some '/'
    · obtain ⟨q, hq⟩ := List.getLast?_eq_some_iff.mp hlast
      refine ⟨Text.splitAll (· == '/') q, ?_, ?_⟩
      · rw [if_pos (by simp [hlast]), pieces, String.toList_append, hq, List.append_assoc]
        exact hslash q
      · rw [pieces, hq, Text.splitAll_append (by rfl)]
        simp [Text.splitAll]
    · refine ⟨pieces path, ?_, rfl⟩
      rw [if_neg (by simp [hempty', hlast]), pieces, String.toList_append, String.toList_append,
        List.append_assoc]
      exact hslash path.toList

theorem names_join (path : String) (h : IsName name) :
    names (join path name) = names path ++ [name] := by
  obtain ⟨ls, hls, hfilter⟩ := pieces_join path h
  have hname : (!name.toList.isEmpty && name.toList ≠ ['.']) = true := by
    have hempty := h.ne_empty
    have hpoint : name.toList ≠ ['.'] := fun he ↦ h.ne_point (String.toList_injective he)
    simp [hempty, hpoint]
  rw [names, hls, List.filter_append, hfilter, List.map_append, List.filter_cons, if_pos hname]
  simp [names]

theorem wantsDirectory_join (path : String) (h : IsName name) :
    wantsDirectory (join path name) = false := by
  obtain ⟨ls, hls, -⟩ := pieces_join path h
  have hpoint : name.toList ≠ ['.'] := fun he ↦ h.ne_point (String.toList_injective he)
  have hempty : name.toList ≠ [] := fun he ↦ h.ne_empty (String.toList_injective he)
  rw [wantsDirectory, hls, List.getLast?_concat]
  split
  · rename_i he
    exact absurd (Option.some.inj he) hempty
  · rename_i he
    exact absurd (Option.some.inj he) hpoint
  · rfl

theorem names_of_isName (h : IsName name) : names name = [name] := by
  have hname : (!name.toList.isEmpty && name.toList ≠ ['.']) = true := by
    have hempty := h.ne_empty
    have hpoint : name.toList ≠ ['.'] := fun he ↦ h.ne_point (String.toList_injective he)
    simp [hempty, hpoint]
  rw [names, pieces_of_isName h, List.filter_cons, if_pos hname]
  simp

theorem fileName?_join (path : String) (h : IsName name) :
    fileName? (join path name) = some name := by
  rw [fileName?, names_join path h, List.getLast?_concat]
  simp [h.ne_points]

end Files.Path

namespace FileTree

open Files.Path

/-- Entries have names of their own and stand in their order, in all directories. -/
inductive Proper : FileTree → Prop
  | file (content : Text.Bytes) : Proper (.file content)
  | directory {entries : List (String × FileTree)} (hnames : ∀ e ∈ entries, IsName e.1)
      (hsorted : entries.Pairwise fun a b ↦ a.1 < b.1) (h : ∀ e ∈ entries, Proper e.2) :
      Proper (.directory entries)

theorem mem_of_lookup {name : String} {u : FileTree} {entries : List (String × FileTree)}
    (h : lookup name entries = some u) : (name, u) ∈ entries := by
  induction entries with
  | nil => cases h
  | cons e entries ih =>
    obtain ⟨n, v⟩ := e
    rw [lookup] at h
    split at h
    · rename_i hn
      cases h
      exact hn ▸ List.mem_cons_self
    · exact List.mem_cons_of_mem _ (ih h)

theorem lookup_of_mem {name : String} {u : FileTree} {entries : List (String × FileTree)}
    (hsorted : entries.Pairwise fun a b ↦ a.1 < b.1) (h : (name, u) ∈ entries) :
    lookup name entries = some u := by
  induction entries with
  | nil => cases h
  | cons e entries ih =>
    obtain ⟨n, v⟩ := e
    obtain ⟨hlt, hsorted⟩ := List.pairwise_cons.mp hsorted
    rcases List.mem_cons.mp h with he | hmem
    · cases he
      rw [lookup, if_pos rfl]
    · have hne : n ≠ name := fun he ↦ by
        subst he
        exact String.lt_irrefl n (hlt _ hmem)
      rw [lookup, if_neg hne, ih hsorted hmem]

theorem walk_cons (above : List FileTree) (entries : List (String × FileTree)) (name : String)
    (names : List String) :
    walk above (directory entries) (name :: names) =
      if name = ".." then
        match above with
        | [] => .error .missing
        | t :: above => walk above t names
      else if name.utf8ByteSize > maxNameLength then .error .nameTooLong
      else
        match lookup name entries with
        | none => .error .missing
        | some t => walk (directory entries :: above) t names :=
  (walk.eq_def ..).trans rfl

theorem walk_proper {above : List FileTree} {t u : FileTree} {names : List String}
    (habove : ∀ a ∈ above, a.Proper) (ht : t.Proper) (h : walk above t names = .ok u) :
    u.Proper := by
  -- A step up leads back to a directory that was passed, so these are carried along as proper.
  induction names generalizing above t with
  | nil =>
    rw [walk] at h
    cases h
    exact ht
  | cons name names ih =>
    cases ht with
    | file content => cases h
    | @directory entries hnames hsorted hentries =>
      rw [walk_cons] at h
      split at h
      · split at h
        · cases h
        · obtain ⟨ha, habove⟩ := List.forall_mem_cons.mp habove
          exact ih habove ha h
      · split at h
        · cases h
        · split at h
          · cases h
          · rename_i v hv
            refine ih (List.forall_mem_cons.mpr ⟨.directory hnames hsorted hentries, habove⟩) ?_ h
            exact hentries _ (mem_of_lookup hv)

theorem walk_concat {above : List FileTree} {t u : FileTree} {names : List String} {name : String}
    {entries : List (String × FileTree)} (h : walk above t names = .ok (.directory entries))
    (hname : IsName name) (hu : lookup name entries = some u) :
    walk above t (names ++ [name]) = .ok u := by
  induction names generalizing above t with
  | nil =>
    rw [walk] at h
    cases h
    rw [List.nil_append, walk_cons, if_neg hname.ne_points, if_neg (Nat.not_lt.mpr hname.size), hu]
    rfl
  | cons n names ih =>
    cases t with
    | file content => cases h
    | directory es =>
      rw [walk_cons] at h
      rw [List.cons_append, walk_cons]
      split at h
      · rename_i hn
        rw [if_pos hn]
        split at h
        · cases h
        · exact ih h
      · rename_i hn
        rw [if_neg hn]
        split at h
        · cases h
        · rename_i hsize
          rw [if_neg hsize]
          split at h
          · cases h
          · exact ih h

variable {t u : FileTree} {path name : String} {entries : List (String × FileTree)}

theorem find_eq_ok_iff :
    t.find path = .ok u ↔
      '\x00' ∉ path.toList ∧ path ≠ "" ∧ isAbsolute path = false ∧
        walk [] t (names path) = .ok u ∧ (wantsDirectory path = true → u.isDirectory = true) := by
  by_cases hzero : '\x00' ∈ path.toList
  · simp [find, hzero]
  · by_cases hempty : path = ""
    · simp [find, hempty]
    · cases habsolute : isAbsolute path with
      | true => simp [find, hzero, habsolute]
      | false =>
        rw [find, if_neg (by simpa using hzero), if_neg (by simp [hempty, habsolute])]
        simp only [hzero, hempty, true_and, not_false_eq_true, ne_eq]
        rw [Except.bind_eq_ok_iff]
        constructor
        · rintro ⟨v, hv, h⟩
          split at h
          · cases h
          · rename_i hwants
            cases h
            exact ⟨hv, by simpa using hwants⟩
        · rintro ⟨hu, hwants⟩
          refine ⟨u, hu, ?_⟩
          rw [if_neg (by simpa using hwants)]
          rfl

theorem find_proper (ht : t.Proper) (h : t.find path = .ok u) : u.Proper :=
  walk_proper (by simp) ht (find_eq_ok_iff.mp h).2.2.2.1

/-- An entry stands at the directory's path with its name behind. -/
theorem find_join (h : t.find path = .ok (.directory entries)) (hname : IsName name)
    (hu : lookup name entries = some u) : t.find (join path name) = .ok u := by
  obtain ⟨hzero, hempty, habsolute, hwalk, -⟩ := find_eq_ok_iff.mp h
  obtain ⟨cs, hcs, hname'⟩ := toList_join path hname
  obtain ⟨c, ds, hpath⟩ := List.exists_cons_of_ne_nil fun he ↦ hempty (String.toList_injective he)
  refine find_eq_ok_iff.mpr ⟨fun hmem ↦ ?_, fun he ↦ ?_, ?_, ?_, ?_⟩
  · rw [hcs] at hmem
    rcases List.mem_append.mp hmem with hmem | hmem
    · exact hzero hmem
    · rcases hname' _ hmem with he | hmem
      · exact absurd he (by decide)
      · exact hname.zero hmem
  · simp [he, hpath] at hcs
  · rw [isAbsolute, hpath] at habsolute
    rw [isAbsolute, hcs, hpath]
    exact habsolute
  · rw [names_join path hname]
    exact walk_concat hwalk hname hu
  · rw [wantsDirectory_join path hname]
    exact fun h ↦ absurd h Bool.false_ne_true

theorem filesIn_eq (h : t.find path = .ok (.directory entries)) :
    t.filesIn path = (entries.filter fun e ↦ !e.2.isDirectory).map Prod.fst := by
  rw [filesIn, h]

/-- What is found in a directory are files with names of their own. -/
theorem filesIn_spec (ht : t.Proper) (path : String) :
    (t.filesIn path).Pairwise (· < ·) ∧
      ∀ name ∈ t.filesIn path,
        IsName name ∧ ∃ content, t.find (join path name) = .ok (.file content) := by
  cases h : t.find path with
  | error f => simp [filesIn, h]
  | ok u =>
    cases u with
    | file content => simp [filesIn, h]
    | directory entries =>
      rw [filesIn_eq h]
      cases find_proper ht h with
      | directory hnames hsorted hentries =>
        refine ⟨List.pairwise_map.mpr (hsorted.filter _), fun name hname ↦ ?_⟩
        obtain ⟨⟨n, u⟩, he, rfl⟩ := List.mem_map.mp hname
        obtain ⟨hmem, hfile⟩ := List.mem_filter.mp he
        refine ⟨hnames _ hmem, ?_⟩
        cases u with
        | directory es => cases hfile
        | file content => exact ⟨content, find_join h (hnames _ hmem) (lookup_of_mem hsorted hmem)⟩

theorem insert_last {name : String} (h : ∀ e ∈ entries, e.1 < name) :
    lookup name entries = none ∧ insert name u entries = entries ++ [(name, u)] := by
  induction entries with
  | nil => exact ⟨rfl, rfl⟩
  | cons e entries ih =>
    obtain ⟨n, v⟩ := e
    obtain ⟨hn, h⟩ := List.forall_mem_cons.mp h
    obtain ⟨hlookup, hinsert⟩ := ih h
    have hne : n ≠ name := fun he ↦ String.lt_irrefl name (he ▸ hn)
    have hlt : ¬ name < n := fun hlt ↦ String.lt_irrefl name (String.lt_trans hlt hn)
    rw [lookup, insert, if_neg hne, if_neg hne, if_neg hlt, hlookup, hinsert]
    exact ⟨rfl, rfl⟩

theorem readText_of_find {text : String} (h : t.find path = .ok (.file (Text.utf8String text))) :
    t.readText path = .ok text := by
  have hdecode : Text.decode (Text.utf8String text) = .ok text.toList :=
    Text.decode_utf8 text.toList
  have hread : t.read path = .ok (Text.utf8String text) := by
    rw [read, h]
    rfl
  rw [readText, hread]
  dsimp only [bind, Except.bind]
  rw [hdecode]
  exact congrArg Except.ok String.ofList_toList

/-- A directory of that name with nothing but texts. -/
def folder (name : String) (texts : List (String × String)) : FileTree :=
  directory [(name, directory (texts.map fun t ↦ (t.1, file (Text.utf8String t.2))))]

variable {dir : String} {texts : List (String × String)}

theorem proper_folder (hdir : IsName dir) (hnames : ∀ t ∈ texts, IsName t.1)
    (hsorted : texts.Pairwise fun a b ↦ a.1 < b.1) : (folder dir texts).Proper := by
  refine .directory (List.forall_mem_singleton.mpr hdir) (List.pairwise_singleton _ _)
    (List.forall_mem_singleton.mpr (.directory ?_ (List.pairwise_map.mpr hsorted) ?_))
  · exact List.forall_mem_map.mpr hnames
  · exact List.forall_mem_map.mpr fun t _ ↦ .file _

theorem find_folder (hdir : IsName dir) :
    (folder dir texts).find dir =
      .ok (directory (texts.map fun t ↦ (t.1, file (Text.utf8String t.2)))) := by
  refine find_eq_ok_iff.mpr ⟨hdir.zero, hdir.ne_empty, isAbsolute_of_isName hdir, ?_, fun _ ↦ rfl⟩
  rw [names_of_isName hdir, folder, walk, if_neg hdir.ne_points, if_neg (Nat.not_lt.mpr hdir.size),
    lookup, if_pos rfl]
  rfl

theorem filesIn_folder (hdir : IsName dir) :
    (folder dir texts).filesIn dir = texts.map Prod.fst := by
  rw [filesIn_eq (find_folder hdir), List.filter_eq_self.mpr, List.map_map]
  · rfl
  · exact List.forall_mem_map.mpr fun t _ ↦ rfl

theorem readText_folder (hdir : IsName dir) (hnames : ∀ t ∈ texts, IsName t.1)
    (hsorted : texts.Pairwise fun a b ↦ a.1 < b.1) {t : String × String} (h : t ∈ texts) :
    (folder dir texts).readText (join dir t.1) = .ok t.2 :=
  readText_of_find <| find_join (find_folder hdir) (hnames t h) <|
    lookup_of_mem (List.pairwise_map.mpr hsorted) (List.mem_map_of_mem h)

/-- A new text behind all others of the directory. -/
theorem write_folder (hdir : IsName dir) {t : String × String} (hname : IsName t.1)
    (h : ∀ u ∈ texts, u.1 < t.1) :
    (folder dir texts).write (join dir t.1) (Text.utf8String t.2) =
      .ok (folder dir (texts ++ [t])) := by
  have hlast : ∀ e ∈ texts.map fun t ↦ (t.1, file (Text.utf8String t.2)), e.1 < t.1 :=
    List.forall_mem_map.mpr h
  obtain ⟨hlookup, hinsert⟩ := insert_last (u := .file (Text.utf8String t.2)) hlast
  rw [write, folder, names_join dir hname, names_of_isName hdir]
  simp only [List.cons_append, List.nil_append, update, lookup, if_pos, Option.getD_some, insert,
    hlookup]
  simp [bind, Except.bind, pure, Except.pure, hinsert, folder]

end FileTree

end DeliveryCharts
