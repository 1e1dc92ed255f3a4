import DeliveryCharts.Proofs.Manifest.Recompilation
import DeliveryCharts.Proofs.Yaml.Stream

/-!
The set of a stream in parts: where texts are put together with hyphens between them, the objects of
one come behind those of the other.
-/

namespace DeliveryCharts

namespace Manifest

variable {r : Stage.Registry} {a b s s' : ManifestSet} {ds es : List (Except Error Json)}

namespace ManifestSet

instance : Append ManifestSet where
  append a b := ⟨a.applications ++ b.applications, a.pipelines ++ b.pipelines⟩

theorem append_def (a b : ManifestSet) :
    a ++ b = ⟨a.applications ++ b.applications, a.pipelines ++ b.pipelines⟩ := rfl

theorem append_empty (a : ManifestSet) : a ++ ({} : ManifestSet) = a := by
  rw [append_def, List.append_nil, List.append_nil]

theorem empty_append (a : ManifestSet) : ({} : ManifestSet) ++ a = a := rfl

theorem append_assoc (a b c : ManifestSet) : a ++ b ++ c = a ++ (b ++ c) := by
  simp only [append_def, List.append_assoc]

theorem add_eq_append (s : ManifestSet) (o : Option Compiled) :
    s.add o = s ++ ({} : ManifestSet).add o := by
  cases o with
  | none => exact (append_empty s).symm
  | some c => cases c <;> simp [add, append_def]

end ManifestSet

open ManifestSet

/-- Where a document compiles, its position does not matter. -/
theorem compileDocument_position {position : Nat} {tree : Json} {o : Option Compiled}
    (h : compileDocument r position tree = .ok o) (position' : Nat) :
    compileDocument r position' tree = .ok o := by
  cases o with
  | some c => exact compileDocument_eq_ok_iff.mpr (compileDocument_eq_ok_iff.mp h)
  | none => exact compileDocument_eq_none_iff.mpr (compileDocument_eq_none_iff.mp h)

theorem compileFrom_eq_ok_iff {position : Nat} :
    compileFrom r s position ds = .ok s' ↔ ∃ t, compileAll r ds = .ok t ∧ s' = s ++ t := by
  induction ds generalizing s s' position with
  | nil => simp [compileAll, compileFrom, append_empty, eq_comm]
  | cons d ds ih =>
    have hall : compileAll r (d :: ds) = compileFrom r {} 0 (d :: ds) := rfl
    simp only [hall, compileFrom, Except.bind_eq_ok_iff, ih]
    constructor
    · rintro ⟨tree, hd, o, ho, t, ht, rfl⟩
      refine ⟨_, ⟨tree, hd, o, compileDocument_position ho 0, t, ht, rfl⟩, ?_⟩
      rw [add_eq_append s o, append_assoc]
    · rintro ⟨_, ⟨tree, hd, o, ho, t, ht, rfl⟩, rfl⟩
      refine ⟨tree, hd, o, compileDocument_position ho position, t, ht, ?_⟩
      rw [add_eq_append s o, append_assoc]

theorem compileAll_cons {d : Except Error Json} :
    compileAll r (d :: ds) = .ok s ↔
      ∃ tree o t, d = .ok tree ∧ compileDocument r 0 tree = .ok o ∧ compileAll r ds = .ok t ∧
        s = ({} : ManifestSet).add o ++ t := by
  rw [compileAll, compileFrom]
  simp only [Except.bind_eq_ok_iff, compileFrom_eq_ok_iff]
  constructor
  · rintro ⟨tree, hd, o, ho, t, ht, rfl⟩
    exact ⟨tree, o, t, hd, ho, ht, rfl⟩
  · rintro ⟨tree, o, t, hd, ho, ht, rfl⟩
    exact ⟨tree, hd, o, ho, t, ht, rfl⟩

theorem compileAll_append :
    compileAll r (ds ++ es) = .ok s ↔
      ∃ a b, compileAll r ds = .ok a ∧ compileAll r es = .ok b ∧ s = a ++ b := by
  induction ds generalizing s with
  | nil => simp [compileAll, compileFrom, empty_append]
  | cons d ds ih =>
    simp only [List.cons_append, compileAll_cons, ih]
    constructor
    · rintro ⟨tree, o, _, hd, ho, ⟨a, b, ha, hb, rfl⟩, rfl⟩
      exact ⟨_, b, ⟨tree, o, a, hd, ho, ha, rfl⟩, hb, (append_assoc _ a b).symm⟩
    · rintro ⟨_, b, ⟨tree, o, a, hd, ho, ha, rfl⟩, hb, rfl⟩
      exact ⟨tree, o, _, hd, ho, ⟨a, b, ha, hb, rfl⟩, append_assoc _ a b⟩

/-- The objects of documents. -/
def setOf (r : Stage.Registry) (gs : List (Except Yaml.Fault Yaml.Graph)) :
    Except Error ManifestSet :=
  compileAll r ((gs.map (· >>= Yaml.Graph.toJson)).map Error.ofYaml)

variable {gs hs : List (Except Yaml.Fault Yaml.Graph)}

theorem setOf_append :
    setOf r (gs ++ hs) = .ok s ↔ ∃ a b, setOf r gs = .ok a ∧ setOf r hs = .ok b ∧ s = a ++ b := by
  rw [setOf, List.map_append, List.map_append, compileAll_append]
  rfl

theorem setOf_blank : setOf r (.ok Yaml.blank :: gs) = .ok s ↔ setOf r gs = .ok s := by
  have hblank : Error.ofYaml (Except.ok Yaml.blank >>= Yaml.Graph.toJson) = .ok .null := by
    show Error.ofYaml Yaml.blank.toJson = _
    rw [Yaml.toJson_blank]
    rfl
  rw [setOf, List.map_cons, List.map_cons, hblank, compileAll_cons]
  constructor
  · rintro ⟨tree, o, t, htree, ho, ht, rfl⟩
    cases htree
    cases ho
    exact ht
  · exact fun h ↦ ⟨.null, none, s, rfl, rfl, h, rfl⟩

theorem setOf_error (e : Yaml.Fault) : setOf r (.error e :: gs) ≠ .ok s := by
  intro h
  obtain ⟨tree, o, t, htree, -⟩ := compileAll_cons.mp h
  cases htree

theorem loadText_eq_ok_iff {text : String} :
    loadText r text = .ok s ↔
      (∀ ch ∈ text.toList, Yaml.isAllowed ch = true) ∧
        setOf r (Yaml.documentsFrom (text.toList.length + 1) true (.ofText text.toList)) =
          .ok s := by
  rw [loadText, Yaml.stream, ← setOf, Yaml.documents, ← String.length_toList, ← List.all_eq_true]
  cases text.toList.all Yaml.isAllowed with
  | false => simpa using setOf_error _
  | true =>
    simp only [Bool.not_true, Bool.false_eq_true, if_false, true_and]
    split
    · rename_i hnil
      rw [hnil]
      exact setOf_blank
    · exact Iff.rfl

theorem loadText_of_toList {text : String} {cs : List Char} (hcs : text.toList = cs)
    (hallowed : cs.all Yaml.isAllowed = true)
    (h : setOf r (Yaml.documentsFrom (cs.length + 1) true (.ofText cs)) = .ok s) :
    loadText r text = .ok s := by
  subst hcs
  exact loadText_eq_ok_iff.mpr ⟨List.all_eq_true.mp hallowed, h⟩

/-- The end of a text holds no fault and no directives, if its documents compile. -/
theorem setOf_end {ds : List Yaml.Graph} {o : Except Yaml.Fault Yaml.Directives} :
    setOf r (ds.map .ok ++ Yaml.following o []) = .ok s ↔
      o = .ok {} ∧ setOf r (ds.map .ok) = .ok s := by
  have hend {s' : ManifestSet} :
      setOf r (Yaml.following o []) = .ok s' ↔ o = .ok {} ∧ s' = {} := by
    cases o with
    | error e => simpa [Yaml.following] using setOf_error e
    | ok d =>
      obtain ⟨version, handles⟩ := d
      rw [Yaml.following]
      cases version with
      | true => simpa [Yaml.Directives.isGiven] using setOf_error _
      | false =>
        cases handles with
        | nil => simp [Yaml.Directives.isGiven, setOf, compileAll, compileFrom, eq_comm]
        | cons h handles => simpa [Yaml.Directives.isGiven] using setOf_error _
  rw [setOf_append]
  constructor
  · rintro ⟨a, b, ha, hb, rfl⟩
    obtain ⟨ho, rfl⟩ := hend.mp hb
    exact ⟨ho, by rw [append_empty, ha]⟩
  · rintro ⟨ho, hs⟩
    exact ⟨s, {}, hs, hend.mpr ⟨ho, rfl⟩, (append_empty s).symm⟩

/-- Hyphens in front of a text do not change its set. -/
theorem setOf_headed {o o' : List Yaml.Graph × Except Yaml.Fault Yaml.Directives}
    (h : Yaml.Headed o o') (ts : List (List Char)) :
    setOf r (o'.1.map .ok ++ Yaml.following o'.2 ts) = .ok s ↔
      setOf r (o.1.map .ok ++ Yaml.following o.2 ts) = .ok s := by
  cases h with
  | same => exact Iff.rfl
  | blank => exact setOf_blank
  | error e e' =>
    simp only [Yaml.following]
    exact ⟨fun h ↦ absurd h (setOf_error e'), fun h ↦ absurd h (setOf_error e)⟩

/-- All characters of a stream may stand in it if those of the texts and of the comments may. -/
theorem isAllowed_joinedFrom {ps : List (Yaml.Joint × List Char)} :
    (∀ ch ∈ Yaml.joinedFrom ps, Yaml.isAllowed ch = true) ↔
      ∀ p ∈ ps, (∀ ch ∈ p.1.comments, Yaml.isAllowed ch = true) ∧
        ∀ ch ∈ p.2, Yaml.isAllowed ch = true := by
  induction ps with
  | nil => simp [Yaml.joinedFrom]
  | cons p ps ih =>
    obtain ⟨j, t⟩ := p
    have hhyphen : Yaml.isAllowed '-' = true := by decide
    have hfeed : Yaml.isAllowed '\n' = true := by decide
    simp only [Yaml.joinedFrom, Yaml.Joint.marks, List.forall_mem_append, List.forall_mem_cons, ih,
      hhyphen, hfeed, true_and, and_assoc]

/-- Hyphens in front of a text do not change its set, unless a mark or points do not stand at the
start any more. -/
theorem loadText_eq_ok_iff_following {text : String} (hmark : text.toList.head? ≠ some '\uFEFF')
    (hstart : ¬ Yaml.StartsEnded text.toList) :
    loadText r text = .ok s ↔
      (∀ ch ∈ text.toList, Yaml.isAllowed ch = true) ∧
        setOf r (Yaml.following (.ok {}) [text.toList]) = .ok s := by
  rw [loadText_eq_ok_iff, Yaml.Cursor.ofText, if_neg hmark]
  have halone := Yaml.documentsFrom_alone text.toList
  rw [Yaml.Cursor.ofText, if_neg hmark] at halone
  rw [halone]
  exact and_congr_right fun _ ↦ (setOf_headed (Yaml.headed hstart) []).symm

variable {u v : String}

/-- Where hyphens stand between a text that ends its last line and another one, their objects are
put together. -/
theorem loadText_append (hu : loadText r u = .ok a) (hv : loadText r v = .ok b)
    (hlast : u.toList.getLast? = some '\n') (hmark : v.toList.head? ≠ some '\uFEFF') :
    loadText r (u ++ "---\n" ++ v) = .ok (a ++ b) := by
  have hstart : ¬ Yaml.StartsEnded v.toList := by
    intro h
    obtain ⟨-, hv⟩ := loadText_eq_ok_iff.mp hv
    rw [Yaml.documentsFrom_alone, setOf_end, Yaml.Cursor.ofText, if_neg hmark,
      Yaml.outline_of_startsEnded h] at hv
    cases hv.1
  obtain ⟨hallowed, hu⟩ := loadText_eq_ok_iff.mp hu
  obtain ⟨hallowed', hv⟩ := (loadText_eq_ok_iff_following hmark hstart).mp hv
  have hchars : (u ++ "---\n" ++ v).toList =
      u.toList ++ Yaml.joinedFrom [(Yaml.hyphens, v.toList)] := by
    rw [String.toList_append, String.toList_append, Yaml.joinedFrom, Yaml.joinedFrom,
      List.append_nil, List.append_assoc]
    rfl
  have hjoinable : Yaml.Joinable u.toList [(Yaml.hyphens, v.toList)] := ⟨hlast, trivial⟩
  rw [Yaml.documentsFrom_alone, setOf_end] at hu
  rw [loadText_eq_ok_iff, hchars, Yaml.documentsFrom_joined hjoinable, hu.1]
  refine ⟨List.forall_mem_append.mpr ⟨hallowed, isAllowed_joinedFrom.mpr ?_⟩,
    setOf_append.mpr ⟨a, b, hu.2, hv, rfl⟩⟩
  simpa [Yaml.hyphens, Yaml.Joint.comments] using hallowed'

/-- A blank line at the end of a text does not change its set, unless a block keeps it. -/
theorem loadText_feed {t : String} (hlast : t.toList.getLast? = some '\n')
    (hkeeps : ¬ Yaml.KeepsEnd t.toList) : loadText r (t ++ "\n") = loadText r t := by
  have hchars : (t ++ "\n").toList = t.toList ++ ['\n'] := String.toList_append
  have hallowed : (t ++ "\n").toList.all Yaml.isAllowed = t.toList.all Yaml.isAllowed := by
    rw [hchars, List.all_append]
    exact Bool.and_true _
  rw [loadText, loadText, Yaml.stream, Yaml.stream, Yaml.documents, Yaml.documents, hallowed,
    ← String.length_toList, ← String.length_toList, hchars, Yaml.documentsFrom_feed hlast hkeeps]

end Manifest

end DeliveryCharts
