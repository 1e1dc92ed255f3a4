import DeliveryCharts.Proofs.Template.Layout
import DeliveryCharts.Template.Read.Stmt
import DeliveryCharts.Template.Render

/-!
Texts without braces. Such a template is written as it is.
-/

namespace DeliveryCharts.Template

variable {text : String}

theorem findOpening_of_not_mem {cs : List Char} (h : '{' ∉ cs) :
    Scan.findOpening cs = (cs, none, []) := by
  obtain heq | ⟨before, o, rest, -, hcs⟩ := findOpening_eq cs
  · exact heq
  · exact absurd (by simp [hcs]) h

theorem ofSource_of_not_mem (hne : text.toList ≠ []) (h : '{' ∉ text.toList) :
    Tokens.ofSource text = ⟨[(.data text.toList, 1)], none⟩ := by
  obtain ⟨c, cs, hcs⟩ := List.exists_cons_of_ne_nil hne
  rw [Tokens.ofSource]
  rw [hcs] at h ⊢
  rw [Scan.scan]
  · simp only [Bool.false_eq_true, if_false, findOpening_of_not_mem h]
    rfl
  · simp

theorem read_of_not_mem (name : String) (hne : text.toList ≠ []) (h : '{' ∉ text.toList) :
    Source.read name text = .ok ⟨name, [.text text 1], []⟩ := by
  have hread : (Read.body (32 * ([((.data text.toList, 1) : Located)].length + 2)) []).run
      { rest := [(.data text.toList, 1)], fault := none } =
      .ok ([.text (.ofList text.toList) 1], { rest := [], fault := none, last := 1 }) := rfl
  rw [String.ofList_toList] at hread
  rw [Source.read, ofSource_of_not_mem hne h]
  simp only [hread]
  rfl

/-- A text alone is what is written. -/
theorem render_text (sources : List Source) (strict : Bool) (names : List (String × Value))
    (name text : String) (line : Nat) :
    Source.render sources strict names ⟨name, [.text text line], []⟩ = .ok text := by
  have hrender : Source.render sources strict names ⟨name, [.text text line], []⟩ =
      .ok ("" ++ text) := rfl
  rw [hrender, String.empty_append]

end DeliveryCharts.Template
