import DeliveryCharts.Proofs.Diff.Patch
import DeliveryCharts.Proofs.Platform.Detection

/-!
What a report shows of a change: for an object that differs from the platform's copy, and only if
it was asked for, a patch that is not empty.
-/

namespace DeliveryCharts.Platform

open Diff (Hunk Patched ofTexts shownLines)
open Manifest (Compiled)
open Store (armed copy holding planned)

variable {σ : Type} {o : Options} {c : Compiled} {report : Report}

/-- Whatever the platform does, a report comes from the copy that it has shown. -/
theorem exists_reportOf {client : Client σ} {s t : σ}
    (h : (client.reconcile o c).on s = (.ok report, t)) :
    ∃ existing, report = reportOf o c existing := by
  have hreconcile : client.reconcile o c = client.existing c >>= fun existing ↦ do
      if (reportOf o c existing).saved then
        client.save (.ofCompiled c) (some (Text.utf8String c.canonicalText))
      return reportOf o c existing := rfl
  rw [hreconcile] at h
  obtain ⟨existing, u, -, hanswer⟩ := Request.on_bind_eq_ok_iff.mp h
  refine ⟨existing, ?_⟩
  by_cases hsaved : (reportOf o c existing).saved = true
  · simp only [hsaved, if_true] at hanswer
    obtain ⟨-, v, -, hreport⟩ := Request.on_bind_eq_ok_iff.mp hanswer
    exact (Except.ok.inj (congrArg Prod.fst hreport)).symm
  · simp only [hsaved] at hanswer
    exact (Except.ok.inj (congrArg Prod.fst hanswer)).symm

theorem isSome_diff_reportOf (existing : Option String) :
    (reportOf o c existing).diff.isSome ↔
      (reportOf o c existing).outcome = .changed ∧ o.showDiff = true := by
  cases existing with
  | none => simp [reportOf, diffOf, compare]
  | some old => by_cases hequal : old = c.canonicalText <;> simp [reportOf, diffOf, compare, hequal]

theorem changes_of_diff {existing : Option String} {d : Diff}
    (h : (reportOf o c existing).diff = some d) : 0 < d.additions + d.deletions := by
  cases existing with
  | none => simp [reportOf, diffOf] at h
  | some old =>
    simp only [reportOf, diffOf] at h
    split at h
    · rename_i hdiffers
      cases h
      apply Nat.pos_of_ne_zero
      intro hzero
      obtain ⟨hadd, hdrop⟩ := Nat.add_eq_zero_iff.mp hzero
      exact hdiffers.1 (Diff.eq_of_unchanged hadd hdrop)
    · simp at h

/-- The hunks of a diff fit the old lines in order, and their lines in place of those they fit give
the new lines; a report has a diff of an object that changes, with at least one changed line. -/
theorem diff_is_patch (context : Nat) (old new : String) (client : Client σ) (o : Options)
    (c : Compiled) (s : σ) :
    ((ofTexts context old new).additions =
        (ofTexts context old new).hunks.flatten.countP (·.change = .add) ∧
      (ofTexts context old new).deletions =
        (ofTexts context old new).hunks.flatten.countP (·.change = .drop) ∧
      ((ofTexts context old new).additions : Int) - (ofTexts context old new).deletions =
        (shownLines new).length - (shownLines old).length ∧
      ((ofTexts context old new).hunks = [] ↔ old = new) ∧
      Patched Hunk.old Hunk.new (ofTexts context old new).hunks (shownLines old)
        (shownLines new)) ∧
    ∀ report t, (client.reconcile o c).on s = (.ok report, t) →
      (report.diff.isSome ↔ report.outcome = .changed ∧ o.showDiff = true) ∧
      ∀ d, report.diff = some d → 0 < d.additions + d.deletions := by
  refine ⟨⟨Diff.additions_ofTexts .., Diff.deletions_ofTexts .., ?_, Diff.hunks_eq_nil_iff,
    Diff.patched_ofTexts ..⟩, ?_⟩
  · have hlength := Diff.length_shownLines_add context old new
    omega
  · intro report t h
    obtain ⟨existing, rfl⟩ := exists_reportOf h
    exact ⟨isSome_diff_reportOf existing, fun d hd ↦ changes_of_diff hd⟩

/-- The trigger of the pipeline has another number on the platform. -/
theorem diff_is_patch_armed :
    (ofTexts 0 "a\r\nb\nc" "a\r\nc\n").hunks =
      [[⟨.drop, "b"⟩, ⟨.drop, "c"⟩, ⟨.add, "c"⟩]] ∧
    Patched Hunk.old Hunk.new (ofTexts 0 "a\r\nb\nc" "a\r\nc\n").hunks ["a\r", "b", "c"]
      ["a\r", "c"] ∧
    ∃ report, planned (copy "\"a\":1" "") = .ok report ∧ report.outcome = .changed ∧
      ∃ d, report.diff = some d ∧ 0 < d.additions + d.deletions := by
  have hpatch := diff_is_patch 0 "a\r\nb\nc" "a\r\nc\n" Store.client .plan (.pipeline armed)
    (holding (copy "\"a\":1" ""))
  refine ⟨by decide +kernel, hpatch.1.2.2.2.2, ?_⟩
  have houtcome : (planned (copy "\"a\":1" "")).map Report.outcome = .ok .changed := by
    decide +kernel
  cases hplanned : planned (copy "\"a\":1" "") with
  | error e =>
    rw [hplanned] at houtcome
    cases houtcome
  | ok report =>
    rw [hplanned] at houtcome
    have hchanged : report.outcome = .changed := Except.ok.inj houtcome
    obtain ⟨hshown, hpositive⟩ := hpatch.2 report _ (Prod.ext hplanned rfl)
    obtain ⟨d, hd⟩ := Option.isSome_iff_exists.mp (hshown.mpr ⟨hchanged, rfl⟩)
    exact ⟨report, rfl, hchanged, d, hd, hpositive d hd⟩

end DeliveryCharts.Platform
