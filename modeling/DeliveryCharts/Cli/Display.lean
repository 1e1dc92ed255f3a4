import DeliveryCharts.Platform.Reconcile

/-!
What the program prints about plans and deletions.
-/

namespace DeliveryCharts.Cli.Display

open Platform (Report Object Deletion)

def outcome (r : Report) : String :=
  match r.outcome, r.saved with
  | .unchanged, _ => s!"= {r.object.describe}: no changes"
  | .new, true => s!"+ {r.object.describe}: created"
  | .new, false => s!"+ {r.object.describe}: will be created"
  | .changed, true => s!"~ {r.object.describe}: updated"
  | .changed, false => s!"~ {r.object.describe}: will be updated"

def report (r : Report) : List String := outcome r :: r.diff.elim [] Diff.lines

/-- How many objects are new, changed and unchanged. -/
def summary (reports : List Report) (dryRun : Bool) : String :=
  let count := fun o ↦ (reports.filter fun r ↦ r.outcome = o).length
  let title := if dryRun then "Plan" else "Applied"
  s!"{title}: {count .new} new, {count .changed} changed, {count .unchanged} unchanged"

def reports (l : List Report) (dryRun : Bool) : List String :=
  l.flatMap report ++ ["", summary l dryRun]

def deletion (o : Object) : Deletion → String
  | .deleted => s!"- {o.describe}: deleted"
  | .absent => s!"= {o.describe}: not found, nothing to delete"

end DeliveryCharts.Cli.Display
