import DeliveryCharts.Template.Render

/-!
Renumbering the lines of a template. Two renumberings follow each other as one, and the names that a
procedure uses do not depend on its lines.
-/

namespace DeliveryCharts.Template

variable (φ ψ : Nat → Nat)

mutual

def Expr.relabel : Expr → Expr
  | .const v line => .const v (φ line)
  | .var name line => .var name (φ line)
  | .given line => .given (φ line)
  | .list items line => .list (relabelItems items) (φ line)
  | .map entries line => .map (relabelEntries entries) (φ line)
  | .field e name line => .field e.relabel name (φ line)
  | .item e index line => .item e.relabel index.relabel (φ line)
  | .slice e start stop step line =>
    .slice e.relabel start.relabel stop.relabel step.relabel (φ line)
  | .not e line => .not e.relabel (φ line)
  | .neg e line => .neg e.relabel (φ line)
  | .binary op e f line => .binary op e.relabel f.relabel (φ line)
  | .and e f line => .and e.relabel f.relabel (φ line)
  | .or e f line => .or e.relabel f.relabel (φ line)
  | .choice test yes no line => .choice test.relabel yes.relabel no.relabel (φ line)
  | .filter name e args line => .filter name e.relabel (relabelArguments args) (φ line)
  | .test name e args line => .test name e.relabel (relabelArguments args) (φ line)
  | .call name args line => .call name (relabelArguments args) (φ line)
  | .method e name args line => .method e.relabel name (relabelArguments args) (φ line)
  | .apply e args line => .apply e.relabel (relabelArguments args) (φ line)
  | .block name line => .block name (φ line)

def relabelItems : List Expr → List Expr
  | [] => []
  | e :: es => e.relabel :: relabelItems es

def relabelEntries : List (Expr × Expr) → List (Expr × Expr)
  | [] => []
  | (k, v) :: es => (k.relabel, v.relabel) :: relabelEntries es

def relabelArguments : List Argument → List Argument
  | [] => []
  | a :: as => a.relabel :: relabelArguments as

def Argument.relabel : Argument → Argument
  | .plain e => .plain e.relabel
  | .spread e => .spread e.relabel
  | .named name e => .named name e.relabel
  | .spreadNamed e => .spreadNamed e.relabel

end

mutual

def Target.relabel : Target → Target
  | .var name line => .var name (φ line)
  | .field e name line => .field (e.relabel φ) name (φ line)
  | .tuple targets line => .tuple (relabelTargets targets) (φ line)

def relabelTargets : List Target → List Target
  | [] => []
  | t :: ts => t.relabel :: relabelTargets ts

end

mutual

def Stmt.relabel : Stmt → Stmt
  | .text s line => .text s (φ line)
  | .emit e line => .emit (e.relabel φ) (φ line)
  | .loop target items only recursive body otherwise line =>
    .loop (target.relabel φ) (items.relabel φ) (only.map (Expr.relabel φ)) recursive
      (relabelBody body) (relabelBody otherwise) (φ line)
  | .cond test yes no => .cond (test.relabel φ) (relabelBody yes) (relabelBody no)
  | .scope assignments body =>
    .scope (assignments.map fun a ↦ (a.1.relabel φ, a.2.relabel φ)) (relabelBody body)
  | .set target e => .set (target.relabel φ) (e.relabel φ)
  | .setBlock target filter body =>
    .setBlock (target.relabel φ) (filter.map (Expr.relabel φ)) (relabelBody body)
  | .escape mode body => .escape (mode.relabel φ) (relabelBody body)
  | .filter chain body => .filter (chain.relabel φ) (relabelBody body)
  | .block name body line => .block name (relabelBody body) (φ line)
  | .extend template line => .extend (template.relabel φ) (φ line)
  | .embed template optional line => .embed (template.relabel φ) optional (φ line)
  | .importAs template target line => .importAs (template.relabel φ) (target.relabel φ) (φ line)
  | .importNames template names line =>
    .importNames (template.relabel φ)
      (names.map fun n ↦ (n.1, φ n.2.1, n.2.2.relabel φ)) (φ line)
  | .procedure name params defaults body line =>
    .procedure name params (defaults.map (Expr.relabel φ)) (relabelBody body) (φ line)
  | .callWith call params defaults body line =>
    .callWith (call.relabel φ) params (defaults.map (Expr.relabel φ)) (relabelBody body) (φ line)
  | .perform call => .perform (call.relabel φ)

def relabelBody : List Stmt → List Stmt
  | [] => []
  | s :: ss => s.relabel :: relabelBody ss

end

def Source.relabel (source : Source) : Source :=
  { source with
    body := relabelBody φ source.body
    blocks := source.blocks.map fun b ↦ (b.1, relabelBody φ b.2) }

theorem relabelItems_eq_map (es : List Expr) : relabelItems φ es = es.map (Expr.relabel φ) := by
  induction es with
  | nil => rfl
  | cons e es ih => rw [relabelItems, ih, List.map_cons]

theorem Expr.line_relabel (e : Expr) : (e.relabel φ).line = φ e.line := by
  cases e <;> rfl

theorem length_relabelTargets (ts : List Target) : (relabelTargets φ ts).length = ts.length := by
  induction ts with
  | nil => rfl
  | cons t ts ih => rw [relabelTargets, List.length_cons, ih, List.length_cons]

/-! One renumbering behind the other. -/

mutual

theorem Expr.relabel_relabel : (e : Expr) → (e.relabel φ).relabel ψ = e.relabel (ψ ∘ φ)
  | .const _ _ | .var _ _ | .given _ | .block _ _ => rfl
  | .list items _ => by simp [Expr.relabel, relabelItems_relabelItems items]
  | .map entries _ => by simp [Expr.relabel, relabelEntries_relabelEntries entries]
  | .field e _ _ | .not e _ | .neg e _ => by simp [Expr.relabel, e.relabel_relabel]
  | .item e f _ | .binary _ e f _ | .and e f _ | .or e f _ => by
    simp [Expr.relabel, e.relabel_relabel, f.relabel_relabel]
  | .slice e start stop step _ => by
    simp [Expr.relabel, e.relabel_relabel, start.relabel_relabel, stop.relabel_relabel,
      step.relabel_relabel]
  | .choice test yes no _ => by
    simp [Expr.relabel, test.relabel_relabel, yes.relabel_relabel, no.relabel_relabel]
  | .filter _ e args _ | .test _ e args _ | .method e _ args _ | .apply e args _ => by
    simp [Expr.relabel, e.relabel_relabel, relabelArguments_relabelArguments args]
  | .call _ args _ => by simp [Expr.relabel, relabelArguments_relabelArguments args]

theorem relabelItems_relabelItems :
    (es : List Expr) → relabelItems ψ (relabelItems φ es) = relabelItems (ψ ∘ φ) es
  | [] => rfl
  | e :: es => by simp [relabelItems, e.relabel_relabel, relabelItems_relabelItems es]

theorem relabelEntries_relabelEntries : (es : List (Expr × Expr)) →
    relabelEntries ψ (relabelEntries φ es) = relabelEntries (ψ ∘ φ) es
  | [] => rfl
  | (k, v) :: es => by
    simp [relabelEntries, k.relabel_relabel, v.relabel_relabel, relabelEntries_relabelEntries es]

theorem relabelArguments_relabelArguments : (as : List Argument) →
    relabelArguments ψ (relabelArguments φ as) = relabelArguments (ψ ∘ φ) as
  | [] => rfl
  | a :: as => by
    simp [relabelArguments, a.relabel_relabel, relabelArguments_relabelArguments as]

theorem Argument.relabel_relabel : (a : Argument) → (a.relabel φ).relabel ψ = a.relabel (ψ ∘ φ)
  | .plain e | .spread e | .named _ e | .spreadNamed e => by
    simp [Argument.relabel, e.relabel_relabel]

end

mutual

theorem Target.relabel_relabel : (t : Target) → (t.relabel φ).relabel ψ = t.relabel (ψ ∘ φ)
  | .var _ _ => rfl
  | .field e _ _ => by simp [Target.relabel, e.relabel_relabel]
  | .tuple targets _ => by simp [Target.relabel, relabelTargets_relabelTargets targets]

theorem relabelTargets_relabelTargets :
    (ts : List Target) → relabelTargets ψ (relabelTargets φ ts) = relabelTargets (ψ ∘ φ) ts
  | [] => rfl
  | t :: ts => by simp [relabelTargets, t.relabel_relabel, relabelTargets_relabelTargets ts]

end

mutual

theorem Stmt.relabel_relabel : (s : Stmt) → (s.relabel φ).relabel ψ = s.relabel (ψ ∘ φ)
  | .text _ _ => rfl
  | .emit e _ | .perform e => by simp [Stmt.relabel, e.relabel_relabel]
  | .loop target items only _ body otherwise _ => by
    cases only <;> simp [Stmt.relabel, target.relabel_relabel, items.relabel_relabel,
      Expr.relabel_relabel, relabelBody_relabelBody body, relabelBody_relabelBody otherwise]
  | .cond test yes no => by
    simp [Stmt.relabel, test.relabel_relabel, relabelBody_relabelBody yes,
      relabelBody_relabelBody no]
  | .scope assignments body => by
    simp [Stmt.relabel, Target.relabel_relabel, Expr.relabel_relabel, relabelBody_relabelBody body]
  | .set target e => by simp [Stmt.relabel, target.relabel_relabel, e.relabel_relabel]
  | .setBlock target filter body => by
    cases filter <;> simp [Stmt.relabel, target.relabel_relabel, Expr.relabel_relabel,
      relabelBody_relabelBody body]
  | .escape e body | .filter e body => by
    simp [Stmt.relabel, e.relabel_relabel, relabelBody_relabelBody body]
  | .block _ body _ => by simp [Stmt.relabel, relabelBody_relabelBody body]
  | .extend template _ | .embed template _ _ => by simp [Stmt.relabel, template.relabel_relabel]
  | .importAs template target _ => by
    simp [Stmt.relabel, template.relabel_relabel, target.relabel_relabel]
  | .importNames template names _ => by
    simp [Stmt.relabel, template.relabel_relabel, Target.relabel_relabel]
  | .procedure _ _ defaults body _ => by
    simp [Stmt.relabel, Expr.relabel_relabel, relabelBody_relabelBody body]
  | .callWith call _ defaults body _ => by
    simp [Stmt.relabel, call.relabel_relabel, Expr.relabel_relabel, relabelBody_relabelBody body]

theorem relabelBody_relabelBody :
    (body : List Stmt) → relabelBody ψ (relabelBody φ body) = relabelBody (ψ ∘ φ) body
  | [] => rfl
  | s :: ss => by simp [relabelBody, s.relabel_relabel, relabelBody_relabelBody ss]

end

theorem Source.relabel_relabel (source : Source) :
    (source.relabel φ).relabel ψ = source.relabel (ψ ∘ φ) := by
  simp [Source.relabel, relabelBody_relabelBody]

/-! Every line as it is. -/

mutual

theorem Expr.relabel_id : (e : Expr) → e.relabel id = e
  | .const _ _ | .var _ _ | .given _ | .block _ _ => rfl
  | .list items _ => by simp [Expr.relabel, relabelItems_id items]
  | .map entries _ => by simp [Expr.relabel, relabelEntries_id entries]
  | .field e _ _ | .not e _ | .neg e _ => by simp [Expr.relabel, e.relabel_id]
  | .item e f _ | .binary _ e f _ | .and e f _ | .or e f _ => by
    simp [Expr.relabel, e.relabel_id, f.relabel_id]
  | .slice e start stop step _ => by
    simp [Expr.relabel, e.relabel_id, start.relabel_id, stop.relabel_id, step.relabel_id]
  | .choice test yes no _ => by
    simp [Expr.relabel, test.relabel_id, yes.relabel_id, no.relabel_id]
  | .filter _ e args _ | .test _ e args _ | .method e _ args _ | .apply e args _ => by
    simp [Expr.relabel, e.relabel_id, relabelArguments_id args]
  | .call _ args _ => by simp [Expr.relabel, relabelArguments_id args]

theorem relabelItems_id : (es : List Expr) → relabelItems id es = es
  | [] => rfl
  | e :: es => by simp [relabelItems, e.relabel_id, relabelItems_id es]

theorem relabelEntries_id : (es : List (Expr × Expr)) → relabelEntries id es = es
  | [] => rfl
  | (k, v) :: es => by simp [relabelEntries, k.relabel_id, v.relabel_id, relabelEntries_id es]

theorem relabelArguments_id : (as : List Argument) → relabelArguments id as = as
  | [] => rfl
  | a :: as => by simp [relabelArguments, a.relabel_id, relabelArguments_id as]

theorem Argument.relabel_id : (a : Argument) → a.relabel id = a
  | .plain e | .spread e | .named _ e | .spreadNamed e => by
    simp [Argument.relabel, e.relabel_id]

end

mutual

theorem Target.relabel_id : (t : Target) → t.relabel id = t
  | .var _ _ => rfl
  | .field e _ _ => by simp [Target.relabel, e.relabel_id]
  | .tuple targets _ => by simp [Target.relabel, relabelTargets_id targets]

theorem relabelTargets_id : (ts : List Target) → relabelTargets id ts = ts
  | [] => rfl
  | t :: ts => by simp [relabelTargets, t.relabel_id, relabelTargets_id ts]

end

mutual

theorem Stmt.relabel_id : (s : Stmt) → s.relabel id = s
  | .text _ _ => rfl
  | .emit e _ | .perform e => by simp [Stmt.relabel, e.relabel_id]
  | .loop target items only _ body otherwise _ => by
    cases only <;> simp [Stmt.relabel, target.relabel_id, items.relabel_id, Expr.relabel_id,
      relabelBody_id body, relabelBody_id otherwise]
  | .cond test yes no => by
    simp [Stmt.relabel, test.relabel_id, relabelBody_id yes, relabelBody_id no]
  | .scope assignments body => by
    simp [Stmt.relabel, Target.relabel_id, Expr.relabel_id, relabelBody_id body]
  | .set target e => by simp [Stmt.relabel, target.relabel_id, e.relabel_id]
  | .setBlock target filter body => by
    cases filter <;> simp [Stmt.relabel, target.relabel_id, Expr.relabel_id, relabelBody_id body]
  | .escape e body | .filter e body => by
    simp [Stmt.relabel, e.relabel_id, relabelBody_id body]
  | .block _ body _ => by simp [Stmt.relabel, relabelBody_id body]
  | .extend template _ | .embed template _ _ => by simp [Stmt.relabel, template.relabel_id]
  | .importAs template target _ => by simp [Stmt.relabel, template.relabel_id, target.relabel_id]
  | .importNames template names _ => by
    simp [Stmt.relabel, template.relabel_id, Target.relabel_id]
  | .procedure _ _ defaults body _ => by
    simp [Stmt.relabel, ← relabelItems_eq_map, relabelItems_id, relabelBody_id body]
  | .callWith call _ defaults body _ => by
    simp [Stmt.relabel, call.relabel_id, ← relabelItems_eq_map, relabelItems_id,
      relabelBody_id body]

theorem relabelBody_id : (body : List Stmt) → relabelBody id body = body
  | [] => rfl
  | s :: ss => by simp [relabelBody, s.relabel_id, relabelBody_id ss]

end

theorem Source.relabel_id (source : Source) : source.relabel id = source := by
  simp [Source.relabel, relabelBody_id]

/-! Names. -/

mutual

theorem Expr.names_relabel : (e : Expr) → (e.relabel φ).names = e.names
  | .const _ _ | .var _ _ | .given _ | .block _ _ => rfl
  | .list items _ => by
    funext ns
    simp [Expr.relabel, Expr.names, namesOfItems_relabel items]
  | .map entries _ => by
    funext ns
    simp [Expr.relabel, Expr.names, namesOfEntries_relabel entries]
  | .field e _ _ | .not e _ | .neg e _ => by
    funext ns
    simp [Expr.relabel, Expr.names, e.names_relabel]
  | .item e f _ | .binary _ e f _ | .and e f _ | .or e f _ => by
    funext ns
    simp [Expr.relabel, Expr.names, e.names_relabel, f.names_relabel]
  | .slice e start stop step _ => by
    funext ns
    simp [Expr.relabel, Expr.names, e.names_relabel, start.names_relabel, stop.names_relabel,
      step.names_relabel]
  | .choice test yes no _ => by
    funext ns
    simp [Expr.relabel, Expr.names, test.names_relabel, yes.names_relabel, no.names_relabel]
  | .filter _ e args _ | .test _ e args _ | .method e _ args _ | .apply e args _ => by
    funext ns
    simp [Expr.relabel, Expr.names, e.names_relabel, namesOfArguments_relabel args]
  | .call _ args _ => by
    funext ns
    simp [Expr.relabel, Expr.names, namesOfArguments_relabel args]

theorem namesOfItems_relabel :
    (es : List Expr) → namesOfItems (relabelItems φ es) = namesOfItems es
  | [] => rfl
  | e :: es => by
    funext ns
    simp [relabelItems, namesOfItems, e.names_relabel, namesOfItems_relabel es]

theorem namesOfEntries_relabel :
    (es : List (Expr × Expr)) → namesOfEntries (relabelEntries φ es) = namesOfEntries es
  | [] => rfl
  | (k, v) :: es => by
    funext ns
    simp [relabelEntries, namesOfEntries, k.names_relabel, v.names_relabel,
      namesOfEntries_relabel es]

theorem namesOfArguments_relabel :
    (as : List Argument) → namesOfArguments (relabelArguments φ as) = namesOfArguments as
  | [] => rfl
  | a :: as => by
    funext ns
    simp [relabelArguments, namesOfArguments, a.names_relabel, namesOfArguments_relabel as]

theorem Argument.names_relabel : (a : Argument) → (a.relabel φ).names = a.names
  | .plain e | .spread e | .named _ e | .spreadNamed e => by
    funext ns
    simp [Argument.relabel, Argument.names, e.names_relabel]

end

mutual

theorem Target.bound_relabel : (t : Target) → (t.relabel φ).bound = t.bound
  | .var _ _ | .field _ _ _ => rfl
  | .tuple targets _ => by
    funext ns
    simp [Target.relabel, Target.bound, boundByTargets_relabel targets]

theorem boundByTargets_relabel :
    (ts : List Target) → boundByTargets (relabelTargets φ ts) = boundByTargets ts
  | [] => rfl
  | t :: ts => by
    funext ns
    simp [relabelTargets, boundByTargets, t.bound_relabel, boundByTargets_relabel ts]

end

theorem namesOfHead_relabel (params : List String) (defaults : List Expr) :
    namesOfHead params (defaults.map (Expr.relabel φ)) = namesOfHead params defaults := by
  funext ns
  rw [namesOfHead, ← relabelItems_eq_map, namesOfItems_relabel, namesOfHead]

mutual

theorem Stmt.names_relabel : (s : Stmt) → (s.relabel φ).names = s.names
  | .text _ _ | .extend _ _ | .embed _ _ _ => rfl
  | .emit e _ | .perform e => by
    funext ns
    simp [Stmt.relabel, Stmt.names, e.names_relabel]
  | .loop target items only _ body otherwise _ => by
    funext ns
    cases only <;> simp [Stmt.relabel, Stmt.names, target.bound_relabel, items.names_relabel,
      Expr.names_relabel, namesOfBody_relabel body, namesOfBody_relabel otherwise]
  | .cond test yes no => by
    funext ns
    simp [Stmt.relabel, Stmt.names, test.names_relabel, namesOfBody_relabel yes,
      namesOfBody_relabel no]
  | .scope assignments body => by
    funext ns
    simp [Stmt.relabel, Stmt.names, List.foldl_map, Target.bound_relabel, Expr.names_relabel,
      namesOfBody_relabel body]
  | .set target e => by
    funext ns
    simp [Stmt.relabel, Stmt.names, target.bound_relabel, e.names_relabel]
  | .setBlock target _ body => by
    funext ns
    simp [Stmt.relabel, Stmt.names, target.bound_relabel, namesOfBody_relabel body]
  | .escape _ body | .filter _ body | .block _ body _ => by
    funext ns
    simp [Stmt.relabel, Stmt.names, namesOfBody_relabel body]
  | .importAs _ target _ => by
    funext ns
    simp [Stmt.relabel, Stmt.names, target.bound_relabel]
  | .importNames _ names _ => by
    funext ns
    simp [Stmt.relabel, Stmt.names, List.foldl_map, Target.bound_relabel]
  | .procedure _ params defaults body _ => by
    funext ns
    simp [Stmt.relabel, Stmt.names, namesOfHead_relabel, namesOfBody_relabel body]
  | .callWith call params defaults body _ => by
    funext ns
    simp [Stmt.relabel, Stmt.names, call.names_relabel, namesOfHead_relabel,
      namesOfBody_relabel body]

theorem namesOfBody_relabel :
    (body : List Stmt) → namesOfBody (relabelBody φ body) = namesOfBody body
  | [] => rfl
  | s :: ss => by
    funext ns
    simp [relabelBody, namesOfBody, s.names_relabel, namesOfBody_relabel ss]

end

theorem freeNames_relabel (params : List String) (defaults : List Expr) (body : List Stmt) :
    freeNames params (defaults.map (Expr.relabel φ)) (relabelBody φ body) =
      freeNames params defaults body := by
  rw [freeNames, namesOfHead_relabel, namesOfBody_relabel, freeNames]

end DeliveryCharts.Template
