import HindleyMilner.Expr
import HindleyMilner.Proofs.Substitution

/-! The types assigned to the nodes of an expression.

Two expressions have the same shape if they differ in nothing but the assigned types. The text of
an expression shows its shape only. -/

set_option autoImplicit false

namespace HindleyMilner

namespace Expr

def types : Expr → List Ty
  | .absent => []
  | .lit _ _ mark => [mark.type]
  | .var _ mark => [mark.type]
  | .call fn arg mark => mark.type :: (fn.types ++ arg.types)
  | .func _ body mark => mark.type :: body.types
  | .letIn _ value body _ => value.types ++ body.types

def shape (expr : Expr) : Expr := expr.mapTypes fun _ => .absent

theorem mapTypes_mapTypes (f g : Ty → Ty) (expr : Expr) :
    (expr.mapTypes f).mapTypes g = expr.mapTypes fun t => g (f t) := by
  induction expr with
  | absent => rfl
  | lit kind text mark => rfl
  | var name mark => rfl
  | call fn arg mark ihFn ihArg => simp only [mapTypes, ihFn, ihArg]
  | func param body mark ih => simp only [mapTypes, ih]
  | letIn name value body pos ihValue ihBody => simp only [mapTypes, ihValue, ihBody]

theorem mapTypes_apply_apply (s next : Subst) (expr : Expr) :
    (expr.mapTypes s.apply).mapTypes next.apply = expr.mapTypes (s.compose next).apply := by
  rw [mapTypes_mapTypes]
  congr 1
  funext t
  exact (Subst.apply_compose s next t).symm

@[simp] theorem shape_mapTypes (f : Ty → Ty) (expr : Expr) : (expr.mapTypes f).shape = expr.shape :=
  mapTypes_mapTypes f _ expr

theorem mapTypes_congr {f g : Ty → Ty} {expr : Expr} (same : ∀ t ∈ expr.types, f t = g t) :
    expr.mapTypes f = expr.mapTypes g := by
  induction expr with
  | absent => rfl
  | lit kind text mark => simp only [mapTypes, same mark.type List.mem_cons_self]
  | var name mark => simp only [mapTypes, same mark.type List.mem_cons_self]
  | call fn arg mark ihFn ihArg =>
    obtain ⟨here, parts⟩ := List.forall_mem_cons.1 same
    obtain ⟨inFn, inArg⟩ := List.forall_mem_append.1 parts
    simp only [mapTypes, here, ihFn inFn, ihArg inArg]
  | func param body mark ih =>
    obtain ⟨here, inBody⟩ := List.forall_mem_cons.1 same
    simp only [mapTypes, here, ih inBody]
  | letIn name value body pos ihValue ihBody =>
    obtain ⟨inValue, inBody⟩ := List.forall_mem_append.1 same
    simp only [mapTypes, ihValue inValue, ihBody inBody]

@[simp] theorem type_mapTypes_apply (s : Subst) (expr : Expr) :
    (expr.mapTypes s.apply).type = s.apply expr.type := by
  induction expr with
  | absent => exact (Subst.apply_absent s).symm
  | lit kind text mark => rfl
  | var name mark => rfl
  | call fn arg mark _ _ => rfl
  | func param body mark _ => rfl
  | letIn name value body pos _ ihBody => exact ihBody

@[simp] theorem render_mapTypes (f : Ty → Ty) (expr : Expr) : (expr.mapTypes f).render = expr.render := by
  induction expr with
  | absent => rfl
  | lit kind text mark => rfl
  | var name mark => rfl
  | call fn arg mark ihFn ihArg => simp only [mapTypes, render, ihFn, ihArg]
  | func param body mark ih => simp only [mapTypes, render, ih]
  | letIn name value body pos ihValue ihBody => simp only [mapTypes, render, ihValue, ihBody]

theorem types_mapTypes (f : Ty → Ty) (expr : Expr) : (expr.mapTypes f).types = expr.types.map f := by
  induction expr with
  | absent => rfl
  | lit kind text mark => rfl
  | var name mark => rfl
  | call fn arg mark ihFn ihArg => simp only [mapTypes, types, ihFn, ihArg, List.map_cons, List.map_append]
  | func param body mark ih => simp only [mapTypes, types, ih, List.map_cons]
  | letIn name value body pos ihValue ihBody => simp only [mapTypes, types, ihValue, ihBody, List.map_append]

theorem mapTypes_eq_absent {f : Ty → Ty} {expr : Expr} : expr.mapTypes f = .absent ↔ expr = .absent := by
  cases expr <;> simp [mapTypes]

end Expr

end HindleyMilner
