/-! Types: variables and applications of named constructors.

A function type is the application of the constructor `->` to a domain and a codomain, and nothing
keeps that constructor from having another number of arguments. The absent type marks the place of
a type that was not given; it is equal to no type. -/

set_option autoImplicit false

namespace HindleyMilner

inductive Ty where
  | absent
  | var (name : String)
  | app (con : String) (args : List Ty)
  deriving Repr, Inhabited

namespace Ty

mutual
/-- Identity of types is decidable; here two absent types are the same value. -/
def decideEq : (a b : Ty) → Decidable (a = b)
  | .absent, .absent => isTrue rfl
  | .var a, .var b =>
    if same : a = b then isTrue (same ▸ rfl) else isFalse fun equal => same (Ty.var.inj equal)
  | .app c as, .app d bs =>
    if same : c = d then
      match decideEqAll as bs with
      | isTrue sameArgs => isTrue (same ▸ sameArgs ▸ rfl)
      | isFalse differ => isFalse fun equal => differ (Ty.app.inj equal).2
    else isFalse fun equal => same (Ty.app.inj equal).1
  | .absent, .var _ | .absent, .app _ _ | .var _, .absent | .var _, .app _ _
  | .app _ _, .absent | .app _ _, .var _ => isFalse nofun

def decideEqAll : (as bs : List Ty) → Decidable (as = bs)
  | [], [] => isTrue rfl
  | a :: as, b :: bs =>
    match decideEq a b with
    | isTrue same =>
      match decideEqAll as bs with
      | isTrue sameRest => isTrue (same ▸ sameRest ▸ rfl)
      | isFalse differ => isFalse fun equal => differ (List.cons.inj equal).2
    | isFalse differ => isFalse fun equal => differ (List.cons.inj equal).1
  | [], _ :: _ | _ :: _, [] => isFalse nofun
end

instance : DecidableEq Ty := decideEq

mutual
/-- Induction in which the hypothesis covers every argument of an application. -/
theorem argsInduction {P : Ty → Prop} (absent : P .absent) (var : ∀ name, P (.var name))
    (app : ∀ con args, (∀ t ∈ args, P t) → P (.app con args)) : ∀ t, P t
  | .absent => absent
  | .var name => var name
  | .app con args => app con args (argsInductionAll absent var app args)

theorem argsInductionAll {P : Ty → Prop} (absent : P .absent) (var : ∀ name, P (.var name))
    (app : ∀ con args, (∀ t ∈ args, P t) → P (.app con args)) : ∀ ts : List Ty, ∀ t ∈ ts, P t
  | [], _, mem => nomatch mem
  | head :: rest, t, mem => by
    rcases List.mem_cons.1 mem with same | inRest
    · exact same ▸ argsInduction absent var app head
    · exact argsInductionAll absent var app rest t inRest
end

def arrowName : String := "->"

def arrow (domain codomain : Ty) : Ty := .app arrowName [domain, codomain]

def arrows (params : List Ty) (result : Ty) : Ty := params.foldr arrow result

def const (name : String) : Ty := .app name []

def int : Ty := const "Int"

def bool : Ty := const "Bool"

def isArrow : Ty → Bool
  | .app con _ => con == arrowName
  | _ => false

mutual
/-- Structural equality, under which an absent type equals nothing. -/
def equals : Ty → Ty → Bool
  | .var a, .var b => a == b
  | .app c as, .app d bs => c == d && equalsAll as bs
  | _, _ => false

def equalsAll : List Ty → List Ty → Bool
  | [], [] => true
  | a :: as, b :: bs => equals a b && equalsAll as bs
  | _, _ => false
end

mutual
def isComplete : Ty → Bool
  | .absent => false
  | .var _ => true
  | .app _ args => allComplete args

def allComplete : List Ty → Bool
  | [] => true
  | t :: rest => isComplete t && allComplete rest
end

mutual
def size : Ty → Nat
  | .absent => 1
  | .var _ => 1
  | .app _ args => 1 + sizeAll args

def sizeAll : List Ty → Nat
  | [] => 0
  | t :: rest => size t + sizeAll rest
end

mutual
def occurs (name : String) : Ty → Bool
  | .absent => false
  | .var other => other == name
  | .app _ args => occursAny name args

def occursAny (name : String) : List Ty → Bool
  | [] => false
  | t :: rest => occurs name t || occursAny name rest
end

mutual
/-- Add the variables of a type to those found so far, each at its first occurrence, passing over
the bound ones. -/
def collect (bound : List String) : Ty → List String → List String
  | .absent, found => found
  | .var name, found => if name ∈ bound ∨ name ∈ found then found else found ++ [name]
  | .app _ args, found => collectAll bound args found

def collectAll (bound : List String) : List Ty → List String → List String
  | [], found => found
  | t :: rest, found => collectAll bound rest (collect bound t found)
end

def vars (t : Ty) : List String := collect [] t []

theorem occursAny_eq_any (name : String) (ts : List Ty) :
    occursAny name ts = ts.any (occurs name) := by
  induction ts with
  | nil => rfl
  | cons t rest ih => simp [occursAny, ih]

theorem occurs_app (name con : String) (args : List Ty) :
    occurs name (.app con args) = args.any (occurs name) := by
  rw [occurs, occursAny_eq_any]

theorem collectAll_eq_foldl (bound : List String) (ts : List Ty) (found : List String) :
    collectAll bound ts found = ts.foldl (fun found t => collect bound t found) found := by
  induction ts generalizing found with
  | nil => rfl
  | cons t rest ih => simp [collectAll, ih]

theorem mem_collect {bound : List String} {t : Ty} {found : List String} {name : String} :
    name ∈ collect bound t found ↔ name ∈ found ∨ name ∉ bound ∧ occurs name t = true := by
  induction t using argsInduction generalizing found with
  | absent => simp [collect, occurs]
  | var other =>
    simp only [collect, occurs, beq_iff_eq]
    split <;> grind
  | app con args ih =>
    rw [collect, collectAll_eq_foldl, occurs_app]
    induction args generalizing found with
    | nil => simp
    | cons t rest ihRest =>
      simp only [List.foldl_cons, List.any_cons, Bool.or_eq_true]
      rw [ihRest fun u mem => ih u (List.mem_cons_of_mem _ mem), ih t List.mem_cons_self]
      grind

theorem mem_vars {t : Ty} {name : String} : name ∈ t.vars ↔ occurs name t = true := by
  simp [vars, mem_collect]

theorem nodup_collect {bound : List String} {t : Ty} {found : List String}
    (distinct : found.Nodup) : (collect bound t found).Nodup := by
  induction t using argsInduction generalizing found with
  | absent => exact distinct
  | var other =>
    simp only [collect]
    split
    · exact distinct
    · rename_i new
      simp only [not_or] at new
      refine List.nodup_append.2 ⟨distinct, List.pairwise_singleton _ _, ?_⟩
      intro a mem b memB same
      rw [List.mem_singleton] at memB
      exact new.2 (memB ▸ same ▸ mem)
  | app con args ih =>
    rw [collect, collectAll_eq_foldl]
    induction args generalizing found with
    | nil => exact distinct
    | cons t rest ihRest =>
      exact ihRest (fun u mem => ih u (List.mem_cons_of_mem _ mem)) (ih t List.mem_cons_self distinct)

theorem nodup_vars (t : Ty) : t.vars.Nodup := nodup_collect List.nodup_nil

end Ty

end HindleyMilner
