import HindleyMilner.Scheme

/-! Environments: the schemes of the names in scope. -/

set_option autoImplicit false

namespace HindleyMilner

abbrev Env := NameMap Scheme

namespace Env

/-- A later binding of a name hides an earlier one. -/
def extend (env : Env) (name : String) (scheme : Scheme) : Env := env.insert name scheme

def declare (env : Env) (name : String) (t : Ty) : Env := env.extend name (.mono t)

def subst (s : Subst) (env : Env) : Env := env.map (Scheme.subst s)

def freeVars (env : Env) : NameSet :=
  NameSet.ofNames (env.entries.flatMap fun entry => entry.2.freeVars)

/-- Quantify over the variables of a type that are not free in the environment. -/
def generalize (env : Env) (t : Ty) : Scheme := Scheme.generalize t env.freeVars

def render (env : Env) : Except Fault String := do
  let lines ← env.entries.mapM fun (name, scheme) => do
    return name ++ " : " ++ (← scheme.render) ++ "\n"
  return String.join lines

end Env

end HindleyMilner
