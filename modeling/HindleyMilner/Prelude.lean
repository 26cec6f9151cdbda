import HindleyMilner.Env
import HindleyMilner.Expr.Reader
import HindleyMilner.Log
import HindleyMilner.Scheme.Reader

/-! Preludes: the bindings that are in scope before anything is defined.

A prelude is given as entries of a name, a signature and a description. It is accepted if every name
is an identifier, no name is given twice, and every signature can be read. Type variables that a
signature does not quantify are quantified after those it does, so every binding is closed. -/

set_option autoImplicit false

namespace HindleyMilner

namespace Prelude

structure Entry where
  name : String := ""
  type : String := ""
  doc : String := ""
  deriving DecidableEq, Repr

structure Binding where
  entry : Entry
  scheme : Scheme
  deriving DecidableEq, Repr

inductive Problem where
  | nameMissing
  | notAName (name : String)
  | duplicate (name : String)
  | typeMissing (name : String)
  | badType (name : String) (error : SyntaxError)
  deriving DecidableEq, Repr

def Problem.toError (path : String) (index : Nat) (problem : Problem) : Error :=
  let place := path ++ ": bindings[" ++ toString index ++ "]"
  match problem with
  | .nameMissing => .plain (place ++ ": name is required")
  | .notAName name => .plain (place ++ ": " ++ Text.quote name ++ " is not a valid identifier")
  | .duplicate name => .plain (place ++ ": duplicate binding " ++ Text.quote name)
  | .typeMissing name => .plain (place ++ " (" ++ name ++ "): type is required")
  | .badType name error => .within (place ++ " (" ++ name ++ "): invalid type") (.malformed error)

/-- The text reads as a variable and nothing else. -/
def isIdentifier (name : String) : Bool :=
  match Expr.parse name with
  | .ok (.var _ _) => true
  | _ => false

def Entry.check (seen : List String) (entry : Entry) : Except Problem Binding :=
  if entry.name = "" then .error .nameMissing
  else if !isIdentifier entry.name then .error (.notAName entry.name)
  else if entry.name ∈ seen then .error (.duplicate entry.name)
  else if entry.type = "" then .error (.typeMissing entry.name)
  else
    match Scheme.parse entry.type with
    | .error error => .error (.badType entry.name error)
    | .ok scheme => .ok ⟨entry, scheme.close⟩

/-- The bindings up to the first entry that is refused, and what is wrong with that one. -/
def checkFrom (seen : List String) : List Entry → List Binding × Option Problem
  | [] => ([], none)
  | entry :: rest =>
    match entry.check seen with
    | .error problem => ([], some problem)
    | .ok binding =>
      let (bindings, problem) := checkFrom (entry.name :: seen) rest
      (binding :: bindings, problem)

end Prelude

structure Prelude where
  bindings : List Prelude.Binding
  deriving DecidableEq, Repr

namespace Prelude

/-- What loading a prelude gives: the prelude or an error, and the bindings accepted on the way. -/
structure Loaded where
  path : String
  accepted : List Binding
  outcome : Except Error Prelude

def check (path : String) (entries : List Entry) : Loaded :=
  match checkFrom [] entries with
  | (accepted, none) => ⟨path, accepted, .ok ⟨accepted⟩⟩
  | (accepted, some problem) => ⟨path, accepted, .error (problem.toError path accepted.length)⟩

def unreadable (path : String) (error : Error) : Loaded := ⟨path, [], .error error⟩

def Loaded.log (config : Log.Config) (loaded : Loaded) : Except Fault String := do
  let lines ← loaded.accepted.mapM fun binding => do
    return Log.debugLine config "prelude" "binding"
      [⟨"name", .ofString binding.entry.name⟩, ⟨"scheme", .ofString (← binding.scheme.render)⟩]
  let last :=
    match loaded.outcome with
    | .error _ => ""
    | .ok prelude => Log.debugLine config "prelude" "loaded prelude"
        [⟨"path", .ofString loaded.path⟩, ⟨"bindings", .number prelude.bindings.length⟩]
  return String.join lines ++ last

def env (prelude : Prelude) : Env :=
  prelude.bindings.foldl (fun env binding => env.extend binding.entry.name binding.scheme) ∅

def find? (prelude : Prelude) (name : String) : Option Binding :=
  prelude.bindings.find? (·.entry.name = name)

/-- The bindings of the prelude that is used when no other is asked for. -/
def standardEntries : List Entry :=
  [⟨"list", "forall a. a -> List a", "Wrap a value in a single-element list."⟩,
   ⟨"inc", "Int -> Int", "Increment an integer."⟩,
   ⟨"dec", "Int -> Int", "Decrement an integer."⟩,
   ⟨"isNull", "forall a. a -> Bool", "Test whether a value is null."⟩,
   ⟨"add", "Int -> Int -> Int", "Add two integers."⟩]

def standard : Loaded := check "prelude.yaml" standardEntries

end Prelude

end HindleyMilner
