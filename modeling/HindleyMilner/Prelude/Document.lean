import HindleyMilner.Prelude
import HindleyMilner.Yaml.Record

/-! Preludes written in YAML.

The document is a mapping with a sequence of mappings under `bindings`. Keys that mean nothing here
are passed over, missing values are empty, and missing items do not count. -/

set_option autoImplicit false

namespace HindleyMilner.Prelude

open Yaml

/-- The fields of an entry are texts; one that stands for no value is left as it is. -/
def entryFields : Fields Entry where
  names := ["name", "type", "doc"]
  set place entry name node := do
    match ← place.text node with
    | none => return entry
    | some text =>
      if name = "name" then return { entry with name := text }
      else if name = "type" then return { entry with type := text }
      else return { entry with doc := text }

def documentFields : Fields (List Entry) where
  names := ["bindings"]
  set place _ _ node := place.items (fun place node => entryFields.readNode place {} node) node

/-- The entries that some bytes hold, or nothing if they are no document of this kind. -/
def entries? (bytes : List UInt8) : Option (List Entry) := do
  let document ← Document.parse bytes
  match document.root with
  | none => return []
  | some root =>
    let place : Place := { document }
    let (entries, _) ← (do place.visit; documentFields.readNode place [] root : Decode _).run {}
    return entries.getD []

def load (path : String) (bytes : List UInt8) : Loaded :=
  match entries? bytes with
  | none => unreadable path (.plain ("parsing " ++ path ++ ": yaml"))
  | some entries => check path entries

def unnamedPath : String := "<input>"

def broken (reason : String) : Loaded :=
  unreadable unnamedPath (.within "reading prelude" (.plain reason))

end HindleyMilner.Prelude
