/-! Tokens of a YAML stream.

Some tokens have no text: they stand where a collection starts or ends, and before a key that no sign
announces. -/

set_option autoImplicit false

namespace HindleyMilner.Yaml

inductive Token where
  | streamStart
  | streamEnd
  /-- A directive that gives the version of the language. -/
  | version (major minor : Nat)
  /-- A directive that gives a handle for tags with a common start. -/
  | handle (name start : String)
  | documentStart
  | documentEnd
  | blockSequence
  | blockMapping
  | blockEnd
  | flowSequence
  | flowSequenceEnd
  | flowMapping
  | flowMappingEnd
  | blockEntry
  | flowEntry
  | key
  | value
  | reference (name : String)
  | anchor (name : String)
  | tag (handle rest : String)
  | scalar (plain : Bool) (text : String)
  deriving DecidableEq, Repr

end HindleyMilner.Yaml
