import HindleyMilner.Command
import HindleyMilner.Command.Files
import HindleyMilner.Command.Options
import HindleyMilner.Command.Suggestion
import HindleyMilner.Env
import HindleyMilner.Error
import HindleyMilner.Expr
import HindleyMilner.Expr.Outline
import HindleyMilner.Expr.Reader
import HindleyMilner.Fault
import HindleyMilner.Infer
import HindleyMilner.Log
import HindleyMilner.Log.Level
import HindleyMilner.Main
import HindleyMilner.NameMap
import HindleyMilner.NameSet
import HindleyMilner.Position
import HindleyMilner.Prelude
import HindleyMilner.Prelude.Document
import HindleyMilner.Proofs.Allocation
import HindleyMilner.Proofs.AlphaEquality
import HindleyMilner.Proofs.Annotation
import HindleyMilner.Proofs.Arities
import HindleyMilner.Proofs.BoundNames
import HindleyMilner.Proofs.ClosedSchemes
import HindleyMilner.Proofs.Declarative
import HindleyMilner.Proofs.Definitions
import HindleyMilner.Proofs.Derivation
import HindleyMilner.Proofs.EnvironmentNames
import HindleyMilner.Proofs.Equivariance
import HindleyMilner.Proofs.ExpressionErrors
import HindleyMilner.Proofs.ExpressionGrammar
import HindleyMilner.Proofs.Failures
import HindleyMilner.Proofs.FreeVariables
import HindleyMilner.Proofs.FreshNames
import HindleyMilner.Proofs.Freshness
import HindleyMilner.Proofs.InferredSchemes
import HindleyMilner.Proofs.Instances
import HindleyMilner.Proofs.Lexing
import HindleyMilner.Proofs.Logging
import HindleyMilner.Proofs.Marks
import HindleyMilner.Proofs.MismatchTexts
import HindleyMilner.Proofs.Numbering
import HindleyMilner.Proofs.Occurrences
import HindleyMilner.Proofs.Preludes
import HindleyMilner.Proofs.Principality
import HindleyMilner.Proofs.PrintedExpressions
import HindleyMilner.Proofs.PrintedTypes
import HindleyMilner.Proofs.Printing
import HindleyMilner.Proofs.Reading
import HindleyMilner.Proofs.Refusals
import HindleyMilner.Proofs.Renaming
import HindleyMilner.Proofs.Renumbering
import HindleyMilner.Proofs.Replacement
import HindleyMilner.Proofs.Reports
import HindleyMilner.Proofs.Run
import HindleyMilner.Proofs.Scanning
import HindleyMilner.Proofs.Signature
import HindleyMilner.Proofs.Soundness
import HindleyMilner.Proofs.Substitution
import HindleyMilner.Proofs.Symmetry
import HindleyMilner.Proofs.Termination
import HindleyMilner.Proofs.Transcripts
import HindleyMilner.Proofs.TypeErrors
import HindleyMilner.Proofs.TypeGrammar
import HindleyMilner.Proofs.Unification
import HindleyMilner.Proofs.Weakening
import HindleyMilner.Reader
import HindleyMilner.Repl
import HindleyMilner.Scheme
import HindleyMilner.Scheme.Reader
import HindleyMilner.Session
import HindleyMilner.Subst
import HindleyMilner.Supply
import HindleyMilner.Text.Base64
import HindleyMilner.Text.Blank
import HindleyMilner.Text.Digit
import HindleyMilner.Text.Letter
import HindleyMilner.Text.Lines
import HindleyMilner.Text.Lower
import HindleyMilner.Text.Numeral
import HindleyMilner.Text.Quoted
import HindleyMilner.Text.Ranges
import HindleyMilner.Text.Upper
import HindleyMilner.Text.Utf8
import HindleyMilner.Text.Visible
import HindleyMilner.Token
import HindleyMilner.Ty
import HindleyMilner.Ty.Printer
import HindleyMilner.Ty.Reader
import HindleyMilner.Ty.Renaming
import HindleyMilner.Unify
import HindleyMilner.Yaml.Comment
import HindleyMilner.Yaml.Cursor
import HindleyMilner.Yaml.Node
import HindleyMilner.Yaml.Property
import HindleyMilner.Yaml.Record
import HindleyMilner.Yaml.Scalar.Block
import HindleyMilner.Yaml.Scalar.Gap
import HindleyMilner.Yaml.Scalar.Kind
import HindleyMilner.Yaml.Scalar.Plain
import HindleyMilner.Yaml.Scalar.Quoted
import HindleyMilner.Yaml.Source
import HindleyMilner.Yaml.Token
import HindleyMilner.Yaml.Tokens
