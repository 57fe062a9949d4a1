import SqlScript.Catalog.Listing
import SqlScript.Check.Analyzer
import SqlScript.Check.Script
import SqlScript.Check.Walk
import SqlScript.Command.Run
import SqlScript.Compile
import SqlScript.Grammar.Session
import SqlScript.Main
import SqlScript.Report.Diagram
import SqlScript.Report.Json
import SqlScript.Report.Listing
import SqlScript.Proofs.Grammar.Phrase
import SqlScript.Proofs.Grammar.Inversion
import SqlScript.Proofs.Grammar.Exact
import SqlScript.Proofs.Grammar.ExpressionRules
import SqlScript.Proofs.Grammar.StatementRules
import SqlScript.Proofs.Grammar.Language
import SqlScript.Proofs.Grammar.Parts
import SqlScript.Proofs.Grammar.Plain
import SqlScript.Proofs.Grammar.Openers
import SqlScript.Proofs.Token.Order
import SqlScript.Proofs.Grammar.Barrier
import SqlScript.Proofs.Catalog.Lookup
import SqlScript.Proofs.Check.Expression
import SqlScript.Proofs.Text.Casing
import SqlScript.Proofs.Tree.Children
import SqlScript.Proofs.Check.Declaration
import SqlScript.Proofs.Check.Statement
import SqlScript.Proofs.Check.Script
import SqlScript.Proofs.Check.Annotate
import SqlScript.Proofs.Check.Passes
import SqlScript.Proofs.Check.Independence
import SqlScript.Proofs.Tree.Map
import SqlScript.Proofs.Tree.Recast
import SqlScript.Proofs.Check.Recast
import SqlScript.Proofs.Check.Relaid
import SqlScript.Proofs.Check.Truth
import SqlScript.Proofs.Check.TrueParts
import SqlScript.Proofs.Check.Provenance
import SqlScript.Proofs.Check.Annotation
import SqlScript.Proofs.Token.Layout
import SqlScript.Proofs.Grammar.Unended
import SqlScript.Proofs.Grammar.Broken
import SqlScript.Proofs.Grammar.Spelling
import SqlScript.Proofs.Token.Rescan
import SqlScript.Proofs.Grammar.Uniform
import SqlScript.Proofs.Tree.Printing
import SqlScript.Proofs.Grammar.Minimal
import SqlScript.Proofs.Grammar.RoundTrip
import SqlScript.Proofs.Grammar.Anchored
import SqlScript.Proofs.Compile.Blank
import SqlScript.Proofs.Compile.Folding
import SqlScript.Proofs.Catalog.History
import SqlScript.Proofs.Check.Registration
import SqlScript.Proofs.Token.Classes
import SqlScript.Proofs.Check.Walk
import SqlScript.Proofs.Check.Conditions
import SqlScript.Proofs.Grammar.Shape
import SqlScript.Proofs.Token.Lines
import SqlScript.Proofs.Token.LineEnds
import SqlScript.Proofs.Compile.LineEnds
import SqlScript.Proofs.Check.Analyzer
import SqlScript.Grammar.Reading
import SqlScript.Proofs.Grammar.Courses
import SqlScript.Proofs.Grammar.Following
import SqlScript.Proofs.Grammar.ScriptCourses
import SqlScript.Proofs.Grammar.Termination
import SqlScript.Proofs.Grammar.Walks
import SqlScript.Proofs.Grammar.Driving
import SqlScript.Proofs.Grammar.Limit
import SqlScript.Proofs.Report.Records
import SqlScript.Proofs.Report.Outline
import SqlScript.Proofs.Report.Diagram
import SqlScript.Proofs.Report.Agreement
import SqlScript.Proofs.Report.Readback
import SqlScript.Proofs.Grammar.Texts
import SqlScript.Proofs.Check.Failures
import SqlScript.Proofs.Report.Dot
import SqlScript.Proofs.Report.Source
import SqlScript.Proofs.Report.Labels
