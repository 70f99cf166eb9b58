import TokenForge.Main
import TokenForge.Proofs.Flatten.Session
import TokenForge.Proofs.Flatten.Expansion
import TokenForge.Proofs.Flatten.Reachable
import TokenForge.Proofs.Text.Lines
import TokenForge.Proofs.Flatten.BlankLines
import TokenForge.Proofs.Flatten.Document
import TokenForge.Proofs.Flatten.DirectiveLine
import TokenForge.Proofs.Flatten.PreambleLine
import TokenForge.Proofs.Path
import TokenForge.Proofs.Flatten.Reference
import TokenForge.Proofs.Flatten.LineByLine
import TokenForge.Proofs.Flatten.Junction
import TokenForge.Proofs.Token.Validate
import TokenForge.Proofs.Import.Pasted
import TokenForge.Proofs.Solidity.Lines
import TokenForge.Proofs.Token.Features
import TokenForge.Proofs.Token.Lines
import TokenForge.Proofs.Token.Imports
import TokenForge.Proofs.Compile.Closure
import TokenForge.Proofs.Compile.Agreement
import TokenForge.Proofs.Flatten.DependencyOrder
import TokenForge.Proofs.Flatten.Anchored
import TokenForge.Proofs.Flatten.SelfContained
import TokenForge.Proofs.Compile.Report
import TokenForge.Proofs.Compile.Stages
import TokenForge.Proofs.Flatten.DepthLimit
import TokenForge.Proofs.Flatten.Edges
import TokenForge.Proofs.Flatten.PreamblePart
import TokenForge.Proofs.Flatten.RegularText
import TokenForge.Proofs.Flatten.PreambleOnce
import TokenForge.Proofs.Flatten.LineEnds
import TokenForge.Proofs.Flatten.LineEndRuns
import TokenForge.Proofs.Address
import TokenForge.Proofs.Token.WellFormed
import TokenForge.Proofs.Token.Layout
import TokenForge.Proofs.Text.Occurrences
import TokenForge.Proofs.Token.Comments
import TokenForge.Proofs.Token.Flattened
import TokenForge.Proofs.Token.Decoding
import TokenForge.Proofs.Solidity.Reader
import TokenForge.Proofs.Solidity.Execution
import TokenForge.Proofs.Token.TransferHook
import TokenForge.Proofs.Token.WellScoped
import TokenForge.Proofs.Version.LookUps
import TokenForge.Proofs.Compile.Selection
import TokenForge.Proofs.Import.Manuscript
import TokenForge.Proofs.Import.Commented
import TokenForge.Proofs.Version.Pragma
import TokenForge.Proofs.Version.Conjunction
import TokenForge.Proofs.Version.Layout
import TokenForge.Proofs.Version.Comparators
import TokenForge.Proofs.Assoc
import TokenForge.Proofs.Token.Members
import TokenForge.Proofs.Import.Packages
import TokenForge.Proofs.Path.Normal
import TokenForge.Proofs.Flatten.Spellings
import TokenForge.Proofs.Flatten.FeaturePragma
import TokenForge.Proofs.Flatten.FeatureOnce
import TokenForge.Proofs.Text.Integer
import TokenForge.Proofs.Token.Respelled
import TokenForge.Proofs.Token.Readings
import TokenForge.Proofs.Token.Rechecked
import TokenForge.Proofs.Token.Deployment
import TokenForge.Proofs.Solidity.Grown
import TokenForge.Proofs.Token.Minting
import TokenForge.Proofs.Text.Utf8
import TokenForge.Proofs.FileTree
import TokenForge.Proofs.CommandLine.Reading
import TokenForge.Proofs.CommandLine.Production
import TokenForge.Proofs.CommandLine.Changes
import TokenForge.Proofs.CommandLine.Faults
import TokenForge.Proofs.CommandLine.Target
import TokenForge.Proofs.Flatten.Consulted
import TokenForge.Proofs.CommandLine.TwoSteps
import TokenForge.Proofs.Flatten.BlankRuns
