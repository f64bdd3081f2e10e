import IconModules.Catalogue.Basic
import IconModules.Catalogue.Grouping
import IconModules.Catalogue.Reader
import IconModules.CommandLine.Arguments
import IconModules.CommandLine.Choice
import IconModules.CommandLine.Help
import IconModules.CommandLine.Launch
import IconModules.Decimal.Binary64
import IconModules.Decimal.Shortest
import IconModules.Files.Disk
import IconModules.Files.FileError
import IconModules.Files.Path
import IconModules.Files.Tree
import IconModules.Generation.Action
import IconModules.Generation.Action.Lemmas
import IconModules.Generation.Assembly
import IconModules.Generation.Cache
import IconModules.Generation.Failure
import IconModules.Generation.Installation
import IconModules.Generation.Journal
import IconModules.Generation.ModuleText
import IconModules.Generation.Run
import IconModules.Json.Fault
import IconModules.Json.Reader
import IconModules.Json.Skip
import IconModules.Main
import IconModules.Markup.Volatile
import IconModules.Naming
import IconModules.Pattern.Basic
import IconModules.Pattern.Reader
import IconModules.Pattern.Replace
import IconModules.Pattern.Template
import IconModules.Proofs.Catalogue
import IconModules.Proofs.Files.Accepted
import IconModules.Proofs.Files.Carried
import IconModules.Proofs.Files.Changes
import IconModules.Proofs.Files.Growth
import IconModules.Proofs.Files.Merged
import IconModules.Proofs.Files.Plain
import IconModules.Proofs.Files.Rooted
import IconModules.Proofs.Files.Ways
import IconModules.Proofs.Generation.Assembled
import IconModules.Proofs.Generation.CompletedRuns
import IconModules.Proofs.Generation.Conserved
import IconModules.Proofs.Generation.Effects
import IconModules.Proofs.Generation.Elsewhere
import IconModules.Proofs.Generation.Entries
import IconModules.Proofs.Generation.FailedRuns
import IconModules.Proofs.Generation.Families
import IconModules.Proofs.Generation.Filled
import IconModules.Proofs.Generation.Handwritten
import IconModules.Proofs.Generation.Installed
import IconModules.Proofs.Generation.Installing
import IconModules.Proofs.Generation.Keeping
import IconModules.Proofs.Generation.ModuleReading
import IconModules.Proofs.Generation.ModuleWriting
import IconModules.Proofs.Generation.Overlay
import IconModules.Proofs.Generation.Places
import IconModules.Proofs.Generation.Ready
import IconModules.Proofs.Generation.Storing
import IconModules.Proofs.Generation.Untouched
import IconModules.Proofs.Generation.ValidEntries
import IconModules.Proofs.Naming
import IconModules.Proofs.Renaming
import IconModules.Proofs.Text.Lines
import IconModules.Rehearsal
import IconModules.Renaming.Basic
import IconModules.Renaming.Finish
import IconModules.Settings.Basic
import IconModules.Settings.Presets
import IconModules.Shell.Arithmetic
import IconModules.Shell.Builtins
import IconModules.Shell.Condition
import IconModules.Shell.Evaluation
import IconModules.Shell.Glob
import IconModules.Shell.Printing
import IconModules.Shell.Reader
import IconModules.Shell.Source
import IconModules.Shell.State
import IconModules.Shell.Syntax
import IconModules.Shell.Words
import IconModules.Text.Blank
import IconModules.Text.CaseTable
import IconModules.Text.LetterCase
import IconModules.Text.PrintTable
import IconModules.Text.Quoted
import IconModules.Text.Replace
import IconModules.Text.Terminal
import IconModules.Text.Utf8
import IconModules.Text.Utf8.Lemmas
import IconModules.Tools.Outcome
import IconModules.Proofs.Files.Ahead
import IconModules.Proofs.Generation.Again
import IconModules.Proofs.Generation.CachedModules
import IconModules.Proofs.Generation.MovingAgain
import IconModules.Proofs.Generation.Placed
import IconModules.Proofs.Generation.Reinstalling
import IconModules.Proofs.Files.Alike
import IconModules.Proofs.Generation.Confined
import IconModules.Proofs.Generation.FamilyFiles
import IconModules.Proofs.Generation.Independence
import IconModules.Proofs.Generation.InstallingAlike
import IconModules.Proofs.Generation.OutputFolder
import IconModules.Proofs.Generation.ReorderedRuns
import IconModules.Proofs.Generation.RepeatedRuns
import IconModules.Proofs.Markup.Documents
import IconModules.Proofs.Markup.Repeated
import IconModules.Proofs.Markup.Stretches
import IconModules.Proofs.Files.Rereading
import IconModules.Proofs.Catalogue.Written
import IconModules.Proofs.Json.Grammar
import IconModules.Proofs.Json.Skipping
import IconModules.Proofs.Json.Structures
import IconModules.Proofs.Json.Tokens
import IconModules.Proofs.Generation.Repairs
import IconModules.Proofs.Generation.Rewriting
import IconModules.Proofs.Generation.Documentation
import IconModules.Proofs.Generation.ModuleProgress
import IconModules.Proofs.Generation.RejectedNames
import IconModules.Proofs.Generation.SideBySide
import IconModules.Proofs.Text.Words
import IconModules.Proofs.Markup.Patterns
import IconModules.Proofs.Markup.Blocks
import IconModules.Proofs.Markup.Settled
import IconModules.Proofs.Pattern.Reading
import IconModules.Proofs.Renaming.Verbatim
import IconModules.Proofs.Text.Respelling
import IconModules.Proofs.Renaming.Calls
import IconModules.Proofs.Renaming.Spellings
import IconModules.Proofs.Renaming.Sites
import IconModules.Proofs.Renaming.CallSites
import IconModules.Proofs.Renaming.QuotedTexts
import IconModules.Proofs.Text.Trimmed
import IconModules.Proofs.Renaming.Layout
import IconModules.Proofs.Renaming.Surroundings
import IconModules.Proofs.Text.ByteOrder
import IconModules.Proofs.Text.Casing
import IconModules.Proofs.Catalogue.Grouped
import IconModules.Proofs.Naming.Agreement
import IconModules.Proofs.Addresses
import IconModules.Proofs.Files.AgreeOff
import IconModules.Proofs.Generation.Mirrored
import IconModules.Proofs.Generation.Fetching
import IconModules.Proofs.Generation.OwnEntries
