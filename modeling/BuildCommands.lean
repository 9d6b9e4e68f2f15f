import BuildCommands.Main
import BuildCommands.Package.CommandLine
import BuildCommands.Proofs.Quoting
import BuildCommands.Proofs.Segments
import BuildCommands.Proofs.Drive
import BuildCommands.Proofs.Resolve
import BuildCommands.Proofs.Rejoin
import BuildCommands.Proofs.Canonical
import BuildCommands.Proofs.Parameters
import BuildCommands.Proofs.Replay
import BuildCommands.Proofs.Reordering
import BuildCommands.Proofs.Threads
import BuildCommands.Proofs.Requoting
import BuildCommands.Proofs.EventLines
import BuildCommands.Proofs.JsonLimits
import BuildCommands.Proofs.DatabaseCalls
import BuildCommands.Proofs.Accounting
import BuildCommands.Proofs.FileWriting
import BuildCommands.Proofs.DocumentWriting
import BuildCommands.Proofs.DocumentTexts
import BuildCommands.Proofs.Printing
import BuildCommands.Proofs.Delivery
import BuildCommands.Proofs.Outcomes
import BuildCommands.Proofs.DisplayFlags
import BuildCommands.Proofs.Utf8
import BuildCommands.Proofs.EventFiles
import BuildCommands.Proofs.DocumentFiles
import BuildCommands.Proofs.QuotedArguments
import BuildCommands.Proofs.QuotedPath
import BuildCommands.Proofs.UnquotedPath
import BuildCommands.Proofs.EscapeCodes
import BuildCommands.Proofs.HelpTexts
import BuildCommands.Proofs.EscapeFreeArguments
import BuildCommands.Proofs.EscapeFreeNotes
import BuildCommands.Proofs.Decoration
import BuildCommands.Proofs.EscapeFreeFailures
import BuildCommands.Proofs.Spacing
import BuildCommands.Proofs.AbsolutePath
import BuildCommands.Proofs.QuotedExecutable
import BuildCommands.Proofs.LinkSwitch
import BuildCommands.Proofs.SourceOptions
import BuildCommands.Proofs.EventLineNumbers
import BuildCommands.Proofs.EventArrays
import BuildCommands.Proofs.LiteralQuotes
import BuildCommands.Proofs.PackageReport
import BuildCommands.Proofs.VersionSpelling
import BuildCommands.Proofs.VersionReading
import BuildCommands.Proofs.VersionNumerals
import BuildCommands.Proofs.MinimumVersion
import BuildCommands.Proofs.PathNames
import BuildCommands.Proofs.DirectoryMaking
import BuildCommands.Proofs.RepeatedWriting
