import DoRunner.Main
import DoRunner.Completeness
import DoRunner.Config.File
import DoRunner.Echo.Reconcile
import DoRunner.Echo.ReturnCode
import DoRunner.Session
import DoRunner.Transport.AppleScript
import DoRunner.Transport.Recorded
import DoRunner.Proofs.Chunk.Composition
import DoRunner.Proofs.Chunk.Terminated
import DoRunner.Proofs.Echo.SilentLines
import DoRunner.Proofs.Session.Agreement
import DoRunner.Proofs.Session.ConsoleLaw
import DoRunner.Proofs.Session.Leftovers
import DoRunner.Proofs.Transport.Discipline
import DoRunner.Proofs.Transport.LogReadOnce
import DoRunner.Proofs.Transport.PartialOutput
import DoRunner.Proofs.Source.CommentTokens
import DoRunner.Proofs.Source.BlockTokens
import DoRunner.Proofs.Session.Effects
import DoRunner.Proofs.Source.BareLine
import DoRunner.Proofs.Chunk.OneLine
import DoRunner.Proofs.Session.HelpShortcut
import DoRunner.Proofs.Chunk.Mirror
import DoRunner.Proofs.Echo.Conserved
import DoRunner.Proofs.Echo.Justified
import DoRunner.Proofs.Source.Interjection
import DoRunner.Proofs.Chunk.LineFeeds
import DoRunner.Proofs.Chunk.Directives
import DoRunner.Proofs.Source.InertStrings
import DoRunner.Proofs.Source.MataBlocks
import DoRunner.Proofs.Transport.Completion
import DoRunner.Proofs.Session.Start
import DoRunner.Proofs.Chunk.Accumulation
import DoRunner.Proofs.Source.Nesting
import DoRunner.Proofs.Source.CommentDepth
import DoRunner.Proofs.Chunk.TrailingBlanks
import DoRunner.Proofs.Echo.Wrapping
import DoRunner.Proofs.Text.Decoding
import DoRunner.Proofs.Transport.Arrivals
import DoRunner.Proofs.Statement.Prefixes
import DoRunner.Proofs.Transport.Quoting
import DoRunner.Proofs.Echo.GraphFiles
import DoRunner.Proofs.Echo.Renditions
import DoRunner.Proofs.Config.GraphSize
import DoRunner.Proofs.Transport.ReturnCodes
import DoRunner.Proofs.Source.Stacks
