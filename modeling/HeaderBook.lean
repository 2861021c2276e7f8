import HeaderBook.Text
import HeaderBook.CodePoint
import HeaderBook.Text.CodeRange
import HeaderBook.Text.Blank
import HeaderBook.Text.Word
import HeaderBook.Text.Printable
import HeaderBook.Text.Digit
import HeaderBook.Text.Quoted
import HeaderBook.Marker
import HeaderBook.FragmentTable
import HeaderBook.Source.Ampersand
import HeaderBook.Source.Lexeme
import HeaderBook.Source.CommentRun
import HeaderBook.Source.Block
import HeaderBook.Declaration
import HeaderBook.HeaderRule
import HeaderBook.Document
import HeaderBook.Markup.Escape
import HeaderBook.Markup.Builder
import HeaderBook.Listing
import HeaderBook.Page
import HeaderBook.Glob
import HeaderBook.Path
import HeaderBook.Encoding.Failure
import HeaderBook.Encoding.Codec
import HeaderBook.Encoding.Utf8
import HeaderBook.Encoding.Utf16
import HeaderBook.Encoding.OneByte
import HeaderBook.Encoding.Idna
import HeaderBook.Encoding
import HeaderBook.FileName
import HeaderBook.FileTree
import HeaderBook.FileTree.Walk
import HeaderBook.FileTree.Access
import HeaderBook.Homes
import HeaderBook.SourceScan
import HeaderBook.Journal
import HeaderBook.Yaml.Failure
import HeaderBook.Yaml.Cursor
import HeaderBook.Yaml.Quoted
import HeaderBook.Yaml.Plain
import HeaderBook.Yaml.Token
import HeaderBook.Yaml.Node
import HeaderBook.Text.Shortest
import HeaderBook.Yaml.Timestamp
import HeaderBook.Yaml.Number
import HeaderBook.Yaml.Value
import HeaderBook.Platform
import HeaderBook.Platform.Standard
import HeaderBook.Settings
import HeaderBook.Workspace
import HeaderBook.Generation
import HeaderBook.CommandLine.Arguments
import HeaderBook.CommandLine
import HeaderBook.Main
import HeaderBook.Proofs.Outcome
import HeaderBook.Proofs.Decimal
import HeaderBook.Proofs.MarkerScan
import HeaderBook.Proofs.WrittenMarkers
import HeaderBook.Proofs.AmpersandShield
import HeaderBook.Proofs.LexemeScan
import HeaderBook.Proofs.SourceToken
import HeaderBook.Proofs.CapturedText
import HeaderBook.Proofs.WorkingText
import HeaderBook.Proofs.BlockFolding
import HeaderBook.Proofs.StatementScan
import HeaderBook.Proofs.SourceDocument
import HeaderBook.Proofs.MarkerShape
import HeaderBook.Proofs.RoundTrip
import HeaderBook.Proofs.Restoration
import HeaderBook.Proofs.BraceMatching
import HeaderBook.Proofs.Extraction
import HeaderBook.Proofs.MarkerUse
import HeaderBook.Proofs.LiteralContents
import HeaderBook.Proofs.InnermostFolding
import HeaderBook.Proofs.TagNesting
import HeaderBook.Proofs.SecondShielding
import HeaderBook.Proofs.FileFailure
import HeaderBook.Proofs.GenerationRun
import HeaderBook.Proofs.SettingsFailure
import HeaderBook.Proofs.CallEnding
import HeaderBook.Proofs.PathNames
import HeaderBook.Proofs.ResolvedPath
import HeaderBook.Proofs.SpelledSettings
import HeaderBook.Proofs.TreeView
import HeaderBook.Proofs.SourceListing
import HeaderBook.Proofs.Reordering
import HeaderBook.Proofs.PlainTree
import HeaderBook.Proofs.RunEffects
import HeaderBook.Proofs.PagePlaces
import HeaderBook.Proofs.LoadedSettings
import HeaderBook.Proofs.PageProgress
import HeaderBook.Proofs.GeneratedPages
import HeaderBook.Proofs.JoinedSource
import HeaderBook.Proofs.JoinedItems
import HeaderBook.Proofs.Concatenation
import HeaderBook.Proofs.StatementPlaces
import HeaderBook.Proofs.Portions
import HeaderBook.Proofs.MaximalRuns
import HeaderBook.Proofs.LiteralLexing
import HeaderBook.Proofs.BoundedExpansion
import HeaderBook.Proofs.Legibility
import HeaderBook.Proofs.ResidualBraces
import HeaderBook.Proofs.PageDecoding
import HeaderBook.Proofs.DistinctPages
import HeaderBook.Proofs.ListedEntries
