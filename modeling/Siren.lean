import Siren.CommandLine
import Siren.Console
import Siren.Console.History
import Siren.Console.Input
import Siren.Disk
import Siren.Evaluation
import Siren.Fault
import Siren.Log
import Siren.Main
import Siren.Options
import Siren.Position
import Siren.Program
import Siren.Program.Outline
import Siren.Program.Parsed
import Siren.Program.Parser
import Siren.Program.Printer
import Siren.Proofs.BareTrees
import Siren.Proofs.BlockEffects
import Siren.Proofs.BraceDepth
import Siren.Proofs.CallDepth
import Siren.Proofs.CallFrames
import Siren.Proofs.CallTrace
import Siren.Proofs.Coincidence
import Siren.Proofs.ContinuationLines
import Siren.Proofs.Correspondence
import Siren.Proofs.Decimal
import Siren.Proofs.Derivations
import Siren.Proofs.EarlyReturn
import Siren.Proofs.ErrorMarks
import Siren.Proofs.ExactArithmetic
import Siren.Proofs.FoldedRuns
import Siren.Proofs.FrameDiscipline
import Siren.Proofs.GapsBetweenTokens
import Siren.Proofs.Grammar
import Siren.Proofs.GrammarCompleteness
import Siren.Proofs.GrammarSoundness
import Siren.Proofs.HistoryEntries
import Siren.Proofs.IncompleteInput
import Siren.Proofs.IntegerLiterals
import Siren.Proofs.LexerExtension
import Siren.Proofs.LexerRequests
import Siren.Proofs.LineBreaks
import Siren.Proofs.LongerRuns
import Siren.Proofs.LongestMatch
import Siren.Proofs.NodePlaces
import Siren.Proofs.ParserCompletion
import Siren.Proofs.ParserExtension
import Siren.Proofs.ParserInvariants
import Siren.Proofs.ParserProgress
import Siren.Proofs.ParserRuns
import Siren.Proofs.PrintAndParse
import Siren.Proofs.PrintedForms
import Siren.Proofs.PrintedPieces
import Siren.Proofs.ReadingChunks
import Siren.Proofs.RunsInPieces
import Siren.Proofs.RuntimeSafety
import Siren.Proofs.ScopeGrowth
import Siren.Proofs.ScopeOperations
import Siren.Proofs.Seams
import Siren.Proofs.SourceLines
import Siren.Proofs.StatementsApart
import Siren.Proofs.SyntaxErrorOrder
import Siren.Proofs.SyntaxErrorPlaces
import Siren.Proofs.TokenLayout
import Siren.Proofs.TokensAmongBlanks
import Siren.Proofs.TrimmedChunks
import Siren.Proofs.TrimmedText
import Siren.Proofs.WellFormedTrees
import Siren.Proofs.WordByWord
import Siren.Scope
import Siren.Script
import Siren.Session
import Siren.Settings
import Siren.Style
import Siren.SyntaxError
import Siren.Text
import Siren.Text.Blank
import Siren.Text.Digits
import Siren.Text.Printable
import Siren.Text.Quoted
import Siren.Text.Rune
import Siren.Token
import Siren.Token.Cursor
import Siren.Token.Lexeme
import Siren.Token.Lexer
import Siren.Value
import Siren.Value.Operators
import Siren.Yaml.Characters
import Siren.Yaml.Comment
import Siren.Yaml.Lexeme
import Siren.Yaml.Node
import Siren.Yaml.Number
import Siren.Yaml.Part
import Siren.Yaml.Reader
import Siren.Yaml.Search
import Siren.Yaml.Spot
import Siren.Yaml.Timestamp
