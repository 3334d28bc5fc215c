import CommandScript.Lexer
import CommandScript.Unicode.WhiteSpace
import CommandScript.Unicode.Alphanumeric
import CommandScript.Double.Layout
import CommandScript.Double.Reading
import CommandScript.Action
import CommandScript.Log
import CommandScript.TokenStream
import CommandScript.Rule.Pattern
import CommandScript.Grammar.Lint
import CommandScript.Parser
import CommandScript.Json.Printer
import CommandScript.Json.Reader
import CommandScript.Listing
import CommandScript.JsonForm
import CommandScript.Toml.Reader
import CommandScript.GrammarFile.Load
import CommandScript.Main
import CommandScript.Proofs.Position
import CommandScript.Proofs.Fitting
import CommandScript.Proofs.Choice
import CommandScript.Proofs.StrictReading
import CommandScript.Proofs.Recovery
import CommandScript.Proofs.FirstError
import CommandScript.Proofs.Simulation
import CommandScript.Proofs.Relocation
import CommandScript.Proofs.EndOfInput
import CommandScript.Proofs.Renaming
import CommandScript.Proofs.Requests
import CommandScript.Proofs.SameChoices
import CommandScript.Proofs.Priority
import CommandScript.Proofs.DeadRules
import CommandScript.Proofs.Lexeme
import CommandScript.Proofs.Lossless
import CommandScript.Proofs.LineNumbers
import CommandScript.Proofs.TokenText
import CommandScript.Proofs.KeywordWarnings
import CommandScript.Proofs.Numerals
import CommandScript.Proofs.Lines
import CommandScript.Proofs.Reprinting
import CommandScript.Proofs.Bindings
import CommandScript.Proofs.Carrying
import CommandScript.Proofs.Writing
import CommandScript.Proofs.UsableRules
import CommandScript.Proofs.LongestMatch
import CommandScript.Proofs.ParseCommand
import CommandScript.Proofs.Quiet
import CommandScript.Proofs.JsonText
import CommandScript.Proofs.GrammarText
import CommandScript.Proofs.ClosestRule
import CommandScript.Proofs.Consumption
import CommandScript.Proofs.ErrorLimit
import CommandScript.Proofs.Resumption
import CommandScript.Proofs.Progress
import CommandScript.Proofs.DeclaredArguments
import CommandScript.Proofs.BlankBoundaries
import CommandScript.Proofs.PatternText
import CommandScript.Proofs.GrammarDocuments
import CommandScript.Proofs.RuleWarnings
import CommandScript.Proofs.Unreachable
import CommandScript.Proofs.StreamOperations
import CommandScript.Proofs.Rounding
import CommandScript.Proofs.FiniteNumbers
import CommandScript.Proofs.TokenLines
import CommandScript.Proofs.InsertionOrder
