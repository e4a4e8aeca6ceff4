import LuaStubs.Api
import LuaStubs.Api.Load
import LuaStubs.Api.Ranking
import LuaStubs.Command
import LuaStubs.Command.Arguments
import LuaStubs.Command.Run
import LuaStubs.Decimal.Shortest
import LuaStubs.Description
import LuaStubs.Description.Error
import LuaStubs.Description.Reader
import LuaStubs.Files.Documents
import LuaStubs.Files.Path
import LuaStubs.Files.Pattern
import LuaStubs.Files.Search
import LuaStubs.Files.Tree
import LuaStubs.Files.Trouble
import LuaStubs.Files.Write
import LuaStubs.Finding
import LuaStubs.Generation
import LuaStubs.Json.Cursor
import LuaStubs.Json.Flaw
import LuaStubs.Json.Number
import LuaStubs.Json.Pointer
import LuaStubs.Json.Quoted
import LuaStubs.Json.Shape
import LuaStubs.Json.Tree
import LuaStubs.Json.Value
import LuaStubs.Lua.Check
import LuaStubs.Lua.Chunk
import LuaStubs.Lua.Expression
import LuaStubs.Lua.Lexer
import LuaStubs.Lua.Name
import LuaStubs.Lua.Numeral
import LuaStubs.Lua.Operator
import LuaStubs.Lua.Quoted
import LuaStubs.Lua.Register
import LuaStubs.Lua.Scope
import LuaStubs.Lua.Statement
import LuaStubs.Lua.Token
import LuaStubs.LuaType
import LuaStubs.Main
import LuaStubs.Order
import LuaStubs.Phrase.Alternatives
import LuaStubs.Phrase.Token
import LuaStubs.Phrase.Tree
import LuaStubs.Proofs.Text
import LuaStubs.Recheck
import LuaStubs.Remark
import LuaStubs.Resolver
import LuaStubs.Stub
import LuaStubs.Stub.Fault
import LuaStubs.Stub.Lines
import LuaStubs.Summary
import LuaStubs.Tag
import LuaStubs.Tag.Completeness
import LuaStubs.Tag.Portion
import LuaStubs.Tag.Types
import LuaStubs.Text.Alphanumeric
import LuaStubs.Text.Basic
import LuaStubs.Text.Blank
import LuaStubs.Text.Digit
import LuaStubs.Text.Ranges
import LuaStubs.Text.Shown
import LuaStubs.Text.Utf8
import LuaStubs.Text.Word
import LuaStubs.TypeTable
import LuaStubs.TypeTable.Reader
import LuaStubs.Validator
import LuaStubs.Validator.Files
import LuaStubs.Proofs.Phrase
import LuaStubs.Proofs.Rendering
import LuaStubs.Proofs.Lines
import LuaStubs.Proofs.Layout
import LuaStubs.Proofs.Lexing
import LuaStubs.Proofs.Reading
import LuaStubs.Proofs.Registers
import LuaStubs.Proofs.Program
import LuaStubs.Proofs.Stubs
import LuaStubs.Proofs.Emission
import LuaStubs.Proofs.FreeText
import LuaStubs.Proofs.Tags
import LuaStubs.Proofs.Annotations
import LuaStubs.Proofs.Occurrences
import LuaStubs.Proofs.Brackets
import LuaStubs.Proofs.Portions
import LuaStubs.Proofs.TypeLines
import LuaStubs.Proofs.Alternatives
import LuaStubs.Proofs.Unions
import LuaStubs.Proofs.Flatness
import LuaStubs.Proofs.Grammar
import LuaStubs.Proofs.Tokens
import LuaStubs.Proofs.RoundTrip
import LuaStubs.Proofs.Overloads
import LuaStubs.Proofs.CodeLines
import LuaStubs.Proofs.Fragments
import LuaStubs.Proofs.LoneFragments
import LuaStubs.Proofs.FileTree
import LuaStubs.Proofs.KnownNames
import LuaStubs.Proofs.Independence
import LuaStubs.Proofs.Containers
import LuaStubs.Proofs.Faithfulness
import LuaStubs.Proofs.Loading
import LuaStubs.Proofs.Signatures
import LuaStubs.Proofs.Ranking
import LuaStubs.Proofs.Refusals
import LuaStubs.Proofs.Matching
import LuaStubs.Proofs.Places
import LuaStubs.Proofs.Writability
import LuaStubs.Proofs.Structures
import LuaStubs.Proofs.Rereading
import LuaStubs.Proofs.Reports
import LuaStubs.Proofs.Silence
import LuaStubs.Proofs.Entries
import LuaStubs.Proofs.Misfits
import LuaStubs.Proofs.ModelNames
import LuaStubs.Proofs.Recovery
import LuaStubs.Proofs.Recursion
import LuaStubs.Proofs.LineEnds
import LuaStubs.Proofs.PathOrder
import LuaStubs.Proofs.FileReports
