import AhoyScan.Stream
import AhoyScan.Cursor
import AhoyScan.Wire.StructLayout
import AhoyScan.Session
import AhoyScan.Main
import AhoyScan.Pattern
import AhoyScan.Proofs.Vocabulary
import AhoyScan.Proofs.LongestMatch
import AhoyScan.Proofs.Segments
import AhoyScan.Proofs.Lossless
import AhoyScan.Proofs.Lines
import AhoyScan.Proofs.Nesting
import AhoyScan.Proofs.BlockStructure
import AhoyScan.Proofs.BlockDepth
import AhoyScan.Proofs.LineNumbers
import AhoyScan.Proofs.Decoding
import AhoyScan.Proofs.WireLists
import AhoyScan.Proofs.Deliveries
import AhoyScan.Proofs.TokenBounds
import AhoyScan.Proofs.Requests
import AhoyScan.Proofs.Agreement
import AhoyScan.Proofs.Runs
import AhoyScan.Proofs.Independence
import AhoyScan.Proofs.HeldLists
import AhoyScan.Proofs.Conservation
import AhoyScan.Proofs.Locality
import AhoyScan.Proofs.Composition
import AhoyScan.Proofs.Extension
import AhoyScan.Proofs.Indentation
import AhoyScan.Proofs.WhiteSpace
import AhoyScan.Proofs.CommandLines
import AhoyScan.Proofs.Listings
import AhoyScan.Proofs.Dumps
import AhoyScan.Proofs.PlainTokens
import AhoyScan.Proofs.Rereading
import AhoyScan.Proofs.Streams
import AhoyScan.Proofs.Cursors
import AhoyScan.Proofs.Measurements
import AhoyScan.Proofs.SourceTexts
import AhoyScan.Proofs.Numerals
import AhoyScan.Proofs.QuotedTexts
import AhoyScan.Proofs.Verdicts
import AhoyScan.Proofs.Tables
import AhoyScan.Proofs.JsonGrammar
import AhoyScan.Proofs.JsonDocuments
