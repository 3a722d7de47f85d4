import LinkTemplate.Text
import LinkTemplate.Text.Decimal
import LinkTemplate.Text.Hexadecimal
import LinkTemplate.Text.Unprintable
import LinkTemplate.Text.Quoted
import LinkTemplate.Operator
import LinkTemplate.SyntaxError
import LinkTemplate.Term
import LinkTemplate.Expression
import LinkTemplate.Template
import LinkTemplate.Template.Json
import LinkTemplate.Table
import LinkTemplate.Value
import LinkTemplate.Value.Json
import LinkTemplate.Value.Yaml
import LinkTemplate.Bindings
import LinkTemplate.Bindings.Assignment
import LinkTemplate.Bindings.Format
import LinkTemplate.Bindings.Reader
import LinkTemplate.Bindings.PlainYaml
import LinkTemplate.Percent
import LinkTemplate.Expansion
import LinkTemplate.Listing
import LinkTemplate.Json
import LinkTemplate.Json.Printer
import LinkTemplate.Json.Reader
import LinkTemplate.Yaml
import LinkTemplate.Yaml.Scalar
import LinkTemplate.Yaml.Source
import LinkTemplate.Yaml.Text
import LinkTemplate.Yaml.Reader
import LinkTemplate.Failure
import LinkTemplate.Session
import LinkTemplate.Action
import LinkTemplate.CommandLine
import LinkTemplate.Main
import LinkTemplate.Proofs.Basics
import LinkTemplate.Proofs.Scan
import LinkTemplate.Proofs.Course
import LinkTemplate.Proofs.Cuts
import LinkTemplate.Proofs.FirstProblem
import LinkTemplate.Proofs.Terms
import LinkTemplate.Proofs.Bodies
import LinkTemplate.Proofs.RoundTrip
import LinkTemplate.Proofs.Spellings
import LinkTemplate.Proofs.Concatenation
import LinkTemplate.Proofs.ByteEncoding
import LinkTemplate.Proofs.Decoding
import LinkTemplate.Proofs.EncodedTexts
import LinkTemplate.Proofs.ReadBack
import LinkTemplate.Proofs.CutItems
import LinkTemplate.Proofs.Prefixes
import LinkTemplate.Proofs.Pairs
import LinkTemplate.Proofs.Places
import LinkTemplate.Proofs.Flaws
import LinkTemplate.Proofs.Specs
import LinkTemplate.Proofs.Names
import LinkTemplate.Proofs.TermLists
import LinkTemplate.Proofs.Exploding
import LinkTemplate.Proofs.UriSafe
import LinkTemplate.Proofs.NormalText
import LinkTemplate.Proofs.Extension
import LinkTemplate.Proofs.OrdinaryCharacters
import LinkTemplate.Proofs.Assignments
import LinkTemplate.Proofs.Requests
import LinkTemplate.Proofs.Reparsing
import LinkTemplate.Proofs.Sessions
import LinkTemplate.Proofs.JsonGrammar
import LinkTemplate.Proofs.JsonReader
import LinkTemplate.Proofs.JsonDepth
import LinkTemplate.Proofs.Tables
import LinkTemplate.Proofs.PartsAsJson
import LinkTemplate.Proofs.BindingsAsJson
import LinkTemplate.Proofs.YamlLines
import LinkTemplate.Proofs.YamlOfJson
import LinkTemplate.Proofs.BindingsAsYaml
import LinkTemplate.Proofs.Listings
import LinkTemplate.Proofs.Arguments
