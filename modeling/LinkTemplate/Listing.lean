import LinkTemplate.Template
import LinkTemplate.Value
/-!
# Listings

How values and the parts of a template are shown to a reader: every field by its name, every text
quoted, so that a listing has no line break of its own. The parts of a template are listed for any
choice of the characters that are hidden in quotes.
-/

namespace LinkTemplate

namespace Listing

def items (entries : List Text) : Text := ", ".toList.intercalate entries

def bool : Bool → Text
  | true => "true".toList
  | false => "false".toList

end Listing

open Listing

def Operator.listing : Operator → Text
  | simple => "Simple".toList
  | reserved => "Reserved".toList
  | fragment => "Fragment".toList
  | label => "Label".toList
  | pathSegment => "PathSegment".toList
  | pathParameter => "PathParameter".toList
  | query => "Query".toList
  | queryContinuation => "QueryContinuation".toList

section

variable (hidden : Char → Bool)

def Term.listing (term : Term) : Text :=
  "Term \x7b name: ".toList ++ Text.quotedBy hidden term.name ++
    ", explode: ".toList ++ bool term.explode ++
    ", truncate: ".toList ++ Decimal.text term.truncate ++ " \x7d".toList

def Expression.listing (expression : Expression) : Text :=
  "VariableExpression \x7b operator: ".toList ++ expression.operator.listing ++
    ", terms: [".toList ++ items (expression.terms.map (Term.listing hidden)) ++ "] \x7d".toList

def Part.listing : Part → Text
  | literal text => "Literal(".toList ++ Text.quotedBy hidden text ++ [')']
  | expression e => "Variable(".toList ++ e.listing hidden ++ [')']

/-- One line a part. -/
def Template.listing (template : Template) : Text :=
  ['\n'].intercalate (template.parts.map (Part.listing hidden))

end

def Value.listing : Value → Text
  | undefined => "Undefined".toList
  | text t => "String(".toList ++ Text.quoted t ++ [')']
  | list entries => "List([".toList ++ items (entries.map Text.quoted) ++ "])".toList
  | table entries =>
    "Map(\x7b".toList ++
      items (entries.entries.map fun (key, value) =>
        Text.quoted key ++ ": ".toList ++ Text.quoted value) ++ "\x7d)".toList

end LinkTemplate
