import LinkTemplate.Json
import LinkTemplate.Template
/-!
# Templates as JSON

A part is tagged with its type. An expression also carries the style of its operator, for readers
that do not know the operators.
-/

namespace LinkTemplate

def Term.toJson (term : Term) : Json :=
  .object [
    ("name".toList, .string term.name),
    ("explode".toList, .bool term.explode),
    ("truncate".toList, .number (Decimal.text term.truncate))]

def Expression.toJson (expression : Expression) : Json :=
  let style := expression.style
  .object [
    ("operator".toList, .string expression.operator.symbol),
    ("allow_reserved".toList, .bool style.allowReserved),
    ("first".toList, .string style.first),
    ("if_empty".toList, .string style.ifEmpty),
    ("named".toList, .bool style.named),
    ("separator".toList, .string [style.separator]),
    ("terms".toList, .array (expression.terms.map Term.toJson))]

def Part.toJson : Part → Json
  | literal text => tagged "Literal".toList (.string text)
  | expression e => tagged "Variable".toList e.toJson
where
  tagged (tag : Text) (value : Json) : Json :=
    .object [("type".toList, .string tag), ("value".toList, value)]

def Template.toJson (template : Template) : Json := .array (template.parts.map Part.toJson)

end LinkTemplate
