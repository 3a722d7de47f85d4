import LinkTemplate.Text
/-!
# JSON values

A number is kept as it is written, and an object keeps every member in its order, also those of a
repeated name.
-/

namespace LinkTemplate

inductive Json
  | null
  | bool (value : Bool)
  | number (digits : Text)
  | string (text : Text)
  | array (items : List Json)
  | object (members : List (Text × Json))

def Json.text? : Json → Option Text
  | string text => some text
  | _ => none

end LinkTemplate
