/-!
Places in an entry from which an operator reads.
-/
namespace LogIntake

/-- The body of an entry, or one of its attributes. -/
inductive Location where
  | body
  | attributeAt (key : String)
deriving DecidableEq, Inhabited, Repr

namespace Location

def attributesMark : String := "attributes."

/-- Reads `body` or `attributes.` with a key behind it. -/
def ofText? (text : String) : Option Location :=
  if text = "body" then some .body
  else if attributesMark.toList.isPrefixOf text.toList then
    let key := String.ofList (text.toList.drop attributesMark.length)
    if key = "" then none else some (.attributeAt key)
  else none

def text : Location → String
  | body => "body"
  | attributeAt key => attributesMark ++ key

def invalidMessage (text : String) : String :=
  "invalid field '" ++ text ++ "', expected 'body' or 'attributes.<key>'"

end Location

end LogIntake
