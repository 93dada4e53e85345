/-! One-line text of structured values: a name, then its fields between braces or its only
component between parentheses. -/
namespace PacketAuth.Text

private def fieldList (fields : List (String × String)) : String :=
  ", ".intercalate (fields.map fun f => f.1 ++ ": " ++ f.2)

/-- A record that shows all its fields. -/
def record (name : String) (fields : List (String × String)) : String :=
  name ++ " \x7b " ++ fieldList fields ++ " \x7d"

/-- A record that keeps some of its fields to itself. -/
def partialRecord (name : String) (fields : List (String × String)) : String :=
  name ++ " \x7b " ++ fieldList fields ++ ", .. \x7d"

/-- A value with one unnamed component. -/
def wrapped (name inner : String) : String := name ++ "(" ++ inner ++ ")"

def optional : Option String → String
  | none => "None"
  | some inner => wrapped "Some" inner

def boolean (b : Bool) : String := if b then "true" else "false"

end PacketAuth.Text
