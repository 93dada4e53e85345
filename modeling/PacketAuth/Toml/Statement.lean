import PacketAuth.Toml.Table
import PacketAuth.Toml.Text

/-! The statements of a TOML document: settings and headers, read from its text in order. -/
namespace PacketAuth.Toml

inductive Statement where
  | setting (key : List String) (value : Value)
  | header (path : List String)
  | arrayHeader (path : List String)
  deriving Repr

/-- Brackets and braces may be nested this deep. -/
def maxDepth : Nat := 80

/-- A key may have this many parts. -/
def maxKeyParts : Nat := 80

/-- One part of a key: quoted, or a run of bare characters. -/
def keyPart (cs : List Char) : Option (String × List Char) :=
  match cs with
  | '"' :: rest => Quoted.basic rest
  | '\'' :: rest => Quoted.literal rest
  | cs =>
    let name := cs.takeWhile isBareKeyChar
    if name.isEmpty then none else some (String.ofList name, cs.dropWhile isBareKeyChar)

/-- The parts of a key between dots, at most as many as the number given, and what follows the
blanks behind it. -/
def keyParts : Nat → List Char → Option (List String × List Char)
  | 0, _ => none
  | n + 1, cs => do
    let (part, rest) ← keyPart (skipBlanks cs)
    match skipBlanks rest with
    | '.' :: rest => (keyParts n rest).map fun r => (part :: r.1, r.2)
    | rest => some ([part], rest)

def key (cs : List Char) : Option (List String × List Char) := keyParts maxKeyParts cs

mutual

/-- A value in front of some text, and what follows it. Each call spends fuel, of which the number
of characters is enough; each bracket or brace spends depth. -/
def value : Nat → Nat → List Char → Option (Value × List Char)
  | 0, _, _ => none
  | n + 1, depth, cs =>
    match cs, depth with
    | '"' :: '"' :: '"' :: rest, _ => (Quoted.lines '"' true rest).map fun r => (.string r.1, r.2)
    | '"' :: rest, _ => (Quoted.basic rest).map fun r => (.string r.1, r.2)
    | '\'' :: '\'' :: '\'' :: rest, _ =>
      (Quoted.lines '\'' false rest).map fun r => (.string r.1, r.2)
    | '\'' :: rest, _ => (Quoted.literal rest).map fun r => (.string r.1, r.2)
    | '[' :: rest, depth + 1 => (items n depth rest).map fun r => (.array false r.1, r.2)
    | '\x7b' :: rest, depth + 1 => do
      let (settings, rest) ← settings n depth rest
      let entries ← settings.foldlM (fun es s => Entries.define s.2 s.1 es) []
      return (.table .braces entries, rest)
    | cs, _ => Scalar.read cs

/-- The items of an array up to its closing bracket; the last one may have a comma behind it. -/
def items : Nat → Nat → List Char → Option (List Value × List Char)
  | 0, _, _ => none
  | n + 1, depth, cs => do
    match ← skipTrivia false cs with
    | ']' :: rest => return ([], rest)
    | cs =>
      let (v, rest) ← value n depth cs
      match ← skipTrivia false rest with
      | ',' :: rest => (items n depth rest).map fun r => (v :: r.1, r.2)
      | ']' :: rest => return ([v], rest)
      | _ => none

/-- The settings of a table between braces, with the same freedom of commas and line ends; those
may also stand around the equals sign. -/
def settings : Nat → Nat → List Char → Option (List (List String × Value) × List Char)
  | 0, _, _ => none
  | n + 1, depth, cs => do
    match ← skipTrivia false cs with
    | '\x7d' :: rest => return ([], rest)
    | cs =>
      let (k, rest) ← key cs
      let rest ← Scalar.expect '=' (← skipTrivia false rest)
      let (v, rest) ← value n depth (← skipTrivia false rest)
      match ← skipTrivia false rest with
      | ',' :: rest => (settings n depth rest).map fun r => ((k, v) :: r.1, r.2)
      | '\x7d' :: rest => return ([(k, v)], rest)
      | _ => none

end

/-- A setting or a header, and what follows it on its line. -/
def statement (cs : List Char) : Option (Statement × List Char) :=
  match cs with
  | '[' :: '[' :: rest => do
    let (path, rest) ← key rest
    let rest ← Scalar.expect ']' (← Scalar.expect ']' rest)
    return (.arrayHeader path, rest)
  | '[' :: rest => do
    let (path, rest) ← key rest
    return (.header path, ← Scalar.expect ']' rest)
  | cs => do
    let (path, rest) ← key cs
    let rest ← Scalar.expect '=' rest
    let (v, rest) ← value (rest.length + 1) maxDepth (skipBlanks rest)
    return (.setting path v, rest)

/-- The statements of a text, one to a line; each line spends fuel. -/
def statements : Nat → List Char → Option (List Statement)
  | _, [] => some []
  | 0, _ => none
  | n + 1, cs =>
    match lineEnd cs with
    | some rest => statements n rest
    | none => do
      let (s, rest) ← statement (skipBlanks cs)
      let rest ← lineEnd rest
      return s :: (← statements n rest)

end PacketAuth.Toml
