import PacketAuth.Toml.Scalar

/-! Characters, line ends, comments and the four forms of quoted text in a TOML document. -/
namespace PacketAuth.Toml

/-- A character that may stand in a comment or inside quotes: no control but the tab. -/
def isPlain (c : Char) : Bool := c == '\t' || (0x20 ≤ c.toNat && c.toNat ≠ 0x7f)

def isBareKeyChar (c : Char) : Bool := c.isAlphanum || c == '_' || c == '-'

def skipBlanks (cs : List Char) : List Char := cs.dropWhile isBlank

/-- A line end, or the end of the text. -/
def lineBreak : List Char → Option (List Char)
  | [] => some []
  | '\n' :: rest => some rest
  | '\r' :: '\n' :: rest => some rest
  | _ => none

/-- Blanks, perhaps a comment, and the line end. -/
def lineEnd (cs : List Char) : Option (List Char) :=
  match skipBlanks cs with
  | '#' :: rest => lineBreak (rest.dropWhile isPlain)
  | rest => lineBreak rest

/-- Skips blanks, line ends and comments; the flag says whether a comment is open. -/
def skipTrivia : Bool → List Char → Option (List Char)
  | _, [] => some []
  | _, '\n' :: rest => skipTrivia false rest
  | _, '\r' :: '\n' :: rest => skipTrivia false rest
  | true, c :: rest => if isPlain c then skipTrivia true rest else none
  | false, c :: rest =>
    if isBlank c then skipTrivia false rest
    else if c = '#' then skipTrivia true rest
    else some (c :: rest)

namespace Quoted

/-- The character with a given code, unless the code is no scalar value. -/
def scalarValue? (n : Nat) : Option Char :=
  if h : n.isValidChar then some (Char.ofNatAux n h) else none

/-- A character given by exactly `n` hexadecimal digits. -/
def codePoint (n : Nat) (cs : List Char) : Option (Char × List Char) := do
  let head := cs.take n
  if head.length ≠ n then none
  let code ← head.foldlM (fun acc c => (Scalar.digit? 16 c).map (acc * 16 + ·)) 0
  let c ← scalarValue? code
  return (c, cs.drop n)

/-- What stands after a backslash. -/
def escape : List Char → Option (Char × List Char)
  | 'b' :: rest => some ('\x08', rest)
  | 't' :: rest => some ('\t', rest)
  | 'n' :: rest => some ('\n', rest)
  | 'f' :: rest => some ('\x0c', rest)
  | 'r' :: rest => some ('\r', rest)
  | 'e' :: rest => some ('\x1b', rest)
  | '"' :: rest => some ('"', rest)
  | '\\' :: rest => some ('\\', rest)
  | 'x' :: rest => codePoint 2 rest
  | 'u' :: rest => codePoint 4 rest
  | 'U' :: rest => codePoint 8 rest
  | _ => none

/-- The text up to the closing quote, with escapes; at most as many characters as the fuel. -/
def basicBody : Nat → List Char → Option (List Char × List Char)
  | _, '"' :: rest => some ([], rest)
  | n + 1, '\\' :: rest => do
    let (c, rest) ← escape rest
    let (text, rest) ← basicBody n rest
    return (c :: text, rest)
  | n + 1, c :: rest =>
    if isPlain c then (basicBody n rest).map fun r => (c :: r.1, r.2) else none
  | _, _ => none

def basic (cs : List Char) : Option (String × List Char) :=
  (basicBody cs.length cs).map fun r => (String.ofList r.1, r.2)

/-- The text up to the closing apostrophe, taken as it stands. -/
def literal (cs : List Char) : Option (String × List Char) :=
  match cs.dropWhile fun c => isPlain c && c != '\'' with
  | '\'' :: rest => some (String.ofList (cs.takeWhile fun c => isPlain c && c != '\''), rest)
  | _ => none

/-- The first line end after the opening quotes does not belong to the text. -/
def dropFirstBreak : List Char → List Char
  | '\n' :: rest => rest
  | '\r' :: '\n' :: rest => rest
  | cs => cs

/-- Up to five quotes in a row close a text of several lines: the last three are the closing
ones. -/
def closing (quote : Char) (cs : List Char) : Option (List Char × List Char) :=
  let run := (cs.takeWhile (· == quote)).take 5
  if 3 ≤ run.length then some (run.drop 3, cs.drop run.length) else none

/-- Blanks and line ends. -/
def skipSpace : List Char → List Char
  | '\n' :: rest => skipSpace rest
  | '\r' :: '\n' :: rest => skipSpace rest
  | c :: rest => if isBlank c then skipSpace rest else c :: rest
  | [] => []

/-- A backslash before a line end swallows it and all blanks and line ends after it. -/
def continuation? (cs : List Char) : Option (List Char) :=
  match skipBlanks cs with
  | '\n' :: rest => some (skipSpace rest)
  | '\r' :: '\n' :: rest => some (skipSpace rest)
  | _ => none

/-- The text of several lines up to its closing quotes; escapes count only if asked for. -/
def linesBody (quote : Char) (escapes : Bool) : Nat → List Char → Option (List Char × List Char)
  | 0, _ => none
  | n + 1, cs =>
    match closing quote cs with
    | some done => some done
    | none =>
      match cs with
      | [] => none
      | '\\' :: rest =>
        if escapes then
          match continuation? rest with
          | some rest => linesBody quote escapes n rest
          | none => do
            let (c, rest) ← escape rest
            let (text, rest) ← linesBody quote escapes n rest
            return (c :: text, rest)
        else (linesBody quote escapes n rest).map fun r => ('\\' :: r.1, r.2)
      | '\r' :: '\n' :: rest => (linesBody quote escapes n rest).map fun r => ('\n' :: r.1, r.2)
      | c :: rest =>
        if isPlain c || c == '\n' then
          (linesBody quote escapes n rest).map fun r => (c :: r.1, r.2)
        else none

def lines (quote : Char) (escapes : Bool) (cs : List Char) : Option (String × List Char) :=
  let cs := dropFirstBreak cs
  (linesBody quote escapes (cs.length + 1) cs).map fun r => (String.ofList r.1, r.2)

end Quoted
end PacketAuth.Toml
