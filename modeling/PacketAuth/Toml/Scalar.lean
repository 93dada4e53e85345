import PacketAuth.Toml.Value

/-! Values written without brackets or quotes: booleans, integers in four bases, floats, dates and
times. Each is read from the run of characters up to the next delimiter. -/
namespace PacketAuth.Toml

def isBlank (c : Char) : Bool := c == ' ' || c == '\t'

namespace Scalar

/-- Blanks, line ends, brackets, braces and the signs around values end a scalar. -/
def isScalarChar (c : Char) : Bool :=
  !List.contains [' ', '\t', '\n', '\r', '[', ']', '\x7b', '\x7d', '=', ',', '#'] c

/-- The value of a digit below a base of at most sixteen. -/
def digit? (base : Nat) (c : Char) : Option Nat :=
  let n :=
    if '0' ≤ c ∧ c ≤ '9' then c.toNat - '0'.toNat
    else if 'a' ≤ c ∧ c ≤ 'f' then c.toNat - 'a'.toNat + 10
    else if 'A' ≤ c ∧ c ≤ 'F' then c.toNat - 'A'.toNat + 10
    else 16
  if n < base then some n else none

/-- Digits after the first; single underscores may stand between two of them. -/
def moreDigits (base : Nat) : Nat → List Char → Option Nat
  | acc, [] => some acc
  | acc, '_' :: c :: rest => (digit? base c).bind fun d => moreDigits base (acc * base + d) rest
  | acc, c :: rest => (digit? base c).bind fun d => moreDigits base (acc * base + d) rest

def digits (base : Nat) : List Char → Option Nat
  | [] => none
  | c :: rest => (digit? base c).bind fun d => moreDigits base d rest

/-- Decimal digits without a leading zero. -/
def wholeNumber : List Char → Option Nat
  | ['0'] => some 0
  | '0' :: _ => none
  | cs => digits 10 cs

/-- The sign in front, if any: whether it is a minus, and what follows. -/
def signed : List Char → Bool × List Char
  | '-' :: rest => (true, rest)
  | '+' :: rest => (false, rest)
  | cs => (false, cs)

/-- Each underscore stands between two digits of some base; the character in front is given. -/
def underscoresFit : Char → List Char → Bool
  | _, [] => true
  | _, ['_'] => false
  | before, '_' :: c :: rest =>
    (digit? 16 before).isSome && (digit? 16 c).isSome && underscoresFit c rest
  | _, c :: rest => underscoresFit c rest

/-- Decimal digits and an underscore make the shape of an integer, whatever follows them, as long
as the underscores fit and neither a mark of a float nor a space is there. -/
def looksWhole : List Char → Bool
  | [] => false
  | first :: rest =>
    first.isDigit && first != '0' && (rest.dropWhile Char.isDigit).head? == some '_' &&
      underscoresFit first rest && rest.all fun c => c != '.' && c != 'e' && c != 'E' && c != ' '

/-- The digits after the sign of a base; without any there is no value. -/
def based (base : Nat) (cs : List Char) : Option (Option Int) :=
  if cs.isEmpty then some none else (digits base cs).map fun n => some (Int.ofNat n)

/-- The value of an integer, or of what has the shape of one the lack of a value. -/
def integer (cs : List Char) : Option (Option Int) :=
  match cs with
  | '0' :: 'x' :: rest => based 16 rest
  | '0' :: 'o' :: rest => based 8 rest
  | '0' :: 'b' :: rest => based 2 rest
  | cs =>
    let (negative, body) := signed cs
    match wholeNumber body with
    | some n => some (some (if negative then -(Int.ofNat n) else Int.ofNat n))
    | none => if looksWhole body then some none else none

/-- Whether `mantissa * 10 ^ exponent` rounds to a double, decided without large powers where the
number of digits settles it. -/
def inDoubleRange (mantissa : Nat) (exponent : Int) : Bool :=
  let limit := Nat.pow 2 1024 - Nat.pow 2 970
  let magnitude := (Nat.toDigits 10 mantissa).length + exponent
  if mantissa = 0 then true
  else if magnitude < 309 then true
  else if 310 < magnitude then false
  else if 0 ≤ exponent then mantissa * Nat.pow 10 exponent.toNat < limit
  else mantissa < limit * Nat.pow 10 (-exponent).toNat

/-- A fraction, an exponent or both after a whole number; or one of the two special names. Gives
whether the value is in range. -/
def float (cs : List Char) : Option Bool := do
  let isDigit (c : Char) : Bool := c.isDigit || c == '_'
  let body := (signed cs).2
  if body = ['i', 'n', 'f'] ∨ body = ['n', 'a', 'n'] then return true
  let whole := body.takeWhile isDigit
  let _ ← wholeNumber whole
  let rest := body.dropWhile isDigit
  let (fraction, rest) ← match rest with
    | '.' :: r => do
      let _ ← digits 10 (r.takeWhile isDigit)
      pure (r.takeWhile isDigit, r.dropWhile isDigit)
    | r => if r.isEmpty then none else pure ([], r)
  let exponent ← match rest with
    | [] => pure 0
    | e :: r =>
      if e = 'e' ∨ e = 'E' then do
        let (negative, body) := signed r
        let n ← digits 10 body
        pure (if negative then -(Int.ofNat n) else Int.ofNat n)
      else none
  let fraction := fraction.filter Char.isDigit
  let mantissa ← digits 10 (whole.filter Char.isDigit ++ fraction)
  return inDoubleRange mantissa (exponent - fraction.length)

/-- Exactly `n` decimal digits, and what follows them. -/
def fixedDigits (n : Nat) (cs : List Char) : Option (Nat × List Char) :=
  let head := cs.take n
  if head.length = n ∧ head.all Char.isDigit then (digits 10 head).map (·, cs.drop n) else none

def daysInMonth (year month : Nat) : Nat :=
  if month = 2 then
    if year % 4 = 0 ∧ (year % 100 ≠ 0 ∨ year % 400 = 0) then 29 else 28
  else if month = 4 ∨ month = 6 ∨ month = 9 ∨ month = 11 then 30
  else 31

/-- Skips one given character. -/
def expect (c : Char) : List Char → Option (List Char)
  | d :: rest => if d = c then some rest else none
  | [] => none

/-- Year, month and day of the calendar; gives what follows. -/
def date (cs : List Char) : Option (List Char) := do
  let (year, cs) ← fixedDigits 4 cs
  let (month, cs) ← fixedDigits 2 (← expect '-' cs)
  let (day, cs) ← fixedDigits 2 (← expect '-' cs)
  if 1 ≤ month ∧ month ≤ 12 ∧ 1 ≤ day ∧ day ≤ daysInMonth year month then some cs else none

/-- Hour and minute, then perhaps seconds, then perhaps a fraction of them; gives what follows. -/
def time (cs : List Char) : Option (List Char) := do
  let (hour, cs) ← fixedDigits 2 cs
  let (minute, cs) ← fixedDigits 2 (← expect ':' cs)
  if 23 < hour ∨ 59 < minute then none
  else match cs with
    | ':' :: cs => do
      let (second, cs) ← fixedDigits 2 cs
      if 60 < second then none
      else match cs with
        | '.' :: cs =>
          if (cs.takeWhile Char.isDigit).isEmpty then none else some (cs.dropWhile Char.isDigit)
        | cs => some cs
    | cs => some cs

/-- Nothing, the letter for universal time, or a signed distance of less than a day. -/
def offset (cs : List Char) : Option Unit :=
  match cs with
  | [] => some ()
  | ['Z'] | ['z'] => some ()
  | sign :: cs => do
    if sign ≠ '+' ∧ sign ≠ '-' then none
    let (hours, cs) ← fixedDigits 2 cs
    let (minutes, cs) ← fixedDigits 2 (← expect ':' cs)
    if hours ≤ 23 ∧ minutes ≤ 59 ∧ cs = [] then some () else none

/-- A date, a time, or a date and a time with or without an offset. -/
def isDateTime (cs : List Char) : Bool :=
  match date cs with
  | some [] => true
  | some (c :: rest) =>
    (c == 'T' || c == 't' || c == ' ') && ((time rest).bind offset).isSome
  | none => time cs == some []

def ofToken? (cs : List Char) : Option Value :=
  if cs = ['t', 'r', 'u', 'e'] then some (.boolean true)
  else if cs = ['f', 'a', 'l', 's', 'e'] then some (.boolean false)
  else match integer cs with
    | some n => some (.integer n)
    | none => match float cs with
      | some inRange => some (.float inRange)
      | none => if isDateTime cs then some .date else none

/-- Whether a quote stands behind a blank. -/
def quoteAfterBlank (cs : List Char) : Bool :=
  (cs.zip cs.tail).any fun (before, c) => isBlank before && (c == '"' || c == '\'')

/-- A scalar in front of some text, and what follows it. Blanks end it only if nothing of the kind
stands behind them; a quote behind a blank would start another value. -/
def read (cs : List Char) : Option (Value × List Char) :=
  let run := cs.takeWhile fun c => isScalarChar c || isBlank c
  let token := (run.reverse.dropWhile isBlank).reverse
  if quoteAfterBlank token then none
  else (ofToken? token).map (·, cs.drop token.length)

end Scalar
end PacketAuth.Toml
