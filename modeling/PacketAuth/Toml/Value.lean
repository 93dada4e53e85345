/-! Values of a TOML document. A table remembers how it came about, because that decides whether
later lines may add to it. -/
namespace PacketAuth.Toml

/-- How a table was introduced: between braces, by its own header, as the parent of another
header, or by a dotted key. -/
inductive Origin where
  | braces
  | header
  | implied
  | dotted
  deriving Repr, DecidableEq

/-- Of a float only whether it is in range is kept, and of a date nothing. An integer may have the
shape of one and no value; that is a fault only where the value is asked for. -/
inductive Value where
  | string (text : String)
  | integer (n : Option Int)
  | float (inRange : Bool)
  | boolean (b : Bool)
  | date
  | array (ofTables : Bool) (items : List Value)
  | table (origin : Origin) (entries : List (String × Value))
  deriving Repr

abbrev Entries := List (String × Value)

namespace Entries

def get? (key : String) : Entries → Option Value
  | [] => none
  | (k, v) :: rest => if k = key then some v else get? key rest

/-- Replaces the value of a key, or adds the key at the end. -/
def put (key : String) (value : Value) : Entries → Entries
  | [] => [(key, value)]
  | (k, v) :: rest => if k = key then (k, value) :: rest else (k, v) :: put key value rest

@[simp] theorem get?_put_self (key : String) (value : Value) (es : Entries) :
    (put key value es).get? key = some value := by
  induction es with
  | nil => simp [put, get?]
  | cons e rest ih =>
    obtain ⟨k, v⟩ := e
    by_cases h : k = key <;> simp [put, get?, h, ih]

end Entries

mutual

/-- Every number in the value can be represented: integers in 128 bits, with or without a sign,
and floats below the largest double. -/
def Value.isSound : Value → Bool
  | .integer (some n) => -(2 ^ 127) ≤ n && n < 2 ^ 128
  | .integer none => false
  | .float inRange => inRange
  | .array _ items => itemsSound items
  | .table _ entries => entriesSound entries
  | _ => true

def itemsSound : List Value → Bool
  | [] => true
  | v :: rest => v.isSound && itemsSound rest

def entriesSound : List (String × Value) → Bool
  | [] => true
  | (_, v) :: rest => v.isSound && entriesSound rest

end

/-- An integer that is not negative and lies below a limit. -/
def Value.natBelow? (limit : Nat) : Value → Option Nat
  | .integer (some n) => if 0 ≤ n ∧ n < limit then some n.toNat else none
  | _ => none

end PacketAuth.Toml
