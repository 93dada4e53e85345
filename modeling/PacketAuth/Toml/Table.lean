import PacketAuth.Toml.Value

/-! Adding to the tables of a document. A key is set once; a table may be opened by one header,
and dotted keys extend only tables that no header and no brace opened. -/
namespace PacketAuth.Toml.Entries

/-- Changes the last item of a list. -/
def mapLast? (f : Value → Option Value) : List Value → Option (List Value)
  | [] => none
  | [v] => (f v).map ([·])
  | v :: rest => (mapLast? f rest).map (v :: ·)

/-- Changes the entries of a table value. -/
def mapTable? (f : Entries → Option Entries) : Value → Option Value
  | .table origin entries => (f entries).map (.table origin ·)
  | _ => none

/-- Sets a dotted key that has no value yet. An implied table on its way counts from then on as
introduced by a dotted key. -/
def define (value : Value) : List String → Entries → Option Entries
  | [], _ => none
  | [key], es =>
    match es.get? key with
    | none => some (es.put key value)
    | some _ => none
  | key :: rest@(_ :: more), es =>
    match es.get? key with
    | none => (define value rest []).map fun inner => es.put key (.table .dotted inner)
    | some (.table origin inner) =>
      if origin = .dotted ∨ origin = .implied then
        (define value rest inner).map fun inner => es.put key (.table .dotted inner)
      else none
    | some (.array true items) =>
      if more ≠ [] then
        (mapLast? (mapTable? (define value rest)) items).map fun items =>
          es.put key (.array true items)
      else none
    | some _ => none

/-- Applies a change to the table that a path of headers leads to; missing tables on the way are
implied, and an array of tables stands for its last one. -/
def within (change : Entries → Option Entries) : List String → Entries → Option Entries
  | [], es => change es
  | key :: rest, es =>
    match es.get? key with
    | none => (within change rest []).map fun inner => es.put key (.table .implied inner)
    | some (.table .braces _) => none
    | some (.table origin inner) =>
      (within change rest inner).map fun inner => es.put key (.table origin inner)
    | some (.array true items) =>
      (mapLast? (mapTable? (within change rest)) items).map fun items =>
        es.put key (.array true items)
    | some _ => none

/-- The table of a header: a new one, or one that was only implied so far. -/
def openTable (key : String) (es : Entries) : Option Entries :=
  match es.get? key with
  | none => some (es.put key (.table .header []))
  | some (.table .implied inner) => some (es.put key (.table .header inner))
  | some _ => none

/-- One more table of an array of tables. -/
def appendTable (key : String) (es : Entries) : Option Entries :=
  match es.get? key with
  | none => some (es.put key (.array true [.table .header []]))
  | some (.array true items) => some (es.put key (.array true (items ++ [.table .header []])))
  | some _ => none

end PacketAuth.Toml.Entries
