import PacketAuth.Toml.Statement

/-! A TOML document: its statements, carried out one after the other, give its table. -/
namespace PacketAuth.Toml

/-- The table so far, and the header under which settings are entered. -/
structure Draft where
  entries : Entries := []
  path : List String := []
  deriving Repr

namespace Draft

def add (d : Draft) : Statement → Option Draft
  | .setting key value =>
    (Entries.within (Entries.define value key) d.path d.entries).map fun es =>
      { d with entries := es }
  | .header path => do
    let key ← path.getLast?
    let es ← Entries.within (Entries.openTable key) path.dropLast d.entries
    return ⟨es, path⟩
  | .arrayHeader path => do
    let key ← path.getLast?
    let es ← Entries.within (Entries.appendTable key) path.dropLast d.entries
    return ⟨es, path⟩

end Draft

def Entries.ofStatements? (statements : List Statement) : Option Entries :=
  (statements.foldlM Draft.add {}).map Draft.entries

/-- The table that a text describes, if it is a document. A mark of the byte order in front is
ignored. -/
def read (text : String) : Option Entries :=
  let cs := match text.toList with
    | '\ufeff' :: rest => rest
    | cs => cs
  (statements (cs.length + 1) cs).bind Entries.ofStatements?

end PacketAuth.Toml
