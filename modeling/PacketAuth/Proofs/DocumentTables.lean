import PacketAuth.Proofs.Lines

/-! Documents of settings at the top and of tables below. The statements of such a document build
the table that it shows, as long as no name is given twice. -/
namespace PacketAuth.Toml

namespace Entries

theorem get?_eq_none {key : String} {es : Entries} :
    es.get? key = none ↔ key ∉ es.map Prod.fst := by
  induction es with
  | nil => simp [get?]
  | cons e rest ih =>
    obtain ⟨k, v⟩ := e
    by_cases same : k = key
    · simp [get?, same]
    · simp [get?, same, ih, Ne.symm same]

theorem put_of_get?_eq_none {key : String} {es : Entries} (h : es.get? key = none) (v : Value) :
    es.put key v = es ++ [(key, v)] := by
  induction es with
  | nil => rfl
  | cons e rest ih =>
    obtain ⟨k, w⟩ := e
    by_cases same : k = key
    · simp [get?, same] at h
    · simp only [get?, same, if_false] at h
      simp [put, same, ih h]

/-- A value put under a key takes the place of the last one. -/
theorem put_put (key : String) (v w : Value) (es : Entries) :
    (es.put key v).put key w = es.put key w := by
  induction es with
  | nil => simp [put]
  | cons e rest ih =>
    obtain ⟨k, u⟩ := e
    by_cases same : k = key <;> simp [put, same, ih]

/-- Whole numbers under their names. -/
def numbers (settings : List (String × Int)) : Entries :=
  settings.map fun s => (s.1, .integer (some s.2))

theorem keys_numbers (settings : List (String × Int)) :
    (numbers settings).map Prod.fst = settings.map Prod.fst := by
  simp [numbers]

theorem define_new {key : String} {es : Entries} (h : es.get? key = none) (v : Value) :
    define v [key] es = some (es ++ [(key, v)]) := by
  rw [define, h, put_of_get?_eq_none h]

theorem within_header {name : String} {es inner inner' : Entries}
    {change : Entries → Option Entries} (h : es.get? name = some (.table .header inner))
    (hc : change inner = some inner') :
    within change [name] es = some (es.put name (.table .header inner')) := by
  rw [within, h]
  simp [within, hc]

/-- A name that comes later in a list without repetitions is free. -/
theorem get?_of_nodup {es : Entries} {key : String} {more : List String}
    (distinct : (es.map Prod.fst ++ key :: more).Nodup) : es.get? key = none := by
  rw [get?_eq_none]
  intro mem
  exact (List.nodup_append.mp distinct).2.2 key mem key (by simp) rfl

end Entries

open Entries

def Line.ofSetting (s : String × Int) : Line := .setting s.1 s.2

namespace Draft

variable {es inner : Entries} {name : String}

theorem add_setting (s : String × Int) (fresh : es.get? s.1 = none) :
    add ⟨es, []⟩ (Line.ofSetting s).statement = some ⟨es ++ numbers [s], []⟩ := by
  rw [Line.ofSetting, Line.statement, add, within, define_new fresh]
  rfl

theorem add_setting_within (s : String × Int) (fresh : inner.get? s.1 = none) :
    add ⟨es.put name (.table .header inner), [name]⟩ (Line.ofSetting s).statement =
      some ⟨es.put name (.table .header (inner ++ numbers [s])), [name]⟩ := by
  have entered := within_header (get?_put_self name (.table .header inner) es)
    (define_new fresh (.integer (some s.2)))
  rw [Line.ofSetting, Line.statement, add, entered, put_put]
  rfl

theorem add_header (path : List String) (fresh : es.get? name = none) :
    add ⟨es, path⟩ (.header [name]) = some ⟨es.put name (.table .header []), [name]⟩ := by
  simp [add, within, openTable, fresh]

/-- Settings with new names are entered one behind the other at the top. -/
theorem foldlM_settings (settings : List (String × Int))
    (distinct : (es.map Prod.fst ++ settings.map Prod.fst).Nodup) :
    ((settings.map Line.ofSetting).map Line.statement).foldlM add ⟨es, []⟩ =
      some ⟨es ++ numbers settings, []⟩ := by
  induction settings generalizing es with
  | nil => simp [numbers]
  | cons s rest ih =>
    rw [List.map_cons, List.map_cons, List.foldlM_cons, add_setting s (get?_of_nodup distinct)]
    simp only [Option.bind_eq_bind, Option.bind_some]
    rw [ih (by simpa [numbers] using distinct)]
    simp [numbers]

/-- Settings under a header are entered in its table. -/
theorem foldlM_settings_within (settings : List (String × Int))
    (distinct : (inner.map Prod.fst ++ settings.map Prod.fst).Nodup) :
    ((settings.map Line.ofSetting).map Line.statement).foldlM add
        ⟨es.put name (.table .header inner), [name]⟩ =
      some ⟨es.put name (.table .header (inner ++ numbers settings)), [name]⟩ := by
  induction settings generalizing inner with
  | nil => simp [numbers]
  | cons s rest ih =>
    rw [List.map_cons, List.map_cons, List.foldlM_cons,
      add_setting_within s (get?_of_nodup distinct)]
    simp only [Option.bind_eq_bind, Option.bind_some]
    rw [ih (by simpa [numbers] using distinct)]
    simp [numbers]

end Draft

/-- Settings at the top of a document, and those under each header. -/
structure Sheet where
  top : List (String × Int)
  tables : List (String × List (String × Int))
  deriving Repr, DecidableEq

namespace Sheet

def linesOf (table : String × List (String × Int)) : List Line :=
  .header table.1 :: table.2.map Line.ofSetting

def lines (s : Sheet) : List Line := s.top.map Line.ofSetting ++ s.tables.flatMap linesOf

def tableEntries (tables : List (String × List (String × Int))) : Entries :=
  tables.map fun t => (t.1, .table .header (numbers t.2))

/-- What a document should be read as. -/
def entries (s : Sheet) : Entries := numbers s.top ++ tableEntries s.tables

/-- Names need no quotes, and none is given twice. -/
structure WellFormed (s : Sheet) : Prop where
  bare : ∀ l ∈ s.lines, Bare l.name
  distinct : (s.top.map Prod.fst ++ s.tables.map Prod.fst).Nodup
  distinct_within : ∀ t ∈ s.tables, (t.2.map Prod.fst).Nodup

/-- A table with a new name is entered behind everything else. -/
theorem foldlM_table (table : String × List (String × Int)) {es : Entries} (path : List String)
    (fresh : es.get? table.1 = none) (distinct : (table.2.map Prod.fst).Nodup) :
    ((linesOf table).map Line.statement).foldlM Draft.add ⟨es, path⟩ =
      some ⟨es ++ tableEntries [table], [table.1]⟩ := by
  have settings := @Draft.foldlM_settings_within es [] table.1 table.2 distinct
  rw [linesOf, List.map_cons, List.foldlM_cons, Line.statement, Draft.add_header path fresh]
  simp only [Option.bind_eq_bind, Option.bind_some]
  rw [settings, put_of_get?_eq_none fresh]
  simp [tableEntries]

theorem foldlM_tables (tables : List (String × List (String × Int))) (es : Entries)
    (path : List String) (distinct : (es.map Prod.fst ++ tables.map Prod.fst).Nodup)
    (distinct_within : ∀ t ∈ tables, (t.2.map Prod.fst).Nodup) :
    ∃ path', ((tables.flatMap linesOf).map Line.statement).foldlM Draft.add ⟨es, path⟩ =
      some ⟨es ++ tableEntries tables, path'⟩ := by
  induction tables generalizing es path with
  | nil => exact ⟨path, by simp [tableEntries]⟩
  | cons t rest ih =>
    have first := foldlM_table t path (get?_of_nodup distinct) (distinct_within t (by simp))
    obtain ⟨path', others⟩ := ih (es ++ tableEntries [t]) [t.1]
      (by simpa [tableEntries] using distinct) (fun t ht => distinct_within t (by simp [ht]))
    refine ⟨path', ?_⟩
    rw [List.flatMap_cons, List.map_append, List.foldlM_append, first]
    simp only [Option.bind_eq_bind, Option.bind_some]
    rw [others]
    simp [tableEntries]

/-- A well-formed document is read as what it says. -/
theorem read_lines {s : Sheet} (h : s.WellFormed) : read (textOf s.lines) = some s.entries := by
  have top := @Draft.foldlM_settings [] s.top (List.nodup_append.mp h.distinct).1
  obtain ⟨path, tables⟩ := foldlM_tables s.tables (numbers s.top) []
    (by simpa [keys_numbers] using h.distinct) h.distinct_within
  rw [read_textOf s.lines h.bare, ofStatements?, lines, List.map_append, List.foldlM_append]
  rw [List.nil_append] at top
  change Option.map _ ((List.foldlM Draft.add ⟨[], []⟩ _).bind _) = _
  rw [top, Option.bind_some, tables]
  rfl

end Sheet

end PacketAuth.Toml
