import PacketAuth.Config.Document
import PacketAuth.Proofs.DocumentTables
import Mathlib.Data.List.Nodup

/-! What a configuration document means. Whatever integers it gives to whatever fields, in whatever
order, it is read as the default configuration with these fields changed; and every configuration
without an open bound on retries has such a document. -/
namespace PacketAuth
open Toml (Value Entries Sheet)

namespace Config

/-- The tables of a configuration document. -/
inductive Group where
  | layout
  | retry
  deriving Repr, DecidableEq

/-- The integers that a configuration document may give. -/
inductive Field where
  | laneCount
  | waitTimeout
  | prefixLength
  | tagOffset
  | maxRetries
  | backoff
  deriving Repr, DecidableEq

def Group.name : Group → String
  | layout => "layout"
  | retry => "retry"

namespace Field

def name : Field → String
  | laneCount => "lane_count"
  | waitTimeout => "wait_timeout_ms"
  | prefixLength => "reference_prefix_len"
  | tagOffset => "tag_offset"
  | maxRetries => "max_busy_retries"
  | backoff => "busy_backoff_ms"

/-- The table that the field belongs to, unless it stands at the top. -/
def group : Field → Option Group
  | laneCount | waitTimeout => none
  | prefixLength | tagOffset => some .layout
  | maxRetries | backoff => some .retry

/-- No field holds a negative number, and a bound on retries has 32 bits. -/
def Fits (f : Field) (n : Int64) : Prop := 0 ≤ n.toInt ∧ (f = maxRetries → n.toInt ≤ 2 ^ 32 - 1)

instance (f : Field) (n : Int64) : Decidable (f.Fits n) := inferInstanceAs (Decidable (_ ∧ _))

def set : Field → Nat → Config → Config
  | laneCount, n, c => { c with laneCount := n }
  | waitTimeout, n, c => { c with waitTimeout := some n }
  | prefixLength, n, c => { c with layout := { c.layout with prefixLength := n } }
  | tagOffset, n, c => { c with layout := { c.layout with tagOffset := n } }
  | maxRetries, n, c => { c with retry := { c.retry with maxRetries := some n } }
  | backoff, n, c => { c with retry := { c.retry with backoff := n } }

/-- The number that a field holds. Two of the fields may be empty. -/
def value : Field → Config → Option Nat
  | laneCount, c => some c.laneCount
  | waitTimeout, c => c.waitTimeout
  | prefixLength, c => some c.layout.prefixLength
  | tagOffset, c => some c.layout.tagOffset
  | maxRetries, c => c.retry.maxRetries
  | backoff, c => some c.retry.backoff

theorem name_injective : Function.Injective name := by
  intro f g same
  cases f <;> cases g <;> first | rfl | exact absurd same (by decide)

theorem name_ne_group (f : Field) (g : Group) : f.name ≠ g.name := by
  cases f <;> cases g <;> decide

theorem bare_name (f : Field) : Toml.Bare f.name := by
  cases f <;> decide

@[simp] theorem value_set_self (f : Field) (n : Nat) (c : Config) :
    f.value (f.set n c) = some n := by
  cases f <;> rfl

theorem value_set_of_ne {f g : Field} (h : f ≠ g) (n : Nat) (c : Config) :
    f.value (g.set n c) = f.value c := by
  cases f <;> cases g <;> first | rfl | exact absurd rfl h

end Field

/-- A configuration is known by the numbers that its fields hold. -/
theorem ext_value {c c' : Config} (h : ∀ f : Field, f.value c = f.value c') : c = c' := by
  obtain ⟨lanes, ⟨prefixLength, tagOffset⟩, ⟨maxRetries, backoff⟩, timeout⟩ := c
  obtain ⟨lanes', ⟨prefixLength', tagOffset'⟩, ⟨maxRetries', backoff'⟩, timeout'⟩ := c'
  obtain rfl : lanes = lanes' := Option.some.inj (h .laneCount)
  obtain rfl : prefixLength = prefixLength' := Option.some.inj (h .prefixLength)
  obtain rfl : tagOffset = tagOffset' := Option.some.inj (h .tagOffset)
  obtain rfl : maxRetries = maxRetries' := h .maxRetries
  obtain rfl : backoff = backoff' := Option.some.inj (h .backoff)
  obtain rfl : timeout = timeout' := h .waitTimeout
  rfl

/-- Steps that change a part of a whole only can be done on the part. -/
theorem foldlM_part (part : α → β) {f : α → ε → Option α} {g : β → ε → Option β}
    (h : ∀ a e, g (part a) e = (f a e).map part) (es : List ε) (a : α) :
    es.foldlM g (part a) = (es.foldlM f a).map part := by
  induction es generalizing a with
  | nil => rfl
  | cons e rest ih =>
    rw [List.foldlM_cons, List.foldlM_cons, h]
    cases f a e with
    | none => rfl
    | some b => exact ih b

namespace Group

theorem name_injective : Function.Injective name := by
  intro g h same
  cases g <;> cases h <;> first | rfl | exact absurd same (by decide)

theorem bare_name (g : Group) : Toml.Bare g.name := by
  cases g <;> decide

/-- A table starts from the defaults. -/
def reset : Group → Config → Config
  | layout, c => { c with layout := {} }
  | retry, c => { c with retry := {} }

theorem value_reset {g : Group} {f : Field} (h : f.group = some g) (c : Config) :
    f.value (g.reset c) = f.value {} := by
  cases f <;> cases h <;> rfl

theorem value_reset_of_ne {g : Group} {f : Field} (h : f.group ≠ some g) (c : Config) :
    f.value (g.reset c) = f.value c := by
  cases f <;> cases g <;> first | rfl | exact absurd rfl h

/-- What one entry of a table sets. -/
def setField : Group → String → Value → Config → Option Config
  | layout, key, v, c => (c.layout.setField key v).map fun l => { c with layout := l }
  | retry, key, v, c => (c.retry.setField key v).map fun p => { c with retry := p }

/-- A table is the same as its entries one after the other, starting from the defaults. -/
theorem setField_table (g : Group) (es : Entries) (c : Config) :
    c.setField g.name (.table .header es) =
      es.foldlM (fun c e => g.setField e.1 e.2 c) (g.reset c) := by
  cases g with
  | layout =>
    have step : ∀ (l : Layout) (e : String × Value),
        layout.setField e.1 e.2 { c with layout := l } =
          (l.setField e.1 e.2).map fun l => { c with layout := l } := fun _ _ => rfl
    exact (foldlM_part (g := fun c e => layout.setField e.1 e.2 c) _ step es {}).symm
  | retry =>
    have step : ∀ (p : RetryPolicy) (e : String × Value),
        retry.setField e.1 e.2 { c with retry := p } =
          (p.setField e.1 e.2).map fun p => { c with retry := p } := fun _ _ => rfl
    exact (foldlM_part (g := fun c e => retry.setField e.1 e.2 c) _ step es {}).symm

end Group

/-- What one entry sets at the top, or in a table. -/
def setFieldIn : Option Group → String → Value → Config → Option Config
  | none, key, v, c => c.setField key v
  | some g, key, v, c => g.setField key v c

/-- Which numbers are read into a field: those of its width. -/
def Field.limit : Field → Nat
  | .maxRetries => UInt32.size
  | _ => UInt64.size

theorem natBelow?_limit (f : Field) (n : Int64) :
    (Value.integer (some n.toInt)).natBelow? f.limit =
      if f.Fits n then some n.toInt.toNat else none := by
  have top := n.toInt_lt
  have same : 0 ≤ n.toInt ∧ n.toInt < f.limit ↔ f.Fits n := by
    by_cases bound : f = .maxRetries
    · subst bound
      simp only [Field.Fits, Field.limit, UInt32.size, true_implies]
      omega
    · have wide : f.limit = 2 ^ 64 := by
        cases f <;> first | rfl | exact absurd rfl bound
      simp only [Field.Fits, wide, bound, false_implies, and_true]
      omega
  rw [Value.natBelow?, if_congr same rfl rfl]

theorem setFieldIn_eq (f : Field) (v : Value) (c : Config) :
    setFieldIn f.group f.name v c = (v.natBelow? f.limit).map fun n => f.set n c := by
  cases f
  all_goals
    simp only [setFieldIn, Field.group, Field.name, Field.limit, Group.setField, setField,
      Layout.setField, RetryPolicy.setField, String.reduceEq, if_true, if_false, Option.map_map]
    rfl

/-- A field is set where it belongs, if the number fits. -/
theorem setFieldIn_name (f : Field) (n : Int64) (c : Config) :
    setFieldIn f.group f.name (.integer (some n.toInt)) c =
      if f.Fits n then some (f.set n.toInt.toNat c) else none := by
  rw [setFieldIn_eq, natBelow?_limit]
  split <;> rfl

/-- Fields with their numbers, in the order in which they are given. -/
abbrev Settings := List (Field × Int64)

namespace Settings

def numbers (s : Settings) : List (String × Int) := s.map fun e => (e.1.name, e.2.toInt)

def Fit (s : Settings) : Prop := ∀ e ∈ s, e.1.Fits e.2

instance (s : Settings) : Decidable s.Fit := inferInstanceAs (Decidable (∀ e ∈ s, _))

def apply (s : Settings) (c : Config) : Config := s.foldl (fun c e => e.1.set e.2.toInt.toNat c) c

/-- Settings of one place are read one after the other, if all of them fit. -/
theorem foldlM_numbers {s : Settings} {place : Option Group} (h : ∀ e ∈ s, e.1.group = place)
    (c : Config) :
    (Entries.numbers s.numbers).foldlM (fun c e => setFieldIn place e.1 e.2 c) c =
      if s.Fit then some (s.apply c) else none := by
  induction s generalizing c with
  | nil => simp [numbers, Entries.numbers, Fit, apply]
  | cons e rest ih =>
    have here : setFieldIn place e.1.name (.integer (some e.2.toInt)) c =
        if e.1.Fits e.2 then some (e.1.set e.2.toInt.toNat c) else none := by
      rw [← h e (by simp), setFieldIn_name]
    have others := ih (fun x hx => h x (by simp [hx]))
    simp only [numbers, Entries.numbers, List.map_cons, List.foldlM_cons] at others ⊢
    rw [here]
    by_cases fits : e.1.Fits e.2
    · have all : Fit (e :: rest) ↔ Fit rest := by
        simp only [Fit, List.forall_mem_cons, fits, true_and]
      rw [if_pos fits, if_congr all rfl rfl]
      exact others _
    · have not_all : ¬Fit (e :: rest) := fun all => fits (all e (by simp))
      rw [if_neg fits, if_neg not_all]
      rfl

theorem value_apply_of_not_mem {s : Settings} {f : Field} (h : f ∉ s.map Prod.fst) (c : Config) :
    f.value (s.apply c) = f.value c := by
  induction s generalizing c with
  | nil => rfl
  | cons e rest ih =>
    simp only [List.map_cons, List.mem_cons, not_or] at h
    rw [apply, List.foldl_cons]
    exact (ih h.2 _).trans (Field.value_set_of_ne h.1 _ _)

/-- A field that is given once holds its number. -/
theorem value_apply_of_mem {s : Settings} (distinct : (s.map Prod.fst).Nodup) {f : Field} {n : Int64}
    (h : (f, n) ∈ s) (c : Config) : f.value (s.apply c) = some n.toInt.toNat := by
  induction s generalizing c with
  | nil => cases h
  | cons e rest ih =>
    obtain ⟨fresh, distinct⟩ := List.nodup_cons.mp distinct
    rw [apply, List.foldl_cons]
    rcases List.mem_cons.mp h with rfl | h
    · exact (value_apply_of_not_mem fresh _).trans (Field.value_set_self _ _ _)
    · exact ih distinct h _

end Settings

/-- A configuration document: settings at the top, and tables of settings below. -/
structure Document where
  top : Settings
  tables : List (Group × Settings)
  deriving Repr, DecidableEq

namespace Document

def sheet (d : Document) : Sheet :=
  ⟨d.top.numbers, d.tables.map fun t => (t.1.name, t.2.numbers)⟩

/-- Each setting has a line, as has the header of each table. -/
def text (d : Document) : String := Toml.textOf d.sheet.lines

def settings (d : Document) : Settings := d.top ++ d.tables.flatMap Prod.snd

/-- Every field stands where it belongs. No field is given twice, and no table. -/
structure WellFormed (d : Document) : Prop where
  top_place : ∀ e ∈ d.top, e.1.group = none
  top_once : (d.top.map Prod.fst).Nodup
  tables_once : (d.tables.map Prod.fst).Nodup
  place : ∀ t ∈ d.tables, ∀ e ∈ t.2, e.1.group = some t.1
  once : ∀ t ∈ d.tables, (t.2.map Prod.fst).Nodup

theorem map_fst_numbers (s : Settings) :
    s.numbers.map Prod.fst = (s.map Prod.fst).map Field.name := by
  simp [Settings.numbers]

theorem WellFormed.sheet {d : Document} (h : d.WellFormed) : d.sheet.WellFormed where
  bare := by
    have bare_setting : ∀ s : Settings, ∀ l ∈ s.numbers.map Toml.Line.ofSetting, Toml.Bare l.name := by
      intro s l hl
      obtain ⟨e, he, rfl⟩ := List.mem_map.mp hl
      obtain ⟨x, -, rfl⟩ := List.mem_map.mp he
      exact x.1.bare_name
    intro l hl
    rcases List.mem_append.mp hl with hl | hl
    · exact bare_setting d.top l hl
    · obtain ⟨t, ht, hl⟩ := List.mem_flatMap.mp hl
      obtain ⟨u, -, rfl⟩ := List.mem_map.mp ht
      rcases List.mem_cons.mp hl with rfl | hl
      · exact u.1.bare_name
      · exact bare_setting u.2 l hl
  distinct := by
    have tables : (d.sheet.tables.map Prod.fst) = (d.tables.map Prod.fst).map Group.name := by
      simp [Document.sheet]
    rw [tables, Document.sheet, map_fst_numbers, List.nodup_append]
    refine ⟨h.top_once.map Field.name_injective, h.tables_once.map Group.name_injective, ?_⟩
    intro x hx y hy
    obtain ⟨f, -, rfl⟩ := List.mem_map.mp hx
    obtain ⟨g, -, rfl⟩ := List.mem_map.mp hy
    exact f.name_ne_group g
  distinct_within := by
    intro t ht
    obtain ⟨u, hu, rfl⟩ := List.mem_map.mp ht
    rw [map_fst_numbers]
    exact (h.once u hu).map Field.name_injective

/-- The tables of a document, carried out one after the other. -/
def applyTables (tables : List (Group × Settings)) (c : Config) : Config :=
  tables.foldl (fun c t => t.2.apply (t.1.reset c)) c

def config (d : Document) : Config := applyTables d.tables (d.top.apply {})

theorem foldlM_tables {tables : List (Group × Settings)}
    (h : ∀ t ∈ tables, ∀ e ∈ t.2, e.1.group = some t.1) (c : Config) :
    (Sheet.tableEntries (tables.map fun t => (t.1.name, t.2.numbers))).foldlM
        (fun c e => c.setField e.1 e.2) c =
      if Settings.Fit (tables.flatMap Prod.snd) then some (applyTables tables c) else none := by
  induction tables generalizing c with
  | nil => simp [Sheet.tableEntries, Settings.Fit, applyTables]
  | cons t rest ih =>
    have here : c.setField t.1.name (.table .header (Entries.numbers t.2.numbers)) =
        if t.2.Fit then some (t.2.apply (t.1.reset c)) else none := by
      rw [Group.setField_table]
      exact Settings.foldlM_numbers (h t (by simp)) _
    have others := ih (fun t ht => h t (by simp [ht]))
    have fit : Settings.Fit ((t :: rest).flatMap Prod.snd) ↔
        t.2.Fit ∧ Settings.Fit (rest.flatMap Prod.snd) := by
      rw [List.flatMap_cons]
      exact List.forall_mem_append
    rw [List.map_cons, Sheet.tableEntries, List.map_cons, List.foldlM_cons, here,
      if_congr fit rfl rfl]
    by_cases fits : t.2.Fit
    · rw [if_pos fits]
      simp only [fits, true_and]
      exact others _
    · rw [if_neg fits, if_neg fun both => fits both.1]
      rfl

/-- A document is read as the configuration that its settings build, if all of them fit. -/
theorem ofEntries?_sheet {d : Document} (h : d.WellFormed) :
    ofEntries? d.sheet.entries = if d.settings.Fit then some d.config else none := by
  have top := Settings.foldlM_numbers h.top_place {}
  have fit : d.settings.Fit ↔ d.top.Fit ∧ Settings.Fit (d.tables.flatMap Prod.snd) :=
    List.forall_mem_append
  rw [ofEntries?, Sheet.entries, List.foldlM_append, if_congr fit rfl rfl]
  change (List.foldlM (fun (c : Config) (e : String × Value) => setFieldIn none e.1 e.2 c) _ _).bind
    _ = _
  rw [Document.sheet, top]
  by_cases fits : d.top.Fit
  · rw [if_pos fits, Option.bind_some, foldlM_tables h.place]
    simp only [fits, true_and]
    rfl
  · rw [if_neg fits, if_neg fun both => fits both.1]
    rfl

/-- Tables of other groups leave a field alone. -/
theorem value_applyTables_of_ne {tables : List (Group × Settings)}
    (h : ∀ t ∈ tables, ∀ e ∈ t.2, e.1.group = some t.1) {f : Field}
    (other : ∀ t ∈ tables, f.group ≠ some t.1) (c : Config) :
    f.value (applyTables tables c) = f.value c := by
  induction tables generalizing c with
  | nil => rfl
  | cons t rest ih =>
    have absent : f ∉ t.2.map Prod.fst := by
      intro mem
      obtain ⟨e, he, rfl⟩ := List.mem_map.mp mem
      exact other t (by simp) (h t (by simp) e he)
    rw [applyTables, List.foldl_cons]
    refine (ih (fun t ht => h t (by simp [ht])) (fun t ht => other t (by simp [ht])) _).trans ?_
    rw [Settings.value_apply_of_not_mem absent, Group.value_reset_of_ne (other t (by simp))]

/-- A field that no table gives keeps its default, also in a table that is there. -/
theorem value_applyTables_of_not_mem {tables : List (Group × Settings)} {f : Field}
    (absent : ∀ t ∈ tables, f ∉ t.2.map Prod.fst) {c : Config} (unset : f.value c = f.value {}) :
    f.value (applyTables tables c) = f.value {} := by
  induction tables generalizing c with
  | nil => exact unset
  | cons t rest ih =>
    rw [applyTables, List.foldl_cons]
    apply ih fun t ht => absent t (by simp [ht])
    rw [Settings.value_apply_of_not_mem (absent t (by simp))]
    by_cases mine : f.group = some t.1
    · exact Group.value_reset mine c
    · rw [Group.value_reset_of_ne mine, unset]

theorem value_applyTables_of_mem {tables : List (Group × Settings)}
    (h : ∀ t ∈ tables, ∀ e ∈ t.2, e.1.group = some t.1) (distinct : (tables.map Prod.fst).Nodup)
    (once : ∀ t ∈ tables, (t.2.map Prod.fst).Nodup) {t : Group × Settings} (ht : t ∈ tables)
    {f : Field} {n : Int64} (hn : (f, n) ∈ t.2) (c : Config) :
    f.value (applyTables tables c) = some n.toInt.toNat := by
  induction tables generalizing c with
  | nil => cases ht
  | cons u rest ih =>
    obtain ⟨fresh, distinct⟩ := List.nodup_cons.mp distinct
    rw [applyTables, List.foldl_cons]
    rcases List.mem_cons.mp ht with rfl | ht
    · -- no later table has the same name, so none starts from the defaults again
      have other : ∀ u ∈ rest, f.group ≠ some u.1 := by
        intro u hu same
        have mine : f.group = some t.1 := h t (by simp) (f, n) hn
        have : u.1 = t.1 := Option.some.inj (same.symm.trans mine)
        exact fresh (this ▸ List.mem_map_of_mem hu)
      refine (value_applyTables_of_ne (fun u hu => h u (by simp [hu])) other _).trans ?_
      exact Settings.value_apply_of_mem (once t (by simp)) hn _
    · exact ih (fun u hu => h u (by simp [hu])) distinct (fun u hu => once u (by simp [hu])) ht _

variable {d : Document} {f : Field}

theorem value_config_of_mem (h : d.WellFormed) {n : Int64} (hn : (f, n) ∈ d.settings) :
    f.value d.config = some n.toInt.toNat := by
  rcases List.mem_append.mp hn with hn | hn
  · have top : f.group = none := h.top_place (f, n) hn
    rw [config, value_applyTables_of_ne h.place (by simp [top])]
    exact Settings.value_apply_of_mem h.top_once hn {}
  · obtain ⟨t, ht, hn⟩ := List.mem_flatMap.mp hn
    exact value_applyTables_of_mem h.place h.tables_once h.once ht hn _

theorem value_config_of_not_mem (absent : ∀ n, (f, n) ∉ d.settings) :
    f.value d.config = f.value {} := by
  have absent_top : f ∉ d.top.map Prod.fst := by
    intro mem
    obtain ⟨⟨_, n⟩, he, rfl⟩ := List.mem_map.mp mem
    exact absent n (List.mem_append_left _ he)
  apply value_applyTables_of_not_mem
  · intro t ht mem
    obtain ⟨⟨_, n⟩, he, rfl⟩ := List.mem_map.mp mem
    exact absent n (List.mem_append_right _ (List.mem_flatMap.mpr ⟨t, ht, he⟩))
  · exact Settings.value_apply_of_not_mem absent_top {}

end Document

/-- The configuration that nothing was set in. -/
def defaults : Config := {}

/-- Integers for some of the fields. -/
abbrev Assignment := Field → Option Int64

namespace Assignment

def nat? (a : Assignment) (f : Field) : Option Nat := (a f).map fun n => n.toInt.toNat

/-- The default configuration, changed in exactly the assigned fields. -/
def config (a : Assignment) : Config where
  laneCount := (a.nat? .laneCount).getD defaults.laneCount
  layout :=
    ⟨(a.nat? .prefixLength).getD defaults.layout.prefixLength,
      (a.nat? .tagOffset).getD defaults.layout.tagOffset⟩
  retry :=
    ⟨(a.nat? .maxRetries).or defaults.retry.maxRetries,
      (a.nat? .backoff).getD defaults.retry.backoff⟩
  waitTimeout := (a.nat? .waitTimeout).or defaults.waitTimeout

theorem value_config (a : Assignment) (f : Field) :
    f.value a.config = (a.nat? f).or (f.value defaults) := by
  cases f <;> simp only [config, Field.value] <;> cases a.nat? _ <;> rfl

end Assignment

/-- The document gives just the integers of the assignment. -/
structure Document.States (d : Document) (a : Assignment) : Prop extends d.WellFormed where
  assigned : ∀ f n, (f, n) ∈ d.settings ↔ a f = some n

variable {d : Document} {a : Assignment}

theorem Document.States.config_eq (h : d.States a) : d.config = a.config := by
  apply ext_value
  intro f
  rw [a.value_config, Assignment.nat?]
  cases assigned : a f with
  | none =>
    rw [value_config_of_not_mem fun n hn => ?_]
    · rfl
    · rw [(h.assigned f n).mp hn] at assigned
      cases assigned
  | some n => exact value_config_of_mem h.toWellFormed ((h.assigned f n).mpr assigned)

theorem Document.States.fit (h : d.States a) : d.settings.Fit ↔ ∀ f n, a f = some n → f.Fits n := by
  constructor
  · intro fit f n assigned
    exact fit (f, n) ((h.assigned f n).mpr assigned)
  · rintro fits ⟨f, n⟩ mem
    exact fits f n ((h.assigned f n).mp mem)

theorem validate_ne_unreadable (c : Config) (detail : String) :
    c.validate ≠ .error (.unreadable detail) := by
  unfold validate
  split_ifs
  · nofun
  · nofun
  · nofun
  · unfold Layout.validate
    split_ifs <;> nofun

/-- A text is loaded as what its entries describe, if a service can honour that. -/
theorem ofDocument_eq_ok {text : String} {c : Config} :
    ofDocument text = .ok c ↔ (Toml.read text).bind ofEntries? = some c ∧ c.validate = .ok () := by
  unfold ofDocument
  cases (Toml.read text).bind ofEntries? with
  | none => exact iff_of_false nofun fun both => nomatch both.1
  | some read =>
    dsimp only
    constructor
    · intro loaded
      cases valid : read.validate with
      | error e => simp [valid, Except.map] at loaded
      | ok u =>
        rw [valid] at loaded
        obtain rfl : read = c := Except.ok.inj loaded
        exact ⟨rfl, valid⟩
    · rintro ⟨same, valid⟩
      obtain rfl := Option.some.inj same
      rw [valid]
      rfl

theorem Document.States.ofEntries? (h : d.States a) :
    (Toml.read d.text).bind ofEntries? = if d.settings.Fit then some a.config else none := by
  rw [Document.text, Sheet.read_lines h.toWellFormed.sheet, Option.bind_some,
    Document.ofEntries?_sheet h.toWellFormed, h.config_eq]

theorem Document.States.ofDocument_of_fit (h : d.States a)
    (fits : ∀ f n, a f = some n → f.Fits n) :
    ofDocument d.text = a.config.validate.map fun _ => a.config := by
  rw [ofDocument, h.ofEntries?, if_pos (h.fit.mpr fits)]

theorem Document.States.ofDocument_of_not_fit (h : d.States a)
    (misfit : ¬∀ f n, a f = some n → f.Fits n) :
    ofDocument d.text = .error (.unreadable "not a configuration document") := by
  rw [ofDocument, h.ofEntries?, if_neg fun fit => misfit (h.fit.mp fit)]

theorem Document.States.value_of_ofDocument (h : d.States a) {c : Config}
    (loaded : ofDocument d.text = .ok c) {f : Field} (unset : a f = none) :
    f.value c = f.value defaults := by
  obtain ⟨read, -⟩ := ofDocument_eq_ok.mp loaded
  rw [h.ofEntries?] at read
  obtain ⟨-, same⟩ := Option.ite_none_right_eq_some.mp read
  rw [← Option.some.inj same, Assignment.value_config, Assignment.nat?, unset]
  rfl

/-- Whatever integers a document assigns to fields, in whatever order and with whatever tables
that assign none: it is unreadable if one of them does not fit. Otherwise it sets them in the
default configuration, and the outcome is the result or what is wrong with it. -/
theorem documents_override_defaults {d : Document} {a : Assignment} (h : d.States a) :
    ((∃ detail, ofDocument d.text = .error (.unreadable detail)) ↔
      ∃ f n, a f = some n ∧ ¬f.Fits n) ∧
    ((∀ f n, a f = some n → f.Fits n) →
      (a.config.validate = .ok () → ofDocument d.text = .ok a.config) ∧
      ∀ e, a.config.validate = .error e → ofDocument d.text = .error e) ∧
    (∀ c, ofDocument d.text = .ok c → ∀ f, a f = none → f.value c = f.value defaults) ∧
    ∀ text c, ofDocument text = .ok c → c.validate = .ok () := by
  refine ⟨⟨?_, ?_⟩, fun fits => ⟨?_, ?_⟩, fun c loaded f => h.value_of_ofDocument loaded,
    fun text c loaded => (ofDocument_eq_ok.mp loaded).2⟩
  · rintro ⟨detail, unreadable⟩
    by_contra all_fit
    have fits : ∀ f n, a f = some n → f.Fits n := by
      intro f n assigned
      by_contra misfit
      exact all_fit ⟨f, n, assigned, misfit⟩
    rw [h.ofDocument_of_fit fits] at unreadable
    cases valid : a.config.validate with
    | error e =>
      rw [valid] at unreadable
      obtain rfl : e = .unreadable detail := Except.error.inj unreadable
      exact validate_ne_unreadable _ detail valid
    | ok u => simp [valid, Except.map] at unreadable
  · rintro ⟨f, n, assigned, misfit⟩
    exact ⟨_, h.ofDocument_of_not_fit fun fits => misfit (fits f n assigned)⟩
  · intro valid
    rw [h.ofDocument_of_fit fits, valid]
    rfl
  · intro e invalid
    rw [h.ofDocument_of_fit fits, invalid]
    rfl

/-- A lane count and a bound on retries, with the other table there and empty. -/
def shortDocument : Document :=
  ⟨[(.laneCount, 4)], [(.retry, [(.maxRetries, 3)]), (.layout, [])]⟩

def shortAssignment : Assignment
  | .laneCount => some 4
  | .maxRetries => some 3
  | _ => none

theorem short_document_is_loaded :
    shortDocument.States shortAssignment ∧
      shortDocument.text = "lane_count = 4\n[retry]\nmax_busy_retries = 3\n[layout]\n" ∧
      ofDocument shortDocument.text = .ok { laneCount := 4, retry := .bounded 3 } := by
  have states : shortDocument.States shortAssignment :=
    { top_place := by decide
      top_once := by decide
      tables_once := by decide
      place := by decide
      once := by decide
      assigned := by
        intro f n
        cases f <;> simp [shortDocument, shortAssignment, Document.settings, eq_comm] }
  have fits : ∀ f n, shortAssignment f = some n → f.Fits n := by
    intro f n assigned
    cases f <;> cases assigned <;> decide
  refine ⟨states, by decide, ?_⟩
  exact ((documents_override_defaults states).2.1 fits).1 (by decide)

end Config
end PacketAuth
