import PacketAuth.Proofs.Loading

/-! Which configurations a document can describe: all those that a service can honour and that have
a bound on retries. A bound that is not given is the default one, and no text takes it away. -/
namespace PacketAuth
open Toml (Value Entries)

namespace Config

/-- The fields of one place. -/
def Field.at (place : Option Group) : List Field :=
  [laneCount, waitTimeout, prefixLength, tagOffset, maxRetries, backoff].filter
    fun f => f.group = place

theorem Field.mem_at {f : Field} {place : Option Group} : f ∈ Field.at place ↔ f.group = place := by
  simp only [Field.at, List.mem_filter, decide_eq_true_eq, and_iff_right_iff_imp]
  rintro -
  cases f <;> decide

theorem Field.nodup_at (place : Option Group) : (Field.at place).Nodup :=
  List.Nodup.filter _ (by decide)

namespace Assignment

/-- What is assigned to the fields of one place. -/
def settings (a : Assignment) (fields : List Field) : Settings :=
  fields.filterMap fun f => (a f).map fun n => (f, n)

/-- A document for an assignment, with both tables. -/
def document (a : Assignment) : Document :=
  ⟨a.settings (Field.at none),
    [Group.layout, Group.retry].map fun g => (g, a.settings (Field.at (some g)))⟩

variable {a : Assignment} {f : Field} {n : Int64}

theorem mem_settings {fields : List Field} :
    (f, n) ∈ a.settings fields ↔ f ∈ fields ∧ a f = some n := by
  simp only [settings, List.mem_filterMap, Option.map_eq_some_iff, Prod.mk.injEq]
  constructor
  · rintro ⟨g, mem, m, assigned, rfl, rfl⟩
    exact ⟨mem, assigned⟩
  · rintro ⟨mem, assigned⟩
    exact ⟨f, mem, n, assigned, rfl, rfl⟩

theorem nodup_settings {fields : List Field} (h : fields.Nodup) :
    ((a.settings fields).map Prod.fst).Nodup := by
  induction fields with
  | nil => exact List.nodup_nil
  | cons f rest ih =>
    obtain ⟨fresh, distinct⟩ := List.nodup_cons.mp h
    cases assigned : a f with
    | none => simpa [settings, assigned] using ih distinct
    | some n =>
      have absent : f ∉ (a.settings rest).map Prod.fst := by
        intro mem
        obtain ⟨⟨_, m⟩, hm, rfl⟩ := List.mem_map.mp mem
        exact fresh (mem_settings.mp hm).1
      have first : a.settings (f :: rest) = (f, n) :: a.settings rest := by
        simp [settings, assigned]
      rw [first]
      exact List.nodup_cons.mpr ⟨absent, ih distinct⟩

/-- A table of the document holds what is assigned in its group. -/
theorem mem_tables {t : Group × Settings} (h : t ∈ a.document.tables) :
    t.2 = a.settings (Field.at (some t.1)) := by
  obtain ⟨g, -, rfl⟩ := List.mem_map.mp h
  rfl

theorem mem_document : (f, n) ∈ a.document.settings ↔ a f = some n := by
  rw [Document.settings, List.mem_append, List.mem_flatMap]
  constructor
  · rintro (top | ⟨t, ht, inside⟩)
    · exact (mem_settings.mp top).2
    · rw [mem_tables ht] at inside
      exact (mem_settings.mp inside).2
  · intro assigned
    cases place : f.group with
    | none => exact .inl (mem_settings.mpr ⟨Field.mem_at.mpr place, assigned⟩)
    | some g =>
      refine .inr ⟨(g, a.settings (Field.at (some g))), ?_, ?_⟩
      · exact List.mem_map.mpr ⟨g, by cases g <;> decide, rfl⟩
      · exact mem_settings.mpr ⟨Field.mem_at.mpr place, assigned⟩

/-- Every assignment can be written down. -/
theorem states_document (a : Assignment) : a.document.States a where
  top_place := fun _ mem => Field.mem_at.mp (mem_settings.mp mem).1
  top_once := nodup_settings (Field.nodup_at none)
  tables_once := by
    simp [document]
  place := by
    intro t ht e he
    rw [mem_tables ht] at he
    exact Field.mem_at.mp (mem_settings.mp he).1
  once := by
    intro t ht
    rw [mem_tables ht]
    exact nodup_settings (Field.nodup_at _)
  assigned := fun _ _ => mem_document

/-- The numbers of a configuration, where its fields hold any. -/
def ofConfig (c : Config) : Assignment := fun f => (f.value c).map Int64.ofNat

variable {c : Config}

theorem nat?_ofConfig (small : ∀ f n, Field.value f c = some n → n < 2 ^ 63) (f : Field) :
    (ofConfig c).nat? f = f.value c := by
  rw [nat?, ofConfig]
  cases holds : f.value c with
  | none => rfl
  | some n =>
    rw [Option.map_some, Option.map_some, Int64.toInt_ofNat_of_lt (small f n holds),
      Int.toNat_natCast]

/-- A configuration is the default one with all its numbers set, if it has a bound on retries: any
other field that is empty is so by default. -/
theorem config_ofConfig (small : ∀ f n, Field.value f c = some n → n < 2 ^ 63)
    (bounded : c.retry.maxRetries ≠ none) : (ofConfig c).config = c := by
  apply ext_value
  intro f
  rw [value_config, nat?_ofConfig small]
  cases holds : f.value c with
  | some n => rfl
  | none =>
    cases f
    case waitTimeout => rfl
    case maxRetries => exact absurd holds bounded
    all_goals cases holds

theorem fits_ofConfig (small : ∀ f n, Field.value f c = some n → n < 2 ^ 63)
    (word : ∀ n, c.retry.maxRetries = some n → n < 2 ^ 32) {f : Field} {n : Int64}
    (assigned : ofConfig c f = some n) : f.Fits n := by
  obtain ⟨m, holds, rfl⟩ := Option.map_eq_some_iff.mp assigned
  rw [Field.Fits, Int64.toInt_ofNat_of_lt (small f m holds)]
  refine ⟨by omega, ?_⟩
  rintro rfl
  have := word m holds
  omega

end Assignment

end Config

/-- What every step preserves holds of the result, if there is one. -/
theorem foldlM_preserves {P : β → Prop} {f : β → ε → Option β}
    (step : ∀ b e b', f b e = some b' → P b → P b') {es : List ε} {b b' : β}
    (h : es.foldlM f b = some b') (hb : P b) : P b' := by
  induction es generalizing b with
  | nil =>
    obtain rfl : b = b' := Option.some.inj h
    exact hb
  | cons e rest ih =>
    rw [List.foldlM_cons] at h
    obtain ⟨c, hc, h⟩ := Option.bind_eq_some_iff.mp h
    exact ih h (step b e c hc hb)

namespace RetryPolicy

/-- No entry takes the bound away, since every value of its key is a number. -/
theorem bounded_setField {p p' : RetryPolicy} {key : String} {v : Value}
    (h : p.setField key v = some p') (bounded : p.maxRetries ≠ none) : p'.maxRetries ≠ none := by
  unfold setField at h
  split_ifs at h
  · obtain ⟨n, -, rfl⟩ := Option.map_eq_some_iff.mp h
    nofun
  · obtain ⟨n, -, rfl⟩ := Option.map_eq_some_iff.mp h
    exact bounded
  · change (if v.isSound then some p else none) = some p' at h
    obtain ⟨-, rfl⟩ : v.isSound = true ∧ p = p' := by simpa using h
    exact bounded

theorem bounded_ofValue? {v : Value} {p : RetryPolicy} (h : ofValue? v = some p) :
    p.maxRetries ≠ none := by
  have step : ∀ (p : RetryPolicy) (e : String × Value) p', p.setField e.1 e.2 = some p' →
      p.maxRetries ≠ none → p'.maxRetries ≠ none := fun _ _ _ => bounded_setField
  unfold ofValue? at h
  split at h
  · exact foldlM_preserves step h nofun
  · exact foldlM_preserves step h nofun
  · obtain rfl := Option.some.inj h
    nofun
  · cases h

end RetryPolicy

namespace Config

theorem bounded_setField {c c' : Config} {key : String} {v : Value}
    (h : c.setField key v = some c') (bounded : c.retry.maxRetries ≠ none) :
    c'.retry.maxRetries ≠ none := by
  unfold setField at h
  split_ifs at h
  · obtain ⟨n, -, rfl⟩ := Option.map_eq_some_iff.mp h
    exact bounded
  · obtain ⟨n, -, rfl⟩ := Option.map_eq_some_iff.mp h
    exact bounded
  · obtain ⟨l, -, rfl⟩ := Option.map_eq_some_iff.mp h
    exact bounded
  · obtain ⟨p, hp, rfl⟩ := Option.map_eq_some_iff.mp h
    exact RetryPolicy.bounded_ofValue? hp
  · change (if v.isSound then some c else none) = some c' at h
    obtain ⟨-, rfl⟩ : v.isSound = true ∧ c = c' := by simpa using h
    exact bounded

/-- Whatever a text says, the configuration that it describes has a bound on retries. -/
theorem bounded_ofDocument {text : String} {c : Config} (h : ofDocument text = .ok c) :
    c.retry.maxRetries ≠ none := by
  obtain ⟨entries, -, built⟩ := Option.bind_eq_some_iff.mp (ofDocument_eq_ok.mp h).1
  have step : ∀ (c : Config) (e : String × Value) c', c.setField e.1 e.2 = some c' →
      c.retry.maxRetries ≠ none → c'.retry.maxRetries ≠ none := fun _ _ _ => bounded_setField
  exact foldlM_preserves step built nofun

/-- A configuration that a service can honour and whose numbers fit has a document just if it
has a bound on retries. -/
theorem loadable_iff_retries_bounded {c : Config} (valid : c.validate = .ok ())
    (small : ∀ f n, Field.value f c = some n → n < 2 ^ 63)
    (word : ∀ n, c.retry.maxRetries = some n → n < 2 ^ 32) :
    (∃ text, ofDocument text = .ok c) ↔ c.retry.maxRetries ≠ none := by
  constructor
  · rintro ⟨text, loaded⟩
    exact bounded_ofDocument loaded
  · intro bounded
    have same := Assignment.config_ofConfig small bounded
    have states := Assignment.states_document (.ofConfig c)
    refine ⟨(Assignment.ofConfig c).document.text, ?_⟩
    rw [states.ofDocument_of_fit fun f n => Assignment.fits_ofConfig small word, same, valid]
    rfl

/-- Not all that a service can honour: the policy without a bound has no document. -/
theorem unbounded_retries_have_no_document :
    ¬∀ c : Config, c.validate = .ok () → (∀ f n, Field.value f c = some n → n < 2 ^ 63) →
      (∀ n, c.retry.maxRetries = some n → n < 2 ^ 32) → ∃ text, ofDocument text = .ok c := by
  intro loadable
  have small : ∀ f n, Field.value f { retry := .unbounded } = some n → n < 2 ^ 63 := by
    intro f n holds
    cases f <;> cases holds <;> decide
  obtain ⟨text, loaded⟩ := loadable { retry := .unbounded } (by decide) small nofun
  exact bounded_ofDocument loaded rfl

theorem bounded_retries_have_document :
    Config.validate { retry := .bounded 7 } = .ok () ∧
      ∃ text, ofDocument text = .ok { retry := .bounded 7 } := by
  have valid : Config.validate { retry := .bounded 7 } = .ok () := by decide
  have small : ∀ f n, Field.value f { retry := .bounded 7 } = some n → n < 2 ^ 63 := by
    intro f n holds
    cases f <;> cases holds <;> decide
  have word : ∀ n, RetryPolicy.maxRetries (.bounded 7) = some n → n < 2 ^ 32 := by
    intro n holds
    cases holds
    decide
  exact ⟨valid, (loadable_iff_retries_bounded valid small word).mpr nofun⟩

end Config
end PacketAuth
