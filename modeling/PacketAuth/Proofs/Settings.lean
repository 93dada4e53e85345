import PacketAuth.Proofs.Rejection

/-! What settings are accepted, and why those: a valid layout is one that cuts every request inside
its bounds and is of use for some, and a service that is built never reaches out of a buffer. -/
namespace PacketAuth

namespace Layout

/-- Whatever request the layout splits, tag and payload lie inside it. No buffer is longer than the
limit. -/
def Covers (l : Layout) (limit : Nat) (adding : Addition := .checked) : Prop :=
  ∀ available ≤ limit, ∀ total ≤ limit, ∀ regions,
    l.split available total adding = .ok regions →
      regions.tag.Fits total ∧ regions.payload.Fits total

/-- The layout splits some request whose length fits 16 bits. -/
def Usable (l : Layout) (limit : Nat) (adding : Addition := .checked) : Prop :=
  ∃ total ≤ 65535, ∃ available ≤ limit, ∃ regions,
    l.split available total adding = .ok regions

variable {l : Layout}

/-- The regions of any request lie inside it, and so inside its buffer. -/
theorem split_fits (valid : l.validate = .ok ()) {available total : Nat} {r : Regions}
    (h : l.split available total = .ok r) :
    r.tag.Fits total ∧ r.payload.Fits total ∧ total ≤ available ∧ r.tag.length = Tag.size := by
  have before := (validate_eq_ok.mp valid).1
  obtain ⟨long, room, rfl⟩ := split_ok h
  simp only [Region.Fits, Region.length]
  omega

/-- The shortest request shows whether the tag lies inside it, and whether it can be named. -/
theorem validate_iff_covers_and_usable {limit : Nat} (hp : l.prefixLength + Tag.size ≤ limit) :
    l.validate = .ok () ↔ l.Covers limit ∧ l.Usable limit := by
  have shortest := split_eq_ok (l := l) (Nat.le_refl (l.prefixLength + Tag.size)) (Nat.le_refl _)
  constructor
  · intro valid
    refine ⟨fun available _ total _ regions h => ?_,
      _, (validate_eq_ok.mp valid).2, _, hp, _, shortest⟩
    obtain ⟨tag, payload, -⟩ := split_fits valid h
    exact ⟨tag, payload⟩
  · rintro ⟨covers, total, named, available, -, regions, h⟩
    have inside := (covers _ hp _ hp _ shortest).1.2
    have long := (split_ok h).1
    rw [validate_eq_ok, minLength]
    exact ⟨Nat.le_of_add_le_add_right inside, Nat.le_trans long named⟩

theorem IsExact.validate_iff {adding : Addition} (exact : l.IsExact adding) {limit : Nat}
    (hp : l.prefixLength + Tag.size ≤ limit) :
    l.validate adding = .ok () ↔ l.Covers limit adding ∧ l.Usable limit adding := by
  rcases exact with rfl | ⟨counted, tag⟩
  · exact validate_iff_covers_and_usable hp
  · simp only [Covers, Usable, validate_eq adding counted, split_eq adding counted tag]
    exact validate_iff_covers_and_usable hp

end Layout

namespace Region

/-- The bytes of the region, if there are such bytes. -/
def slice? (r : Region) (buffer : List UInt8) : Option (List UInt8) :=
  if r.Fits buffer.length then some (r.read buffer) else none

/-- The buffer with bytes copied to the region, if it is there and they are as many as it has. -/
def copy? (r : Region) (bytes buffer : List UInt8) : Option (List UInt8) :=
  if r.Fits buffer.length ∧ bytes.length = r.length then some (r.write bytes buffer) else none

/-- The same region seen from an origin that is not behind it. -/
def since? (r : Region) (origin : Nat) : Option Region :=
  if origin ≤ r.start ∧ origin ≤ r.stop then some (r.since origin) else none

end Region

namespace Regions

/-- The masked payload, if no byte is asked for that is not there. -/
def maskedPayload? (r : Regions) (buffer : List UInt8) : Option (List UInt8) := do
  let bytes ← r.payload.slice? buffer
  let overlap := r.tag.meet r.payload
  if overlap.start < overlap.stop then
    let overlap ← overlap.since? r.payload.start
    overlap.copy? (List.replicate overlap.length 0) bytes
  else return bytes

/-- Nothing that a call does with its buffer reaches out of it, and no copy differs in length from
its target. -/
structure Safe (r : Regions) (buffer : List UInt8) : Prop where
  masked : r.maskedPayload? buffer = some (r.maskedPayload buffer)
  wire : r.tag.slice? buffer = some (r.tag.read buffer)
  written : ∀ tag : Tag, r.tag.copy? tag.bytes buffer = some (r.tag.write tag.bytes buffer)

/-- The part of the payload that the tag overlaps lies inside the payload, so it can be blanked out
there. -/
theorem masked_of_fits {r : Regions} {buffer : List UInt8} (h : r.payload.Fits buffer.length) :
    r.maskedPayload? buffer = some (r.maskedPayload buffer) := by
  have length : (r.payload.read buffer).length = r.payload.stop - r.payload.start :=
    Region.read_length h
  have behind : r.payload.start ≤ (r.tag.meet r.payload).start := Nat.le_max_right _ _
  have inside : (r.tag.meet r.payload).stop ≤ r.payload.stop := Nat.min_le_right _ _
  simp only [maskedPayload?, maskedPayload, Region.slice?, if_pos h, bind, Option.bind]
  generalize r.tag.meet r.payload = overlap at behind inside
  by_cases some_bytes : overlap.start < overlap.stop
  · have seen : overlap.since? r.payload.start = some (overlap.since r.payload.start) :=
      if_pos ⟨behind, by omega⟩
    have fits : (overlap.since r.payload.start).Fits (r.payload.read buffer).length := by
      rw [length]
      simp only [Region.Fits, Region.since]
      omega
    rw [if_pos some_bytes, seen, if_pos (by simp only [Region.since]; omega)]
    exact if_pos ⟨fits, List.length_replicate⟩
  · rw [if_neg some_bytes, if_neg (by simp only [Region.since]; omega)]
    rfl

/-- A payload that starts behind the buffer cannot be copied. -/
theorem maskedPayload?_eq_none {r : Regions} {buffer : List UInt8}
    (beyond : buffer.length < r.payload.start) : r.maskedPayload? buffer = none := by
  have misfit : ¬ r.payload.Fits buffer.length := fun fits =>
    Nat.not_lt_of_le (Nat.le_trans fits.1 fits.2) beyond
  rw [maskedPayload?, Region.slice?, if_neg misfit]
  rfl

theorem safe_of_split {l : Layout} (valid : l.validate = .ok ()) {buffer : List UInt8} {total : Nat}
    {r : Regions} (h : l.split buffer.length total = .ok r) : r.Safe buffer := by
  obtain ⟨tag, payload, room, sixteen⟩ := Layout.split_fits valid h
  have wire : r.tag.Fits buffer.length := ⟨tag.1, Nat.le_trans tag.2 room⟩
  refine ⟨masked_of_fits ⟨payload.1, Nat.le_trans payload.2 room⟩, if_pos wire, fun t => ?_⟩
  exact if_pos ⟨wire, t.length_bytes.trans sixteen.symm⟩

end Regions

namespace Builder

/-- What a setting makes of the key, of the number of lanes, and so on, if it tells anything of
it. -/
def Setting.key? : Setting → Option (Option AuthKey)
  | .key k => some (some k)
  | _ => none

def Setting.laneCount? : Setting → Option Nat
  | .laneCount n => some n
  | .config c => some c.laneCount
  | _ => none

def Setting.layout? : Setting → Option Layout
  | .layout l => some l
  | .config c => some c.layout
  | _ => none

def Setting.retry? : Setting → Option RetryPolicy
  | .retry p => some p
  | .config c => some c.retry
  | _ => none

def Setting.waitTimeout? : Setting → Option (Option Nat)
  | .waitTimeout seconds nanoseconds => some (some (timeoutOfDuration seconds nanoseconds))
  | .config c => some c.waitTimeout
  | _ => none

/-- What the latest of the settings that say anything says. -/
def latest {α : Type} (tells : Setting → Option α) (otherwise : α) (settings : List Setting) : α :=
  (settings.filterMap tells).getLast?.getD otherwise

/-- The key and the configuration that a number of settings leave behind. -/
def result (settings : List Setting) : Builder where
  key := latest Setting.key? none settings
  config :=
    { laneCount := latest Setting.laneCount? 15 settings
      layout := latest Setting.layout? {} settings
      retry := latest Setting.retry? {} settings
      waitTimeout := latest Setting.waitTimeout? none settings }

/-- A field that each setting replaces or leaves alone is as the latest one says. -/
theorem latest_of_foldl {α : Type} (tells : Setting → Option α) (field : Builder → α)
    (step : ∀ b setting, field (set b setting) = (tells setting).getD (field b))
    (settings : List Setting) (b : Builder) :
    field (settings.foldl set b) = latest tells (field b) settings := by
  induction settings generalizing b with
  | nil => rfl
  | cons setting settings ih =>
    rw [List.foldl_cons, ih, latest, latest, step, List.filterMap_cons]
    cases tells setting with
    | none => rfl
    | some a =>
      rw [List.getLast?_cons]
      rfl

theorem foldl_set (settings : List Setting) : settings.foldl set {} = result settings := by
  have key := latest_of_foldl Setting.key? Builder.key
    (fun b setting => by cases setting <;> rfl) settings {}
  have lanes := latest_of_foldl Setting.laneCount? (fun b => b.config.laneCount)
    (fun b setting => by cases setting <;> rfl) settings {}
  have layout := latest_of_foldl Setting.layout? (fun b => b.config.layout)
    (fun b setting => by cases setting <;> rfl) settings {}
  have retry := latest_of_foldl Setting.retry? (fun b => b.config.retry)
    (fun b setting => by cases setting <;> rfl) settings {}
  have timeout := latest_of_foldl Setting.waitTimeout? (fun b => b.config.waitTimeout)
    (fun b setting => by cases setting <;> rfl) settings {}
  simp only [result, ← key, ← lanes, ← layout, ← retry, ← timeout]

/-- A key is there once it was set, whatever is set afterwards. -/
theorem key_isSome (settings : List Setting) (b : Builder) :
    (settings.foldl set b).key.isSome = true ↔
      b.key.isSome = true ∨ ∃ k, Setting.key k ∈ settings := by
  induction settings generalizing b with
  | nil => simp
  | cons setting settings ih =>
    rw [List.foldl_cons, ih]
    cases setting <;> simp [set]

theorem build_isOk (b : Builder) (adding : Addition) :
    (∃ s, b.build adding = .ok s) ↔ b.key.isSome = true ∧ b.config.validate adding = .ok () := by
  unfold build
  cases b.key with
  | none => simp
  | some key => cases b.config.validate adding <;> simp [Except.map]

theorem build_eq_ok {b : Builder} {adding : Addition} {s : Service} (h : b.build adding = .ok s) :
    b.key = some s.key ∧ s.config = b.config := by
  unfold build at h
  cases hk : b.key with
  | none => simp [hk] at h
  | some key =>
    cases hv : b.config.validate adding with
    | error e => simp [hk, hv, Except.map] at h
    | ok =>
      simp only [hk, hv, Except.map, Except.ok.injEq] at h
      rw [← h]
      exact ⟨rfl, rfl⟩

end Builder

namespace World
variable {σ : Type} {E : Engine σ} {s₀ : σ} {w v : World σ} {s : Service} {b : Builder}

/-- All that a service does with a buffer is safe. -/
structure Shielded (w : World σ) (i : Nat) (s : Service) : Prop where
  service : ∃ t, w.host.services[i]? = some t ∧ s.Persists t ∧ t.Laned
  requests : ∀ t, w.host.services[i]? = some t → ∀ r lane regions,
    t.prepare r = .ok (lane, regions) → regions.Safe r.buffer
  calls : ∀ c ∈ w.host.calls, c.request.service = i → c.regions.Safe c.request.buffer

theorem shielded_of_installed (reach : Run (unruly E) ⟨{ engine := s₀ }, []⟩ w)
    (hb : b.build = .ok s) (later : Run (unruly E) ⟨(w.host.install b).2, w.hand⟩ v) :
    v.Shielded w.host.services.length s := by
  have run : Run (unruly E) ⟨{ engine := s₀ }, []⟩ v := (reach.tail (.install w b)).trans later
  have laned := laned_of_run run
  have answered : Answered v := Answered.effects ⟨by simp, by simp⟩ (Run.effects run)
  have employed := Employed.effects lasting_regions (fun ticket c hc => by simp at hc)
    (Run.effects run)
  have new : (w.host.install b).2.services[w.host.services.length]? = some s := by
    rw [Host.install, hb]
    exact List.getElem?_concat_length
  obtain ⟨t, ht, kept⟩ := (Run.effects later).persists.service _ s new
  refine ⟨⟨t, ht, kept, laned t (List.mem_of_getElem? ht)⟩, ?_, ?_⟩
  · intro t ht r lane regions hp
    exact Regions.safe_of_split (answered.layouts t (List.mem_of_getElem? ht)) (prepare_ok hp).2
  · intro c hc hi
    obtain ⟨ticket, hget⟩ := List.getElem?_of_mem hc
    obtain ⟨t, ht, split⟩ := employed ticket c hget
    exact Regions.safe_of_split (answered.layouts t (List.mem_of_getElem? ht)) split

/-- A layout whose sums can be counted is valid if and only if tag and payload lie inside every
request that it splits, and the length of some such request fits 16 bits. However a service is set
up, it is as the latest settings say, and it is built if and only if a key was set and the number of
lanes, the timeout and the layout are good. A service that is built has all its lanes, and nothing
that it ever does with a buffer, for whatever request and on whatever engine, reaches out of it or
copies to a place of another length.

All of this holds of a build with overflow checks. A build without them accepts, besides, the
layouts whose shortest request has a length that cannot be counted; on the services with such a
layout, each request that is let through reaches out of its buffer. -/
theorem accepted_settings_are_safe (E : Engine σ) (s₀ : σ) :
    (∀ (l : Layout) (adding : Addition) (limit : Nat), l.IsExact adding →
      l.prefixLength + Tag.size ≤ limit →
        (l.validate adding = .ok () ↔ l.Covers limit adding ∧ l.Usable limit adding)) ∧
    (∀ l : Layout, l.prefixLength < UInt64.size →
      (l.validate .wrapping = .ok () ↔
        l.tagOffset ≤ l.prefixLength ∧
          (l.prefixLength + Tag.size ≤ 65535 ∨ ¬ l.IsCounted))) ∧
    ∀ settings : List Builder.Setting,
      let b := settings.foldl Builder.set {}
      b = Builder.result settings ∧
      ∀ adding : Addition,
        ((∃ s, b.build adding = .ok s) ↔
          (∃ key, Builder.Setting.key key ∈ settings) ∧ 1 ≤ b.config.laneCount ∧
            b.config.laneCount ≤ 256 ∧ b.config.waitTimeout ≠ some 0 ∧
            b.config.layout.validate adding = .ok ()) ∧
        ∀ s, b.build adding = .ok s →
          b.key = some s.key ∧ s.config = b.config ∧ s.lanes.length = b.config.laneCount ∧
          (adding = .checked ∨ b.config.layout.IsCounted →
            b.build = .ok s ∧ (∀ r, s.prepare r adding = s.prepare r) ∧
            ∀ w v : World σ, Run (unruly E) ⟨{ engine := s₀ }, []⟩ w →
              Run (unruly E) ⟨(w.host.install b).2, w.hand⟩ v →
                v.Shielded w.host.services.length s) ∧
          (¬ b.config.layout.IsCounted → ∀ r lane regions,
            s.prepare r adding = .ok (lane, regions) → r.buffer.length + Tag.size < UInt64.size →
              regions.maskedPayload? r.buffer = none) := by
  refine ⟨fun l adding limit exact hp => exact.validate_iff hp,
    fun l word => Layout.validate_wrapping_eq_ok word, ?_⟩
  intro settings b
  refine ⟨Builder.foldl_set settings, fun adding => ⟨?_, ?_⟩⟩
  · have key := Builder.key_isSome settings {}
    rw [Builder.build_isOk, key, b.config.validate_eq_ok adding, maxLaneCount]
    simp
  · intro s hb
    obtain ⟨key, config⟩ := Builder.build_eq_ok hb
    have laned : s.lanes.length = s.config.laneCount := Service.laned_of_build hb
    refine ⟨key, config, by rw [laned, config], fun sound => ?_,
      fun overflows r lane regions hp room => ?_⟩
    · have same : b.build = .ok s ∧ ∀ r, s.prepare r adding = s.prepare r := by
        rcases sound with rfl | counted
        · exact ⟨hb, fun r => rfl⟩
        · exact ⟨Builder.build_eq adding counted ▸ hb,
            (Service.screens_of_build hb).counted (config ▸ counted)⟩
      exact ⟨same.1, same.2, fun w v reach later => shielded_of_installed reach same.1 later⟩
    · have beyond := Layout.payload_of_overflow (config ▸ overflows) (prepare_ok hp).2 room
      exact Regions.maskedPayload?_eq_none beyond

/-- Too many lanes, replaced by just as many as there may be: the last of them takes the shortest
request of a layout with its tag in front of the payload. A tag that starts one byte behind the
prefix does not lie inside each request. -/
theorem last_lane_takes_shortest_request :
    let r : Request := ⟨0, ⟨255⟩, .read, List.replicate 24 0, 24, none⟩
    ∃ (s : Service) (v : World Scripted) (lane : Lane) (regions : Regions),
      ([.laneCount 300, .key (.ofSeed 1), .config { layout := ⟨8, 2⟩ }, .laneCount 256].foldl
        Builder.set {}).build = .ok s ∧
      s.lanes.length = 256 ∧ v.Shielded 0 s ∧ s.prepare r = .ok (lane, regions) ∧
      regions.Safe r.buffer ∧
      ¬ (Layout.Covers ⟨4, 5⟩ (UInt64.size - 1) ∧ Layout.Usable ⟨4, 5⟩ (UInt64.size - 1)) := by
  intro r
  let settings : List Builder.Setting :=
    [.laneCount 300, .key (.ofSeed 1), .config { layout := ⟨8, 2⟩ }, .laneCount 256]
  let b := settings.foldl Builder.set {}
  let first : World Scripted := ⟨{ engine := {} }, []⟩
  obtain ⟨layouts, -, builders⟩ := accepted_settings_are_safe Scripted.engine {}
  obtain ⟨-, each⟩ := builders settings
  obtain ⟨built, safe⟩ := each .checked
  obtain ⟨s, hs⟩ : ∃ s, b.build = .ok s :=
    built.mpr ⟨⟨_, List.mem_cons_of_mem _ List.mem_cons_self⟩, by decide, by decide, by decide,
      by decide⟩
  obtain ⟨-, config, lanes, sound, -⟩ := safe s hs
  obtain ⟨-, -, shielded⟩ := sound (.inl rfl)
  have shield : (⟨(first.host.install b).2, []⟩ : World Scripted).Shielded 0 s :=
    shielded first _ .refl .refl
  have own : (first.host.install b).2.services[0]? = some s := by
    rw [Host.install, hs]
    rfl
  have laned : s.Laned := by
    rw [Service.Laned, lanes, config]
  have sound : ¬ r.Malformed s.config := by
    rw [config]
    decide
  obtain ⟨lane, regions, hp⟩ := (laned.prepare_ok_iff r).mpr sound
  refine ⟨s, _, lane, regions, hs, lanes, shield, hp, shield.requests s own r lane regions hp, ?_⟩
  rw [← layouts ⟨4, 5⟩ .checked (UInt64.size - 1) (.inl rfl) (by decide)]
  decide

/-- A build without overflow checks accepts a prefix that all but fills a machine word, and lets a
request through that is no longer than twenty bytes: its payload starts far behind its buffer. -/
theorem accepted_prefix_reaches_out :
    ∃ (s : Service) (lane : Lane) (regions : Regions),
      ([.key (.ofSeed 1), .layout ⟨UInt64.size - 11, 0⟩].foldl Builder.set {}).build .wrapping =
          .ok s ∧
        s.config.layout.validate .wrapping = .ok () ∧
        s.prepare shortRequest .wrapping = .ok (lane, regions) ∧
        regions.payload = ⟨UInt64.size - 11, 20⟩ ∧
        regions.maskedPayload? shortRequest.buffer = none := by
  obtain ⟨s, lane, regions, built, config, hp⟩ := exists_admitted
  have split := (prepare_ok hp).2
  rw [config] at split
  have beyond := Layout.payload_of_overflow (by decide +kernel) split (by decide +kernel)
  obtain ⟨-, -, rfl⟩ := Layout.split_eq_ok_iff.mp split
  refine ⟨s, lane, _, built, ?_, hp, rfl, Regions.maskedPayload?_eq_none beyond⟩
  rw [config, Layout.validate_wrapping_eq_ok (by decide +kernel)]
  decide +kernel

end World
end PacketAuth
