import PacketAuth.Proofs.Settings
import Mathlib.Algebra.GroupWithZero.Nat
import Mathlib.Order.Bounds.Basic

/-! Timeouts in whole milliseconds. A duration is stored as the least number of milliseconds that is
not shorter, as far as 64 bits hold it: no timeout is cut short by it, and only one of no time at
all is stored as zero and refused. -/
namespace PacketAuth

/-- Whole seconds, and further nanoseconds that make up less than a second. -/
structure Duration where
  seconds : UInt64
  nanoseconds : Nat
  nanoseconds_lt : nanoseconds < 1000000000
  deriving DecidableEq

namespace Duration

def zero : Duration := ⟨0, 0, by decide⟩

/-- The length in nanoseconds. -/
def length (d : Duration) : Nat := d.seconds.toNat * 1000000000 + d.nanoseconds

/-- Seconds count first, then nanoseconds. -/
instance : LE Duration where
  le d e := d.seconds < e.seconds ∨ d.seconds = e.seconds ∧ d.nanoseconds ≤ e.nanoseconds

/-- The number of milliseconds that is stored for a duration. -/
def timeout (d : Duration) : Nat := timeoutOfDuration d.seconds.toNat d.nanoseconds

def ofMilliseconds (n : UInt64) : Duration where
  seconds := n / 1000
  nanoseconds := n.toNat % 1000 * 1000000
  nanoseconds_lt := by omega

variable {d e : Duration}

theorem ext_length (h : d.length = e.length) : d = e := by
  obtain ⟨s, n, hn⟩ := d
  obtain ⟨t, m, hm⟩ := e
  simp only [length] at h
  obtain rfl : s = t := UInt64.toNat_inj.mp (by omega)
  obtain rfl : n = m := by omega
  rfl

theorem le_iff_length_le : d ≤ e ↔ d.length ≤ e.length := by
  obtain ⟨s, n, hn⟩ := d
  obtain ⟨t, m, hm⟩ := e
  change s < t ∨ s = t ∧ n ≤ m ↔ s.toNat * 1000000000 + n ≤ t.toNat * 1000000000 + m
  rw [UInt64.lt_iff_toNat_lt, ← UInt64.toNat_inj]
  omega

theorem length_eq_zero : d.length = 0 ↔ d = zero :=
  ⟨fun h => ext_length h, fun h => h ▸ rfl⟩

theorem length_lt (d : Duration) : d.length < 2 ^ 128 := by
  have seconds := d.seconds.toNat_lt
  have nanoseconds := d.nanoseconds_lt
  rw [length]
  omega

theorem length_ofMilliseconds (n : UInt64) : (ofMilliseconds n).length = n.toNat * 1000000 := by
  rw [length, ofMilliseconds, UInt64.toNat_div]
  change n.toNat / 1000 * 1000000000 + n.toNat % 1000 * 1000000 = _
  omega

/-- Rounded up, a length is the least whole number of milliseconds that is not shorter. -/
theorem isLeast_rounded (d : Duration) :
    IsLeast {n | d.length ≤ n * 1000000} ((d.length + 999999) / 1000000) := by
  constructor
  · rw [Set.mem_ofPred_eq]
    omega
  · intro n long
    rw [Set.mem_ofPred_eq] at long
    omega

theorem timeout_eq (d : Duration) :
    d.timeout = min ((d.length + 999999) / 1000000) (UInt64.size - 1) := rfl

theorem timeout_mono (h : d ≤ e) : d.timeout ≤ e.timeout := by
  have shorter := le_iff_length_le.mp h
  rw [timeout_eq, timeout_eq]
  omega

theorem timeout_eq_zero_iff : d.timeout = 0 ↔ d = zero := by
  have positive : 0 < UInt64.size - 1 := by decide
  rw [timeout_eq, ← length_eq_zero]
  omega

/-- Whole milliseconds are stored as they are. -/
theorem timeout_of_whole {n : UInt64} (h : d.length = n.toNat * 1000000) :
    d.timeout = n.toNat := by
  have fits : n.toNat < UInt64.size := n.toNat_lt
  rw [timeout_eq, h]
  omega

end Duration

/-- The wait timeout as callers of a service see it. -/
def Config.waitDuration (c : Config) : Option Duration :=
  c.waitTimeout.map fun n => .ofMilliseconds (.ofNat n)

namespace Builder

/-- A key was set, and nothing is wrong in the configuration unless it is the timeout. -/
def Complete (b : Builder) : Prop :=
  b.key.isSome = true ∧ { b.config with waitTimeout := none }.validate = .ok ()

variable {b : Builder}

theorem set_timeout (b : Builder) (d : Duration) :
    b.set (.waitTimeout d.seconds.toNat d.nanoseconds) =
      { b with config := { b.config with waitTimeout := some d.timeout } } := rfl

theorem build_of_zero (complete : b.Complete) :
    { b with config := { b.config with waitTimeout := some 0 } }.build = .error .zeroTimeout := by
  obtain ⟨hkey, valid⟩ := complete
  obtain ⟨key, hkey⟩ := Option.isSome_iff_exists.mp hkey
  obtain ⟨lanes, named, -, -⟩ := (Config.validate_eq_ok _).mp valid
  have some_lanes : b.config.laneCount ≠ 0 := Nat.one_le_iff_ne_zero.mp lanes
  have few_lanes : ¬ maxLaneCount < b.config.laneCount := Nat.not_lt.mpr named
  simp [build, hkey, Config.validate, some_lanes, few_lanes, Except.map]

theorem build_of_positive (complete : b.Complete) {n : Nat} (positive : n ≠ 0) :
    ∃ s, { b with config := { b.config with waitTimeout := some n } }.build = .ok s ∧
      s.config.waitTimeout = some n := by
  obtain ⟨hkey, valid⟩ := complete
  obtain ⟨lanes, named, -, layout⟩ := (Config.validate_eq_ok _).mp valid
  have accepted : { b.config with waitTimeout := some n }.validate = .ok () :=
    (Config.validate_eq_ok _).mpr ⟨lanes, named, by simpa using positive, layout⟩
  let b' : Builder := { b with config := { b.config with waitTimeout := some n } }
  obtain ⟨s, hs⟩ := (build_isOk b' _).mpr ⟨hkey, accepted⟩
  exact ⟨s, hs, by rw [(build_eq_ok hs).2]⟩

/-- A timeout is stored as the least number of milliseconds that is not shorter, or as the greatest
number of 64 bits where that one is greater still. It is zero for no time at all and for nothing
else, and never smaller for a longer duration. In a builder that is complete otherwise, zero is the
one timeout that is refused; any other is accepted, and one of whole milliseconds is given back as
it was. -/
theorem timeouts_round_up :
    (∀ d : Duration, d.length < 2 ^ 128 ∧
      (∃ least, IsLeast {n | d.length ≤ n * 1000000} least ∧
        d.timeout = if least < UInt64.size then least else UInt64.size - 1) ∧
      (d.timeout = 0 ↔ d = .zero)) ∧
    (∀ d e : Duration, d ≤ e → d.timeout ≤ e.timeout) ∧
    ∀ (b : Builder) (d : Duration),
      let b' := b.set (.waitTimeout d.seconds.toNat d.nanoseconds)
      b' = { b with config := { b.config with waitTimeout := some d.timeout } } ∧
      (b.Complete →
        (b'.build = .error .zeroTimeout ↔ d = .zero) ∧
        (d ≠ .zero → ∃ s, b'.build = .ok s ∧
          ∀ n : UInt64, d.length = n.toNat * 1000000 → s.config.waitDuration = some d)) := by
  refine ⟨fun d => ⟨d.length_lt, ⟨_, d.isLeast_rounded, ?_⟩, Duration.timeout_eq_zero_iff⟩,
    fun d e => Duration.timeout_mono, fun b d => ⟨b.set_timeout d, fun complete => ?_⟩⟩
  · have some_fit : 0 < UInt64.size := by decide
    rw [Duration.timeout_eq]
    split <;> omega
  · rw [set_timeout]
    by_cases none : d = .zero
    · rw [Duration.timeout_eq_zero_iff.mpr none]
      exact ⟨iff_of_true (build_of_zero complete) none, fun positive => absurd none positive⟩
    · have positive : d.timeout ≠ 0 := fun h => none (Duration.timeout_eq_zero_iff.mp h)
      obtain ⟨s, hs, stored⟩ := build_of_positive complete positive
      refine ⟨iff_of_false (fun failed => ?_) none, fun _ => ⟨s, hs, fun n whole => ?_⟩⟩
      · cases hs.symm.trans failed
      · rw [Config.waitDuration, stored, Duration.timeout_of_whole whole, Option.map_some,
          UInt64.ofNat_toNat]
        have same := (Duration.length_ofMilliseconds n).trans whole.symm
        exact congrArg some (Duration.ext_length same)

/-- A quarter of a second, set in a builder with a key and all defaults. -/
theorem quarter_of_a_second_is_given_back :
    let b : Builder := { key := some (.ofSeed 1) }
    let d : Duration := ⟨0, 250000000, by decide⟩
    b.Complete ∧ d ≠ .zero ∧ d.length = (250 : UInt64).toNat * 1000000 ∧
      ∃ s, (b.set (.waitTimeout d.seconds.toNat d.nanoseconds)).build = .ok s ∧
        s.config.waitDuration = some d := by
  intro b d
  have complete : b.Complete := ⟨rfl, by decide⟩
  have some_time : d ≠ .zero := by decide
  have whole : d.length = (250 : UInt64).toNat * 1000000 := by decide
  obtain ⟨-, -, builders⟩ := timeouts_round_up
  obtain ⟨s, hs, given⟩ := ((builders b d).2 complete).2 some_time
  exact ⟨complete, some_time, whole, s, hs, given 250 whole⟩

/-- One nanosecond more than a millisecond, and more than can be stored. -/
example : Duration.timeout ⟨0, 1000001, by decide⟩ = 2 ∧
    Duration.timeout ⟨18446744073709552, 0, by decide⟩ = UInt64.size - 1 := by decide

end Builder
end PacketAuth
