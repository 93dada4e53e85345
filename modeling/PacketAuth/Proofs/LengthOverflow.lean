import PacketAuth.Proofs.Effect
import PacketAuth.Proofs.MaskedPayload

/-! Lengths that do not fit a machine word. As long as its shortest request does, a layout means the
same to a build that checks for overflow and to one that does not. A longer shortest request stops
the first one, and the other one takes it for a very short one. -/
namespace PacketAuth

theorem Addition.sum_eq (adding : Addition) {m n : Nat} (h : m + n < UInt64.size) :
    adding.sum m n = m + n := by
  cases adding with
  | checked => rfl
  | wrapping => exact Nat.mod_eq_of_lt h

namespace Layout
variable {l : Layout} (adding : Addition)

/-- The length of the shortest request is a machine word. -/
def IsCounted (l : Layout) : Prop := l.prefixLength + Tag.size < UInt64.size

instance (l : Layout) : Decidable l.IsCounted := inferInstanceAs (Decidable (_ < _))

/-- The build finds both sums of the layout as they are. -/
def IsExact (l : Layout) (adding : Addition) : Prop :=
  adding = .checked ∨ l.IsCounted ∧ l.tagOffset + Tag.size < UInt64.size

theorem minLength_eq (counted : l.IsCounted) : l.minLength adding = l.minLength :=
  adding.sum_eq counted

theorem validate_eq (counted : l.IsCounted) : l.validate adding = l.validate := by
  unfold validate
  rw [minLength_eq adding counted]

theorem split_eq (counted : l.IsCounted) (tag : l.tagOffset + Tag.size < UInt64.size)
    (available total : Nat) : l.split available total adding = l.split available total := by
  unfold split
  rw [minLength_eq adding counted, adding.sum_eq tag, Addition.sum_eq .checked tag]

/-- A sum that wraps around is less than the sum. -/
theorem minLength_wrapping_lt (overflows : ¬ l.IsCounted) :
    l.minLength .wrapping < l.prefixLength + Tag.size :=
  Nat.lt_of_lt_of_le (Nat.mod_lt _ (by decide)) (Nat.le_of_not_lt overflows)

/-- Besides the layouts that are good, a build without overflow checks accepts those whose shortest
request is too long to be counted. -/
theorem validate_wrapping_eq_ok (word : l.prefixLength < UInt64.size) :
    l.validate .wrapping = .ok () ↔
      l.tagOffset ≤ l.prefixLength ∧ (l.prefixLength + Tag.size ≤ 65535 ∨ ¬ l.IsCounted) := by
  rw [validate_eq_ok, minLength, Addition.sum, IsCounted, Tag.size]
  rw [UInt64.size] at word ⊢
  omega

/-- No buffer reaches as far as the payload of a layout whose shortest request cannot be counted. -/
theorem payload_of_overflow {adding : Addition} (overflows : ¬ l.IsCounted) {available total : Nat}
    {r : Regions} (h : l.split available total adding = .ok r)
    (buffer : available + Tag.size < UInt64.size) : available < r.payload.start := by
  obtain ⟨-, -, rfl⟩ := split_eq_ok_iff.mp h
  exact Nat.lt_of_add_lt_add_right (Nat.lt_of_lt_of_le buffer (Nat.le_of_not_lt overflows))

end Layout

theorem Config.validate_eq (adding : Addition) {c : Config} (counted : c.layout.IsCounted) :
    c.validate adding = c.validate := by
  unfold validate
  rw [Layout.validate_eq adding counted]

theorem Builder.build_eq (adding : Addition) {b : Builder} (counted : b.config.layout.IsCounted) :
    b.build adding = b.build := by
  unfold build
  rw [Config.validate_eq adding counted]

namespace Service

/-- On a service that was built, and whose shortest request can be counted, both builds prepare each
request alike. -/
theorem prepare_eq (adding : Addition) {s : Service} (valid : s.config.layout.validate = .ok ())
    (counted : s.config.layout.IsCounted) (r : Request) : s.prepare r adding = s.prepare r := by
  have before := (Layout.validate_eq_ok.mp valid).1
  unfold prepare
  rw [Layout.split_eq adding counted
    (Nat.lt_of_le_of_lt (Nat.add_le_add_right before _) counted)]

end Service
end PacketAuth
