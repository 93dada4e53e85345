import PacketAuth.Proofs.Filling
import Mathlib.Data.Nat.ModEq
import Mathlib.Data.UInt

/-! The period of a generator. Its scrambler can be undone, and the odd increment leads its counter
through all words; so a stream gives every word once before it starts again, and the streams of two
seeds never have the same word at the same place. -/
namespace PacketAuth
open scoped UInt64.CommRing

/-- The number that the bytes of a word stand for. -/
theorem value_littleEndian (w : UInt64) :
    (littleEndian w).foldr (fun b n => b.toNat + 256 * n) 0 = w.toNat := by
  have bound := w.toNat_lt
  simp only [littleEndian, List.foldr_cons, List.foldr_nil, UInt64.toNat_toUInt8,
    UInt64.toNat_shiftRight, UInt64.reduceToNat, Nat.shiftRight_eq_div_pow, Nat.reducePow,
    Nat.reduceMod]
  omega

theorem littleEndian_injective : Function.Injective littleEndian := by
  intro v w same
  apply UInt64.toNat_inj.mp
  rw [← value_littleEndian v, same, value_littleEndian]

namespace SplitMix

/-- A word with a copy of itself added that is shifted down, bit by bit and without a carry. -/
def shear (k : Nat) (z : UInt64) : UInt64 := ⟨z.toBitVec ^^^ z.toBitVec >>> k⟩

theorem shear_comm (j k : Nat) (z : UInt64) : shear j (shear k z) = shear k (shear j z) := by
  simp only [shear, BitVec.ushiftRight_xor_distrib, ← BitVec.shiftRight_add, Nat.add_comm j k]
  ac_rfl

/-- The two copies that are shifted by the same number of bits cancel out. -/
theorem shear_shear (k : Nat) (z : UInt64) : shear k (shear k z) = shear (2 * k) z := by
  simp only [shear, BitVec.ushiftRight_xor_distrib, ← BitVec.shiftRight_add, ← Nat.two_mul]
  rw [BitVec.xor_assoc, ← BitVec.xor_assoc (z.toBitVec >>> k), BitVec.xor_self, BitVec.zero_xor]

theorem shear_of_le {k : Nat} (h : 64 ≤ k) (z : UInt64) : shear k z = z := by
  rw [shear, BitVec.ushiftRight_eq_zero h, BitVec.xor_zero]

/-- Undoes a shear by a quarter of a word or more. -/
def unshear (k : Nat) (z : UInt64) : UInt64 := shear (2 * k) (shear k z)

theorem unshear_shear {k : Nat} (h : 16 ≤ k) (z : UInt64) : unshear k (shear k z) = z := by
  rw [unshear, shear_shear, shear_shear, shear_of_le (by omega)]

theorem shear_unshear {k : Nat} (h : 16 ≤ k) (z : UInt64) : shear k (unshear k z) = z := by
  rw [unshear, shear_comm, ← unshear, unshear_shear h]

theorem scramble_eq (z : UInt64) :
    scramble z = shear 31 (shear 27 (shear 30 z * 0xbf58476d1ce4e5b9) * 0x94d049bb133111eb) :=
  rfl

/-- The rounds of the scrambler undone, the last one first. -/
def unscramble (z : UInt64) : UInt64 :=
  unshear 30 (unshear 27 (unshear 31 z * 0x319642b2d24d8ec3) * 0x96de1b173f119089)

/-- A factor that has an inverse can be taken out again. -/
theorem mul_mul_of_inverse {c d : UInt64} (h : c * d = 1) (z : UInt64) : z * c * d = z := by
  rw [mul_assoc, h, mul_one]

theorem unscramble_scramble (z : UInt64) : unscramble (scramble z) = z := by
  rw [scramble_eq, unscramble, unshear_shear (by decide), mul_mul_of_inverse (by decide),
    unshear_shear (by decide), mul_mul_of_inverse (by decide), unshear_shear (by decide)]

theorem scramble_unscramble (z : UInt64) : scramble (unscramble z) = z := by
  rw [scramble_eq, unscramble, shear_unshear (by decide), mul_mul_of_inverse (by decide),
    shear_unshear (by decide), mul_mul_of_inverse (by decide), shear_unshear (by decide)]

theorem scramble_injective : Function.Injective scramble :=
  Function.LeftInverse.injective unscramble_scramble

/-- The increment is odd, so it has an inverse. -/
theorem gamma_mul_inverse : gamma * 0xf1de83e19937733d = 1 := by decide

variable {g g' : SplitMix} {i j : Nat}

theorem eq_of_state (h : g.state = g'.state) : g = g' := by
  cases g
  cases g'
  rw [mk.injEq]
  exact h

theorem next_injective (h : g.next.1 = g'.next.1) : g = g' := by
  have counter : g.state + gamma = g'.state + gamma := scramble_injective h
  exact eq_of_state (add_right_cancel counter)

/-- Two generators give the same word only when they have come to the same state. -/
theorem word_inj : g.word i = g'.word j ↔ skip i g = skip j g' :=
  ⟨next_injective, fun same => by rw [word, same, word]⟩

theorem state_skip (n : Nat) (g : SplitMix) :
    (skip n g).state = g.state + UInt64.ofNat n * gamma := by
  induction n generalizing g with
  | zero =>
    have zero : UInt64.ofNat 0 = 0 := rfl
    rw [skip_zero, zero, zero_mul, add_zero]
  | succ n ih =>
    rw [skip_succ, ih, UInt64.ofNat_add, add_mul, UInt64.ofNat_one, one_mul, next, add_assoc,
      add_comm gamma]

theorem skip_inj : skip i g = skip j g' ↔
    g.state + UInt64.ofNat i * gamma = g'.state + UInt64.ofNat j * gamma := by
  rw [← state_skip, ← state_skip]
  exact ⟨congrArg state, eq_of_state⟩

theorem skip_injective (n : Nat) : Function.Injective (skip n) := fun _ _ same =>
  eq_of_state (add_right_cancel (skip_inj.mp same))

theorem ofNat_inj : UInt64.ofNat i = UInt64.ofNat j ↔ i ≡ j [MOD 2 ^ 64] := by
  rw [← UInt64.toNat_inj, UInt64.toNat_ofNat', UInt64.toNat_ofNat']
  rfl

/-- The counter comes back to a word only after all others. -/
theorem skip_eq_skip_iff : skip i g = skip j g ↔ i ≡ j [MOD 2 ^ 64] := by
  rw [skip_inj, add_right_inj, ← ofNat_inj]
  constructor
  · intro same
    rw [← mul_mul_of_inverse gamma_mul_inverse (UInt64.ofNat i), same,
      mul_mul_of_inverse gamma_mul_inverse]
  · intro same
    rw [same]

/-- Every word comes up before the stream starts again. -/
theorem exists_word (g : SplitMix) (w : UInt64) : ∃ i < 2 ^ 64, g.word i = w := by
  refine ⟨((unscramble w - gamma - g.state) * 0xf1de83e19937733d).toNat, UInt64.toNat_lt _, ?_⟩
  have unit := (mul_comm _ gamma).trans gamma_mul_inverse
  rw [word, next, state_skip, UInt64.ofNat_toNat, mul_mul_of_inverse unit, add_sub_cancel,
    sub_add_cancel, scramble_unscramble]

end SplitMix

namespace AuthKey
open SplitMix
variable {g g' : SplitMix}

/-- The first eight bytes of a key tell the generator that it was drawn from. -/
theorem ofGenerator_inj : (ofGenerator g).1 = (ofGenerator g').1 ↔ g = g' := by
  refine ⟨fun same => ?_, fun same => by rw [same]⟩
  have bytes := congrArg AuthKey.bytes same
  rw [ofGenerator_bytes, ofGenerator_bytes, bytes_succ, bytes_succ] at bytes
  have first := (List.append_inj bytes (by simp only [littleEndian_length])).1
  exact next_injective (littleEndian_injective first)

/-- The key that is drawn after `n` others. -/
def drawn : Nat → SplitMix → AuthKey
  | 0, g => (ofGenerator g).1
  | n + 1, g => drawn n (ofGenerator g).2

theorem drawn_succ (n : Nat) (g : SplitMix) : drawn (n + 1) g = drawn n (ofGenerator g).2 :=
  have step : drawn (n + 1) = fun g => drawn n (ofGenerator g).2 := rfl
  congrFun step g

theorem drawn_eq (n : Nat) (g : SplitMix) : drawn n g = (ofGenerator (skip (4 * n) g)).1 := by
  induction n generalizing g with
  | zero => rw [Nat.mul_zero, skip_zero]; rfl
  | succ n ih => rw [drawn_succ, ih, ofGenerator_skip, ← skip_add, Nat.mul_succ, Nat.add_comm]

theorem drawn_eq_drawn_iff {m n : Nat} : drawn m g = drawn n g ↔ m ≡ n [MOD 2 ^ 62] := by
  have period : 2 ^ 64 = 4 * 2 ^ 62 := rfl
  rw [drawn_eq, drawn_eq, ofGenerator_inj, skip_eq_skip_iff, period]
  exact ⟨Nat.ModEq.mul_left_cancel' (by decide), Nat.ModEq.mul_left' 4⟩

end AuthKey

namespace SplitMix

/-- A stream repeats its words after 2 ^ 64 of them and not before, and by then it has given every
word there is. Two seeds never give the same word at the same place; so they give different keys,
and of the keys drawn from one generator none comes again before 2 ^ 62 others. -/
theorem words_have_full_period :
    (∀ seed i j, (ofSeed seed).word i = (ofSeed seed).word j ↔ i ≡ j [MOD 2 ^ 64]) ∧
    (∀ seed w, ∃ i < 2 ^ 64, (ofSeed seed).word i = w) ∧
    (∀ s t i, (ofSeed s).word i = (ofSeed t).word i ↔ s = t) ∧
    Function.Injective AuthKey.ofSeed ∧
    (∀ g, (AuthKey.ofGenerator (AuthKey.ofGenerator g).2).1 ≠ (AuthKey.ofGenerator g).1) ∧
    ∀ g m n, AuthKey.drawn m g = AuthKey.drawn n g ↔ m ≡ n [MOD 2 ^ 62] := by
  have seeds : ∀ {s t}, ofSeed s = ofSeed t → s = t := fun same => congrArg state same
  refine ⟨fun seed i j => ?_, fun seed => exists_word _,
    fun s t i => ⟨fun same => ?_, fun same => ?_⟩, fun s t same => ?_, fun g same => ?_,
    fun g m n => AuthKey.drawn_eq_drawn_iff⟩
  · rw [word_inj, skip_eq_skip_iff]
  · exact seeds (skip_injective i (word_inj.mp same))
  · rw [same]
  · exact seeds (AuthKey.ofGenerator_inj.mp same)
  · have next : AuthKey.drawn 1 g = AuthKey.drawn 0 g := same
    exact absurd (AuthKey.drawn_eq_drawn_iff.mp next) (by decide)

end SplitMix
end PacketAuth
