import PacketAuth.Proofs.MaskedPayload

/-! The comparison of tags is exact. It only collects differences, and none that was collected is
lost again, so whatever bits of a matching slice are flipped, it does not match any more. -/
namespace PacketAuth.Tag

/-- A bit of a tag: its byte, and its place in the byte, the lowest first. -/
abbrev Place := Fin 16 × Fin 8

def bit (wire : List UInt8) (p : Place) : Bool := (wire[p.1.val]?.getD 0).toBitVec.getLsbD p.2

def flipBit (p : Place) (wire : List UInt8) : List UInt8 :=
  wire.modify p.1 (· ^^^ 1 <<< UInt8.ofNat p.2)

/-- Flips one bit after the other. -/
def flipBits (places : List Place) (wire : List UInt8) : List UInt8 := places.foldr flipBit wire

/-- In a byte, one bit is flipped and the others stay. -/
theorem getLsbD_flipped (byte : UInt8) (i j : Fin 8) :
    (byte ^^^ 1 <<< UInt8.ofNat i).toBitVec.getLsbD j =
      (byte.toBitVec.getLsbD j ^^ decide (i = j)) := by
  have single : (1 <<< UInt8.ofNat i : UInt8).toBitVec = BitVec.twoPow 8 i := by
    revert i
    decide
  rw [UInt8.toBitVec_xor, single, BitVec.getLsbD_xor, BitVec.getLsbD_twoPow]
  simp [Fin.ext_iff]

variable {wire : List UInt8}

@[simp] theorem length_flipBit (p : Place) (wire : List UInt8) :
    (flipBit p wire).length = wire.length :=
  List.length_modify _ _ _

@[simp] theorem length_flipBits (places : List Place) (wire : List UInt8) :
    (flipBits places wire).length = wire.length := by
  induction places with
  | nil => rfl
  | cons p places ih => exact (length_flipBit p _).trans ih

theorem bit_flipBit (hl : wire.length = 16) (p q : Place) :
    bit (flipBit p wire) q = (bit wire q ^^ decide (p = q)) := by
  obtain ⟨i, j⟩ := p
  obtain ⟨k, m⟩ := q
  have inside : k.val < wire.length := by omega
  simp only [bit, flipBit, List.getElem?_modify, List.getElem?_eq_getElem inside]
  by_cases same : i = k
  · have flipped := getLsbD_flipped wire[k.val] j m
    simpa only [same, if_true, Option.map_eq_map, Option.map_some, Option.getD_some,
      Prod.mk.injEq, true_and] using flipped
  · have other : i.val ≠ k.val := fun h => same (Fin.ext h)
    simp [other, same]

/-- Bits that are flipped once each differ from what they were, and no others do. -/
theorem bit_flipBits (hl : wire.length = 16) {places : List Place} (once : places.Nodup)
    (q : Place) : bit (flipBits places wire) q ≠ bit wire q ↔ q ∈ places := by
  induction places with
  | nil => simp [flipBits]
  | cons p places ih =>
    obtain ⟨new, once⟩ := List.nodup_cons.mp once
    have rest := ih once
    have length : (flipBits places wire).length = 16 := (length_flipBits places wire).trans hl
    have first := bit_flipBit length p q
    rw [flipBits, List.foldr_cons, ← flipBits, first]
    by_cases same : p = q
    · subst same
      have kept : bit (flipBits places wire) p = bit wire p :=
        not_not.mp fun changed => new (rest.mp changed)
      simp [kept]
    · simpa [same, Ne.symm same] using rest

/-- A tag agrees with a slice if and only if the slice has as many bytes and each is the same. No
slice that agrees does so after some of its bits, whichever, were flipped. -/
theorem comparison_is_exact (t : Tag) (wire : List UInt8) :
    (t.agrees wire = true ↔ wire.length = 16 ∧ ∀ i < 16, wire[i]? = t.bytes[i]?) ∧
      (t.agrees wire = true → ∀ places : List Place, places ≠ [] → places.Nodup →
        t.agrees (flipBits places wire) = false) := by
  constructor
  · rw [agrees_iff]
    constructor
    · rintro rfl
      exact ⟨t.length_bytes, fun _ _ => rfl⟩
    · rintro ⟨hl, same⟩
      refine List.ext_getElem? fun i => ?_
      by_cases inside : i < 16
      · exact same i inside
      · rw [List.getElem?_eq_none (by omega), List.getElem?_eq_none (by rw [length_bytes]; omega)]
  · intro matching places some_bits once
    obtain rfl := (t.agrees_iff wire).mp matching
    obtain ⟨p, hp⟩ := List.exists_mem_of_ne_nil places some_bits
    refine Bool.eq_false_iff.mpr fun agrees => ?_
    have flipped := (bit_flipBits t.length_bytes once p).mpr hp
    exact flipped (congrArg (bit · p) ((t.agrees_iff _).mp agrees))

/-- The lowest bit of the first byte and the highest of the last, flipped in a matching slice. -/
theorem first_and_last_bit_count :
    zero.agrees zero.bytes = true ∧ [((0, 0) : Place), (15, 7)].Nodup ∧
      zero.agrees (flipBits [(0, 0), (15, 7)] zero.bytes) = false := by
  have matching : zero.agrees zero.bytes = true :=
    (comparison_is_exact zero zero.bytes).1.mpr ⟨zero.length_bytes, fun _ _ => rfl⟩
  have once : [((0, 0) : Place), (15, 7)].Nodup := by decide
  exact ⟨matching, once, (comparison_is_exact zero zero.bytes).2 matching _ (by simp) once⟩

end PacketAuth.Tag
