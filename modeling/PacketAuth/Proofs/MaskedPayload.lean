import PacketAuth.Call
import Mathlib.Data.List.Basic

/-! What a tag authenticates, and when a tag agrees with the bytes on the wire. -/
namespace PacketAuth

/-- The request behind its prefix, with zeros in the place of the tag. -/
def Layout.authenticated (l : Layout) (buffer : List UInt8) (length : Nat) : List UInt8 :=
  ((buffer.take length).mapIdx fun i b =>
    if l.tagOffset ≤ i ∧ i < l.tagOffset + Tag.size then 0 else b).drop l.prefixLength

namespace Layout

/-- A request is split if it is long enough, and no longer than its buffer. -/
theorem split_eq_ok_iff {l : Layout} {adding : Addition} {available total : Nat} {r : Regions} :
    l.split available total adding = .ok r ↔
      l.minLength adding ≤ total ∧ total ≤ available ∧
        r = ⟨⟨l.tagOffset, adding.sum l.tagOffset Tag.size⟩, ⟨l.prefixLength, total⟩⟩ := by
  unfold split
  split
  · rename_i short
    exact iff_of_false nofun fun fits => Nat.not_le.mpr short fits.1
  · rename_i long
    split
    · rename_i beyond
      exact iff_of_false nofun fun fits => Nat.not_le.mpr beyond fits.2.1
    · rename_i room
      rw [Except.ok.injEq, eq_comm, and_iff_right (Nat.le_of_not_lt long),
        and_iff_right (Nat.le_of_not_lt room)]

theorem split_ok {l : Layout} {available total : Nat} {r : Regions}
    (h : l.split available total = .ok r) :
    l.prefixLength + Tag.size ≤ total ∧ total ≤ available ∧
      r = ⟨⟨l.tagOffset, l.tagOffset + Tag.size⟩, ⟨l.prefixLength, total⟩⟩ :=
  split_eq_ok_iff.mp h

theorem split_eq_ok {l : Layout} {available total : Nat} (h : l.prefixLength + Tag.size ≤ total)
    (ht : total ≤ available) :
    l.split available total =
      .ok ⟨⟨l.tagOffset, l.tagOffset + Tag.size⟩, ⟨l.prefixLength, total⟩⟩ :=
  split_eq_ok_iff.mpr ⟨h, ht, rfl⟩

theorem validate_eq_ok {l : Layout} {adding : Addition} :
    l.validate adding = .ok () ↔ l.tagOffset ≤ l.prefixLength ∧ l.minLength adding ≤ 65535 := by
  unfold validate
  split
  · rename_i outside
    exact iff_of_false nofun fun valid => Nat.not_lt.mpr valid.1 outside
  · rename_i inside
    split
    · rename_i long
      exact iff_of_false nofun fun valid => Nat.not_lt.mpr valid.2 long
    · rename_i short
      exact iff_of_true rfl ⟨Nat.not_lt.mp inside, Nat.not_lt.mp short⟩

/-- The copy that is filled into a job is what the tag authenticates. -/
theorem maskedPayload_of_split {l : Layout} {buffer : List UInt8} {length : Nat} {r : Regions}
    (h : l.split buffer.length length = .ok r) :
    r.maskedPayload buffer = l.authenticated buffer length := by
  obtain ⟨hmin, hfit, rfl⟩ := split_ok h
  rw [Regions.maskedPayload]
  dsimp only
  split
  · rename_i overlaps
    refine List.ext_getElem? fun i => ?_
    simp only [Region.meet, Region.since] at overlaps
    simp only [Region.read, Region.write, Region.meet, Region.since, Region.length, authenticated,
      List.getElem?_append, List.getElem?_take, List.getElem?_drop, List.getElem?_replicate,
      List.getElem?_mapIdx, List.length_append, List.length_take, List.length_drop,
      List.length_replicate]
    grind
  · rename_i apart
    refine List.ext_getElem? fun i => ?_
    simp only [Region.meet, Region.since] at apart
    simp only [Region.read, Region.length, authenticated, List.getElem?_take, List.getElem?_drop,
      List.getElem?_mapIdx]
    grind

theorem maskedPayload_length {l : Layout} {buffer : List UInt8} {length : Nat} {r : Regions}
    (h : l.split buffer.length length = .ok r) :
    (r.maskedPayload buffer).length = r.payload.length := by
  rw [maskedPayload_of_split h]
  obtain ⟨-, hfit, rfl⟩ := split_ok h
  simp [authenticated, Region.length, Nat.min_eq_left hfit]

end Layout

namespace Tag

/-- The collected differences are zero only if every one of them is. -/
theorem differences_eq_zero (pairs : List (UInt8 × UInt8)) (diff : UInt8) :
    pairs.foldl (fun diff p => diff ||| (p.1 ^^^ p.2)) diff = 0 ↔
      diff = 0 ∧ ∀ p ∈ pairs, p.1 = p.2 := by
  induction pairs generalizing diff with
  | nil => simp
  | cons p pairs ih =>
    rw [List.foldl_cons, ih, UInt8.or_eq_zero_iff, UInt8.xor_eq_zero_iff, List.forall_mem_cons,
      and_assoc]

theorem eq_of_zip {xs ys : List UInt8} (hl : xs.length = ys.length)
    (h : ∀ p ∈ xs.zip ys, p.1 = p.2) : xs = ys := by
  induction xs generalizing ys with
  | nil => exact (List.length_eq_zero_iff.mp hl.symm).symm
  | cons x xs ih =>
    cases ys with
    | nil => cases hl
    | cons y ys =>
      rw [List.zip_cons_cons, List.forall_mem_cons] at h
      obtain ⟨hhead, htail⟩ := h
      rw [show x = y from hhead, ih (Nat.succ.inj hl) htail]

/-- A tag agrees with its own bytes and with no others. -/
theorem agrees_iff (t : Tag) (wire : List UInt8) : t.agrees wire = true ↔ wire = t.bytes := by
  rw [agrees, Bool.and_eq_true, beq_iff_eq, beq_iff_eq, differences_eq_zero]
  constructor
  · rintro ⟨hl, -, hbytes⟩
    exact (eq_of_zip (t.length_eq.trans hl.symm) hbytes).symm
  · rintro rfl
    refine ⟨t.length_eq, rfl, fun p hp => ?_⟩
    rw [List.zip, List.zipWith_self] at hp
    obtain ⟨b, -, rfl⟩ := List.mem_map.mp hp
    rfl

end Tag
end PacketAuth
