import PacketAuth.Proofs.RoundTrip
import PacketAuth.Proofs.Settings

/-! Masking. For every layout, wherever it puts the tag, the copy of the payload has zeros at the
positions of the tag and the bytes of the request at all others. -/
namespace PacketAuth

namespace Regions

/-- The masked payload in the place of whatever a target held, if no byte is asked for that is not
there: the target is cleared, then the payload is appended, then the overlap is blanked out. -/
def copyMasked? (r : Regions) (buffer target : List UInt8) : Option (List UInt8) := do
  let payload ← r.payload.slice? buffer
  let copied := target.take 0 ++ payload
  let overlap := r.tag.meet r.payload
  if overlap.start < overlap.stop then
    let overlap ← overlap.since? r.payload.start
    overlap.copy? (List.replicate overlap.length 0) copied
  else return copied

/-- Nothing of a target shows in the copy. -/
theorem copyMasked?_eq (r : Regions) (buffer target : List UInt8) :
    r.copyMasked? buffer target = r.maskedPayload? buffer := by
  simp only [copyMasked?, maskedPayload?, List.take_zero, List.nil_append]

end Regions

namespace Layout
variable {l : Layout} {buffer buffer' : List UInt8} {total : Nat} {r : Regions}

theorem authenticated_length (h : total ≤ buffer.length) :
    (l.authenticated buffer total).length = total - l.prefixLength := by
  simp [authenticated, Nat.min_eq_left h]

theorem authenticated_getElem? (h : total ≤ buffer.length) {i : Nat}
    (hi : i < total - l.prefixLength) :
    (l.authenticated buffer total)[i]? =
      if l.InTag (l.prefixLength + i) then some 0 else buffer[l.prefixLength + i]? := by
  have inside : l.prefixLength + i < total := by omega
  have there : l.prefixLength + i < buffer.length := by omega
  rw [authenticated, List.getElem?_drop, List.getElem?_mapIdx, List.getElem?_take_of_lt inside,
    List.getElem?_eq_getElem there, Option.map_some]
  exact apply_ite some _ _ _

/-- The payload of a split request lies inside the buffer, so the copy is made. -/
theorem copyMasked?_of_split (h : l.split buffer.length total = .ok r) (target : List UInt8) :
    r.copyMasked? buffer target = some (l.authenticated buffer total) := by
  have copied := maskedPayload_of_split h
  obtain ⟨long, room, rfl⟩ := split_ok h
  rw [Regions.copyMasked?_eq, Regions.masked_of_fits ⟨by dsimp only; omega, room⟩, copied]

/-- Whatever the layout, and whatever the target held, the copy of a request that the layout splits
is made, and it is what a job is filled with. It has a byte for each position of the payload: zero
where the tag is, and that of the request elsewhere. No other byte of the buffer shows in it. -/
theorem masked_copy_pointwise (h : l.split buffer.length total = .ok r) (target : List UInt8) :
    ∃ copy, r.copyMasked? buffer target = some copy ∧ copy = r.maskedPayload buffer ∧
      copy.length = total - l.prefixLength ∧
      (∀ i < total - l.prefixLength, copy[i]? =
        if l.tagOffset ≤ l.prefixLength + i ∧ l.prefixLength + i < l.tagOffset + 16 then some 0
        else buffer[l.prefixLength + i]?) ∧
      ∀ buffer' target' : List UInt8, total ≤ buffer'.length →
        (∀ k, l.prefixLength ≤ k → k < total →
          ¬ (l.tagOffset ≤ k ∧ k < l.tagOffset + 16) → buffer'[k]? = buffer[k]?) →
        r.copyMasked? buffer' target' = some copy := by
  have room := (split_ok h).2.1
  refine ⟨l.authenticated buffer total, copyMasked?_of_split h target,
    (maskedPayload_of_split h).symm, authenticated_length room,
    fun i hi => authenticated_getElem? room hi, fun buffer' target' room' same => ?_⟩
  have again : l.split buffer'.length total = .ok r := by
    obtain ⟨long, -, rfl⟩ := split_ok h
    exact split_eq_ok long room'
  rw [copyMasked?_of_split again, authenticated_congr room' room same]

/-- A tag that starts in the payload and ends behind it: its part of the payload is blank, and
other bytes there make no difference. -/
theorem masked_copy_of_late_tag :
    ∃ r copy, Layout.split ⟨2, 20⟩ 30 25 = .ok r ∧
      r.copyMasked? (List.replicate 30 7) [9, 9] = some copy ∧
      copy = List.replicate 18 7 ++ List.replicate 5 0 ∧
      r.copyMasked? ([1, 2] ++ List.replicate 18 7 ++ List.replicate 10 3) [] = some copy := by
  have split : Layout.split ⟨2, 20⟩ (List.replicate 30 (7 : UInt8)).length 25 =
      .ok ⟨⟨20, 36⟩, ⟨2, 25⟩⟩ := rfl
  obtain ⟨copy, copied, -, -, -, others⟩ := masked_copy_pointwise split [9, 9]
  have same : ∀ k < 25, 2 ≤ k → ¬ (20 ≤ k ∧ k < 36) →
      ([1, 2] ++ List.replicate 18 7 ++ List.replicate 10 3 : List UInt8)[k]? =
        (List.replicate 30 7)[k]? := by
    decide
  exact ⟨_, copy, split, copied, Option.some.inj (copied.symm.trans rfl),
    others _ _ (by decide) fun k low high outside => same k high low outside⟩

end Layout
end PacketAuth
