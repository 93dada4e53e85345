import PacketAuth.Proofs.Effect
import PacketAuth.Proofs.MaskedPayload

/-! What a job that comes back means to its caller: a tag, or a failure with a code. -/
namespace PacketAuth

/-- Where the output of a job has its tag, according to the descriptor that it came back with. -/
def Job.offset (j : Job) : Nat := (j.descriptor.map Descriptor.inject).getD 0

/-- A job brings a tag if it is done and its output has one behind the offset. -/
def Job.Brings (j : Job) (tag : Tag) : Prop :=
  j.outcome = .done ∧ j.offset + Tag.size ≤ j.output.length ∧
    tag.bytes = (j.output.drop j.offset).take Tag.size

/-- The code that a job fails with if it brings no tag. -/
inductive Job.FailsWith (j : Job) : Int32 → Prop
  | short (h : j.outcome = .done) (hl : j.output.length < j.offset + Tag.size) :
      FailsWith j Code.io
  | failed {code : Int32} (h : j.outcome = .failed code) (hp : 0 < code) : FailsWith j code
  | notPositive {code : Int32} (h : j.outcome = .failed code) (hp : code ≤ 0) : FailsWith j Code.io
  | unprocessed (h : j.outcome = .pending) : FailsWith j Code.again

/-- What a caller is told when a job decides its call. -/
inductive Call.Told (c : Call) (j : Job) : Reply → Prop
  | failed {code : Int32} (h : j.FailsWith code) {f : Failure} (hf : f.kind = .engineFailed code) :
      Told c j (.failed c.request f)
  | written {tag : Tag} (h : j.Brings tag) (hc : c.request.command = .write) :
      Told c j ⟨.ok (), c.regions.tag.write tag.bytes c.request.buffer⟩
  | verified {tag : Tag} (h : j.Brings tag) (hc : c.request.command = .read)
      (ht : c.regions.tag.read c.request.buffer = tag.bytes) : Told c j ⟨.ok (), c.request.buffer⟩
  | mismatched {tag : Tag} (h : j.Brings tag) (hc : c.request.command = .read)
      (ht : c.regions.tag.read c.request.buffer ≠ tag.bytes) :
      Told c j (.failed c.request ⟨.authenticationMismatch, some c.request.lane.text⟩)

namespace Job

/-- No failure has the code of a success, whatever the engine says. -/
theorem FailsWith.positive {j : Job} {code : Int32} (h : j.FailsWith code) : 0 < code := by
  cases h with
  | short | notPositive | unprocessed => decide
  | failed _ hp => exact hp

theorem verdict_spec {j : Job} (hb : j.outcome ≠ .busy) :
    (∃ tag, j.verdict = .ok tag ∧ j.Brings tag) ∨
      ∃ f code, j.verdict = .error f ∧ f.kind = .engineFailed code ∧ j.FailsWith code := by
  unfold verdict
  cases h : j.outcome with
  | busy => exact absurd h hb
  | pending => exact .inr ⟨_, _, rfl, rfl, .unprocessed h⟩
  | failed code =>
    refine .inr ⟨_, _, rfl, rfl, ?_⟩
    dsimp only [Outcome.failureCode, Outcome.errorCode]
    by_cases hp : 0 < code
    · rw [if_pos hp]
      exact .failed h hp
    · rw [if_neg hp]
      exact .notPositive h (Int32.not_lt.mp hp)
  | done =>
    have hoffset : (j.descriptor.map Descriptor.inject).getD 0 = j.offset := rfl
    dsimp only
    rw [hoffset]
    unfold Tag.ofHead?
    by_cases hl : 16 ≤ (j.output.drop j.offset).length
    · rw [dif_pos hl]
      rw [List.length_drop] at hl
      refine .inl ⟨_, rfl, h, ?_, rfl⟩
      rw [Tag.size]
      omega
    · rw [dif_neg hl]
      rw [List.length_drop] at hl
      refine .inr ⟨_, _, rfl, rfl, .short h ?_⟩
      rw [Tag.size]
      omega

end Job

theorem Call.told_ending (c : Call) {j : Job} (hb : j.outcome ≠ .busy) :
    c.Told j (c.ending j).reply := by
  rcases Job.verdict_spec hb with ⟨tag, hv, brings⟩ | ⟨f, code, hv, hf, fails⟩
  · cases hc : c.request.command with
    | write =>
      rw [ending_of_write hv hc]
      exact .written brings hc
    | read =>
      rw [ending_of_read hv hc]
      by_cases ht : tag.agrees (c.regions.tag.read c.request.buffer) = true
      · rw [if_pos ht]
        exact .verified brings hc ((Tag.agrees_iff _ _).mp ht)
      · rw [if_neg ht]
        exact .mismatched brings hc fun same => ht ((Tag.agrees_iff _ _).mpr same)
  · rw [(c.ending_of_error hv).1]
    exact .failed fails hf

end PacketAuth
