import PacketAuth.Proofs.Record
import PacketAuth.Proofs.View

/-! Recording changes nothing: whatever a host does with an engine, it also does with the engine
that keeps a record of its deeds. -/
namespace PacketAuth
variable {σ : Type}

theorem Engine.recorded_extends (E : Engine σ) : E.recorded.Extends E Recorded.state where
  createSession _ _ := rfl
  acquire _ := rfl
  submit _ _ _ _ := rfl
  handBack now s := by
    simp only [recorded, Option.map_map]
    exact Option.map_id'.symm
  release _ _ := rfl
  cancel _ _ := rfl

theorem Rules.recorded_extend (R : Rules σ) : R.recorded.Extends R Recorded.state where
  engine := R.engine.recorded_extends
  change h := h.1
  changed {s step} h := ⟨step.keeping s.deeds, rfl, h, rfl⟩
  mayLook := Iff.rfl

/-- Every run on an engine is a run on its record, with the record forgotten. -/
theorem World.Run.recorded {R : Rules σ} {w : World (Recorded σ)} {v : World σ}
    (run : Run R w.forget v) : ∃ w', w'.forget = v ∧ Run R.recorded w w' :=
  run.exists_view R.recorded_extend

end PacketAuth
