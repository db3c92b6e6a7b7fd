import Lockstep.Proofs.Catalogue.Reading
import Lockstep.Proofs.Correlation.Outcome
import Lockstep.Proofs.Template.Steady
/-!
The messages of catalogues that are read. A message has been filled in with samples, and the samples
stand for all nodes whose fields have the types that they are declared with, as far as the message
depends on nothing else. Then every finding can be described.
-/

set_option autoImplicit false

namespace Lockstep.Catalogue

open Template (Fields Alike steady)

variable {a b x y : FlowNode}

theorem alike_sampleNode (name : String) {n : FlowNode} (hn : n.Typed) :
    Alike (.node (sampleNode name)) (.node n) :=
  .node ⟨⟨_, _, rfl⟩, ⟨_, rfl⟩, .inl rfl, .inl rfl, ⟨_, rfl⟩⟩ rfl rfl hn

theorem alike_sampleFields (ha : a.Typed) (hb : b.Typed) (hx : x.Typed) (hy : y.Typed) :
    sampleFields.Alike ⟨a, b, x, y⟩ := by
  intro name
  refine Template.rel_ite (.some (alike_sampleNode "source1" ha)) ?_
  refine Template.rel_ite (.some (alike_sampleNode "source2" hb)) ?_
  refine Template.rel_ite (.some (alike_sampleNode "sink1" hx)) ?_
  refine Template.rel_ite (.some (alike_sampleNode "sink2" hy)) ?_
  exact Template.rel_ite (.some (.routine ⟨_, _, rfl⟩ hx.routine)) .none

theorem exists_describe {file source : Text} {c : Catalogue} (hc : read file source = .ok c)
    (hsteady : steady c.message = true) (ha : a.Typed) (hb : b.Typed) (hx : x.Typed)
    (hy : y.Typed) : ∃ t, c.describe a b x y = .ok t := by
  unfold describe
  split
  · exact ⟨_, rfl⟩
  · rename_i hmessage
    obtain hempty | hsample := (tried_of_read hc).message
    · exact absurd (by rw [hempty]; rfl) hmessage
    · exact Template.render_steady (alike_sampleFields ha hb hx hy) hsteady hsample

end Lockstep.Catalogue
