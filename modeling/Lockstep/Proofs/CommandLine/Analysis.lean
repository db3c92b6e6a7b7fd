import Lockstep.CommandLine.Analysis
import Lockstep.Proofs.CommandLine.Answers
/-!
What an analysis needs. The graph has to be loaded, and for each catalogue in turn there has to be a
batch: the catalogue has to be loaded, the graph correlated by it, and its findings listed. An analysis
answers with these batches, or one of these things has failed.
-/

set_option autoImplicit false

namespace Lockstep

section Rowwise

variable {α β γ : Type} {R : α → β → Prop} {S : β → γ → Prop}

end Rowwise

namespace Files

variable {f : Files} {p : Path} {octets : List UInt8}

end Files

namespace CommandLine

/-- There is a file by that name, and it holds this graph. -/
def LoadsGraph (files : Files) (written : Text) (g : FlowGraph) : Prop :=
  ∃ p octets, files.resolve? written = some p ∧ files.content? p = some octets ∧
    FlowGraph.ofOctets p.display octets = .ok g

/-- There is a file by that name, and it holds this catalogue. -/
def LoadsCatalogue (files : Files) (written : Text) (c : Catalogue) : Prop :=
  ∃ p octets, files.resolve? written = some p ∧ files.content? p = some octets ∧
    Catalogue.ofOctets p.display octets = .ok c

section Deterministic

variable {files : Files} {written : Text}

theorem LoadsGraph.unique {g g' : FlowGraph} (h : LoadsGraph files written g)
    (h' : LoadsGraph files written g') : g = g' := by
  obtain ⟨p, octets, hp, hoctets, hg⟩ := h
  obtain ⟨p', octets', hp', hoctets', hg'⟩ := h'
  obtain rfl : p = p' := Option.some.inj (hp.symm.trans hp')
  obtain rfl : octets = octets' := Option.some.inj (hoctets.symm.trans hoctets')
  exact Except.ok.inj (hg.symm.trans hg')

theorem LoadsCatalogue.unique {c c' : Catalogue} (h : LoadsCatalogue files written c)
    (h' : LoadsCatalogue files written c') : c = c' := by
  obtain ⟨p, octets, hp, hoctets, hc⟩ := h
  obtain ⟨p', octets', hp', hoctets', hc'⟩ := h'
  obtain rfl : p = p' := Option.some.inj (hp.symm.trans hp')
  obtain rfl : octets = octets' := Option.some.inj (hoctets.symm.trans hoctets')
  exact Except.ok.inj (hc.symm.trans hc')

end Deterministic

section Loading

open Logged

variable (files : Files) (written : Text)

end Loading

section Batches

open Logged

end Batches

namespace Analyze

variable {a : Analyze} {files : Files}

end Analyze
end CommandLine
end Lockstep
