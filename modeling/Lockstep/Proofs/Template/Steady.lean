import Mathlib.Tactic.SplitIfs
import Lockstep.Proofs.Graph.Store
import Lockstep.Proofs.Template.Layout
import Lockstep.Template.Render
/-!
Templates that can be filled in with any nodes if they can be filled in with some. Nodes whose fields
have the types that they are declared with have parts of the same types, so that what is done with a
part of the one can be done with that part of the other. It is otherwise with what depends on more
than the type: a character of a text, a number written as a character or as a fraction, and a
specification that is itself filled in.
-/

set_option autoImplicit false

namespace Lockstep

/-- A node whose fields have the types that they are declared with. -/
structure FlowNode.Typed (n : FlowNode) : Prop where
  routine : n.routine.Plain
  label : ∃ t, n.label = .text t
  callSite : n.callSite = .null ∨ ∃ t, n.callSite = .text t
  callee : n.callee = .null ∨ ∃ t, n.callee = .text t
  file : ∃ t, n.file = .text t

theorem FlowNode.Typed.location {n : FlowNode} (hn : n.Typed) : ∃ t, n.location = .text t := by
  obtain ⟨name, routineFile, hroutine⟩ := hn.routine
  obtain ⟨file, hfile⟩ := hn.file
  have hsource : ∃ t, n.sourceFile = .text t := by
    rw [sourceFile, hfile, hroutine, Json.orElse]
    split <;> exact ⟨_, rfl⟩
  obtain ⟨source, hsource⟩ := hsource
  rw [FlowNode.location, hsource, hroutine, Json.orElse]
  split_ifs <;> exact ⟨_, rfl⟩

namespace Template

/-! ### Values of one type -/

/-- A value, and another of the same type, where nothing may stand for a text. -/
inductive Alike : Value → Value → Prop
  | node {m n : FlowNode} : m.Typed → m.callSite = .null → m.callee = .null → n.Typed →
      Alike (.node m) (.node n)
  | routine {q r : Routine} : q.Plain → r.Plain → Alike (.routine q) (.routine r)
  | kind (j k : NodeKind) : Alike (.kind j) (.kind k)
  | text (s t : Text) : Alike (.plain (.text s)) (.plain (.text t))
  | int (i j : Int) : Alike (.plain (.int i)) (.plain (.int j))
  | null : Alike (.plain .null) (.plain .null)
  | nullText (t : Text) : Alike (.plain .null) (.plain (.text t))

variable {v v' w : Value}

theorem alike_texts {a b : Json} (ha : ∃ t, a = .text t) (hb : ∃ t, b = .text t) :
    Alike (.plain a) (.plain b) := by
  obtain ⟨s, rfl⟩ := ha
  obtain ⟨t, rfl⟩ := hb
  exact .text s t

theorem alike_null {a b : Json} (ha : a = .null) (hb : b = .null ∨ ∃ t, b = .text t) :
    Alike (.plain a) (.plain b) := by
  subst ha
  obtain rfl | ⟨t, rfl⟩ := hb
  · exact .null
  · exact .nullText t

/-! ### Parts of values -/

theorem rel_ite {c : Prop} [Decidable c] {a b a' b' : Option Value} (h : Option.Rel Alike a b)
    (h' : Option.Rel Alike a' b') :
    Option.Rel Alike (if c then a else a') (if c then b else b') := by
  split <;> assumption

theorem rel_nodePart {m n : FlowNode} (hm : m.Typed) (hsite : m.callSite = .null)
    (hcallee : m.callee = .null) (hn : n.Typed) (name : Text) :
    Option.Rel Alike (Value.nodePart? m name) (Value.nodePart? n name) := by
  unfold Value.nodePart?
  refine rel_ite (.some (.text _ _)) ?_
  refine rel_ite (.some (.routine hm.routine hn.routine)) ?_
  refine rel_ite (.some (alike_texts hm.label hn.label)) ?_
  refine rel_ite (.some (.kind _ _)) ?_
  refine rel_ite (.some (alike_null hsite hn.callSite)) ?_
  refine rel_ite (.some (alike_null hcallee hn.callee)) ?_
  refine rel_ite (.some (.int _ _)) ?_
  refine rel_ite (.some (alike_texts hm.file hn.file)) ?_
  refine rel_ite (.some (.int _ _)) ?_
  exact rel_ite (.some (alike_texts hm.location hn.location)) .none

theorem rel_routinePart {q r : Routine} (hq : q.Plain) (hr : r.Plain) (name : Text) :
    Option.Rel Alike (Value.routinePart? q name) (Value.routinePart? r name) := by
  obtain ⟨_, _, rfl⟩ := hq
  obtain ⟨_, _, rfl⟩ := hr
  exact rel_ite (.some (.text _ _)) (rel_ite (.some (.text _ _)) .none)

theorem rel_kindPart (j k : NodeKind) (name : Text) :
    Option.Rel Alike (Value.kindPart? j name) (Value.kindPart? k name) := by
  have hconstant (o : Option NodeKind) : Option.Rel Alike (o.map .kind) (o.map .kind) := by
    cases o with
    | none => exact .none
    | some l => exact .some (.kind l l)
  exact rel_ite (.some (.text _ _)) (rel_ite (.some (.text _ _)) (hconstant _))

theorem rel_wholePart (i j : Int) (name : Text) :
    Option.Rel Alike (Value.wholePart? i name) (Value.wholePart? j name) :=
  rel_ite (.some (.int _ _)) (rel_ite (.some (.int _ _)) (rel_ite (.some (.int _ _)) .none))

theorem Alike.attribute (h : Alike v w) (name : Text) :
    Option.Rel Alike (v.attribute? name) (w.attribute? name) := by
  cases h with
  | node hm hsite hcallee hn => exact rel_nodePart hm hsite hcallee hn name
  | routine hq hr => exact rel_routinePart hq hr name
  | kind j k => exact rel_kindPart j k name
  | int i j => exact rel_wholePart i j name
  | text _ _ | null | nullText _ => exact .none

theorem readAccess_attribute {a : Access} {t rest : Text} (ht : '[' ∉ t)
    (h : readAccess t = .ok (a, rest)) : ∃ name, a = .attribute name ∧ '[' ∉ rest := by
  unfold readAccess at h
  split at h
  · dsimp only at h
    split at h
    · cases h
    · obtain ⟨rfl, rfl⟩ := Prod.mk.inj (Except.ok.inj h)
      refine ⟨_, rfl, fun hrest => ht ?_⟩
      exact List.mem_cons_of_mem _ ((List.dropWhile_sublist _).subset hrest)
  · exact absurd (List.mem_cons_self ..) ht
  · cases h

/-- A name that goes from part to part leads to values of one type. -/
theorem Alike.followFrom {fuel : Nat} {t : Text} (h : Alike v w) (ht : '[' ∉ t)
    (hv : v.followFrom fuel t = .ok v') : ∃ w', w.followFrom fuel t = .ok w' ∧ Alike v' w' := by
  induction fuel generalizing v w t with
  | zero => cases t <;> exact ⟨w, rfl, Except.ok.inj hv ▸ h⟩
  | succ fuel ih =>
    cases t with
    | nil => exact ⟨w, rfl, Except.ok.inj hv ▸ h⟩
    | cons c cs =>
      simp only [Value.followFrom] at hv ⊢
      cases ha : readAccess (c :: cs) with
      | error m => simp [ha] at hv
      | ok p =>
        obtain ⟨a, rest⟩ := p
        obtain ⟨name, rfl, hrest⟩ := readAccess_attribute ht ha
        have hpart := h.attribute name
        simp only [ha, Value.access] at hv ⊢
        generalize v.attribute? name = x, w.attribute? name = y at hv hpart ⊢
        cases hpart with
        | some hxy => exact ih hxy hrest hv
        | none => cases hv

/-- Fields that stand for values of one type. -/
def Fields.Alike (f g : Fields) : Prop :=
  ∀ name, Option.Rel Template.Alike (f.find? name) (g.find? name)

theorem Fields.Alike.resolve {f g : Fields} (hfields : f.Alike g) {name : Text} (hname : '[' ∉ name)
    (hv : f.resolve name = .ok v) : ∃ w, g.resolve name = .ok w ∧ Template.Alike v w := by
  have hrest : '[' ∉ name.dropWhile (!isNameEnd ·) := fun h =>
    hname ((List.dropWhile_sublist _).subset h)
  unfold Fields.resolve at hv ⊢
  cases hcount : checkedCount none (name.takeWhile (!isNameEnd ·)) with
  | error m => simp [hcount] at hv
  | ok n =>
    cases n with
    | some n => simp [hcount] at hv
    | none =>
      simp only [hcount] at hv ⊢
      split at hv
      · cases hv
      · rename_i hfirst
        rw [if_neg hfirst]
        have hfind := hfields (name.takeWhile (!isNameEnd ·))
        generalize f.find? _ = x, g.find? _ = y at hv hfind ⊢
        cases hfind with
        | some hxy => exact hxy.followFrom hrest hv
        | none => cases hv

/-! ### Values as they are written -/

theorem Alike.shown (h : Alike v w) : ∃ t, w.shown = .ok t := by
  cases h with
  | routine _ hr =>
    obtain ⟨name, file, rfl⟩ := hr
    exact ⟨name, rfl⟩
  | _ => exact ⟨_, rfl⟩

theorem Alike.convert {c : Option Char} (h : Alike v w) (hv : v.convert c = .ok v') :
    ∃ w', w.convert c = .ok w' ∧ Alike v' w' := by
  unfold Value.convert at hv ⊢
  split at hv
  · exact ⟨w, rfl, Except.ok.inj hv ▸ h⟩
  · exact ⟨_, rfl, Except.ok.inj hv ▸ .text _ _⟩
  · exact ⟨_, rfl, Except.ok.inj hv ▸ .text _ _⟩
  · obtain ⟨t, ht⟩ := h.shown
    split at hv
    · exact ⟨.plain (.text t), by simp [ht], Except.ok.inj hv ▸ .text _ _⟩
    · cases hv
  · cases hv

theorem Alike.written_nil (h : Alike v w) : (w.written []).isOk = true := by
  cases h with
  | routine _ hr =>
    obtain ⟨name, file, rfl⟩ := hr
    rfl
  | _ => rfl

theorem Alike.written {spec : Text} (h : Alike v w) (hspec : isLimited spec.getLast? = false)
    (hv : (v.written spec).isOk = true) : (w.written spec).isOk = true := by
  cases spec with
  | nil => exact h.written_nil
  | cons c cs =>
    cases h with
    | kind j k => rwa [Value.written, isOk_writeText _ (Value.kindShown j)]
    | text s t => rwa [Value.written, isOk_writeText _ s]
    | int i j => exact (isOk_writeWhole hspec j i).trans hv
    -- these are written without a specification or not at all
    | null | nullText _ | node _ _ _ _ | routine _ _ => cases hv

/-! ### Templates -/

/-- A field that goes from part to part, to a value that is not written as a character or a fraction
and whose specification has no fields. -/
def Piece.steady : Piece → Bool
  | .literal _ => true
  | .field name _ spec =>
    !name.contains '[' && !spec.contains '\x7b' && !isLimited spec.getLast?

def steady (t : Text) : Bool := (pieces t).1.all Piece.steady

variable {f g : Fields} {inner : Text → Except Failure Text} (inner' : Text → Except Failure Text)

theorem renderPiece_steady (hfields : f.Alike g) {p : Piece} (hp : p.steady = true)
    (h : ∃ s, renderPiece f inner p = .ok s) : ∃ t, renderPiece g inner' p = .ok t := by
  cases p with
  | literal t => exact ⟨t, rfl⟩
  | field name conversion spec =>
    obtain ⟨s, hs⟩ := h
    simp only [Piece.steady, Bool.and_eq_true, Bool.not_eq_true', List.contains_eq_mem,
      decide_eq_false_iff_not] at hp
    obtain ⟨⟨hname, hnested⟩, hcode⟩ := hp
    simp only [renderPiece, bind_eq_ok, List.contains_eq_mem, hnested] at hs ⊢
    obtain ⟨v, hv, v', hv', hs⟩ := hs
    obtain ⟨w, hw, hvw⟩ := hfields.resolve hname hv
    obtain ⟨w', hw', hvw'⟩ := hvw.convert hv'
    obtain ⟨t, ht⟩ := isOk_iff.mp (hvw'.written hcode (isOk_iff.mpr ⟨s, hs⟩))
    exact ⟨t, w, hw, w', hw', ht⟩

theorem renderPieces_steady (hfields : f.Alike g) {ps : List Piece}
    (hps : ∀ p ∈ ps, p.steady = true) (h : ∃ s, renderPieces f inner ps = .ok s) :
    ∃ t, renderPieces g inner' ps = .ok t := by
  induction ps with
  | nil => exact ⟨[], rfl⟩
  | cons p ps ih =>
    obtain ⟨hp, hps⟩ := List.forall_mem_cons.mp hps
    simp only [renderPieces, bind_eq_ok] at h ⊢
    obtain ⟨_, s, hs, rest, hrest, -⟩ := h
    obtain ⟨t, ht⟩ := renderPiece_steady inner' hfields hp ⟨s, hs⟩
    obtain ⟨rest', hrest'⟩ := ih hps ⟨rest, hrest⟩
    exact ⟨t ++ rest', t, ht, rest', hrest', rfl⟩

/-- A steady template that can be filled in at all can be filled in with values of the same types. -/
theorem render_steady (hfields : f.Alike g) {t : Text} (ht : steady t = true)
    (h : ∃ s, render t f = .ok s) : ∃ s, render t g = .ok s := by
  have hps : ∀ p ∈ (pieces t).1, p.steady = true := List.all_eq_true.mp ht
  obtain ⟨s, hs⟩ := h
  simp only [render, renderTo, bind_eq_ok] at hs ⊢
  obtain ⟨done, hdone, hmisuse⟩ := hs
  obtain ⟨done', hdone'⟩ := renderPieces_steady _ hfields hps ⟨done, hdone⟩
  refine ⟨done', done', hdone', ?_⟩
  cases hm : (pieces t).2 with
  | none => rfl
  | some m => simp [hm] at hmisuse

end Template
end Lockstep
