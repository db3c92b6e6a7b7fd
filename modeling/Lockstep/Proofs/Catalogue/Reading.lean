import Mathlib.Tactic.SplitIfs
import Lockstep.Catalogue.Reader
/-!
What comes of reading a catalogue: the catalogue, or a refusal, either of the file that is read, but
for two kinds of forms. A pattern can have a fault that is no fault of a pattern's form, and a message
can name a number that cannot be written as asked; these faults come out as they are.
-/

set_option autoImplicit false

namespace Lockstep

/-- An expression is another one, or stands in round brackets of it. -/
inductive Sexp.Occurs (y : Sexp) : Sexp → Prop
  | self : Occurs y y
  | list {x : Sexp} {xs : List Sexp} : x ∈ xs → Occurs y x → Occurs y (.list xs)

namespace Catalogue

/-- A fault that the catalogue does not answer for, of a form that stands in an expression. -/
inductive Beyond (x : Sexp) : Fault → Prop
  | pattern {w : Sexp} {source : Text} {p : Pattern.Fault} :
      Sexp.Occurs (.list (whole "label-match".toList [w])) x → w.word? = some source →
      Pattern.read source = .error p → p = .countTooLarge ∨ p = .mixedKinds → Beyond x (.pattern p)
  | message {w : Sexp} {source : Text} {f : Template.Failure} :
      Sexp.Occurs (.list (whole "message".toList [w])) x → w.word? = some source →
      Template.render source sampleFields = .error f → f = .overflow ∨ f = .memory →
      Beyond x (.template f)

theorem Beyond.list {x : Sexp} {xs : List Sexp} {f : Fault} (hx : x ∈ xs) (h : Beyond x f) :
    Beyond (.list xs) f := by
  cases h with
  | pattern hform hword hread hfault => exact .pattern (.list hx hform) hword hread hfault
  | message hform hword hrender hfault => exact .message (.list hx hform) hword hrender hfault

theorem Beyond.of_args {tag : Text} {args : List Sexp} {E : Fault → Prop}
    (hE : ∀ f, Beyond (.list (whole tag args)) f → E f) : ∀ x ∈ args, ∀ f, Beyond x f → E f :=
  fun _ hx f hf => hE f (hf.list (List.mem_cons_of_mem _ hx))

/-- A reading comes to a result with a property, or it is refused in the file that is read, or it has
one of some other faults. -/
def Reads {α : Type} (file : Text) (x : Read α) (Q : α → Prop) (E : Fault → Prop) : Prop :=
  match x file with
  | .ok a => Q a
  | .error f => (∃ r, f = .refused r ∧ r.place.file = file) ∨ E f

section

variable {α β : Type} {file : Text} {x : Read α} {k : α → Read β} {Q : α → Prop} {R : β → Prop}
  {E : Fault → Prop}

theorem Reads.pure {a : α} (h : Q a) : Reads file (Pure.pure a) Q E := h

theorem Reads.refuse (c : Cause) : Reads file (refuse c) Q E := Or.inl ⟨_, rfl, rfl⟩

theorem Reads.bind (hx : Reads file x Q E) (hk : ∀ a, Q a → Reads file (k a) R E) :
    Reads file (x >>= k) R E := by
  have hbind : (x >>= k) file = x file >>= fun a => k a file := rfl
  unfold Reads at hx ⊢
  rw [hbind]
  cases hfile : x file with
  | ok a =>
    rw [hfile] at hx
    exact hk a hx
  | error f =>
    rw [hfile] at hx
    exact hx

theorem Reads.of_ok {a : α} (hx : Reads file x Q E) (h : x file = .ok a) : Q a := by
  rwa [Reads, h] at hx

theorem reads_symbol (x : Sexp) :
    Reads file (symbolName x) (fun name => x = .symbol name) E := by
  cases x with
  | symbol name => exact .pure rfl
  | _ => exact .refuse _

theorem reads_form (x : Sexp) :
    Reads file (readForm x) (fun form => x = .list (whole form.1 form.2)) E := by
  cases x with
  | list xs =>
    cases xs with
    | nil => exact .refuse .emptyList
    | cons y ys => exact (reads_symbol y).bind fun tag hy => .pure (hy ▸ rfl)
  | _ => exact .refuse _

theorem reads_only (tag : Text) (args : List Sexp) :
    Reads file (only tag args) (fun w => args = [w]) E := by
  match args with
  | [w] => exact .pure rfl
  | [] => exact .refuse _
  | _ :: _ :: _ => exact .refuse _

theorem reads_some (c : Cause) (o : Option α) :
    Reads file (orRefuse c o) (fun a => o = some a) E := by
  cases o with
  | some a => exact .pure rfl
  | none => exact .refuse c

theorem reads_text (x : Sexp) : Reads file (readText x) (fun t => x.word? = some t) E :=
  reads_some _ x.word?

/-- A form with one word is read as what the word is read as. -/
theorem reads_word {k : Text → Read β} {tag : Text} {args : List Sexp}
    (hk : ∀ w t, args = [w] → w.word? = some t → Reads file (k t) R E) :
    Reads file (only tag args >>= fun w => readText w >>= k) R E :=
  (reads_only tag args).bind fun w hw => (reads_text w).bind fun t ht => hk w t hw ht

theorem reads_whole (x : Sexp) : Reads file (readWhole x) (fun _ => True) E := by
  cases x with
  | int i => exact .pure trivial
  | _ => exact .refuse _

theorem reads_noArgs (tag : Text) (args : List Sexp) :
    Reads file (noArgs tag args) (fun _ => True) E := by
  cases args with
  | nil => exact .pure trivial
  | cons x xs => exact .refuse _

theorem reads_once {tag : Text} {old : Option α} {new : α} {put : Option α → β} :
    Reads file (once tag old new >>= fun a => pure (put a)) (fun _ => True) E := by
  have honce : Reads file (once tag old new) (fun _ => True) E := by
    cases old with
    | none => exact .pure trivial
    | some _ => exact .refuse _
  exact honce.bind fun _ _ => .pure trivial

/-! ### Patterns and messages -/

theorem reads_pattern {source : Text}
    (hE : ∀ p, Pattern.read source = .error p → p = .countTooLarge ∨ p = .mixedKinds →
      E (.pattern p)) :
    Reads file (readPattern source) (fun _ => True) E := by
  unfold readPattern
  cases h : Pattern.read source with
  | ok p => exact .pure trivial
  | error p =>
    cases p with
    | countTooLarge => exact Or.inr (hE _ h (.inl rfl))
    | mixedKinds => exact Or.inr (hE _ h (.inr rfl))
    | _ => exact .refuse _

theorem reads_message {source : Text}
    (hE : ∀ f, Template.render source sampleFields = .error f → f = .overflow ∨ f = .memory →
      E (.template f)) :
    Reads file (readMessage source)
      (fun t => ∃ sample, Template.render t sampleFields = .ok sample) E := by
  unfold readMessage
  cases h : Template.render source sampleFields with
  | ok sample => exact .pure ⟨sample, h⟩
  | error f =>
    cases f with
    | overflow => exact Or.inr (hE _ h (.inl rfl))
    | memory => exact Or.inr (hE _ h (.inr rfl))
    | _ => exact .refuse _

/-! ### Forms -/

theorem reads_matcher {m : Matcher} {tag : Text} {args : List Sexp}
    (hE : ∀ f, Beyond (.list (whole tag args)) f → E f) :
    Reads file (readMatcher m tag args) (fun _ => True) E := by
  unfold readMatcher
  -- of all tests only a pattern can have a fault that is not answered for
  split_ifs with hid hlabel hmatch hkind hroutine hcall harg
  · exact reads_word fun _ _ _ _ => reads_once
  · exact reads_word fun _ _ _ _ => reads_once
  · refine reads_word fun w t hargs ht => (reads_pattern fun p hp hfault => ?_).bind
      fun _ _ => reads_once
    subst hmatch hargs
    exact hE _ (.pattern .self ht hp hfault)
  · exact reads_word fun _ _ _ _ => (reads_some _ _).bind fun _ _ => reads_once
  · exact reads_word fun _ _ _ _ => reads_once
  · exact reads_word fun _ _ _ _ => reads_once
  · exact (reads_only tag args).bind fun w _ => (reads_whole w).bind fun _ _ => reads_once
  · exact .refuse _

theorem reads_group {m : Matcher} {xs : List Sexp} (hE : ∀ x ∈ xs, ∀ f, Beyond x f → E f) :
    Reads file (readGroup m xs) (fun _ => True) E := by
  induction xs generalizing m with
  | nil => exact .pure trivial
  | cons x xs ih =>
    obtain ⟨hx, hxs⟩ := List.forall_mem_cons.mp hE
    refine (reads_form x).bind fun form hform => ?_
    subst hform
    exact (reads_matcher hx).bind fun _ _ => ih hxs

theorem reads_part {rule : Text} {p : Parts} {x : Sexp} (hE : ∀ f, Beyond x f → E f) :
    Reads file (readPart rule p x) (fun _ => True) E := by
  refine (reads_form x).bind fun ⟨tag, args⟩ hx => ?_
  subst hx
  have hargs := Beyond.of_args hE
  dsimp only
  split_ifs
  · exact (reads_group hargs).bind fun _ _ => .pure trivial
  · exact (reads_group hargs).bind fun _ _ => .pure trivial
  · exact (reads_noArgs tag args).bind fun _ _ => .pure trivial
  · exact (reads_noArgs tag args).bind fun _ _ => .pure trivial
  · exact .refuse _

theorem reads_parts {rule : Text} {p : Parts} {xs : List Sexp}
    (hE : ∀ x ∈ xs, ∀ f, Beyond x f → E f) :
    Reads file (readParts rule p xs) (fun _ => True) E := by
  induction xs generalizing p with
  | nil => exact .pure trivial
  | cons x xs ih =>
    obtain ⟨hx, hxs⟩ := List.forall_mem_cons.mp hE
    exact (reads_part hx).bind fun _ _ => ih hxs

theorem reads_rule {tag : Text} {args : List Sexp} (hE : ∀ x ∈ args, ∀ f, Beyond x f → E f) :
    Reads file (readRule tag args) (fun _ => True) E := by
  refine (reads_parts hE).bind fun p _ => ?_
  split
  · exact .pure trivial
  · exact .refuse _

theorem reads_barrier {tag : Text} {args : List Sexp} (hE : ∀ x ∈ args, ∀ f, Beyond x f → E f) :
    Reads file (readBarrier tag args) (fun _ => True) E := by
  match args with
  | side :: x :: xs =>
    refine (reads_text side).bind fun t _ => (reads_some _ _).bind fun _ _ => ?_
    exact (reads_group fun y hy => hE y (List.mem_cons_of_mem _ hy)).bind fun _ _ => .pure trivial
  | [] => exact .refuse _
  | [_] => exact .refuse _

/-- What is kept while items are read: the file, and that a message has been tried. -/
structure Tried (file : Text) (c : Catalogue) : Prop where
  file : c.loc.file = file
  message : c.message = [] ∨ ∃ sample, Template.render c.message sampleFields = .ok sample

theorem reads_item {c : Catalogue} {x : Sexp} (hc : Tried file c) (hE : ∀ f, Beyond x f → E f) :
    Reads file (readItem c x) (Tried file) E := by
  refine (reads_form x).bind fun ⟨tag, args⟩ hx => ?_
  subst hx
  have hargs := Beyond.of_args hE
  dsimp only
  split_ifs with hdescription hmessage
  · exact reads_word fun _ _ _ _ => .pure ⟨hc.file, hc.message⟩
  · refine reads_word fun w t hw ht => (reads_message fun f hf hfault => ?_).bind
      fun _ hsample => .pure ⟨hc.file, .inr hsample⟩
    subst hmessage hw
    exact hE _ (.message .self ht hf hfault)
  · exact reads_word fun _ _ _ _ => (reads_some _ _).bind fun _ _ => .pure ⟨hc.file, hc.message⟩
  · exact (reads_rule hargs).bind fun _ _ => .pure ⟨hc.file, hc.message⟩
  · exact (reads_rule hargs).bind fun _ _ => .pure ⟨hc.file, hc.message⟩
  · exact (reads_barrier hargs).bind fun _ _ => .pure ⟨hc.file, hc.message⟩
  · exact .refuse _

theorem reads_items {c : Catalogue} {xs : List Sexp} (hc : Tried file c)
    (hE : ∀ x ∈ xs, ∀ f, Beyond x f → E f) : Reads file (readItems c xs) (Tried file) E := by
  induction xs generalizing c with
  | nil => exact .pure hc
  | cons x xs ih =>
    obtain ⟨hx, hxs⟩ := List.forall_mem_cons.mp hE
    exact (reads_item hc hx).bind fun _ hc' => ih hc' hxs

theorem reads_catalogue {x : Sexp} (hE : ∀ f, Beyond x f → E f) :
    Reads file (ofSexp x) (Tried file) E := by
  match x with
  | .list (y :: z :: items) =>
    have hitems : ∀ x ∈ items, ∀ f, Beyond x f → E f := fun x hx f hf => hE f (hf.list (by simp [hx]))
    refine (reads_symbol y).bind fun tag _ => ?_
    dsimp only
    split_ifs
    · exact .refuse _
    · exact (reads_text z).bind fun name _ => reads_items ⟨rfl, .inl rfl⟩ hitems
  | .list [] => exact .refuse _
  | .list [_] => exact .refuse _
  | .symbol _ | .text _ | .int _ | .float _ | .brackets _ | .quote _ => exact .refuse _

theorem reads_source (source : Text) : Reads file (ofText source) (Tried file)
    fun f => ∃ x, Sexp.read source = .ok x ∧ Beyond x f := by
  unfold ofText
  cases Sexp.read source with
  | error f => exact .refuse _
  | ok x => exact reads_catalogue fun f hf => ⟨x, rfl, hf⟩

end

theorem tried_of_read {file source : Text} {c : Catalogue} (h : read file source = .ok c) :
    Tried file c := (reads_source source).of_ok h

end Catalogue
end Lockstep
