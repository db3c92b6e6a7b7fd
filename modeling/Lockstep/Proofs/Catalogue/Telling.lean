import Lockstep.Proofs.Attempt
import Lockstep.Proofs.Catalogue.Forms
/-!
What is read is what the forms tell. Each reader is told by what it takes; a loop over forms keeps
what each of its steps keeps, so that a matcher, a rule and a catalogue end with what all their forms
tell.
-/

set_option autoImplicit false

namespace Lockstep.Catalogue

/-! ### What each reader takes -/

section

variable {α β : Type} {file tag : Text} {x : Sexp} {xs args : List Sexp} {r : Read α}

theorem run_bind (r : Read α) (k : α → Read β) (file : Text) :
    (r >>= k) file = r file >>= fun a => k a file := rfl

theorem bind_eq_read {k : α → Read β} {b : β} :
    (r >>= k) file = .ok b ↔ ∃ a, r file = .ok a ∧ k a file = .ok b := by
  rw [run_bind, bind_eq_ok]

theorem pure_eq_read {a b : α} : (pure a : Read α) file = .ok b ↔ a = b := by
  simp [pure, ReaderT.pure, Except.pure]

theorem refuse_ne_ok {c : Cause} {a : α} : refuse c file ≠ .ok a := nofun

theorem orRefuse_eq_ok {c : Cause} {o : Option α} {a : α} : orRefuse c o file = .ok a ↔ o = some a := by
  cases o with
  | none => simp [orRefuse, refuse_ne_ok]
  | some b => simp [orRefuse, pure_eq_read]

theorem symbolName_eq_ok {t : Text} : symbolName x file = .ok t ↔ x = .symbol t := by
  cases x <;> simp [symbolName, pure_eq_read, refuse_ne_ok]

theorem readForm_eq_ok {form : Text × List Sexp} :
    readForm x file = .ok form ↔ x = .list (whole form.1 form.2) := by
  obtain ⟨tag, args⟩ := form
  cases x with
  | list xs =>
    simp only [readForm, bind_eq_read, pure_eq_read]
    cases xs with
    | nil => simp [head, refuse_ne_ok, whole]
    | cons y ys => simp [head, symbolName_eq_ok, whole]
  | _ => simp [readForm, refuse_ne_ok]

theorem only_eq_ok {w : Sexp} : only tag args file = .ok w ↔ args = [w] := by
  match args with
  | [] => simp [only, refuse_ne_ok]
  | [_] => simp [only, pure_eq_read]
  | _ :: _ :: _ => simp [only, refuse_ne_ok]

theorem noArgs_eq_ok {u : Unit} : noArgs tag args file = .ok u ↔ args = [] := by
  cases args <;> simp [noArgs, pure_eq_read, refuse_ne_ok]

theorem readText_eq_ok {t : Text} : readText x file = .ok t ↔ x.word? = some t := orRefuse_eq_ok

theorem readWhole_eq_ok {i : Int} : readWhole x file = .ok i ↔ x = .int i := by
  cases x <;> simp [readWhole, pure_eq_read, refuse_ne_ok]

theorem word_eq_ok {k : Text → Read β} {b : β} :
    (only tag args >>= fun w => readText w >>= k) file = .ok b ↔
      ∃ w t, args = [w] ∧ w.word? = some t ∧ k t file = .ok b := by
  simp only [bind_eq_read, only_eq_ok, readText_eq_ok, exists_and_left]

theorem readPattern_eq_ok {source : Text} {p : Pattern} :
    readPattern source file = .ok p ↔ Pattern.read source = .ok p := by
  unfold readPattern
  cases Pattern.read source with
  | ok q => simp [pure_eq_read]
  | error f =>
    dsimp only
    split_ifs <;> simp [refuse_ne_ok]

theorem readKind_eq_ok {t : Text} {k : NodeKind} : readKind t file = .ok k ↔ k.word = t := by
  rw [readKind, orRefuse_eq_ok]
  refine ⟨fun h => ?_, fun h => h ▸ k.ofWord?_word⟩
  simpa using List.find?_some h

theorem once_eq_ok {old : Option α} {new : α} {put : Option α → β} {b : β} :
    (once tag old new >>= fun a => pure (put a)) file = .ok b ↔ old = none ∧ put (some new) = b := by
  rw [bind_eq_read]
  cases old <;> simp [once, pure_eq_read, refuse_ne_ok]

theorem readMessage_eq_ok {source t : Text} : readMessage source file = .ok t ↔
    source = t ∧ ∃ sample, Template.render source sampleFields = .ok sample := by
  unfold readMessage
  cases Template.render source sampleFields with
  | ok sample => simp [pure_eq_read]
  | error f =>
    dsimp only
    split_ifs <;> simp [refuse_ne_ok]

end

/-! ### Groups -/

section

variable {file : Text} {xs ys : List Sexp}

/-- A loop that takes one form after another keeps what each step keeps of the forms so far. -/
theorem tells_of_steps {σ : Type} {P : σ → List Sexp → Prop} {s s' : σ}
    (loop : σ → List Sexp → Read σ) (step : σ → Sexp → Read σ) (hnil : ∀ s, loop s [] = pure s)
    (hcons : ∀ s x xs, loop s (x :: xs) = step s x >>= fun s => loop s xs)
    (hstep : ∀ {s s' xs x}, step s x file = .ok s' → P s xs → P s' (xs ++ [x]))
    (h : loop s ys file = .ok s') (hs : P s xs) : P s' (xs ++ ys) := by
  induction ys generalizing s xs with
  | nil =>
    rw [hnil, pure_eq_read] at h
    simpa [← h] using hs
  | cons y ys ih =>
    rw [hcons, bind_eq_read] at h
    obtain ⟨s₁, hy, hys⟩ := h
    simpa using ih hys (hstep hy hs)

theorem readMatcher_put {tag : Text} {args : List Sexp} {m m' : Matcher}
    (h : readMatcher m tag args file = .ok m') :
    ∃ t : Test, t.Written (.list (whole tag args)) ∧ m.Lacks t.trait ∧ m' = m.put t := by
  unfold readMatcher at h
  split_ifs at h with hid hlabel hmatch hkind hroutine hcall harg
  · subst hid
    simp only [word_eq_ok, once_eq_ok] at h
    obtain ⟨w, t, rfl, ht, hold, rfl⟩ := h
    exact ⟨.id t, ⟨w, rfl, ht⟩, hold, rfl⟩
  · subst hlabel
    simp only [word_eq_ok, once_eq_ok] at h
    obtain ⟨w, t, rfl, ht, hold, rfl⟩ := h
    exact ⟨.label t, ⟨w, rfl, ht⟩, hold, rfl⟩
  · subst hmatch
    -- only the reading of the pattern is taken apart, what is set stays as `once_eq_ok` has it
    simp only [word_eq_ok, bind_eq_read (r := readPattern _), readPattern_eq_ok, once_eq_ok] at h
    obtain ⟨w, source, rfl, hsource, p, hp, hold, rfl⟩ := h
    exact ⟨.labelMatch p, ⟨w, rfl, source, hsource, hp⟩, hold, rfl⟩
  · subst hkind
    simp only [word_eq_ok, bind_eq_read (r := readKind _), readKind_eq_ok, once_eq_ok] at h
    obtain ⟨w, t, rfl, ht, k, rfl, hold, rfl⟩ := h
    exact ⟨.kind k, ⟨w, rfl, ht⟩, hold, rfl⟩
  · subst hroutine
    simp only [word_eq_ok, once_eq_ok] at h
    obtain ⟨w, t, rfl, ht, hold, rfl⟩ := h
    exact ⟨.routine t, ⟨w, rfl, ht⟩, hold, rfl⟩
  · subst hcall
    simp only [word_eq_ok, once_eq_ok] at h
    obtain ⟨w, t, rfl, ht, hold, rfl⟩ := h
    exact ⟨.call t, ⟨w, rfl, ht⟩, hold, rfl⟩
  · subst harg
    simp only [bind_eq_read (r := only _ _), bind_eq_read (r := readWhole _), only_eq_ok,
      readWhole_eq_ok, once_eq_ok] at h
    obtain ⟨w, rfl, i, rfl, hold, rfl⟩ := h
    exact ⟨.arg i, ⟨_, rfl, rfl⟩, hold, rfl⟩
  · exact absurd h refuse_ne_ok

theorem readGroup_tells {m : Matcher} (h : readGroup { } xs file = .ok m) : m.Tells xs := by
  refine tells_of_steps readGroup (fun m x => readForm x >>= fun form => readMatcher m form.1 form.2)
    (fun _ => rfl) (fun _ _ _ => (bind_assoc ..).symm) (fun {m m' xs x} h hm => ?_) h
    Matcher.Tells.none
  simp only [bind_eq_read, readForm_eq_ok] at h
  obtain ⟨⟨tag, args⟩, rfl, h⟩ := h
  obtain ⟨t, ht, hold, rfl⟩ := readMatcher_put h
  exact hm.put ht hold

end

/-! ### Rules -/

section

variable {file : Text} {xs args : List Sexp}

theorem readPart_tells {rule : Text} {p p' : Parts} {x : Sexp}
    (h : readPart rule p x file = .ok p') (hp : p.Tells xs) : p'.Tells (xs ++ [x]) := by
  simp only [readPart, bind_eq_read, readForm_eq_ok] at h
  obtain ⟨⟨tag, args⟩, rfl, h⟩ := h
  dsimp only at h
  split_ifs at h with hfirst hsecond hsame hdistinct
  · subst hfirst
    simp only [bind_eq_read, pure_eq_read] at h
    obtain ⟨m, hm, rfl⟩ := h
    exact hp.addFirst (readGroup_tells hm)
  · subst hsecond
    simp only [bind_eq_read, pure_eq_read] at h
    obtain ⟨m, hm, rfl⟩ := h
    exact hp.addSecond (readGroup_tells hm)
  · subst hsame
    simp only [bind_eq_read, noArgs_eq_ok, pure_eq_read] at h
    obtain ⟨-, rfl, rfl⟩ := h
    exact hp.addSameCall
  · subst hdistinct
    simp only [bind_eq_read, noArgs_eq_ok, pure_eq_read] at h
    obtain ⟨-, rfl, rfl⟩ := h
    exact hp.addDistinct
  · exact absurd h refuse_ne_ok

theorem readRule_tells {tag : Text} {r : PairRule} (h : readRule tag args file = .ok r) :
    (parts r).Tells args := by
  simp only [readRule, bind_eq_read] at h
  obtain ⟨p, hp, h⟩ := h
  have hp := tells_of_steps (readParts tag) (readPart tag) (fun _ => rfl) (fun _ _ _ => rfl)
    readPart_tells hp Parts.Tells.none
  obtain ⟨first, second, sameCall, distinct⟩ := p
  cases first with
  | none => exact absurd h refuse_ne_ok
  | some first =>
    cases second with
    | none => exact absurd h refuse_ne_ok
    | some second =>
      obtain rfl := pure_eq_read.mp h
      exact hp

end

/-! ### Items -/

section

variable {file : Text} {xs args : List Sexp} {c c' : Catalogue}

theorem readSeverity_eq_ok {t : Text} {s : Severity} :
    readSeverity t file = .ok s ↔ s.label = t := by
  rw [readSeverity, orRefuse_eq_ok]
  refine ⟨fun h => ?_, fun h => h ▸ s.ofLabel?_label⟩
  simpa using List.find?_some h

theorem readSide_eq_ok {t : Text} {s : BarrierSide} : readSide t file = .ok s ↔ s.word = t := by
  rw [readSide, orRefuse_eq_ok]
  refine ⟨fun h => ?_, fun h => h ▸ s.ofWord?_word⟩
  simpa using List.find?_some h

theorem readBarrier_tells {tag : Text} {b : BarrierRule}
    (h : readBarrier tag args file = .ok b) : BarrierTells b args := by
  match args with
  | side :: x :: xs =>
    simp only [readBarrier, bind_eq_read, readText_eq_ok, readSide_eq_ok, pure_eq_read] at h
    obtain ⟨t, ht, s, rfl, m, hm, rfl⟩ := h
    exact .mk ht (List.cons_ne_nil _ _) (readGroup_tells hm)
  | [] => exact absurd h refuse_ne_ok
  | [_] => exact absurd h refuse_ne_ok

theorem readItem_tells {name x : Sexp} (h : readItem c x file = .ok c')
    (hc : c.Tells file name xs) : c'.Tells file name (xs ++ [x]) := by
  simp only [readItem, bind_eq_read, readForm_eq_ok] at h
  obtain ⟨⟨tag, args⟩, rfl, h⟩ := h
  dsimp only at h
  split_ifs at h with hdescription hmessage hseverity hsource hsink hbarrier
  · subst hdescription
    simp only [word_eq_ok, pure_eq_read] at h
    obtain ⟨w, t, rfl, ht, rfl⟩ := h
    exact hc.addDescription ht
  · subst hmessage
    simp only [word_eq_ok, bind_eq_read (r := readMessage _), readMessage_eq_ok, pure_eq_read] at h
    obtain ⟨w, t, rfl, ht, m, ⟨rfl, -⟩, rfl⟩ := h
    exact hc.addMessage ht
  · subst hseverity
    simp only [word_eq_ok, bind_eq_read (r := readSeverity _), readSeverity_eq_ok, pure_eq_read] at h
    obtain ⟨w, -, rfl, ht, s, rfl, rfl⟩ := h
    exact hc.addSeverity ht
  · subst hsource
    simp only [bind_eq_read, pure_eq_read] at h
    obtain ⟨r, hr, rfl⟩ := h
    exact hc.addSource (readRule_tells hr)
  · subst hsink
    simp only [bind_eq_read, pure_eq_read] at h
    obtain ⟨r, hr, rfl⟩ := h
    exact hc.addSink (readRule_tells hr)
  · subst hbarrier
    simp only [bind_eq_read, pure_eq_read] at h
    obtain ⟨b, hb, rfl⟩ := h
    exact hc.addBarrier (readBarrier_tells hb)
  · exact absurd h refuse_ne_ok

theorem ofSexp_tells {x : Sexp} (h : ofSexp x file = .ok c) :
    ∃ w items, x = .list (whole word (w :: items)) ∧ c.Tells file w items := by
  match x with
  | .list (y :: w :: items) =>
    simp only [ofSexp, bind_eq_read, symbolName_eq_ok] at h
    obtain ⟨tag, rfl, h⟩ := h
    split_ifs at h with htag
    · obtain ⟨_, hrefuse, _⟩ := bind_eq_read.mp h
      exact absurd hrefuse refuse_ne_ok
    · simp only [bind_eq_read, readText_eq_ok] at h
      obtain ⟨name, hname, loc, hloc, hitems⟩ := h
      obtain rfl : { file } = loc := Except.ok.inj hloc
      have hnone : Tells { name, loc := { file } } file w [] :=
        ⟨hname, rfl, rfl, rfl, rfl, .nil, .nil, .nil, by simp⟩
      refine ⟨w, items, by rw [not_not.mp htag, whole], ?_⟩
      exact tells_of_steps (P := fun c items => c.Tells file w items) readItems readItem
        (fun _ => rfl) (fun _ _ _ => rfl) readItem_tells hitems hnone
  | .list [] | .list [_] => exact absurd h refuse_ne_ok
  | .symbol _ | .text _ | .int _ | .float _ | .brackets _ | .quote _ => exact absurd h refuse_ne_ok

end

end Lockstep.Catalogue
