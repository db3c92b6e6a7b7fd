import Mathlib.Data.List.Infix
import Lockstep.Template.Written
import Lockstep.Proofs.Attempt
/-!
What the writing of a value depends on. Whether a text can be written by a specification is up to the
specification alone, and so it is with a whole number, unless that is written as a character or as a
fraction; these two are told by the last character of the specification.
-/

set_option autoImplicit false

namespace Lockstep.Template

/-! ### The code of a specification -/

theorem readAlign_suffix (t : Text) : (readAlign t).2.2 <:+ t := by
  match t with
  | [] => exact List.suffix_refl _
  | [c] =>
    cases h : alignOf? c <;> simp [readAlign, h]
  | c :: d :: cs =>
    have hcs : cs <:+ c :: d :: cs := ⟨[c, d], rfl⟩
    cases hd : alignOf? d <;> cases hc : alignOf? c <;> simp [readAlign, hd, hc, hcs]

theorem takeChar_suffix (cls : Char → Bool) (t : Text) : (takeChar cls t).2 <:+ t := by
  cases t with
  | nil => exact List.suffix_refl _
  | cons c cs => cases h : cls c <;> simp [takeChar, h]

theorem readCount_suffix {n m : Option Nat} {t rest : Text} (h : readCount n t = .ok (m, rest)) :
    rest <:+ t := by
  induction t generalizing n with
  | nil => simp_all [readCount]
  | cons c cs ih =>
    unfold readCount at h
    cases hd : Text.digitValue? c with
    | none => simp_all
    | some d =>
      simp only [hd] at h
      split at h
      · cases h
      · exact (ih h).trans (List.suffix_cons _ _)

theorem readSeparator_suffix {s : Option Char} {t rest : Text}
    (h : readSeparator t = .ok (s, rest)) : rest <:+ t := by
  rcases hcomma : takeChar (· == ',') t with ⟨comma, t₁⟩
  rcases hline : takeChar (· == '_') t₁ with ⟨line, t₂⟩
  have h₁ : t₁ <:+ t := by simpa [hcomma] using takeChar_suffix (· == ',') t
  have h₂ : t₂ <:+ t₁ := by simpa [hline] using takeChar_suffix (· == '_') t₁
  simp only [readSeparator, hcomma, hline] at h
  have hrest : rest = t₂ := by
    split at h
    · cases h
    · split at h
      · cases h
      · exact (Prod.mk.inj (Except.ok.inj h)).2.symm
    · exact (Prod.mk.inj (Except.ok.inj h)).2.symm
  exact hrest ▸ h₂.trans h₁

theorem readPrecision_suffix {p : Option Nat} {t rest : Text}
    (h : readPrecision t = .ok (p, rest)) : rest <:+ t := by
  unfold readPrecision at h
  split at h
  · obtain ⟨⟨n, r⟩, hcount, hn⟩ := bind_eq_ok.mp h
    cases n with
    | none => cases hn
    | some n =>
      obtain ⟨-, rfl⟩ := Prod.mk.inj (Except.ok.inj hn)
      exact (readCount_suffix hcount).trans (List.suffix_cons _ _)
  · obtain ⟨-, rfl⟩ := Prod.mk.inj (Except.ok.inj h)
    exact List.suffix_refl _

/-- The code is the one that holds if none is given, or it comes last. -/
theorem readSpec_code {kind : Text} {align : Align} {code : Option Char} {source : Text} {s : Spec}
    (h : readSpec kind align code source = .ok s) : s.code = code ∨ s.code = source.getLast? := by
  unfold readSpec at h
  rcases halign : readAlign source with ⟨fill, given, t₁⟩
  rcases hsign : takeChar isSign t₁ with ⟨sign, t₂⟩
  rcases hzero : takeChar (· == 'z') t₂ with ⟨noNegativeZero, t₃⟩
  rcases halternate : takeChar (· == '#') t₃ with ⟨alternate, t₄⟩
  rcases hpad : (if fill.isNone then takeChar (· == '0') t₄ else (none, t₄)) with ⟨pad, t₅⟩
  simp only [halign, hsign, hzero, halternate, hpad, bind_eq_ok] at h
  obtain ⟨⟨width, t₆⟩, hwidth, ⟨separator, t₇⟩, hseparator, ⟨precision, t₈⟩, hprecision, h⟩ := h
  have h₅ : t₅ <:+ t₄ := by
    split at hpad
    · simpa [hpad] using takeChar_suffix (· == '0') t₄
    · exact (Prod.mk.inj hpad).2 ▸ List.suffix_refl _
  have hsuffix : t₈ <:+ source := calc
    t₈ <:+ t₇ := readPrecision_suffix hprecision
    _ <:+ t₆ := readSeparator_suffix hseparator
    _ <:+ t₅ := readCount_suffix hwidth
    _ <:+ t₄ := h₅
    _ <:+ t₃ := by simpa [halternate] using takeChar_suffix (· == '#') t₃
    _ <:+ t₂ := by simpa [hzero] using takeChar_suffix (· == 'z') t₂
    _ <:+ t₁ := by simpa [hsign] using takeChar_suffix isSign t₁
    _ <:+ source := by simpa [halign] using readAlign_suffix source
  match t₈ with
  | [] =>
    obtain ⟨_, ⟨⟩, h⟩ := bind_eq_ok.mp h
    obtain ⟨_, -, ⟨⟩⟩ := bind_eq_ok.mp h
    exact Or.inl rfl
  | [c] =>
    obtain ⟨_, ⟨⟩, h⟩ := bind_eq_ok.mp h
    obtain ⟨_, -, ⟨⟩⟩ := bind_eq_ok.mp h
    obtain ⟨before, rfl⟩ := hsuffix
    exact Or.inr (by simp)
  | _ :: _ :: _ => cases h

/-! ### What can be written -/

/-- A code that writes a whole number as a character or as a fraction. -/
def isLimited (code : Option Char) : Bool := code == some 'c' || isFloatCode code

section

variable {kind source : Text}

/-- Whether a text can be written does not depend on it. -/
theorem isOk_writeText (t u : Text) :
    (writeText kind source t).isOk = (writeText kind source u).isOk := by
  unfold writeText
  cases source.isEmpty with
  | true => rfl
  | false => cases textSpec kind source <;> rfl

theorem isOk_writeNumber (s : Spec) (negative : Bool) (lead digits rest : Text) :
    (writeNumber s negative lead digits rest).isOk = (checkWidth s).isOk := by
  unfold writeNumber
  cases checkWidth s <;> rfl

theorem isOk_writeWholeBy {s : Spec} (hs : s.code ≠ some 'c') (i j : Int) :
    (writeWholeBy s i).isOk = (writeWholeBy s j).isOk := by
  unfold writeWholeBy
  cases s.precision.isSome with
  | true => rfl
  | false =>
    cases s.noNegativeZero with
    | true => rfl
    | false =>
      simp only [if_neg hs]
      exact (isOk_writeNumber s ..).trans (isOk_writeNumber s ..).symm

theorem isOk_writeWhole (h : isLimited source.getLast? = false) (i j : Int) :
    (writeWhole kind source i).isOk = (writeWhole kind source j).isOk := by
  unfold writeWhole
  cases hs : readSpec kind .right (some 'd') source with
  | error m => rfl
  | ok s =>
    have hcode : isLimited s.code = false := by
      obtain hcode | hcode := readSpec_code hs
      · rw [hcode]
        rfl
      · rw [hcode, h]
    obtain ⟨hcharacter, hfloat⟩ := Bool.or_eq_false_iff.mp hcode
    have hwhole := isOk_writeWholeBy (beq_eq_false_iff_ne.mp hcharacter) i j
    simp only [Except.mapError, bind, Except.bind, hfloat]
    cases s.code with
    | none => exact hwhole
    | some c =>
      cases hc : isWholeCode c with
      | true => simpa [hc] using hwhole
      | false => simp [hc]

end

end Lockstep.Template
