import Lockstep.CommandLine.Output
/-!
Saving the log beside a report. Whether it can be saved depends on the place alone; if it can, the
file holds the log of all findings, other files hold what they held, and the findings are counted.
-/

set_option autoImplicit false

namespace Lockstep

namespace Files

variable {f g : Files} {p q : Path} {octets more : List UInt8} {written : Text}

theorem put_put (f : Files) (p : Path) (octets more : List UInt8) :
    (f.put p octets).put p more = f.put p more := by
  simp [put, List.filter_filter]

theorem content?_put_of_ne (f : Files) (octets : List UInt8) (h : q ≠ p) :
    (f.put p octets).content? q = f.content? q := by
  have hq : (q == p) = false := beq_eq_false_iff_ne.mpr h
  simp only [put, content?, List.lookup_cons, hq]
  induction f.contents with
  | nil => rfl
  | cons c cs ih =>
    obtain ⟨r, held⟩ := c
    by_cases hr : r = p
    · subst hr
      simpa [List.lookup_cons, hq] using ih
    · simp [hr, List.lookup_cons, ih]

/-- A written path leads through folders to a file that is there, or to a new one in a folder. -/
structure Admits (f : Files) (written : Text) (p : Path) : Prop where
  leads : f.walk (Path.origin f.here written) (Path.partsOf written) = .ok p
  free : f.isFolder p = false
  there : f.isFile p = true ∨ f.isFolder p.parent = true

theorem clear_eq_ok {name : Text} : f.clear p name = .ok g ↔
    (f.isFolder p = false ∧ (f.isFile p = true ∨ f.isFolder p.parent = true)) ∧ g = f.put p [] := by
  unfold clear
  cases hfolder : f.isFolder p with
  | true => simp
  | false =>
    rw [if_neg Bool.false_ne_true]
    by_cases hthere : (f.isFile p || f.isFolder p.parent) = true
    · rw [if_pos hthere]
      refine ⟨fun h => ⟨⟨rfl, Bool.or_eq_true_iff.mp hthere⟩, (Except.ok.inj h).symm⟩, fun h => ?_⟩
      rw [h.2]
    · rw [if_neg hthere]
      exact ⟨fun h => (nomatch h), fun h => absurd (Bool.or_eq_true_iff.mpr h.1.2) hthere⟩

theorem save_eq_ok : f.save written octets = .ok g ↔
    ∃ p, f.Admits written p ∧ g = f.put p octets := by
  unfold save
  cases hwalk : f.walk (Path.origin f.here written) (Path.partsOf written) with
  | error fault =>
    constructor
    · intro h
      cases h
    · rintro ⟨p, hp, -⟩
      cases hwalk.symm.trans hp.leads
  | ok p =>
    constructor
    · intro h
      simp only at h
      cases hclear : f.clear p (Path.plain written) with
      | error e => simp [hclear] at h
      | ok cleared =>
        obtain ⟨⟨hfree, hthere⟩, rfl⟩ := clear_eq_ok.mp hclear
        simp only [hclear, Except.ok.injEq, put_put] at h
        exact ⟨p, ⟨hwalk, hfree, hthere⟩, h.symm⟩
    · rintro ⟨q, hq, rfl⟩
      obtain rfl : p = q := Except.ok.inj (hwalk.symm.trans hq.leads)
      have hclear : f.clear p (Path.plain written) = .ok (f.put p []) :=
        clear_eq_ok.mpr ⟨⟨hq.free, hq.there⟩, rfl⟩
      simp only [hclear, put_put]

end Files

namespace CommandLine

variable {format : ReportFormat} {sidecar : Text} {bs : List Batch} {files : Files}
  {reported : Reported}

/-- All that can come of saving a log beside a report: there is none to save, or its file is put in
place. -/
inductive Saves (sidecar : Text) (log : Text) (files : Files) : Files → List LogLine → Prop
  | skipped : sidecar = [] → Saves sidecar log files files []
  | saved {p : Path} : sidecar ≠ [] → files.Admits sidecar p →
      Saves sidecar log files (files.put p (Text.Utf8.encode log)) [savedLine sidecar]

theorem saveSidecar_eq_ok {after : Files} {lines : List LogLine} :
    saveSidecar sidecar bs files = .ok (after, lines) ↔
      Saves sidecar (Batch.sidecar bs) files after lines := by
  unfold saveSidecar
  by_cases hempty : sidecar.isEmpty = true
  · have hnone : sidecar = [] := List.isEmpty_iff.mp hempty
    rw [if_pos hempty]
    constructor
    · intro h
      obtain ⟨rfl, rfl⟩ := Prod.mk.inj (Except.ok.inj h)
      exact .skipped hnone
    · intro h
      cases h with
      | skipped _ => rfl
      | saved hsome _ => exact absurd hnone hsome
  · have hsome : sidecar ≠ [] := fun h => hempty (List.isEmpty_iff.mpr h)
    rw [if_neg hempty]
    constructor
    · intro h
      cases hsave : files.save sidecar (Text.Utf8.encode (Batch.sidecar bs)) with
      | error e => simp [hsave] at h
      | ok saved =>
        obtain ⟨p, hp, rfl⟩ := Files.save_eq_ok.mp hsave
        simp only [hsave, Except.ok.injEq, Prod.mk.injEq] at h
        obtain ⟨rfl, rfl⟩ := h
        exact .saved hsome hp
    · intro h
      cases h with
      | skipped hnone => exact absurd hnone hsome
      | saved _ hp => rw [Files.save_eq_ok.mpr ⟨_, hp, rfl⟩]

theorem writeReports_eq_ok : (writeReports format sidecar bs files).2 = .ok reported ↔
    reported.total = Batch.total bs ∧
      Saves sidecar (Batch.sidecar bs) files reported.files reported.lines := by
  rw [← saveSidecar_eq_ok]
  unfold writeReports
  cases hsave : saveSidecar sidecar bs files with
  | error e => simp
  | ok saved =>
    obtain ⟨after, lines⟩ := saved
    obtain ⟨total, after', lines'⟩ := reported
    simp only [Except.ok.injEq, Reported.mk.injEq, Prod.mk.injEq]
    constructor
    · rintro ⟨rfl, rfl, rfl⟩
      exact ⟨rfl, rfl, rfl⟩
    · rintro ⟨rfl, rfl, rfl⟩
      exact ⟨rfl, rfl, rfl⟩

/-- A report is written and counted unless a log is to be saved where none can be. -/
theorem exists_writeReports : (∃ reported, (writeReports format sidecar bs files).2 = .ok reported) ↔
    sidecar = [] ∨ ∃ p, files.Admits sidecar p := by
  simp only [writeReports_eq_ok]
  constructor
  · rintro ⟨⟨total, after, lines⟩, -, hsaves⟩
    cases hsaves with
    | skipped hnone => exact Or.inl hnone
    | saved _ hp => exact Or.inr ⟨_, hp⟩
  · intro h
    by_cases hnone : sidecar = []
    · exact ⟨⟨_, files, []⟩, rfl, .skipped hnone⟩
    · obtain ⟨p, hp⟩ := h.resolve_left hnone
      exact ⟨⟨_, _, _⟩, rfl, .saved hnone hp⟩

/-- The saved log is in its file, whatever was there before, and nothing else has changed. -/
structure HoldsLog (sidecar log : Text) (files after : Files) (p : Path) : Prop where
  place : files.Admits sidecar p
  content : after.content? p = some (Text.Utf8.encode log)
  others : ∀ q, q ≠ p → after.content? q = files.content? q

theorem Saves.holdsLog {log : Text} {after : Files} {lines : List LogLine}
    (h : Saves sidecar log files after lines) (hsome : sidecar ≠ []) :
    ∃ p, HoldsLog sidecar log files after p := by
  cases h with
  | skipped hnone => exact absurd hnone hsome
  | @saved p _ hp =>
    exact ⟨p, hp, Files.content?_put _ _ _, fun q hq => Files.content?_put_of_ne _ _ hq⟩

end CommandLine
end Lockstep
