import Mathlib.Data.List.Basic
import Mathlib.Tactic.SplitIfs
import Lockstep.Graph.Dot
/-!
Drawings, as they are written and as they are read from their text. A quoted string ends at the first
double quote without a backslash before it, so a text that ends in a backslash does not end where it
was meant to. All others are read back as they were written, and so is the whole drawing.
-/

set_option autoImplicit false

namespace Lockstep

namespace Drawing

/-- A node statement: an identifier and a caption. -/
abbrev Node := Text × Text

/-- A cluster: its label and its nodes. -/
abbrev Cluster := Text × List Node

/-- An edge statement: where it starts and ends, its caption and its kind. -/
abbrev Arrow := Text × Text × Text × EdgeKind

end Drawing

structure Drawing where
  title : Option Text
  clusters : List Drawing.Cluster
  arrows : List Drawing.Arrow

namespace Drawing

/-! ### Readers -/

/-- A reader takes something from the front of a text and leaves what follows. -/
abbrev Reader (α : Type) := Text → Option (α × Text)

section

variable {α β : Type}

def after (lead : Text) (r : Reader α) : Reader α := fun cs => (Text.dropLead? lead cs).bind r

def before (tail : Text) (r : Reader α) : Reader α := fun cs =>
  (r cs).bind fun (a, cs) => (Text.dropLead? tail cs).map fun cs => (a, cs)

def both (r : Reader α) (s : Reader β) : Reader (α × β) := fun cs =>
  (r cs).bind fun (a, cs) => (s cs).map fun (b, cs) => ((a, b), cs)

def optional (r : Reader α) : Reader (Option α) := fun cs =>
  match r cs with
  | some (a, rest) => some (some a, rest)
  | none => some (none, cs)

/-- As many as there are, one after another, numbered from `i` on. -/
def many (r : Nat → Reader α) (i : Nat) (cs : Text) : Option (List α × Text) :=
  match r i cs with
  | none => some ([], cs)
  | some (a, rest) =>
    if rest.length < cs.length then
      (many r (i + 1) rest).map fun (as, rest) => (a :: as, rest)
    else some ([], cs)
termination_by cs.length

end

def quoted : Reader Text := after ['"'] Dot.unescape

/-- What ends the line of a node or an edge. -/
def lineEnd : Text := "];".toList ++ ['\n']

def node : Reader Node :=
  after "    ".toList (both quoted (after " [label=".toList (before lineEnd quoted)))

def clusterLead (i : Nat) : Text :=
  "  subgraph cluster_".toList ++ Text.ofNat i ++ " \x7b".toList ++ '\n' :: "    label=".toList

def clusterEnd : Text := "  \x7d".toList ++ ['\n']

def cluster (i : Nat) : Reader Cluster :=
  after (clusterLead i) (both quoted (after [';', '\n'] (before clusterEnd (many (fun _ => node) 0))))

/-- The way of drawing that an edge of a kind has. -/
def style : Reader EdgeKind := fun cs =>
  EdgeKind.all.findSome? fun k =>
    (Text.dropLead? (Dot.edgeStyle k ++ lineEnd) cs).map fun rest => (k, rest)

def arrow : Reader Arrow :=
  after "  ".toList (both quoted (after " -> ".toList (both quoted (after " [label=".toList
    (both quoted style)))))

def titleReader : Reader Text := after "  label=".toList (before [';', '\n'] quoted)

def header : Text :=
  "digraph FlowGraph \x7b".toList ++ '\n' :: "  rankdir=TB;".toList ++ ['\n']

def defaults : Text :=
  "  node [shape=box, fontname=\"Helvetica\", fontsize=10];".toList ++ ['\n']

def whole : Reader (Option Text × List Cluster × List Arrow) :=
  after header (both (optional titleReader) (after defaults (both (many cluster 0)
    (before ['\x7d'] (many (fun _ => arrow) 0)))))

/-- The drawing that a text is, if it is one and nothing else. -/
def read (text : Text) : Option Drawing :=
  match whole text with
  | some ((title, clusters, arrows), []) => some { title, clusters, arrows }
  | _ => none

/-! ### Strings -/

/-- A text whose quoted string ends where it should. -/
def Closes (t : Text) : Prop := t.getLast? ≠ some '\\'

instance (t : Text) : Decidable (Closes t) := inferInstanceAs (Decidable (_ ≠ _))

theorem closes_cons {c : Char} {t : Text} (h : c = '\\' → t ≠ []) : Closes (c :: t) ↔ Closes t := by
  cases t with
  | nil =>
    have hc : c ≠ '\\' := fun hc => h hc rfl
    simp [Closes, hc]
  | cons d t => simp [Closes, List.getLast?_cons_cons]

theorem unescape_cons {c : Char} {cs : Text} (hc : c ≠ '"') (h : c = '\\' → cs.head? ≠ some '"') :
    Dot.unescape (c :: cs) = (Dot.unescape cs).map fun r => (c :: r.1, r.2) := by
  rw [Dot.unescape]
  · exact hc
  · rintro ds rfl rfl
    exact h rfl rfl

theorem head?_escape {t : Text} (ht : t ≠ []) (rest : Text) :
    (Dot.escape t ++ rest).head? ≠ some '"' := by
  cases t with
  | nil => exact absurd rfl ht
  | cons c t =>
    unfold Dot.escape Text.replaceChar
    split_ifs with hc <;> simp [hc]

theorem unescape_escape (t rest rest' : Text) :
    Dot.unescape (Dot.escape t ++ '"' :: rest) = some (t, rest') ↔ Closes t ∧ rest' = rest := by
  induction t with
  | nil => simp [Dot.escape, Text.replaceChar, Dot.unescape, Closes, eq_comm]
  | cons c t ih =>
    by_cases hquote : c = '"'
    · subst hquote
      rw [closes_cons (by simp), ← ih]
      simp [Dot.escape, Text.replaceChar, Dot.unescape]
    · have hescape : Dot.escape (c :: t) = c :: Dot.escape t := by
        simp [Dot.escape, Text.replaceChar, hquote]
      rw [hescape, List.cons_append]
      -- behind the last character comes the closing quote; a quote in the text has its own backslash
      by_cases hlast : c = '\\' ∧ t = []
      · obtain ⟨rfl, rfl⟩ := hlast
        simp [Dot.escape, Text.replaceChar, Dot.unescape, Closes]
      · have hmore : c = '\\' → t ≠ [] := fun hc ht => hlast ⟨hc, ht⟩
        rw [closes_cons hmore, ← ih, unescape_cons hquote fun hc => head?_escape (hmore hc) _]
        simp

/-! ### What is read of what is written -/

section

variable {α β : Type} {r : Reader α} {p q rest : Text} {a : α} {b : β} {ts us : List Text}

/-- Before a rest, the reader reads what is written for a value as that value and leaves the rest,
just if some texts close. -/
def Reads (r : Reader α) (written : Text) (a : α) (ts : List Text) (rest : Text) : Prop :=
  ∀ rest', r (written ++ rest) = some (a, rest') ↔ (∀ t ∈ ts, Closes t) ∧ rest' = rest

theorem Reads.quoted (t : Text) : Reads quoted (Dot.quote t) t [t] rest := by
  intro rest'
  have hquote : Dot.quote t ++ rest = ['"'] ++ (Dot.escape t ++ '"' :: rest) := by
    simp [Dot.quote]
  rw [hquote, Drawing.quoted, after, Text.dropLead?_append, Option.bind_some, unescape_escape]
  simp

theorem Reads.after {lead : Text} (h : Reads r p a ts rest) :
    Reads (after lead r) (lead ++ p) a ts rest := by
  intro rest'
  rw [List.append_assoc, Drawing.after, Text.dropLead?_append, Option.bind_some, h rest']

theorem Reads.before {tail : Text} (h : Reads r p a ts (tail ++ rest)) :
    Reads (before tail r) (p ++ tail) a ts rest := by
  intro rest'
  rw [List.append_assoc, Drawing.before, Option.bind_eq_some_iff]
  constructor
  · rintro ⟨⟨a', cs⟩, hr, htail⟩
    obtain ⟨cs', hdrop, heq⟩ := Option.map_eq_some_iff.mp htail
    obtain ⟨rfl, rfl⟩ := Prod.mk.inj heq
    obtain ⟨hts, rfl⟩ := (h cs).mp hr
    rw [Text.dropLead?_append] at hdrop
    exact ⟨hts, (Option.some.inj hdrop).symm⟩
  · rintro ⟨hts, rfl⟩
    exact ⟨_, (h _).mpr ⟨hts, rfl⟩, by simp [Text.dropLead?_append]⟩

theorem Reads.both {s : Reader β} (hr : Reads r p a ts (q ++ rest)) (hs : Reads s q b us rest) :
    Reads (both r s) (p ++ q) (a, b) (ts ++ us) rest := by
  intro rest'
  rw [List.append_assoc, Drawing.both, Option.bind_eq_some_iff]
  constructor
  · rintro ⟨⟨a', cs⟩, hfirst, hsecond⟩
    obtain ⟨⟨b', cs'⟩, hread, heq⟩ := Option.map_eq_some_iff.mp hsecond
    obtain ⟨hab, rfl⟩ := Prod.mk.inj heq
    obtain ⟨rfl, rfl⟩ := Prod.mk.inj hab
    obtain ⟨hts, rfl⟩ := (hr cs).mp hfirst
    obtain ⟨hus, rfl⟩ := (hs cs').mp hread
    exact ⟨List.forall_mem_append.mpr ⟨hts, hus⟩, rfl⟩
  · rintro ⟨hclose, rfl⟩
    obtain ⟨hts, hus⟩ := List.forall_mem_append.mp hclose
    exact ⟨_, (hr _).mpr ⟨hts, rfl⟩, by simp [(hs _).mpr ⟨hus, rfl⟩]⟩

theorem Reads.some (h : Reads r p a ts rest) : Reads (optional r) p (Option.some a) ts rest := by
  intro rest'
  rw [← h rest', optional]
  split <;> simp [*]

theorem Reads.none (h : r rest = .none) : Reads (optional r) [] .none [] rest := by
  intro rest'
  simp [optional, h, eq_comm]

/-- What is written for one value after another, numbered from `i` on. -/
def writeAll (write : Nat → α → Text) : Nat → List α → Text
  | _, [] => []
  | i, a :: as => write i a ++ writeAll write (i + 1) as

theorem Reads.many {r : Nat → Reader α} {write : Nat → α → Text} {texts : α → List Text}
    (hread : ∀ i a rest, Reads (r i) (write i a) a (texts a) rest) (hwrite : ∀ i a, write i a ≠ [])
    (hstop : ∀ i, r i rest = .none) (i : Nat) (as : List α) :
    Reads (many r i) (writeAll write i as) as (as.flatMap texts) rest := by
  induction as generalizing i with
  | nil =>
    intro rest'
    rw [writeAll, List.nil_append, Drawing.many, hstop]
    simp [eq_comm]
  | cons a as ih =>
    intro rest'
    rw [writeAll, List.append_assoc, Drawing.many]
    have hshort : (writeAll write (i + 1) as ++ rest).length <
        (write i a ++ (writeAll write (i + 1) as ++ rest)).length := by
      have := List.length_pos_of_ne_nil (hwrite i a)
      simp only [List.length_append]
      omega
    constructor
    · intro h
      split at h
      · cases h
      · rename_i a' cs ha
        split_ifs at h
        · obtain ⟨⟨as', cs'⟩, has, heq⟩ := Option.map_eq_some_iff.mp h
          obtain ⟨hcons, rfl⟩ := Prod.mk.inj heq
          obtain ⟨rfl, rfl⟩ := List.cons.inj hcons
          obtain ⟨hts, rfl⟩ := (hread i _ _ cs).mp ha
          obtain ⟨hus, rfl⟩ := (ih (i + 1) cs').mp has
          exact ⟨by simpa [or_imp, forall_and] using ⟨hts, by simpa using hus⟩, rfl⟩
        · cases h
    · rintro ⟨hclose, rfl⟩
      rw [List.flatMap_cons] at hclose
      obtain ⟨hts, hus⟩ := List.forall_mem_append.mp hclose
      rw [(hread i a _ _).mpr ⟨hts, rfl⟩]
      simp only [if_pos hshort, (ih (i + 1) _).mpr ⟨hus, rfl⟩, Option.map_some]

end

/-! ### The text of a drawing -/

def nodeText (n : Node) : Text :=
  "    ".toList ++ (Dot.quote n.1 ++ (" [label=".toList ++ (Dot.quote n.2 ++ lineEnd)))

def clusterText (i : Nat) (c : Cluster) : Text :=
  clusterLead i ++ (Dot.quote c.1 ++ ([';', '\n'] ++
    (writeAll (fun _ => nodeText) 0 c.2 ++ clusterEnd)))

def arrowText (a : Arrow) : Text :=
  "  ".toList ++ (Dot.quote a.1 ++ (" -> ".toList ++ (Dot.quote a.2.1 ++ (" [label=".toList ++
    (Dot.quote a.2.2.1 ++ (Dot.edgeStyle a.2.2.2 ++ lineEnd))))))

def titleText : Option Text → Text
  | none => []
  | some t => "  label=".toList ++ (Dot.quote t ++ [';', '\n'])

def write (d : Drawing) : Text :=
  header ++ (titleText d.title ++ (defaults ++ (writeAll clusterText 0 d.clusters ++
    (writeAll (fun _ => arrowText) 0 d.arrows ++ ['\x7d']))))

/-- The texts of a drawing, in the order in which they are written. -/
def texts (d : Drawing) : List Text :=
  d.title.toList ++
  (d.clusters.flatMap (fun c => c.1 :: c.2.flatMap fun n => [n.1, n.2]) ++
    d.arrows.flatMap fun a => [a.1, a.2.1, a.2.2.1])

variable {rest : Text}

theorem reads_node (n : Node) (rest : Text) : Reads node (nodeText n) n [n.1, n.2] rest :=
  (Reads.both (.quoted n.1) (Reads.quoted n.2).before.after).after

theorem reads_cluster (i : Nat) (c : Cluster) (rest : Text) :
    Reads (cluster i) (clusterText i c) c (c.1 :: c.2.flatMap fun n => [n.1, n.2]) rest := by
  have hnodes : Reads (many (fun _ => node) 0) (writeAll (fun _ => nodeText) 0 c.2) c.2
      (c.2.flatMap fun n => [n.1, n.2]) (clusterEnd ++ rest) :=
    .many (fun _ => reads_node) (fun _ _ => List.cons_ne_nil _ _) (fun _ => rfl) 0 c.2
  exact (Reads.both (.quoted c.1) hnodes.before.after).after

theorem reads_style (k : EdgeKind) (rest : Text) :
    Reads style (Dot.edgeStyle k ++ lineEnd) k [] rest := by
  intro rest'
  have hstyle : style (Dot.edgeStyle k ++ lineEnd ++ rest) = some (k, rest) := by
    cases k <;> rfl
  rw [hstyle]
  simp [eq_comm]

theorem reads_arrow (a : Arrow) (rest : Text) :
    Reads arrow (arrowText a) a [a.1, a.2.1, a.2.2.1] rest :=
  (Reads.both (.quoted a.1) (Reads.both (.quoted a.2.1)
    (Reads.both (.quoted a.2.2.1) (reads_style a.2.2.2 rest)).after).after).after

theorem reads_title (title : Option Text) :
    Reads (optional titleReader) (titleText title) title title.toList (defaults ++ rest) := by
  cases title with
  | none => exact .none rfl
  | some t => exact (Reads.quoted t).before.after.some

theorem cluster_stops (i : Nat) (as : List Arrow) :
    cluster i (writeAll (fun _ => arrowText) 0 as ++ ['\x7d']) = none := by
  cases as <;> rfl

theorem reads_whole (d : Drawing) :
    Reads whole d.write (d.title, d.clusters, d.arrows) d.texts [] := by
  have harrows : Reads (many (fun _ => arrow) 0) (writeAll (fun _ => arrowText) 0 d.arrows) d.arrows
      (d.arrows.flatMap fun a => [a.1, a.2.1, a.2.2.1]) (['\x7d'] ++ []) :=
    .many (fun _ => reads_arrow) (fun _ _ => List.cons_ne_nil _ _) (fun _ => rfl) 0 d.arrows
  have hclusters : Reads (many cluster 0) (writeAll clusterText 0 d.clusters) d.clusters
      (d.clusters.flatMap fun c => c.1 :: c.2.flatMap fun n => [n.1, n.2])
      (writeAll (fun _ => arrowText) 0 d.arrows ++ ['\x7d'] ++ []) := by
    rw [List.append_nil]
    exact .many reads_cluster (fun _ _ => List.cons_ne_nil _ _) (fun i => cluster_stops i _) 0 _
  refine (Reads.both ?_ (Reads.both hclusters harrows.before).after).after
  rw [List.append_assoc]
  exact reads_title d.title

/-- A drawing is read back from its text just if no text of it ends in a backslash. -/
theorem read_write (d : Drawing) : read d.write = some d ↔ ∀ t ∈ d.texts, Closes t := by
  have hwhole := reads_whole d []
  rw [List.append_nil] at hwhole
  rw [read]
  constructor
  · intro h
    split at h
    · rename_i title clusters arrows heq
      obtain rfl := Option.some.inj h
      exact (hwhole.mp heq).1
    · cases h
  · intro h
    rw [hwhole.mpr ⟨h, rfl⟩]

end Drawing
end Lockstep
