import Mathlib.Data.List.Nodup
import Lockstep.Proofs.Attempt
import Lockstep.Proofs.Graph.Built
import Lockstep.Proofs.Graph.Drawing
/-!
The drawing of a graph: a cluster for each routine with its nodes, and an arrow for each edge. If a
graph can be drawn at all, this drawing is what is written, and every node is in one cluster.
-/

set_option autoImplicit false

namespace Lockstep

namespace Drawing

def nodeOf (n : FlowNode) : Node := (n.id, n.caption.asText?.getD [])

def arrowOf (e : FlowEdge) : Arrow := (e.source, e.target, e.caption, e.kind)

def clusterOf (g : FlowGraph) (r : Routine) : Cluster :=
  (r.name.asText?.getD [], (g.nodesIn r).map nodeOf)

/-- One cluster for each routine, with its nodes, and one arrow for each edge. -/
def ofGraph (g : FlowGraph) (title : Option Text) : Drawing where
  title := title.filter (!·.isEmpty)
  clusters := g.routines.map (clusterOf g)
  arrows := g.edges.map arrowOf

end Drawing

/-- What is drawn of a graph are texts, and the files of its routines can name something. -/
structure FlowGraph.Drawable (g : FlowGraph) : Prop where
  name : ∀ r ∈ g.routines, ∃ t, r.name = .text t
  file : ∀ r ∈ g.routines, r.file.isScalar = true
  caption : ∀ n ∈ g.nodes, ∃ t, n.caption = .text t

namespace Dot

open Drawing

variable {g : FlowGraph}

/-- Lines, each with its end. -/
def ended (lines : List Text) : Text := lines.flatMap (· ++ ['\n'])

theorem ended_nil : ended [] = [] := rfl

theorem ended_cons (line : Text) (lines : List Text) :
    ended (line :: lines) = line ++ '\n' :: ended lines := by
  simp [ended]

theorem ended_append (lines more : List Text) : ended (lines ++ more) = ended lines ++ ended more :=
  List.flatMap_append

theorem unlines_concat (lines : List Text) (last : Text) :
    Text.unlines (lines ++ [last]) = ended lines ++ last := by
  induction lines with
  | nil => rfl
  | cons line lines ih =>
    rw [ended_cons, List.append_assoc, List.cons_append, List.cons_append, ← ih]
    cases lines <;> simp [Text.unlines, Text.join]

theorem textOf_eq_ok {v : Json} {t : Text} : textOf v = .ok t ↔ v = .text t := by
  cases v <;> simp [textOf, Json.asText?]

theorem nodeLine_eq_ok {n : FlowNode} {line : Text} (h : nodeLine n = .ok line) :
    (∃ t, n.caption = .text t) ∧ ended [line] = nodeText (nodeOf n) := by
  simp only [nodeLine, bind_eq_ok, textOf_eq_ok] at h
  obtain ⟨t, ht, hline⟩ := h
  obtain rfl := Except.ok.inj hline
  refine ⟨⟨t, ht⟩, ?_⟩
  have hcaption : n.caption.asText?.getD [] = t := by rw [ht]; rfl
  unfold nodeText nodeOf lineEnd
  simp only [ended_cons, ended_nil, hcaption, List.append_assoc]

theorem nodeLines_eq_ok {ns : List FlowNode} {body : List Text} (i : Nat)
    (h : ns.mapM nodeLine = .ok body) :
    (∀ n ∈ ns, ∃ t, n.caption = .text t) ∧
      ended body = writeAll (fun _ => nodeText) i (ns.map nodeOf) := by
  induction ns generalizing body i with
  | nil =>
    obtain rfl : [] = body := Except.ok.inj h
    exact ⟨by simp, rfl⟩
  | cons n ns ih =>
    rw [List.mapM_cons] at h
    simp only [bind_eq_ok] at h
    obtain ⟨line, hline, lines, hlines, hbody⟩ := h
    obtain rfl : line :: lines = body := Except.ok.inj hbody
    obtain ⟨hn, htext⟩ := nodeLine_eq_ok hline
    obtain ⟨hns, htexts⟩ := ih (i + 1) hlines
    refine ⟨List.forall_mem_cons.mpr ⟨hn, hns⟩, ?_⟩
    rw [List.map_cons, writeAll, ← htexts, ← htext, ← ended_append, List.singleton_append]

theorem exists_nodeLines {ns : List FlowNode} (h : ∀ n ∈ ns, ∃ t, n.caption = .text t) :
    ∃ body, ns.mapM nodeLine = .ok body := by
  induction ns with
  | nil => exact ⟨[], rfl⟩
  | cons n ns ih =>
    obtain ⟨⟨t, ht⟩, hns⟩ := List.forall_mem_cons.mp h
    obtain ⟨body, hbody⟩ := ih hns
    have hline : ∃ line, nodeLine n = .ok line :=
      ⟨_, bind_eq_ok.mpr ⟨t, textOf_eq_ok.mpr ht, rfl⟩⟩
    obtain ⟨line, hline⟩ := hline
    exact ⟨line :: body, by simp [List.mapM_cons, hline, hbody, bind, Except.bind, pure, Except.pure]⟩

/-- What a routine needs to be drawn in a graph. -/
structure DrawableRoutine (g : FlowGraph) (r : Routine) : Prop where
  name : ∃ t, r.name = .text t
  file : r.file.isScalar = true
  caption : ∀ n ∈ g.nodesIn r, ∃ t, n.caption = .text t

theorem clusterLines_eq_ok {i : Nat} {r : Routine} {ls : List Text}
    (h : clusterLines g i r = .ok ls) :
    DrawableRoutine g r ∧ ended ls = clusterText i (clusterOf g r) := by
  simp only [clusterLines, bind_eq_ok, textOf_eq_ok] at h
  obtain ⟨name, hname, h⟩ := h
  split_ifs at h with hfile
  · cases h
  · obtain ⟨body, hbody, hls⟩ := bind_eq_ok.mp h
    obtain rfl := Except.ok.inj hls
    obtain ⟨hcaption, htext⟩ := nodeLines_eq_ok 0 hbody
    refine ⟨⟨⟨name, hname⟩, by simpa using hfile, hcaption⟩, ?_⟩
    have hlabel : r.name.asText?.getD [] = name := by rw [hname]; rfl
    unfold clusterText clusterOf clusterLead clusterEnd
    simp only [ended_append, ended_cons, ended_nil, htext, hlabel, List.append_assoc,
      List.cons_append, List.nil_append]

theorem exists_clusterLines {r : Routine} (i : Nat) (h : DrawableRoutine g r) :
    ∃ ls, clusterLines g i r = .ok ls := by
  obtain ⟨name, hname⟩ := h.name
  obtain ⟨body, hbody⟩ := exists_nodeLines h.caption
  unfold clusterLines
  rw [textOf_eq_ok.mpr hname, h.file, hbody]
  exact ⟨_, rfl⟩

theorem clusters_eq_ok {rs : List Routine} {i : Nat} {ls : List Text}
    (h : clusters g i rs = .ok ls) :
    (∀ r ∈ rs, DrawableRoutine g r) ∧
      ended ls = writeAll clusterText i (rs.map (clusterOf g)) := by
  induction rs generalizing i ls with
  | nil =>
    obtain rfl : [] = ls := Except.ok.inj h
    exact ⟨by simp, rfl⟩
  | cons r rs ih =>
    simp only [clusters, bind_eq_ok] at h
    obtain ⟨first, hfirst, more, hmore, hls⟩ := h
    obtain rfl : first ++ more = ls := Except.ok.inj hls
    obtain ⟨hr, htext⟩ := clusterLines_eq_ok hfirst
    obtain ⟨hrs, htexts⟩ := ih hmore
    refine ⟨List.forall_mem_cons.mpr ⟨hr, hrs⟩, ?_⟩
    rw [List.map_cons, writeAll, ended_append, htext, htexts]

theorem exists_clusters {rs : List Routine} (i : Nat) (h : ∀ r ∈ rs, DrawableRoutine g r) :
    ∃ ls, clusters g i rs = .ok ls := by
  induction rs generalizing i with
  | nil => exact ⟨[], rfl⟩
  | cons r rs ih =>
    obtain ⟨hr, hrs⟩ := List.forall_mem_cons.mp h
    obtain ⟨first, hfirst⟩ := exists_clusterLines i hr
    obtain ⟨more, hmore⟩ := ih (i + 1) hrs
    exact ⟨first ++ more, by simp [clusters, hfirst, hmore, bind, Except.bind, pure, Except.pure]⟩

theorem ended_edgeLines (es : List FlowEdge) (i : Nat) :
    ended (es.map edgeLine) = writeAll (fun _ => arrowText) i (es.map arrowOf) := by
  induction es generalizing i with
  | nil => rfl
  | cons e es ih =>
    rw [List.map_cons, List.map_cons, writeAll, ended_cons, ih (i + 1)]
    unfold arrowText arrowOf edgeLine lineEnd
    simp only [List.append_assoc, List.cons_append, List.nil_append]

theorem ended_titleLines (title : Option Text) :
    ended (titleLines title) = titleText (title.filter (!·.isEmpty)) := by
  match title with
  | none => rfl
  | some [] => rfl
  | some (c :: t) =>
    have hlines : titleLines (some (c :: t)) = ["  label=".toList ++ quote (c :: t) ++ [';']] := rfl
    rw [hlines, Option.filter_some_pos rfl]
    unfold titleText
    simp only [ended_cons, ended_nil, List.append_assoc, List.cons_append, List.nil_append]

theorem render_eq_ok {title : Option Text} {text : Text} (h : render g title = .ok text) :
    (∀ r ∈ g.routines, DrawableRoutine g r) ∧ text = (ofGraph g title).write := by
  obtain ⟨body, hbody, htext⟩ := bind_eq_ok.mp h
  obtain rfl := Except.ok.inj htext
  obtain ⟨hroutines, hclusters⟩ := clusters_eq_ok hbody
  refine ⟨hroutines, ?_⟩
  rw [unlines_concat]
  unfold write ofGraph header defaults
  simp only [ended_append, ended_cons, ended_titleLines, ended_edgeLines _ 0, hclusters,
    List.append_assoc, List.cons_append, List.nil_append]

theorem exists_render (title : Option Text) (h : ∀ r ∈ g.routines, DrawableRoutine g r) :
    ∃ text, render g title = .ok text := by
  obtain ⟨body, hbody⟩ := exists_clusters 0 h
  exact ⟨_, bind_eq_ok.mpr ⟨body, hbody, rfl⟩⟩

theorem drawable_iff (hg : g.Valid) : (∀ r ∈ g.routines, DrawableRoutine g r) ↔ g.Drawable := by
  constructor
  · intro h
    refine ⟨fun r hr => (h r hr).name, fun r hr => (h r hr).file, fun n hn => ?_⟩
    exact (h _ (hg.routine_mem n hn)).caption n (by simp [FlowGraph.nodesIn, hn])
  · intro h r hr
    exact ⟨h.name r hr, h.file r hr, fun n hn => h.caption n (List.mem_of_mem_filter hn)⟩

/-- A graph can be drawn just if what is drawn of it are texts and its files can name something. -/
theorem render_iff_drawable (hg : g.Valid) (title : Option Text) :
    (∃ text, render g title = .ok text) ↔ g.Drawable := by
  rw [← drawable_iff hg]
  exact ⟨fun ⟨_, h⟩ => (render_eq_ok h).1, exists_render title⟩

end Dot

/-- Every node is in the one cluster of its routine. -/
theorem FlowGraph.Valid.perm_nodesIn {g : FlowGraph} (hg : g.Valid) :
    (g.routines.flatMap g.nodesIn).Perm g.nodes := by
  have hnodes : g.nodes.Nodup := .of_map _ hg.ids
  have hroutines : g.routines.Nodup := .of_map _ hg.names
  have hclusters : (g.routines.flatMap g.nodesIn).Nodup := by
    refine List.nodup_flatMap.mpr ⟨fun r _ => hnodes.filter _, hroutines.imp fun hne n hr hs => hne ?_⟩
    simp only [nodesIn, List.mem_filter, beq_iff_eq] at hr hs
    exact hr.2.symm.trans hs.2
  refine (List.perm_ext_iff_of_nodup hclusters hnodes).mpr fun n => ?_
  simp only [nodesIn, List.mem_flatMap, List.mem_filter, beq_iff_eq]
  constructor
  · rintro ⟨r, -, hn, -⟩
    exact hn
  · intro hn
    exact ⟨n.routine, hg.routine_mem n hn, hn, rfl⟩

/-- The text of a graph that can be drawn is one drawing, of which every node is in one cluster, and
it is read back as the graph was drawn just if none of its texts ends in a backslash. -/
theorem Dot.render_lossless {g : FlowGraph} (hg : g.Built) (hdraw : g.Drawable)
    (title : Option Text) :
    ∃ text, render g title = .ok text ∧
      (Drawing.read text = some (.ofGraph g title) ↔
        ∀ t ∈ (Drawing.ofGraph g title).texts, Drawing.Closes t) ∧
      ((Drawing.ofGraph g title).clusters.flatMap (·.2)).Perm (g.nodes.map Drawing.nodeOf) := by
  obtain ⟨text, htext⟩ := (render_iff_drawable hg.valid title).mpr hdraw
  refine ⟨text, htext, ?_, ?_⟩
  · rw [(render_eq_ok htext).2]
    exact Drawing.read_write _
  · have hperm := hg.valid.perm_nodesIn.map Drawing.nodeOf
    simpa [Drawing.ofGraph, Drawing.clusterOf, List.flatMap_map, List.map_flatMap] using hperm

theorem FlowGraph.drawable_sample : sample.Drawable := by
  refine ⟨?_, by decide, ?_⟩ <;> simp [sample, FlowNode.caption, Json.orElse, Json.holds]

theorem Dot.render_lossless_sample :
    let title : Option Text := some "say \"hi\"".toList
    FlowGraph.sample.Built ∧ FlowGraph.sample.Drawable ∧
      ∃ text, render .sample title = .ok text ∧
        Drawing.read text = some (.ofGraph .sample title) := by
  intro title
  obtain ⟨text, htext, hread, -⟩ :=
    render_lossless FlowGraph.built_sample FlowGraph.drawable_sample title
  exact ⟨FlowGraph.built_sample, FlowGraph.drawable_sample, text, htext, hread.mpr (by decide)⟩

/-- The string of an identifier that ends in a backslash does not end behind it. -/
theorem Dot.render_backslash :
    let r : Routine := { name := .text ['f'] }
    let g : FlowGraph := { routines := [r], nodes := [{ id := ['a', '\\'], routine := r }], edges := [] }
    g.Built ∧ g.Drawable ∧
      ¬ ∃ text, render g none = .ok text ∧ Drawing.read text = some (.ofGraph g none) := by
  intro r g
  have hbuilt : g.Built := by
    have h : FlowGraph.assemble g.nodes g.edges = .ok g := rfl
    exact FlowGraph.built_of_assemble h
  refine ⟨hbuilt, ⟨by simp [g, r], by decide, ?_⟩, ?_⟩
  · simp [g, FlowNode.caption, Json.orElse, Json.holds]
  · rintro ⟨text, htext, hread⟩
    rw [(render_eq_ok htext).2, Drawing.read_write] at hread
    exact absurd hread (by decide)

end Lockstep
