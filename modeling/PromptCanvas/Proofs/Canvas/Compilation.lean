import PromptCanvas.Proofs.Canvas.Anonymous
import PromptCanvas.Proofs.Import.Document
import PromptCanvas.Workspace.Session

/-! # Compiling an exported graph

`Canvas.compile` takes a text to the canvas drawn from it and to its transcript.
The graph of a transcript is valid, and compiling its text gives the same
transcript and the same canvas up to item identifiers
(`compile_render`). -/

set_option autoImplicit false

namespace PromptCanvas

namespace Graph

section Texts

/-- A written graph holds no numbers, so reading its text gives it back as it is. -/
theorem reread_toJson (g : Graph) : g.toJson.reread = g.toJson := by
  have nodes : Json.rereadItems (g.nodes.map Node.toJson) = g.nodes.map Node.toJson :=
    Json.rereadItems_map (fun _ => rfl) g.nodes
  have edges : Json.rereadItems (g.edges.map Edge.toJson) = g.edges.map Edge.toJson :=
    Json.rereadItems_map (fun _ => rfl) g.edges
  simp only [toJson, Json.reread, Json.rereadFields, nodes, edges]

theorem rereadable_toJson (g : Graph) : g.toJson.Rereadable := by
  have node : ∀ n : Node, n.toJson.Rereadable := fun n =>
    ⟨(by decide : ["id", "role", "label", "content"].Nodup), trivial, trivial, trivial, trivial,
      trivial⟩
  have edge : ∀ e : Edge, e.toJson.Rereadable := fun e =>
    ⟨(by decide : ["from", "to"].Nodup), trivial, trivial, trivial⟩
  exact ⟨(by decide : ["nodes", "edges"].Nodup), Json.itemsRereadable_map node g.nodes,
    Json.itemsRereadable_map edge g.edges, trivial⟩

def lineText (g : Graph) : String := g.toJson.render .line

theorem jsonGraph_lineText (g : Graph) :
    Import.jsonGraph g.lineText.toList = .ok (some g.toJson) := by
  have found : Document.extract false g.lineText.toList = .ok (some g.toJson) := by
    rw [lineText, Json.render, String.toList_ofList]
    have extracted : Document.extract false (Json.textAt .line 0 g.toJson) =
        .ok (some g.toJson.reread) := Document.extract_textAt rfl (rereadable_toJson g)
    rw [extracted, reread_toJson]
  rw [Import.jsonGraph, found]
  rfl

theorem trim_lineText (g : Graph) : Text.trim g.lineText.toList = g.lineText.toList := by
  rw [lineText, Json.render, String.toList_ofList]
  have braced : Document.Braced (Json.textAt .line 0 g.toJson) := Document.braced_textAt rfl _
  exact braced.trimmed

theorem read_lineText (g : Graph) : Import.read g.lineText = .ok (some g.toJson) := by
  rw [Import.read, trim_lineText]
  simp only [jsonGraph_lineText]

theorem Valid.graphOfText_lineText {g : Graph} (valid : g.Valid) :
    Workspace.graphOfText g.lineText = .ok g := by
  rw [Workspace.graphOfText, read_lineText]
  simp only [valid.read_toJson]

theorem valid_of_graphOfText {text : String} {g : Graph}
    (ok : Workspace.graphOfText text = .ok g) : g.Valid := by
  unfold Workspace.graphOfText at ok
  split at ok
  · cases ok
  · cases ok
  · split at ok
    · next read =>
        cases ok
        exact valid_of_read read
    · cases ok

end Texts

end Graph

namespace Canvas

section Compiling

def compile (text : String) (ids : IdSupply) : Except Workspace.Failure (Canvas × Transcript) :=
  (Workspace.graphOfText text).map fun g =>
    let c := (g.layOut.complete ids).1
    (c, .of c.nodes c.edges)

theorem anonymous_complete_congr (s : Sketch) (ids others : IdSupply) :
    (s.complete ids).1.anonymous = (s.complete others).1.anonymous :=
  (anonymous_complete s ids).trans (anonymous_complete s others).symm

theorem transcript_complete_congr (s : Sketch) (ids others : IdSupply) :
    Transcript.of (s.complete ids).1.nodes (s.complete ids).1.edges =
      Transcript.of (s.complete others).1.nodes (s.complete others).1.edges := by
  rw [← Transcript.of_anonymous, anonymous_complete_congr s ids others, Transcript.of_anonymous]

theorem graph_complete {s : Sketch} (nonempty : s.nodes ≠ []) (ids : IdSupply) :
    (Transcript.of (s.complete ids).1.nodes (s.complete ids).1.edges).graph = s.exported := by
  have exports := map_exported_completeNodes s.nodes ids
  have some : (s.complete ids).1.nodes ≠ [] := by
    intro none
    rw [Sketch.complete] at none
    dsimp only at none
    rw [none] at exports
    exact nonempty (List.map_eq_nil_iff.mp exports.symm)
  rw [Transcript.of, if_neg (by simpa using some)]
  simp only [Sketch.complete, exports, Sketch.exported]

/-- Compiling is a fixed point on what it exported. -/
theorem compile_render {text : String} {ids others : IdSupply} {c : Canvas} {t : Transcript}
    (compiled : compile text ids = .ok (c, t)) :
    Graph.reason? t.graph.toJson = none ∧
      ∃ c', compile (t.graph.toJson.render .line) others = .ok (c', t) ∧
        c'.anonymous = c.anonymous := by
  obtain ⟨g, read, drawn⟩ : ∃ g, Workspace.graphOfText text = .ok g ∧
      ((g.layOut.complete ids).1, Transcript.of (g.layOut.complete ids).1.nodes
        (g.layOut.complete ids).1.edges) = (c, t) := by
    unfold compile at compiled
    cases read : Workspace.graphOfText text with
    | error e => rw [read] at compiled; cases compiled
    | ok g => rw [read] at compiled; exact ⟨g, rfl, Except.ok.inj compiled⟩
  obtain ⟨rfl, rfl⟩ := Prod.mk.inj drawn
  have valid := Graph.valid_of_graphOfText read
  have again := valid.exported_layOut
  have nonempty : g.layOut.nodes ≠ [] := fun none =>
    again.nonempty (by rw [Canvas.Sketch.exported, none]; rfl)
  have imported := again.graphOfText_lineText
  rw [Graph.lineText] at imported
  rw [graph_complete nonempty ids]
  refine ⟨Graph.reason?_eq_none_iff.mpr ⟨_, again.read_toJson⟩, (g.layOut.complete others).1, ?_,
    anonymous_complete_congr g.layOut others ids⟩
  rw [compile, imported, transcript_complete_congr g.layOut ids others]
  simp only [Except.map, valid.layOut_exported]

theorem compile_render_roleLines :
    ∃ c t, compile "User: Hi\nAssistant: Hello" .start = .ok (c, t) ∧
      Graph.reason? t.graph.toJson = none ∧
        ∃ c', compile (t.graph.toJson.render .line) .start = .ok (c', t) ∧
          c'.anonymous = c.anonymous := by
  have accepted : (compile "User: Hi\nAssistant: Hello" .start).isOk = true := by
    decide +kernel
  cases compiled : compile "User: Hi\nAssistant: Hello" .start with
  | ok r => exact ⟨r.1, r.2, rfl, compile_render compiled⟩
  | error e =>
      rw [compiled] at accepted
      cases accepted

end Compiling

end Canvas

end PromptCanvas
