import PromptCanvas.Proofs.Import.Thoughts
import PromptCanvas.Proofs.Workspace.Drawing

/-! # Generating and drawing, or importing

A text that a model replies with and a text that is imported come to the same
(`generate_agrees`): the graph that is generated and then drawn shows the canvas that
importing the text shows, up to the identifiers of list items, and if the import is
rejected the generation fails with the same message. -/

set_option autoImplicit false

namespace PromptCanvas

namespace Reply

section Answers

theorem answer_text {v : Value} {text : String} (given : v.field "text" = .text text)
    (alone : (v.field "candidates").isPresent = false) : answer v = .text text := by
  have whole : (Value.text text).orElse (.text "") = .text text := by
    by_cases blank : text = ""
    · rw [blank]
      rfl
    · simp [Value.orElse, Value.isPresent, blank]
  simp [answer, given, Value.items?, alone, findInCandidates, whole]

end Answers

end Reply

namespace Generation

section Answers

variable {text : String} {c : Json}

/-- A text with a graph is read as a generated answer as it is read when it is imported. -/
theorem readAnswer_text (graph : Import.jsonGraph text.toList = .ok (some c)) :
    readAnswer (.text text) = (Graph.read c).mapError .rejected := by
  have extracted := ((Import.jsonGraph_eq_some_iff text.toList).mp graph).1
  have present : (Reply.Value.text text).isPresent = true := by
    have nonempty : text ≠ "" := by
      rintro rfl
      cases extracted
    simpa [Reply.Value.isPresent] using nonempty
  have found : documentOf (.text text) = .ok (Document.withoutThoughts c) := by
    rw [documentOf, Document.extract_true, extracted]
    rfl
  simp only [readAnswer, present, found, Graph.read_withoutThoughts]
  cases Graph.read c <;> rfl

theorem run_reply {service : Service} {request : Request} {v : Reply.Value}
    (keyed : effectiveKey service request ≠ "") (prompted : Text.trimmed request.prompt ≠ "") :
    (run service request none (.reply v)).result = readAnswer (Reply.answer v) := by
  simp [run, keyed, prompted, conclude]

end Answers

end Generation

namespace Studio

open Workspace (Session)

section Generating

variable {s : Studio} {name : String} {request : Generation.Request}
  {response : Generation.Response}

theorem conditions_generate :
    (s.generate name request response).2.conditions = s.conditions := by
  rw [generate_eq, conditions_conclude]
  rfl

theorem begin_serves (serves : s.conditions.Serves) (name : String) :
    ∃ session : Session, (s.begin name).1 = .ok session.supersede.generation ∧
      (s.begin name).2.session? name = some session.supersede := by
  obtain ⟨session, opens⟩ := Workspace.exists_open? serves (s.workspace name) s.ids
  refine ⟨session, ?_⟩
  rcases Workspace.begin_cases (s.workspace name) s.conditions s.ids with
    ⟨e, failed⟩ | ⟨opened, same, ends⟩
  · have begun := congrArg Workspace.Step.result failed
    rw [Workspace.begin] at begun
    split at begun
    · next refused =>
        rw [refused] at opens
        cases opens
    · cases begun
  · rw [opens] at same
    cases same
    rw [begin, ends]
    refine ⟨rfl, ?_⟩
    rw [Studio.session?, session?_leave, if_pos rfl]
    exact (Workspace.session?_putSession _ _ _ _).trans (if_pos rfl)

/-- A call is answered with what becomes of it, and the session holds its graph. -/
theorem generate_serves (serves : s.conditions.Serves) (name : String)
    (request : Generation.Request) (response : Generation.Response) :
    (s.generate name request response).1 = (s.outcome request response).mapError .generation ∧
      ∀ g, s.outcome request response = .ok g → ∃ session : Session,
        (s.generate name request response).2.session? name = some session ∧
          session.pending = some g := by
  obtain ⟨session, begun, shown⟩ := begin_serves serves name
  constructor
  · rw [generate_answer, begun]
  · intro g ends
    have moved := session?_conclude (w := (s.wait name request response).1) begun shown name
      s.conditions.epoch
    have outcome : (s.begin name).2.outcome (s.wait name request response).1.request
        (s.wait name request response).1.response = .ok g := ends
    rw [if_pos ⟨rfl, rfl⟩, outcome, Session.settle, if_pos rfl] at moved
    refine ⟨{ session.supersede with pending := some g }, ?_, rfl⟩
    rw [Studio.session?, conditions_generate]
    exact moved

end Generating

section Agreement

variable {text : String} {c : Json}

/-- What the model replies is drawn as what is imported is, or refused for one reason. -/
theorem generate_agrees (graph : Import.jsonGraph text.toList = .ok (some c)) {s : Studio}
    (serves : s.conditions.Serves) (name : String) {request : Generation.Request}
    (keyed : Generation.effectiveKey s.service request ≠ "")
    (prompted : Text.trimmed request.prompt ≠ "") {v : Reply.Value}
    (given : v.field "text" = .text text)
    (alone : (v.field "candidates").isPresent = false) :
    (∀ failure, (s.perform name (.importText text true)).1 = .error failure →
      ∃ reason, failure = .invalidFlow reason ∧
        (s.generate name request (.reply v)).1 = .error (.generation (.rejected reason)) ∧
          (Workspace.Failure.generation (.rejected reason)).message = failure.message) ∧
    (∀ answer, (s.perform name (.importText text true)).1 = .ok answer →
      ∃ g, (s.generate name request (.reply v)).1 = .ok g ∧
        ∃ drawn imported : Session,
          ((s.generate name request (.reply v)).2.perform name (.draw true)).1 =
            .ok (.canvas drawn.canvas) ∧
          ((s.generate name request (.reply v)).2.perform name (.draw true)).2.session? name =
            some drawn ∧
          (s.perform name (.importText text true)).2.session? name = some imported ∧
          drawn.canvas.anonymous = imported.canvas.anonymous) ∧
    ∀ j, Graph.reason? (Document.withoutThoughts j) = Graph.reason? j ∧
      Graph.ensure (Document.withoutThoughts j) = Graph.ensure j := by
  have imported := Workspace.graphOfText_of_jsonGraph graph
  have ends : s.outcome request (.reply v) = (Graph.read c).mapError .rejected := by
    rw [outcome, Generation.run_reply keyed prompted, Reply.answer_text given alone,
      Generation.readAnswer_text graph]
  obtain ⟨answered, held⟩ := generate_serves serves name request (.reply v)
  refine ⟨?_, ?_, fun j => ⟨Graph.reason?_withoutThoughts j, Graph.ensure_withoutThoughts j⟩⟩
  · intro failure refused
    cases checked : Graph.read c with
    | error reason =>
        rw [checked] at imported ends
        rw [perform_importText_error imported] at refused
        cases refused
        rw [ends] at answered
        exact ⟨reason, rfl, answered, rfl⟩
    | ok g =>
        rw [checked] at imported
        obtain ⟨session, ids, accepted, -⟩ := draws_importText serves name imported
        rw [accepted] at refused
        cases refused
  · intro answer accepted
    cases checked : Graph.read c with
    | error reason =>
        rw [checked] at imported
        rw [perform_importText_error imported] at accepted
        cases accepted
    | ok g =>
        rw [checked] at imported ends
        obtain ⟨session, shown, pending⟩ := held g ends
        have still : (s.generate name request (.reply v)).2.conditions.Serves := by
          rw [conditions_generate]
          exact serves
        have drawing := draws_draw still shown pending (Graph.valid_of_read checked)
        have importing := draws_importText serves name imported
        obtain ⟨drawn, other, shownDrawn, shownOther, same⟩ := drawing.same importing
        obtain ⟨again, ids, result, shownAgain, -⟩ := drawing
        rw [shownDrawn] at shownAgain
        cases shownAgain
        rw [ends] at answered
        exact ⟨g, answered, drawn, other, result, shownDrawn, shownOther, same⟩

def thoughtful : Json :=
  .object
    [("nodes", .array [.object
        [("id", .string "a"), ("role", .string "user"), ("label", .string "A"),
          ("thought", .object [("text", .string "hm")]), ("content", .string "Hi")]]),
      ("edges", .array [])]

theorem generate_agrees_thoughtful :
    ∃ g, ((start .memory ⟨"key", ""⟩).generate "w" ⟨"Greet.", none⟩
      (.reply (.record [("text", .text (thoughtful.render .line))]))).1 = .ok g := by
  have distinct : thoughtful.Rereadable := by
    refine ⟨by decide, ⟨⟨by decide, ?_⟩, trivial⟩, trivial, trivial⟩
    exact ⟨trivial, trivial, trivial, ⟨by decide, trivial, trivial⟩, trivial, trivial⟩
  have loaded : Json.load (thoughtful.render .line).toList = .ok thoughtful :=
    Json.load_render .line distinct
  have graph : Import.jsonGraph (thoughtful.render .line).toList = .ok (some thoughtful) :=
    Import.jsonGraph_of_load loaded ⟨_, rfl⟩ ⟨_, rfl⟩
  have serves : (start .memory ⟨"key", ""⟩).conditions.Serves :=
    ⟨by rintro fault ⟨⟩, by rintro fault ⟨⟩⟩
  have keyed : Generation.effectiveKey (start .memory ⟨"key", ""⟩).service ⟨"Greet.", none⟩ ≠ "" := by
    decide +kernel
  have agrees := generate_agrees graph serves "w" keyed (by decide +kernel)
    (v := .record [("text", .text (thoughtful.render .line))]) rfl rfl
  obtain ⟨g, accepted⟩ := Graph.reason?_eq_none_iff.mp
    (by decide +kernel : Graph.reason? thoughtful = none)
  have imported := Workspace.graphOfText_of_jsonGraph graph
  rw [accepted] at imported
  obtain ⟨session, ids, answer, -⟩ := draws_importText serves "w" imported
  obtain ⟨generated, ends, -⟩ := agrees.2.1 _ answer
  exact ⟨generated, ends⟩

end Agreement

end Studio

end PromptCanvas
