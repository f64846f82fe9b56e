import PromptCanvas.Proofs.Canvas.Storage
import PromptCanvas.Proofs.Import.Agreement
import PromptCanvas.Proofs.Import.LongIntegers

/-! # Commands answer

A command about a file of text shows its result or gives the reason why the text has none
(`Disk.run_answers`).  A result tells of every node of the graph once (`Transcript.Tells`).
Only a file that holds no text, an integer that is too long, and a console that fails leave a
command without its answer. -/

set_option autoImplicit false

namespace PromptCanvas

namespace Graph

section Drawings

variable {g : Graph}

theorem exported_complete_perm (distinct : g.ids.Nodup) (ids : IdSupply) :
    ((g.layOut.complete ids).1.nodes.map Canvas.Node.exported).Perm
      (g.nodes.map Node.redrawn) := by
  have drawn := nodes_exported_perm distinct
  rwa [Canvas.Sketch.exported, ← Canvas.map_exported_completeNodes g.layOut.nodes ids] at drawn

theorem Valid.nodes_layOut_ne_nil (valid : g.Valid) : g.layOut.nodes ≠ [] := by
  intro none
  refine valid.exported_layOut.nonempty ?_
  rw [Canvas.Sketch.exported, none]
  rfl

end Drawings

end Graph

namespace Transcript

/-- The steps are the nodes of a graph in some order, numbered from one, and the exported graph
has the same nodes and edges. -/
structure Tells (t : Transcript) (g : Graph) : Prop where
  steps : (t.steps.map fun s => (⟨s.id, s.role, s.label, s.content⟩ : Graph.Node)).Perm
    (g.nodes.map Graph.Node.redrawn)
  numbered : t.steps.map Step.step = List.range' 1 g.nodes.length
  nodes : t.graph.nodes.Perm (g.nodes.map Graph.Node.redrawn)
  edges : t.graph.edges = g.edges

section Steps

theorem map_step_stepsFrom (nodes : List Canvas.Node) :
    ∀ k, (stepsFrom k nodes).map Step.step = List.range' k nodes.length := by
  induction nodes with
  | nil => intro k; rfl
  | cons node nodes ih =>
      intro k
      rw [stepsFrom, List.map_cons, ih, List.length_cons, List.range'_succ]

theorem map_exported_stepsFrom (k : Nat) (nodes : List Canvas.Node) :
    (stepsFrom k nodes).map (fun s => (⟨s.id, s.role, s.label, s.content⟩ : Graph.Node)) =
      nodes.map Canvas.Node.exported :=
  map_stepsFrom (fun _ _ => rfl) nodes k

end Steps

section Drawings

variable {g : Graph}

theorem tells_layOut (valid : g.Valid) (ids : IdSupply) :
    (of (g.layOut.complete ids).1.nodes (g.layOut.complete ids).1.edges).Tells g := by
  have drawn := Graph.exported_complete_perm valid.distinct ids
  have count : (g.layOut.complete ids).1.nodes.length = g.nodes.length := by
    simpa using drawn.length_eq
  have walked := Canvas.walk_perm (g.layOut.complete ids).1.nodes (g.layOut.complete ids).1.edges
  have some : (g.layOut.complete ids).1.nodes.isEmpty = false := by
    rw [List.isEmpty_eq_false_iff, ← List.length_pos_iff, count, List.length_pos_iff]
    exact valid.nonempty
  have exports := Canvas.graph_complete valid.nodes_layOut_ne_nil ids
  constructor
  case steps =>
    rw [of, if_neg (by simp [some]), map_exported_stepsFrom]
    exact (walked.map Canvas.Node.exported).trans drawn
  case numbered =>
    rw [of, if_neg (by simp [some]), map_step_stepsFrom, walked.length_eq, count]
  case nodes =>
    rw [exports]
    exact Graph.nodes_exported_perm valid.distinct
  case edges =>
    rw [exports]
    exact Graph.edges_exported g

end Drawings

end Transcript

namespace Terminal

section Answers

variable (text : String)

/-- What a command shows of a text that it can use. -/
inductive Command.Result : Command → List Shown → Prop
  | compiled {path : Path} {asJson : Bool} {g : Graph} {t : Transcript} :
      Workspace.graphOfText text = .ok g → t.Tells g →
        Result (.compile path asJson none) (Report.transcript t asJson)
  | arranged {path : Path} {mode : LayoutMode} {g : Graph} {nodes : List Canvas.Node} :
      Workspace.graphOfText text = .ok g →
      (nodes.map Canvas.Node.exported).Perm (g.nodes.map Graph.Node.redrawn) →
        Result (.layout path mode) [Report.positions mode nodes]
  | validated {path : Path} {c : Json} :
      Json.load text.toList = .ok c → Graph.reason? c = none →
        Result (.validate path) [.line (styled "bold green" "Valid flow.")]

/-- What a command says, after a heading, of a text that it cannot use. -/
inductive Command.Objection : Command → String → String → Prop
  | uncompiled {path : Path} {asJson : Bool} {e : Workspace.Failure} :
      Workspace.graphOfText text = .error e →
        Objection (.compile path asJson none) "Error:" e.message
  | unarranged {path : Path} {mode : LayoutMode} {e : Workspace.Failure} :
      Workspace.graphOfText text = .error e → Objection (.layout path mode) "Error:" e.message
  | unread {path : Path} {fault : Json.Fault} :
      Json.load text.toList = .error fault → Objection (.validate path) "Error:" fault.message
  | invalid {path : Path} {c : Json} {reason : Graph.Reason} :
      Json.load text.toList = .ok c → Graph.reason? c = some reason →
        Objection (.validate path) "Invalid:" reason.message

/-- What a command shows and how it then ends: a result, or the one line of an objection. -/
inductive Command.Answers (c : Command) : List Shown → Ending → Prop
  | result {shown : List Shown} : c.Result text shown → Answers c shown .done
  | objection {heading reason : String} :
      c.Objection text heading reason → Answers c [Report.complaint heading reason] .refused

theorem Command.Answers.exitCode {text : String} {c : Command} {shown : List Shown}
    {ending : Ending} (answers : c.Answers text shown ending) :
    ending.exitCode = 0 ∨ ending.exitCode = 1 := by
  cases answers with
  | result => exact .inl rfl
  | objection => exact .inr rfl

end Answers

section Reports

variable {found : Surroundings} {text : String} {n : Json.Overlong}

theorem stands_of_graphOfText (stopped : Workspace.graphOfText text = .error (.overlong n)) :
    n.StandsIn text.toList := by
  unfold Workspace.graphOfText at stopped
  split at stopped
  · next held =>
      cases stopped
      exact Import.stands_of_read held
  · cases stopped
  · split at stopped <;> cases stopped

theorem stands_of_load {fault : Json.Fault} (loaded : Json.load text.toList = .error fault)
    (long : fault.overlong? = some n) : n.StandsIn text.toList := by
  unfold Json.load at loaded
  split at loaded
  · cases loaded
    cases long
  · exact (Json.stops_iff.mp ⟨fault, loaded, long⟩).written.stands

theorem sourceCanvas_stopped (holds : found.Holds text) (path : Path)
    (stopped : Workspace.graphOfText (textRead text) = .error (.overlong n)) :
    Report.sourceCanvas path found = .error (.crashed (.overlong n)) := by
  simp only [Report.sourceCanvas, sourceText_of_holds holds, stopped]

theorem sourceCanvas_refused (holds : found.Holds text) (path : Path) {e : Workspace.Failure}
    (refused : Workspace.graphOfText (textRead text) = .error e) (other : ∀ n, e ≠ .overlong n) :
    Report.sourceCanvas path found = .error (.error found.console e.message) := by
  simp only [Report.sourceCanvas, sourceText_of_holds holds, refused]

theorem sourceCanvas_accepted (holds : found.Holds text) (path : Path) {g : Graph}
    (accepted : Workspace.graphOfText (textRead text) = .ok g) :
    Report.sourceCanvas path found = .ok (g.layOut.complete .start).1 := by
  simp only [Report.sourceCanvas, sourceText_of_holds holds, accepted]

/-- The report is an answer to the text, as far as the console shows it, or it breaks off for an
integer in the text. -/
def Command.Reported (c : Command) (found : Surroundings) (text : String) : Prop :=
  (∃ shown ending, c.Answers text shown ending ∧
    c.report found = .after found.console shown ⟨[], none, [], ending⟩) ∨
  ∃ n : Json.Overlong, n.StandsIn text.toList ∧ c.report found = .crashed (.overlong n)

theorem reported_compile (holds : found.Holds text) (path : Path) (asJson : Bool) :
    (Command.compile path asJson none).Reported found (textRead text) := by
  cases read : Workspace.graphOfText (textRead text) with
  | error e =>
      by_cases long : ∃ n, e = .overlong n
      · obtain ⟨n, rfl⟩ := long
        refine .inr ⟨n, stands_of_graphOfText read, ?_⟩
        simp only [Command.report, Report.compile, sourceCanvas_stopped holds path read]
      · refine .inl ⟨_, _, .objection (.uncompiled read), ?_⟩
        simp only [Command.report, Report.compile,
          sourceCanvas_refused holds path read (not_exists.mp long)]
        rfl
  | ok g =>
      have tells := Transcript.tells_layOut (Graph.valid_of_graphOfText read) .start
      refine .inl ⟨_, _, .result (.compiled read tells), ?_⟩
      simp only [Command.report, Report.compile, sourceCanvas_accepted holds path read]
      rfl

theorem reported_layout (holds : found.Holds text) (path : Path) (mode : LayoutMode) :
    (Command.layout path mode).Reported found (textRead text) := by
  cases read : Workspace.graphOfText (textRead text) with
  | error e =>
      by_cases long : ∃ n, e = .overlong n
      · obtain ⟨n, rfl⟩ := long
        refine .inr ⟨n, stands_of_graphOfText read, ?_⟩
        simp only [Command.report, Report.layout, sourceCanvas_stopped holds path read]
      · refine .inl ⟨_, _, .objection (.unarranged read), ?_⟩
        simp only [Command.report, Report.layout,
          sourceCanvas_refused holds path read (not_exists.mp long)]
        rfl
  | ok g =>
      have drawn := Graph.exported_complete_perm (Graph.valid_of_graphOfText read).distinct .start
      refine .inl ⟨[Report.positions mode
        (Canvas.arrange mode (g.layOut.complete .start).1.nodes (g.layOut.complete .start).1.edges)],
        _, .result (.arranged read ?_), ?_⟩
      · rw [Canvas.arrange, List.map_map]
        exact drawn
      · simp only [Command.report, Report.layout, sourceCanvas_accepted holds path read]
        rfl

theorem reported_validate (holds : found.Holds text) (path : Path) :
    (Command.validate path).Reported found (textRead text) := by
  cases loaded : Json.load (textRead text).toList with
  | error fault =>
      cases long : fault.overlong? with
      | some n =>
          refine .inr ⟨n, stands_of_load loaded long, ?_⟩
          simp only [Command.report, Report.validate, sourceText_of_holds holds, loaded, long]
      | none =>
          refine .inl ⟨_, _, .objection (.unread loaded), ?_⟩
          simp only [Command.report, Report.validate, sourceText_of_holds holds, loaded, long]
          rfl
  | ok c =>
      cases checked : Graph.reason? c with
      | some reason =>
          refine .inl ⟨_, _, .objection (.invalid loaded checked), ?_⟩
          simp only [Command.report, validate_eq path holds loaded, checked]
          rfl
      | none =>
          refine .inl ⟨_, _, .result (.validated loaded checked), ?_⟩
          simp only [Command.report, validate_eq path holds loaded, checked]
          rfl

theorem Command.reported (holds : found.Holds text) {c : Command} {path : Path}
    (source : c.source? = some path) (unsaved : c.target? = none) :
    c.Reported found (textRead text) := by
  cases c with
  | compile path asJson markdown =>
      cases unsaved
      exact reported_compile holds path asJson
  | validate path => exact reported_validate holds path
  | layout path mode => exact reported_layout holds path mode
  | generate prompt => cases source

theorem Command.report_undecodable {c : Command} {path : Path} (source : c.source? = some path)
    {bytes : List UInt8} (held : found.source = .ok bytes)
    (undecodable : Text.decodeUtf8? bytes = none) : c.report found = .crashed .undecodable := by
  have unread (message : FileFault → String) :
      Report.sourceText found message = .error (.crashed .undecodable) := by
    simp only [Report.sourceText, held, undecodable]
  cases c with
  | compile path asJson markdown =>
      simp only [Command.report, Report.compile, Report.sourceCanvas, unread]
  | validate path => simp only [Command.report, Report.validate, unread]
  | layout path mode => simp only [Command.report, Report.layout, Report.sourceCanvas, unread]
  | generate prompt => cases source

end Reports

end Terminal

namespace Disk

open Terminal (Command Console Ending Invocation Report Shown textRead)

section Running

variable {d : Disk} {words : List String} {c : Command} {path : Path} {bytes : List UInt8}

/-- Nothing is written on the disk by a command that is not asked to write. -/
theorem run_eq (reads : Invocation.read words = .ok (.command c)) {console : Console} {key : String}
    {response : Generation.Response} {report : Report}
    (told : c.report (d.surroundings c console key response) = report)
    (unsaved : report.saved = none) : d.run words console key response = (report, d) := by
  simp only [run, reads, keep, told, unsaved]

/-- A command line about a file that holds a text is answered, unless an integer in the text is too
long or the console does not show the answer, and then it ends there; on a file that holds no text
it ends without a word. -/
theorem run_answers (reads : Invocation.read words = .ok (.command c))
    (source : c.source? = some path) (unsaved : c.target? = none)
    (held : d.read path = .ok bytes) (console : Console) (key : String)
    (response : Generation.Response) :
    (∀ text, bytes = Text.encodeUtf8 text →
      (∃ shown ending, c.Answers (textRead text) shown ending ∧
        (ending.exitCode = 0 ∨ ending.exitCode = 1) ∧
        ((∀ item ∈ shown, console item = none) ∧
            d.run words console key response = (⟨shown, none, [], ending⟩, d) ∨
          ∃ front item back fault, shown = front ++ item :: back ∧ console item = some fault ∧
            d.run words console key response =
              (⟨front, none, [], .crashed (.unshown fault)⟩, d))) ∨
      ∃ n : Json.Overlong, n.StandsIn (textRead text).toList ∧
        d.run words console key response = (.crashed (.overlong n), d)) ∧
    ((∀ text, bytes ≠ Text.encodeUtf8 text) →
      d.run words console key response = (.crashed .undecodable, d)) := by
  have found : (d.surroundings c console key response).source = .ok bytes := by
    rw [surroundings, source, Option.map_some, Option.getD_some, held]
  constructor
  · rintro text rfl
    rcases Command.reported found source unsaved with
      ⟨shown, ending, answers, told⟩ | ⟨n, stands, told⟩
    · refine .inl ⟨shown, ending, answers, answers.exitCode, ?_⟩
      rcases Report.after_cases console shown ⟨[], none, [], ending⟩ with
        ⟨all, same⟩ | ⟨front, item, back, fault, whole, fails, -, same⟩
      · rw [List.append_nil] at same
        exact .inl ⟨all, run_eq reads (told.trans same) rfl⟩
      · exact .inr ⟨front, item, back, fault, whole, fails, run_eq reads (told.trans same) rfl⟩
    · exact .inr ⟨n, stands, run_eq reads told rfl⟩
  · intro spelled
    have undecodable := Text.decodeUtf8?_eq_none_iff.mpr spelled
    exact run_eq reads (Command.report_undecodable source found undecodable) rfl

def holding (bytes : List UInt8) : Disk := ⟨[(["f"], bytes)], []⟩

theorem run_answers_greeting :
    ∃ shown ending, (Command.compile ⟨"", ["f"]⟩ false none).Answers "hi" shown ending ∧
      (ending.exitCode = 0 ∨ ending.exitCode = 1) ∧
      (holding (Text.encodeUtf8 "hi")).run ["compile", "f"] (fun _ => none) "" (.failure "") =
        (⟨shown, none, [], ending⟩, holding (Text.encodeUtf8 "hi")) := by
  have reads : Invocation.read ["compile", "f"] =
      .ok (.command (.compile ⟨"", ["f"]⟩ false none)) := by decide +kernel
  have held : (holding (Text.encodeUtf8 "hi")).read ⟨"", ["f"]⟩ = .ok (Text.encodeUtf8 "hi") := by
    decide +kernel
  have same : textRead "hi" = "hi" := by decide +kernel
  have answered := (run_answers reads rfl rfl held (fun _ => none) "" (.failure "")).1 "hi" rfl
  rw [same] at answered
  rcases answered with ⟨shown, ending, answers, code, ⟨-, told⟩ | ⟨_, _, _, _, -, fails, -⟩⟩ |
    ⟨n, stands, -⟩
  · exact ⟨shown, ending, answers, code, told⟩
  · cases fails
  · exact absurd stands.lt_length (by decide)

/-- A byte that no text has ends every command with nothing shown. -/
theorem run_undecodable :
    ([["compile", "f"], ["compile", "--json", "f"], ["layout", "f"], ["validate", "f"]].map
      fun words => ((holding [0xff]).run words (fun _ => none) "" (.failure "")).1) =
        List.replicate 4 ⟨[], none, [], .crashed .undecodable⟩ := by
  decide +kernel

end Running

end Disk

end PromptCanvas
