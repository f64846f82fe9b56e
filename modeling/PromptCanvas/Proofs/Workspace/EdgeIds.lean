import PromptCanvas.Proofs.Canvas.EdgeIds
import PromptCanvas.Proofs.Workspace.Drawing
import PromptCanvas.Proofs.Workspace.Ties

/-! # Identifiers of edges along a run

Every session that a run from an empty store reaches has keyed edges (`run_keyed`), so the
identifiers of its edges differ as long as none was connected by hand, or no end of an edge goes
on with a dash after another one.  Where a node is named after an edge of its graph they need
not differ (`exists_shared_id`). -/

set_option autoImplicit false

namespace PromptCanvas

open Canvas (Keyed)

namespace Workspace

namespace Session

section Edges

variable {s : Session} {change : Change} {ids rest : IdSupply} {task : Task}

/-- An edge that is connected anew has its identifier from its ends, and no edge had these. -/
theorem edges_connect {source target : String} (ok : s.connect source target = .ok change) :
    change.session.canvas.edges = s.canvas.edges ∨
      ∃ e : Canvas.Edge, e.Joined ∧ (∀ f ∈ s.canvas.edges, f.pair ≠ e.pair) ∧
        change.session.canvas.edges = s.canvas.edges ++ [e] := by
  unfold connect at ok
  split at ok
  · cases ok
  · cases ok
  · split at ok
    · cases ok
    · split at ok
      · cases ok
        exact .inl rfl
      · rename_i free
        cases ok
        refine .inr ⟨⟨s!"e-{source}-{target}", source, target⟩, rfl, ?_, rfl⟩
        intro f member same
        have unequal := List.find?_eq_none.mp free f member
        obtain ⟨source, target⟩ := Prod.mk.inj same
        exact unequal (by simp [source, target])

theorem exists_node {id : String} (listed : id ∈ s.canvas.ids) : ∃ n, s.node id = .ok n := by
  obtain ⟨n, member, rfl⟩ := List.mem_map.mp listed
  cases found : s.canvas.find? n.id with
  | some m => exact ⟨m, by rw [node, found]⟩
  | none => exact absurd (beq_self_eq_true n.id) (List.find?_eq_none.mp found n member)

theorem connect_new {source target : String} (here : source ∈ s.canvas.ids)
    (there : target ∈ s.canvas.ids) (different : source ≠ target)
    (new : ∀ f ∈ s.canvas.edges, f.pair ≠ (source, target)) :
    ∃ change, s.connect source target = .ok change ∧ change.session.canvas.edges =
      s.canvas.edges ++ [⟨s!"e-{source}-{target}", source, target⟩] := by
  obtain ⟨n, first⟩ := exists_node here
  obtain ⟨m, second⟩ := exists_node there
  have free : (s.canvas.edges.find? fun e => e.source == source && e.target == target) = none := by
    rw [List.find?_eq_none]
    intro f member same
    rw [Bool.and_eq_true, beq_iff_eq, beq_iff_eq] at same
    exact new f member (Prod.ext same.1 same.2)
  simp only [connect, first, second, if_neg different, free]
  exact ⟨_, rfl, rfl⟩

theorem edges_run (ok : task.run s ids = (.ok change, rest)) :
    (∃ p : Canvas.Edge → Bool, change.session.canvas.edges = s.canvas.edges.filter p) ∨
      (∃ g : Graph, change.session.canvas.edges = g.layOut.edges) ∨
        ∃ e : Canvas.Edge, e.Joined ∧ (∀ f ∈ s.canvas.edges, f.pair ≠ e.pair) ∧
          change.session.canvas.edges = s.canvas.edges ++ [e] := by
  have all : s.canvas.edges = s.canvas.edges.filter fun _ => true := by simp
  cases task with
  | replace g =>
      cases ok
      exact .inr (.inl ⟨g, rfl⟩)
  | draw confirmed =>
      obtain ⟨g, -, rfl⟩ := draw_eq_ok ok
      exact .inr (.inl ⟨g, rfl⟩)
  | clear =>
      cases ok
      exact .inl ⟨fun _ => false, by simp [showing, withCanvas, Canvas.empty]⟩
  | layout mode =>
      obtain ⟨place, rfl⟩ := arrange_eq_ok (Prod.mk.inj ok).1
      exact .inl ⟨_, all⟩
  | relabel id label =>
      obtain ⟨n, -, rfl⟩ := update_eq_ok (Prod.mk.inj ok).1
      exact .inl ⟨_, all⟩
  | relist id items =>
      obtain ⟨n, -, rfl⟩ := update_eq_ok (Prod.mk.inj ok).1
      exact .inl ⟨_, all⟩
  | remove id =>
      obtain ⟨n, -, rfl⟩ := remove_eq_ok (Prod.mk.inj ok).1
      exact .inl ⟨_, rfl⟩
  | connect source target =>
      rcases edges_connect (Prod.mk.inj ok).1 with same | added
      · exact .inl ⟨_, same.trans all⟩
      · exact .inr (.inr added)
  | select id =>
      obtain ⟨-, rfl⟩ := select_eq_ok (Prod.mk.inj ok).1
      exact .inl ⟨_, all⟩
  | _ =>
      cases ok
      exact .inl ⟨_, all⟩

theorem keyed_run (keyed : Keyed s.canvas.edges) (ok : task.run s ids = (.ok change, rest)) :
    Keyed change.session.canvas.edges := by
  rcases edges_run ok with ⟨p, kept⟩ | ⟨g, drawn⟩ | ⟨e, joined, new, added⟩
  · rw [kept]
    exact keyed.filter p
  · rw [drawn]
    exact .layOut g
  · rw [added]
    exact keyed.append joined new

end Edges

end Session

/-- The edges of every session are keyed, and so are those that a new session is opened with. -/
structure HasKeyed (w : Workspace) : Prop where
  sessions : ∀ epoch s, w.session? epoch = some s → Keyed s.canvas.edges
  stored : Keyed (Canvas.restore w.document).edges

section Steps

variable {w : Workspace} {c : Conditions} {ids : IdSupply}

theorem keyed_restore_null : Keyed (Canvas.restore .null).edges := Keyed.initial

theorem hasKeyed_untouched : untouched.HasKeyed := by
  constructor
  case sessions =>
    intro epoch s found
    cases found
  case stored => exact keyed_restore_null

theorem keyed_restore_write (storage : Storage) {canvas : Canvas} (keyed : Keyed canvas.edges) :
    Keyed (Canvas.restore (Document.write storage canvas.toJson).read).edges := by
  have same : (storage.kept canvas).edges = canvas.edges := by cases storage <;> rfl
  rw [Document.read_write]
  rcases Canvas.edges_restore_toJson (storage.kept canvas) with restored | restored
  · rw [restored, same]
    exact keyed
  · rw [restored]
    exact .initial

theorem HasKeyed.putSession (has : w.HasKeyed) (epoch : Nat) {s : Session}
    (keyed : Keyed s.canvas.edges) : (w.putSession epoch s).HasKeyed := by
  constructor
  case sessions =>
    intro other t found
    rw [session?_putSession] at found
    split at found
    · cases found
      exact keyed
    · exact has.sessions other t found
  case stored => exact has.stored

theorem HasKeyed.open? (has : w.HasKeyed) (c : Conditions) (ids : IdSupply) :
    (w.open? c ids).workspace.HasKeyed ∧
      ∀ s, (w.open? c ids).result = .ok s → Keyed s.canvas.edges := by
  rcases open?_cases w c ids with ⟨s, found, opens⟩ | ⟨e, -, -, opens⟩ | ⟨j, -, opening, opens⟩
  · rw [opens]
    refine ⟨has, ?_⟩
    rintro t ⟨⟩
    exact has.sessions c.epoch s found
  · rw [opens]
    exact ⟨has, by rintro t ⟨⟩⟩
  · have keyed : Keyed (opened j ids).canvas.edges := by
      rcases opening_eq_ok w c opening with rfl | rfl
      · exact has.stored
      · exact keyed_restore_null
    rw [opens]
    refine ⟨has.putSession c.epoch keyed, ?_⟩
    rintro t ⟨⟩
    exact keyed

theorem HasKeyed.commit (has : w.HasKeyed) {change : Change}
    (keyed : Keyed change.session.canvas.edges) :
    (w.commit c change ids).workspace.HasKeyed := by
  have put := has.putSession c.epoch keyed
  rcases commit_cases w c ids change with ⟨stored, ends, kept⟩ | ⟨fault, -, -, -, ends⟩
  · rw [ends]
    refine ⟨put.sessions, ?_⟩
    rcases kept with rfl | ⟨-, rfl⟩
    · exact has.stored
    · exact keyed_restore_write c.storage keyed
  · rw [ends]
    exact put

theorem HasKeyed.perform (has : w.HasKeyed) (op : Operation) :
    (w.perform c op ids).workspace.HasKeyed := by
  obtain ⟨after, opened⟩ := has.open? c ids
  rw [Workspace.perform]
  cases op.task with
  | error e => exact has
  | ok task =>
      dsimp only
      rcases runTask_cases w c ids task with
        ⟨e, -, ends⟩ | ⟨s, opens, ⟨e, rest, -, ends⟩ | ⟨change, rest, ran, ends⟩⟩
      · rw [ends]
        exact has
      · rw [ends]
        exact after
      · rw [ends]
        exact after.commit (Session.keyed_run (opened s opens) ran)

theorem HasKeyed.begin (has : w.HasKeyed) : (w.begin c ids).workspace.HasKeyed := by
  obtain ⟨after, opened⟩ := has.open? c ids
  rcases begin_cases w c ids with ⟨e, ends⟩ | ⟨s, opens, ends⟩
  · rw [ends]
    exact has
  · rw [ends]
    exact after.putSession c.epoch (opened s opens)

theorem HasKeyed.finish (has : w.HasKeyed) (epoch ticket : Nat)
    (result : Except Generation.Failure Graph) : (w.finish epoch ticket result).2.HasKeyed := by
  rw [Workspace.finish]
  split
  · exact has
  · rename_i s found
    refine has.putSession epoch ?_
    rw [canvas_settle]
    exact has.sessions epoch s found

end Steps

end Workspace

namespace Studio

open Workspace (Session)

section Runs

theorem lasts_hasKeyed : Lasts (fun _ w => w.HasKeyed) (fun _ _ => True) where
  perform _ _ op _ has := has.perform op
  begin _ _ _ has := has.begin
  finish _ _ epoch ticket _ _ _ has := has.finish epoch ticket _
  faults _ _ _ _ _ has := has
  restart _ _ has := has

theorem everywhere_hasKeyed {s : Studio} (every : s.Everywhere fun _ w => w.HasKeyed)
    (events : List Event) : (s.run events).Everywhere fun _ w => w.HasKeyed := by
  induction events generalizing s with
  | nil => exact every
  | cons e events ih => exact ih (lasts_hasKeyed.next every trivial)

/-- Whatever is done from an empty store on, the edges of every session are keyed; and the
identifiers of its edges differ if all of them were drawn, or if no end goes on with a dash
after another one. -/
theorem run_keyed (storage : Workspace.Storage) (service : Generation.Service)
    (events : List Event) {name : String} {epoch : Nat} {session : Workspace.Session}
    (found : (((start storage service).run events).workspace name).session? epoch = some session) :
    Keyed session.canvas.edges ∧
      ((∀ e ∈ session.canvas.edges, ¬ e.Joined) ∨ Keyed.Undashed session.canvas.edges →
        (session.canvas.edges.map Canvas.Edge.id).Nodup) := by
  have every := everywhere_hasKeyed (s := start storage service)
    (fun _ => Workspace.hasKeyed_untouched) events
  have keyed := (every name).sessions epoch session found
  exact ⟨keyed, keyed.nodup⟩

theorem run_keyed_connected :
    ∃ session, ((start .memory ⟨"", ""⟩).run [.perform "w" (.connect "n2" "n1")]).session? "w" =
        some session ∧
      Keyed session.canvas.edges ∧ (session.canvas.edges.map Canvas.Edge.id).Nodup := by
  have shown : (((start .memory ⟨"", ""⟩).run [.perform "w" (.connect "n2" "n1")]).session? "w").map
      (fun session => session.canvas.edges) =
        some [⟨"e-n1-n2", "n1", "n2"⟩, ⟨"e-n2-n1", "n2", "n1"⟩] := by decide +kernel
  obtain ⟨session, found, edges⟩ := Option.map_eq_some_iff.mp shown
  have undashed : Keyed.Undashed session.canvas.edges := by
    rw [edges]
    decide
  obtain ⟨keyed, distinct⟩ := run_keyed .memory ⟨"", ""⟩ _ found
  exact ⟨session, found, keyed, distinct (.inr undashed)⟩

end Runs

section Sharing

variable {s : Studio}

/-- The session shows a new edge behind the others once two nodes are connected. -/
theorem shows_connected (serves : s.conditions.Serves) {name : String} {session : Session}
    (shown : s.session? name = some session) {source target : String}
    (here : source ∈ session.canvas.ids) (there : target ∈ session.canvas.ids)
    (different : source ≠ target) (new : ∀ f ∈ session.canvas.edges, f.pair ≠ (source, target)) :
    ∃ after, (s.next (.perform name (.connect source target))).session? name = some after ∧
      after.canvas.edges =
        session.canvas.edges ++ [⟨s!"e-{source}-{target}", source, target⟩] := by
  obtain ⟨change, connects, edges⟩ := Session.connect_new here there different new
  have opens := congrArg Workspace.Step.result (Workspace.open?_of_session s.ids shown)
  have ran (ids : IdSupply) :
      (Workspace.Task.connect source target).run session ids = (.ok change, ids) := by
    rw [Workspace.Task.run, connects]
  obtain ⟨-, moved⟩ := Workspace.runTask_of_run serves opens (ran _)
  refine ⟨change.session, ?_, edges⟩
  rw [next, perform_of_task rfl]
  exact (session?_leave s name name _ _).trans ((if_pos rfl).trans moved)

theorem Draws.shows {name : String} {op : Workspace.Operation} {g : Graph}
    (draws : s.Draws name op g) (valid : g.Valid) :
    ∃ session, (s.next (.perform name op)).session? name = some session ∧
      session.canvas.edges = g.layOut.edges ∧ ∀ id ∈ g.ids, id ∈ session.canvas.ids := by
  obtain ⟨session, ids, -, shown, drawn⟩ := draws
  refine ⟨session, shown, by rw [drawn, Canvas.Sketch.complete], ?_⟩
  intro id member
  rw [drawn, Canvas.Sketch.complete, Canvas.ids, Canvas.ids_completeNodes,
    Graph.ids_layOut valid.distinct]
  exact (Graph.drawnIds_perm g).mem_iff.mpr member

/-- A node of an imported graph may be named after an edge: as its target, with a dash and the
place of the edge.  Connecting the source of the edge with that node then gives a second edge
with the identifier of the first. -/
theorem exists_shared_id (serves : s.conditions.Serves) (name : String) {text : String}
    {g : Graph} (read : Workspace.graphOfText text = .ok g) {i : Nat} {e : Graph.Edge}
    (drawn : g.edges[i]? = some e) (listed : s!"{e.target}-{i}" ∈ g.ids)
    (different : e.source ≠ s!"{e.target}-{i}") (apart : (e.source, s!"{e.target}-{i}") ∉ g.pairs) :
    ∃ session, ((s.next (.perform name (.importText text true))).next
        (.perform name (.connect e.source s!"{e.target}-{i}"))).session? name = some session ∧
      ¬ (session.canvas.edges.map Canvas.Edge.id).Nodup := by
  have valid := Graph.valid_of_graphOfText read
  obtain ⟨before, shown, edges, known⟩ := (draws_importText serves name read).shows valid
  have source : e.source ∈ g.ids := (valid.closed e (List.mem_of_getElem? drawn)).1
  have new : ∀ f ∈ before.canvas.edges, f.pair ≠ (e.source, s!"{e.target}-{i}") := by
    intro f old same
    rw [edges] at old
    rw [← Graph.pairs_layOut, ← same] at apart
    exact apart (List.mem_map_of_mem old)
  obtain ⟨session, after, added⟩ := shows_connected
    (s := s.next (.perform name (.importText text true))) serves shown
    (known _ source) (known _ listed) different new
  refine ⟨session, after, ?_⟩
  have old : Graph.drawnEdge e i ∈ g.layOut.edges := by
    rw [Graph.edges_layOut]
    refine List.mem_of_getElem? (i := i) ?_
    rw [List.getElem?_mapIdx, drawn, Option.map_some]
  rw [added, edges, List.map_append, List.nodup_append]
  rintro ⟨-, -, distinct⟩
  refine distinct _ (List.mem_map_of_mem old) _ (List.mem_singleton_self _) ?_
  simp [Graph.drawnEdge, toString, String.append_assoc]

def dashed : Graph :=
  ⟨[⟨"a", .user, "A", "x"⟩, ⟨"b", .user, "B", "y"⟩, ⟨"b-0", .user, "C", "z"⟩],
    [⟨"a", "b"⟩, ⟨"b", "b-0"⟩]⟩

theorem shared_id_dashed :
    ∃ session, ((start .memory ⟨"", ""⟩).run [.perform "w" (.importText dashed.lineText true),
        .perform "w" (.connect "a" "b-0")]).session? "w" = some session ∧
      ¬ (session.canvas.edges.map Canvas.Edge.id).Nodup := by
  have valid : dashed.Valid := Graph.valid_of_read (j := dashed.toJson) (by decide +kernel)
  exact exists_shared_id ⟨by rintro fault ⟨⟩, by rintro fault ⟨⟩⟩ "w" valid.graphOfText_lineText
    (i := 0) (e := ⟨"a", "b"⟩) rfl (by decide) (by decide) (by decide)

end Sharing

end Studio

end PromptCanvas
