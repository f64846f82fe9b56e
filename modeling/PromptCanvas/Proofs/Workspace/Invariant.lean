import PromptCanvas.Proofs.Canvas.Compilation
import PromptCanvas.Proofs.Canvas.Restoring
import PromptCanvas.Proofs.Workspace.Edits
import PromptCanvas.Proofs.Workspace.Run

/-! # The invariant of sessions

`Session.Sound`: a session shows a well-formed canvas and holds a valid graph, if
any.  `Workspace.Sound` adds that what is stored is a well-formed canvas.  Every
event keeps every workspace sound as long as a new node gets a new identifier, so
every session that a run from an empty store reaches is sound, and what it holds
can be drawn (`run_sound`). -/

set_option autoImplicit false

namespace PromptCanvas

namespace Generation

section Results

theorem valid_of_readAnswer {answer : Reply.Value} {g : Graph} (ok : readAnswer answer = .ok g) :
    g.Valid := by
  unfold readAnswer at ok
  split at ok
  · cases ok
  · split at ok
    · cases ok
    · split at ok
      · rename_i read
        cases ok
        exact Graph.valid_of_read read
      · cases ok

theorem valid_of_run {service : Service} {request : Request} {clientFault : Option String}
    {response : Response} {g : Graph}
    (ok : (run service request clientFault response).result = .ok g) : g.Valid := by
  unfold run at ok
  dsimp only at ok
  split at ok
  · cases ok
  · split at ok
    · cases ok
    · split at ok
      · cases ok
      · cases response with
        | failure message => cases ok
        | reply v => exact valid_of_readAnswer ok

end Results

end Generation

namespace Workspace

structure Session.Sound (s : Session) : Prop where
  canvas : s.canvas.WellFormed
  pending : ∀ g, s.pending = some g → g.Valid

namespace Session

section Generation

variable {s : Session}

theorem Sound.supersede (sound : s.Sound) : s.supersede.Sound := by
  refine ⟨sound.canvas, ?_⟩
  intro g none
  cases none

theorem Sound.settle (sound : s.Sound) (ticket : Nat) {result : Except Generation.Failure Graph}
    (valid : ∀ g, result = .ok g → g.Valid) : (s.settle ticket result).2.Sound := by
  cases result with
  | error e => exact sound
  | ok g =>
      rw [Session.settle]
      split
      · refine ⟨sound.canvas, ?_⟩
        intro h same
        cases same
        exact valid g rfl
      · exact sound

end Generation

section Changes

variable {s : Session}

theorem Sound.withCanvas (sound : s.Sound) {c : Canvas} (wellFormed : c.WellFormed) :
    (s.withCanvas c).Sound := ⟨wellFormed, sound.pending⟩

theorem mem_ids_of_node {id : String} {n : Canvas.Node} (found : s.node id = .ok n) :
    id ∈ s.canvas.ids := Canvas.mem_ids_of_find? (node_eq_ok found)

theorem Sound.update (sound : s.Sound) {id : String} {f : Canvas.Node → Canvas.Node}
    {change : Change} (ok : s.update id f = .ok change) (sameId : ∀ n, (f n).id = n.id)
    (listed : ∀ n ∈ s.canvas.nodes, Canvas.Listed (f n).items) : change.session.Sound := by
  obtain ⟨n, -, rfl⟩ := update_eq_ok ok
  refine sound.withCanvas (sound.canvas.withNodes (ids_updateFirst sameId _) ?_)
  intro m member
  rcases mem_updateFirst member with old | ⟨n, old, rfl⟩
  · exact sound.canvas.listed m old
  · exact listed n old

theorem Sound.remove (sound : s.Sound) {id : String} {change : Change}
    (ok : s.remove id = .ok change) : change.session.Sound := by
  obtain ⟨n, -, rfl⟩ := remove_eq_ok ok
  refine sound.withCanvas ⟨?_, ?_⟩
  · have kept : (s.canvas.nodes.filter fun n => n.id != id).map Canvas.Node.id =
        s.canvas.ids.filter fun other => other != id := by
      rw [Canvas.ids, List.filter_map]
      rfl
    rw [Canvas.ids]
    dsimp only
    rw [kept]
    exact sound.canvas.wired.without id
  · intro n member
    exact sound.canvas.listed n (List.mem_filter.mp member).1

theorem Sound.connect (sound : s.Sound) {source target : String} {change : Change}
    (ok : s.connect source target = .ok change) : change.session.Sound := by
  obtain ⟨⟨n, first⟩, ⟨m, second⟩, different, ⟨e, -, rfl⟩ | ⟨e, rfl, rfl, rfl⟩⟩ := connect_eq_ok ok
  · exact sound
  · exact sound.withCanvas ⟨sound.canvas.wired.connect (mem_ids_of_node first)
      (mem_ids_of_node second) different, sound.canvas.listed⟩

theorem Sound.select (sound : s.Sound) {chosen : Option String} {change : Change}
    (ok : s.select chosen = .ok change) : change.session.Sound := by
  obtain ⟨named, rfl⟩ := select_eq_ok ok
  refine sound.withCanvas ⟨sound.canvas.wired.select ?_, sound.canvas.listed⟩
  intro id same
  obtain ⟨n, found⟩ := named id same
  exact mem_ids_of_node found

theorem Sound.arrange (sound : s.Sound) {mode : Json} {change : Change}
    (ok : s.arrange mode = .ok change) : change.session.Sound := by
  obtain ⟨place, rfl⟩ := arrange_eq_ok ok
  refine sound.withCanvas (sound.canvas.withNodes ?_ ?_)
  · rw [List.map_map]
    rfl
  · rw [List.forall_mem_map]
    exact sound.canvas.listed

end Changes

section Additions

variable {s : Session} {ids rest : IdSupply}

theorem Sound.replace (sound : s.Sound) {g : Graph} (valid : g.Valid) (ids : IdSupply) :
    (s.replace g ids).1.session.Sound :=
  sound.withCanvas (valid.wellFormed_layOut.complete ids)

theorem Sound.drawable (sound : s.Sound) {g : Graph} (pending : s.pending = some g) :
    s.drawable true = .ok g := by
  rw [Session.drawable, pending]
  simp only [if_true, (sound.pending g pending).read_toJson]

theorem Sound.draw (sound : s.Sound) {confirmed : Bool} {change : Change}
    (ok : s.draw confirmed ids = (.ok change, rest)) : change.session.Sound := by
  obtain ⟨g, drawn, rfl⟩ := draw_eq_ok ok
  obtain ⟨generated, -, read⟩ := drawable_eq_ok drawn
  exact sound.supersede.replace (Graph.valid_of_read read) ids

theorem Sound.add (sound : s.Sound) (role : Role) (position : Position)
    (fresh : IdSupply.nodeId ids.nodes ∉ s.canvas.ids) :
    (s.add role position ids).1.session.Sound := by
  refine sound.withCanvas ⟨?_, ?_⟩
  · rw [Canvas.ids]
    dsimp only
    rw [List.map_append]
    exact sound.canvas.wired.append fresh
  · intro n member
    rcases List.mem_append.mp member with old | new
    · exact sound.canvas.listed n old
    · rw [List.mem_singleton.mp new]
      exact Canvas.listed_blank _

theorem Sound.relist (sound : s.Sound) {id : String} {items : List Json} {change : Change}
    (ok : s.relist id items ids = (.ok change, rest)) : change.session.Sound := by
  have updated := (Prod.mk.inj ok).1
  apply sound.update updated (fun _ => rfl)
  intro n _
  exact Canvas.listed_drafts items "" ids

end Additions

end Session

section Tasks

def Task.Sound (task : Task) : Prop := ∀ g, task = .replace g → g.Valid

theorem Operation.sound_task {op : Operation} {task : Task} (ok : op.task = .ok task) :
    task.Sound := by
  intro g same
  cases op with
  | importText text confirmed =>
      obtain ⟨-, h, read, rfl⟩ := task_importText ok
      cases same
      exact Graph.valid_of_graphOfText read
  | reset confirmed =>
      obtain ⟨-, rfl⟩ := task_reset ok
      cases same
  | _ =>
      cases ok
      cases same

theorem Session.Sound.run {s : Session} (sound : s.Sound) {task : Task} (taskSound : task.Sound)
    {ids rest : IdSupply}
    (fresh : ∀ role position, task = .add role position →
      IdSupply.nodeId ids.nodes ∉ s.canvas.ids)
    {change : Change} (ok : task.run s ids = (.ok change, rest)) : change.session.Sound := by
  cases task with
  | view =>
      cases ok
      exact sound
  | transcript =>
      cases ok
      exact sound
  | markdown =>
      cases ok
      exact sound
  | replace g =>
      cases ok
      exact sound.replace (taskSound g rfl) ids
  | close =>
      cases ok
      exact sound.supersede
  | draw confirmed => exact sound.draw ok
  | clear =>
      cases ok
      exact sound.withCanvas Canvas.wellFormed_empty
  | layout mode => exact sound.arrange (Prod.mk.inj ok).1
  | add role position =>
      cases ok
      exact sound.add role position (fresh role position rfl)
  | relabel id label => exact sound.update (Prod.mk.inj ok).1 (fun _ => rfl) sound.canvas.listed
  | relist id items => exact sound.relist ok
  | remove id => exact sound.remove (Prod.mk.inj ok).1
  | connect source target => exact sound.connect (Prod.mk.inj ok).1
  | select id => exact sound.select (Prod.mk.inj ok).1

end Tasks

structure Sound (w : Workspace) : Prop where
  sessions : ∀ epoch s, w.session? epoch = some s → s.Sound
  stored : ∀ d, w.stored = some d → ∃ c : Canvas, c.WellFormed ∧ d.read = c.toJson

/-- The identifier of the next node is new to the canvas that the workspace shows. -/
def NewNode (w : Workspace) (c : Conditions) (ids : IdSupply) : Prop :=
  ∀ s, (w.open? c ids).result = .ok s →
    IdSupply.nodeId (w.open? c ids).ids.nodes ∉ s.canvas.ids

section Steps

variable {w : Workspace} {c : Conditions} {ids : IdSupply}

theorem sound_untouched : untouched.Sound := by
  constructor
  case sessions =>
    intro epoch s found
    cases found
  case stored =>
    intro d found
    cases found

theorem Sound.putSession (sound : w.Sound) (epoch : Nat) {s : Session} (opened : s.Sound) :
    (w.putSession epoch s).Sound := by
  constructor
  case sessions =>
    intro other t found
    rw [session?_putSession] at found
    split at found
    · cases found
      exact opened
    · exact sound.sessions other t found
  case stored => exact sound.stored

theorem Sound.opened (sound : w.Sound) {j : Json} (opening : w.opening c = .ok j) :
    (opened j ids).Sound := by
  refine ⟨?_, by rintro g ⟨⟩⟩
  have fresh : ((Canvas.restore .null).complete ids).1.WellFormed :=
    Canvas.wellFormed_initial.complete ids
  rcases opening_eq_ok w c opening with rfl | rfl
  · cases held : w.stored with
    | none =>
        rw [document, held]
        exact fresh
    | some d =>
        obtain ⟨kept, wellFormed, read⟩ := sound.stored d held
        have shown : ((Canvas.restore w.document).complete ids).1 = kept.withSelection := by
          rw [document, held]
          dsimp only
          rw [read, wellFormed.restore_toJson, Canvas.complete_sketch]
        rw [Workspace.opened, shown]
        exact wellFormed.withSelection
  · exact fresh

theorem Sound.open? (sound : w.Sound) (c : Conditions) (ids : IdSupply) :
    (w.open? c ids).workspace.Sound ∧ ∀ s, (w.open? c ids).result = .ok s → s.Sound := by
  rcases open?_cases w c ids with ⟨s, found, opens⟩ | ⟨e, -, -, opens⟩ | ⟨j, -, opening, opens⟩
  · rw [opens]
    refine ⟨sound, ?_⟩
    intro t same
    cases same
    exact sound.sessions c.epoch s found
  · rw [opens]
    refine ⟨sound, ?_⟩
    intro t same
    cases same
  · rw [opens]
    have opened : (Workspace.opened j ids).Sound := sound.opened opening
    refine ⟨sound.putSession c.epoch opened, ?_⟩
    intro t same
    cases same
    exact opened

theorem Sound.commit (sound : w.Sound) {change : Change} (changed : change.session.Sound) :
    (w.commit c change ids).workspace.Sound := by
  have put := sound.putSession c.epoch changed
  rcases commit_cases w c ids change with ⟨stored, ends, kept⟩ | ⟨fault, -, -, -, ends⟩
  · rw [ends]
    refine ⟨put.sessions, ?_⟩
    intro d held
    rcases kept with same | ⟨-, written⟩
    · exact sound.stored d (same ▸ held)
    · obtain rfl := Option.some.inj (written.symm.trans held)
      exact ⟨c.storage.kept change.session.canvas, c.storage.wellFormed_kept changed.canvas,
        Document.read_write c.storage change.session.canvas⟩
  · rw [ends]
    exact put

theorem Sound.runTask (sound : w.Sound) {task : Task} (taskSound : task.Sound)
    (fresh : ∀ role position, task = .add role position → w.NewNode c ids) :
    (w.runTask c task ids).workspace.Sound := by
  obtain ⟨after, opened⟩ := sound.open? c ids
  rcases runTask_cases w c ids task with
    ⟨e, -, ends⟩ | ⟨s, opens, ⟨e, rest, -, ends⟩ | ⟨change, rest, ran, ends⟩⟩
  · rw [ends]
    exact sound
  · rw [ends]
    exact after
  · rw [ends]
    refine after.commit ((opened s opens).run taskSound ?_ ran)
    intro role position same
    exact fresh role position same s opens

theorem Sound.perform (sound : w.Sound) {op : Operation}
    (fresh : ∀ role position, op = .add role position → w.NewNode c ids) :
    (w.perform c op ids).workspace.Sound := by
  rw [Workspace.perform]
  cases read : op.task with
  | error e => exact sound
  | ok task =>
      apply sound.runTask (Operation.sound_task read)
      rintro role position rfl
      cases op with
      | add r p => exact fresh r p rfl
      | importText text confirmed =>
          obtain ⟨-, g, -, same⟩ := Operation.task_importText read
          cases same
      | reset confirmed => cases (Operation.task_reset read).2
      | _ => cases read

theorem Sound.begin (sound : w.Sound) : (w.begin c ids).workspace.Sound := by
  obtain ⟨after, opened⟩ := sound.open? c ids
  rw [Workspace.begin]
  split
  · rename_i opens
    rw [opens] at after
    exact after
  · rename_i s _ _ opens
    rw [opens] at after opened
    exact after.putSession c.epoch (opened s rfl).supersede

theorem Sound.finish (sound : w.Sound) (epoch ticket : Nat)
    {result : Except Generation.Failure Graph} (valid : ∀ g, result = .ok g → g.Valid) :
    (w.finish epoch ticket result).2.Sound := by
  rw [Workspace.finish]
  split
  · exact sound
  · rename_i s found
    exact sound.putSession epoch ((sound.sessions epoch s found).settle ticket valid)

end Steps

end Workspace

namespace Studio

def Sound (s : Studio) : Prop := ∀ name, (s.workspace name).Sound

/-- A node that is added gets an identifier that no node of its canvas has. -/
def AddsNew (s : Studio) : Event → Prop
  | .perform name (.add _ _) => (s.workspace name).NewNode s.conditions s.ids
  | _ => True

/-- Every node that is added on a run gets an identifier that is new where it is added. -/
def AddsNewAlong : Studio → List Event → Prop
  | _, [] => True
  | s, e :: events => s.AddsNew e ∧ AddsNewAlong (s.next e) events

section Runs

variable {s : Studio}

theorem lasts_sound : Lasts (fun _ w => w.Sound) AddsNew := by
  constructor
  case perform =>
    intro s name op fresh sound
    refine sound.perform ?_
    rintro role position rfl
    exact fresh
  case begin => exact fun c w ids sound => sound.begin
  case finish =>
    intro c w epoch ticket service request response sound
    exact sound.finish epoch ticket fun _ ok => Generation.valid_of_run ok
  case faults => exact fun s save load w _ sound => sound
  case restart => exact fun s w sound => sound

theorem Sound.next (sound : s.Sound) (e : Event) (fresh : s.AddsNew e) : (s.next e).Sound :=
  lasts_sound.next sound fresh

theorem Sound.run (sound : s.Sound) (events : List Event) (fresh : s.AddsNewAlong events) :
    (s.run events).Sound := by
  induction events generalizing s with
  | nil => exact sound
  | cons e events ih => exact ih (sound.next e fresh.1) fresh.2

theorem Sound.perform_draw (sound : s.Sound) {name : String} {session : Workspace.Session}
    (shown : s.session? name = some session) {g : Graph} (pending : session.pending = some g)
    (overlooked : ∀ fault, s.conditions.saveFault = some fault → fault.isOverlookedOnSave = true) :
    (s.perform name (.draw true)).1 = .ok (.canvas (g.layOut.complete s.ids).1) := by
  have drawable := ((sound name).sessions s.conditions.epoch session shown).drawable pending
  have opens := Workspace.open?_of_session s.ids shown
  have drawn : session.draw true s.ids =
      (.ok (session.supersede.replace g s.ids).1, (session.supersede.replace g s.ids).2) := by
    rw [Workspace.Session.draw, drawable]
  have ends := Workspace.result_commit (s.workspace name) (session.supersede.replace g s.ids).2
    overlooked (session.supersede.replace g s.ids).1
  rw [perform, Workspace.perform, Workspace.Operation.task]
  simp only [Workspace.runTask, opens, Workspace.Task.run, drawn, ends]
  rfl

theorem sound_start (storage : Workspace.Storage) (service : Generation.Service) :
    (start storage service).Sound := by
  intro name
  rw [workspace_start]
  exact Workspace.sound_untouched

/-- Every session of a run from an empty store shows a well-formed canvas and holds an accepted
graph, if any, which can then be drawn. -/
theorem run_sound {storage : Workspace.Storage} {service : Generation.Service}
    {events : List Event} (fresh : (start storage service).AddsNewAlong events) :
    (∀ name epoch session,
      (((start storage service).run events).workspace name).session? epoch = some session →
        session.canvas.WellFormed ∧
          ∀ g, session.pending = some g → Graph.reason? g.toJson = none) ∧
      ∀ name session, ((start storage service).run events).session? name = some session →
        session.pending ≠ none →
          (∀ fault, ((start storage service).run events).conditions.saveFault = some fault →
            fault.isOverlookedOnSave = true) →
          ∃ c, (((start storage service).run events).perform name (.draw true)).1 =
            .ok (.canvas c) := by
  have sound := (sound_start storage service).run events fresh
  constructor
  · intro name epoch session found
    obtain ⟨canvas, pending⟩ := (sound name).sessions epoch session found
    refine ⟨canvas, ?_⟩
    intro g held
    exact Graph.reason?_eq_none_iff.mpr ⟨g, (pending g held).read_toJson⟩
  · intro name session shown held overlooked
    obtain ⟨g, pending⟩ := Option.ne_none_iff_exists'.mp held
    exact ⟨_, sound.perform_draw shown pending overlooked⟩

def additions : List Event :=
  [.perform "w" (.add .user .origin), .restart, .perform "w" (.add .assistant .origin),
    .hold "t" "w" ⟨"Greet", some "key"⟩
      (.reply (.record [("text", .text ("\x7b\"nodes\": [\x7b\"id\": \"a\", \"role\": \"user\", " ++
        "\"label\": \"A\", \"content\": \"Hi\"\x7d], \"edges\": []\x7d"))])),
    .release "t"]

theorem run_sound_additions :
    (start .memory ⟨"", "m"⟩).AddsNewAlong additions ∧
      ∃ session, ((start .memory ⟨"", "m"⟩).run additions).session? "w" = some session ∧
        session.pending ≠ none ∧ session.canvas.WellFormed ∧
          ∃ c, (((start .memory ⟨"", "m"⟩).run additions).perform "w" (.draw true)).1 =
            .ok (.canvas c) := by
  have fresh : (start .memory ⟨"", "m"⟩).AddsNewAlong additions := by
    refine ⟨?_, trivial, ?_, trivial, trivial, trivial⟩
    · intro s shown
      cases shown
      decide
    · intro s shown
      cases shown
      decide
  have generated : (((start .memory ⟨"", "m"⟩).run additions).session? "w").any
      (fun session => session.pending.isSome) = true := by decide +kernel
  have saves : ((start .memory ⟨"", "m"⟩).run additions).conditions.saveFault = none := by
    decide +kernel
  obtain ⟨sound, draws⟩ := run_sound fresh
  refine ⟨fresh, ?_⟩
  generalize (start .memory ⟨"", "m"⟩).run additions = s at generated saves sound draws ⊢
  cases shown : s.session? "w" with
  | none =>
      rw [shown] at generated
      cases generated
  | some session =>
      rw [shown] at generated
      have held : session.pending ≠ none := Option.isSome_iff_ne_none.mp generated
      refine ⟨session, rfl, held, (sound "w" s.conditions.epoch session shown).1, ?_⟩
      apply draws "w" session shown held
      intro fault faulty
      rw [saves] at faulty
      cases faulty

end Runs

end Studio

end PromptCanvas
