import PromptCanvas.Graph.Reading
import PromptCanvas.Proofs.Graph.Tiers
import PromptCanvas.Proofs.Text.Trim

/-! # What a valid graph is

`Graph.Described`: the conditions on a value, read off the value itself, under which
it describes a graph apart from cycles.  `read_eq_ok_iff` and `read_eq_cyclic_iff`
say that reading succeeds, or fails for a cycle alone, exactly under these conditions,
and `reason?_iff` says it of the reason that is shown. -/

set_option autoImplicit false

namespace PromptCanvas.Graph

section Descriptions

def stringField (j : Json) (name : String) : String := (j.field name).string?.getD ""

def idOf (j : Json) : String := stringField j "id"

def endsOf (j : Json) : String × String := (stringField j "from", stringField j "to")

def nodeOf (j : Json) : Node :=
  ⟨idOf j, ((Role.exportedOfName? (stringField j "role")).getD .user), stringField j "label",
    stringField j "content"⟩

def edgeOf (j : Json) : Edge := ⟨stringField j "from", stringField j "to"⟩

/-- An object with an identifier, an exported role, a label, and content that is not blank. -/
structure NodeDescribed (j : Json) : Prop where
  object : j.isObject = true
  id : ∃ s, j.field "id" = .string s ∧ s ≠ ""
  role : ∃ s ∈ ["system", "user", "assistant"], j.field "role" = .string s
  label : ∃ s, j.field "label" = .string s
  content : ∃ s, j.field "content" = .string s ∧ Text.trimmed s ≠ ""

structure EdgeDescribed (ids : List String) (j : Json) : Prop where
  object : j.isObject = true
  source : ∃ s, j.field "from" = .string s ∧ s ≠ "" ∧ s ∈ ids
  target : ∃ s, j.field "to" = .string s ∧ s ≠ "" ∧ s ∈ ids
  distinct : (endsOf j).1 ≠ (endsOf j).2

/-- A value with these nodes and edges, all of them as they should be. -/
structure Described (j : Json) (nodes edges : List Json) : Prop where
  object : j.isObject = true
  nodesField : j.field "nodes" = .array nodes
  edgesField : j.field "edges" = .array edges
  nonempty : nodes ≠ []
  node : ∀ n ∈ nodes, NodeDescribed n
  distinct : (nodes.map idOf).Nodup
  edge : ∀ e ∈ edges, EdgeDescribed (nodes.map idOf) e
  touched : 1 < nodes.length → ∀ n ∈ nodes, ∃ e ∈ edges,
    (endsOf e).1 = idOf n ∨ (endsOf e).2 = idOf n

end Descriptions

section Scalars

theorem nonEmpty?_eq_some_iff (j : Json) (s : String) :
    nonEmpty? j = some s ↔ j = .string s ∧ s ≠ "" := by
  cases j with
  | string t =>
      by_cases empty : t = ""
      · simp [nonEmpty?, empty]
      · simp [nonEmpty?, empty]
        rintro rfl
        exact empty
  | _ => simp [nonEmpty?]

theorem string?_eq_some_iff (j : Json) (s : String) : j.string? = some s ↔ j = .string s := by
  cases j <;> simp [Json.string?]

theorem isObject_of_field {j : Json} (name : String) (present : j.field name ≠ .null) :
    j.isObject = true := by
  cases j with
  | object => rfl
  | _ => exact absurd rfl present

theorem isSome_exportedOfName?_iff (s : String) :
    (Role.exportedOfName? s).isSome ↔ s ∈ ["system", "user", "assistant"] := by
  simp [Role.exportedOfName?, Role.exported, Role.all, Role.isExported, Role.name, eq_comm (a := s)]

end Scalars

section Nodes

theorem stringField_eq {j : Json} {name s : String} (holds : j.field name = .string s) :
    stringField j name = s := by
  rw [stringField, holds]
  rfl

theorem readNode_eq_ok_iff (seen : List String) (j : Json) (n : Node) :
    readNode seen j = .ok n ↔ NodeDescribed j ∧ idOf j ∉ seen ∧ n = nodeOf j := by
  constructor
  · intro read
    unfold readNode at read
    split at read
    · cases read
    · next id idRead =>
        obtain ⟨idField, idNonempty⟩ := (nonEmpty?_eq_some_iff _ _).mp idRead
        split at read
        · cases read
        · next new =>
            split at read
            · cases read
            · next role roleRead =>
                obtain ⟨name, nameRead, roleNamed⟩ := Option.bind_eq_some_iff.mp roleRead
                have roleField := (string?_eq_some_iff _ _).mp nameRead
                split at read
                · cases read
                · next label labelRead =>
                    have labelField := (string?_eq_some_iff _ _).mp labelRead
                    split at read
                    · cases read
                    · next content contentRead =>
                        have contentField := (string?_eq_some_iff _ _).mp contentRead
                        split at read
                        · cases read
                        · next solid =>
                            cases read
                            have listed : name ∈ ["system", "user", "assistant"] :=
                              (isSome_exportedOfName?_iff name).mp (roleNamed ▸ rfl)
                            have idEq : idOf j = id := stringField_eq idField
                            refine ⟨⟨isObject_of_field "id" (idField ▸ by simp),
                              ⟨id, idField, idNonempty⟩, ⟨name, listed, roleField⟩,
                              ⟨label, labelField⟩, ⟨content, contentField, ?_⟩⟩, ?_, ?_⟩
                            · exact fun blank => solid ((Text.isBlankString_iff content).mpr blank)
                            · simpa [idEq] using new
                            · simp [nodeOf, idEq, stringField_eq roleField, roleNamed,
                                stringField_eq labelField, stringField_eq contentField]
  · rintro ⟨described, new, rfl⟩
    obtain ⟨id, idField, idNonempty⟩ := described.id
    obtain ⟨name, listed, roleField⟩ := described.role
    obtain ⟨label, labelField⟩ := described.label
    obtain ⟨content, contentField, solid⟩ := described.content
    have idEq : idOf j = id := stringField_eq idField
    obtain ⟨role, roleNamed⟩ :=
      Option.isSome_iff_exists.mp ((isSome_exportedOfName?_iff name).mpr listed)
    have shown : Text.isBlankString content = false := by
      rw [← Bool.not_eq_true, Text.isBlankString_iff]
      exact solid
    rw [idEq] at new
    simp [readNode, idField, (nonEmpty?_eq_some_iff (.string id) id).mpr ⟨rfl, idNonempty⟩, new,
      roleField, Json.string?, roleNamed, labelField, contentField, shown, nodeOf, idEq,
      stringField_eq roleField, stringField_eq labelField, stringField_eq contentField]

theorem readNode_ne_cyclic (seen : List String) (j : Json) : readNode seen j ≠ .error .cyclic := by
  unfold readNode
  repeat' split
  all_goals simp

theorem readNodes_eq_ok_iff (js : List Json) : ∀ (seen : List String) (ns : List Node),
    readNodes seen js = .ok ns ↔
      (∀ j ∈ js, NodeDescribed j) ∧ (js.map idOf).Nodup ∧ (∀ j ∈ js, idOf j ∉ seen) ∧
        ns = js.map nodeOf := by
  induction js with
  | nil => intro seen ns; simp [readNodes, eq_comm]
  | cons j rest ih =>
      intro seen ns
      have nodeId : (nodeOf j).id = idOf j := rfl
      constructor
      · intro read
        rw [readNodes] at read
        split at read
        · cases read
        · next n first =>
            obtain ⟨described, new, rfl⟩ := (readNode_eq_ok_iff seen j n).mp first
            split at read
            · cases read
            · next others more =>
                cases read
                obtain ⟨all, distinct, fresh, rfl⟩ := (ih _ _).mp more
                simp only [nodeId, List.mem_cons, not_or] at fresh
                refine ⟨?_, ?_, ?_, rfl⟩
                · simpa using ⟨described, all⟩
                · rw [List.map_cons, List.nodup_cons]
                  refine ⟨?_, distinct⟩
                  simp only [List.mem_map, not_exists, not_and]
                  exact fun other member => (fresh other member).1
                · simpa using ⟨new, fun other member => (fresh other member).2⟩
      · rintro ⟨all, distinct, fresh, rfl⟩
        rw [List.map_cons, List.nodup_cons] at distinct
        have first : readNode seen j = .ok (nodeOf j) := (readNode_eq_ok_iff _ _ _).mpr
          ⟨all j (List.mem_cons_self ..), fresh j (List.mem_cons_self ..), rfl⟩
        have more : readNodes ((nodeOf j).id :: seen) rest = .ok (rest.map nodeOf) := by
          refine (ih _ _).mpr ⟨fun k member => all k (List.mem_cons_of_mem _ member), distinct.2,
            fun k member => ?_, rfl⟩
          rw [nodeId, List.mem_cons, not_or]
          refine ⟨fun same => distinct.1 (List.mem_map.mpr ⟨k, member, same⟩), ?_⟩
          exact fresh k (List.mem_cons_of_mem _ member)
        simp only [readNodes, first, more, List.map_cons]

theorem readNodes_ne_cyclic (js : List Json) : ∀ seen, readNodes seen js ≠ .error .cyclic := by
  induction js with
  | nil => intro seen; simp [readNodes]
  | cons j rest ih =>
      intro seen read
      rw [readNodes] at read
      split at read
      · next first => exact readNode_ne_cyclic seen j (by rw [first, ← Except.error.inj read])
      · next n _ =>
          split at read
          · next more => exact ih _ (by rw [more, ← Except.error.inj read])
          · cases read

end Nodes

section Edges

theorem readEdge_eq_ok_iff (ids : List String) (j : Json) (e : Edge) :
    readEdge ids j = .ok e ↔ EdgeDescribed ids j ∧ e = edgeOf j := by
  constructor
  · intro read
    unfold readEdge at read
    split at read
    · next source target sourceRead targetRead =>
        obtain ⟨sourceField, sourceNonempty⟩ := (nonEmpty?_eq_some_iff _ _).mp sourceRead
        obtain ⟨targetField, targetNonempty⟩ := (nonEmpty?_eq_some_iff _ _).mp targetRead
        split at read
        · cases read
        · next known =>
            split at read
            · cases read
            · next distinct =>
                cases read
                simp only [Bool.not_eq_true', Bool.and_eq_false_iff, not_or, Bool.not_eq_false,
                  List.contains_iff_mem] at known
                have sourceEq := stringField_eq sourceField
                have targetEq := stringField_eq targetField
                refine ⟨⟨isObject_of_field "from" (sourceField ▸ by simp),
                  ⟨source, sourceField, sourceNonempty, known.1⟩,
                  ⟨target, targetField, targetNonempty, known.2⟩, ?_⟩, ?_⟩
                · simpa [endsOf, sourceEq, targetEq] using distinct
                · simp [edgeOf, sourceEq, targetEq]
    · cases read
  · rintro ⟨described, rfl⟩
    obtain ⟨source, sourceField, sourceNonempty, sourceKnown⟩ := described.source
    obtain ⟨target, targetField, targetNonempty, targetKnown⟩ := described.target
    have distinct := described.distinct
    simp only [endsOf, stringField_eq sourceField, stringField_eq targetField] at distinct
    simp [readEdge, sourceField, targetField,
      (nonEmpty?_eq_some_iff (.string source) source).mpr ⟨rfl, sourceNonempty⟩,
      (nonEmpty?_eq_some_iff (.string target) target).mpr ⟨rfl, targetNonempty⟩, sourceKnown,
      targetKnown, distinct, edgeOf, stringField_eq sourceField, stringField_eq targetField]

theorem readEdge_ne_cyclic (ids : List String) (j : Json) : readEdge ids j ≠ .error .cyclic := by
  unfold readEdge
  repeat' split
  all_goals simp

theorem readEdges_eq_ok_iff (ids : List String) (js : List Json) : ∀ es : List Edge,
    readEdges ids js = .ok es ↔ (∀ j ∈ js, EdgeDescribed ids j) ∧ es = js.map edgeOf := by
  induction js with
  | nil => intro es; simp [readEdges, eq_comm]
  | cons j rest ih =>
      intro es
      constructor
      · intro read
        rw [readEdges] at read
        split at read
        · cases read
        · next e first =>
            obtain ⟨described, rfl⟩ := (readEdge_eq_ok_iff ids j e).mp first
            split at read
            · cases read
            · next others more =>
                cases read
                obtain ⟨all, rfl⟩ := (ih _).mp more
                exact ⟨by simpa using ⟨described, all⟩, rfl⟩
      · rintro ⟨all, rfl⟩
        have first : readEdge ids j = .ok (edgeOf j) :=
          (readEdge_eq_ok_iff _ _ _).mpr ⟨all j (List.mem_cons_self ..), rfl⟩
        have more : readEdges ids rest = .ok (rest.map edgeOf) :=
          (ih _).mpr ⟨fun k member => all k (List.mem_cons_of_mem _ member), rfl⟩
        simp only [readEdges, first, more, List.map_cons]

theorem readEdges_ne_cyclic (ids : List String) (js : List Json) :
    readEdges ids js ≠ .error .cyclic := by
  induction js with
  | nil => simp [readEdges]
  | cons j rest ih =>
      intro read
      rw [readEdges] at read
      split at read
      · next first => exact readEdge_ne_cyclic ids j (by rw [first, ← Except.error.inj read])
      · split at read
        · next more => exact ih (by rw [more, ← Except.error.inj read])
        · cases read

end Edges

section Structure

theorem orphan?_eq_none_iff (g : Graph) :
    g.orphan? = none ↔
      (1 < g.nodes.length → ∀ n ∈ g.nodes, ∃ e ∈ g.edges, e.source = n.id ∨ e.target = n.id) := by
  unfold orphan?
  split
  · next several =>
      simp only [several, true_imp_iff, List.find?_eq_none, ids, List.mem_map, Bool.not_eq_true,
        List.all_eq_false, Bool.and_eq_true, bne_iff_ne, ne_eq, not_and_or, Decidable.not_not,
        forall_exists_index, and_imp, forall_apply_eq_imp_iff₂]
  · next single => simp [single]

theorem known_eq_pairs {g : Graph}
    (closed : ∀ e ∈ g.edges, e.source ∈ g.ids ∧ e.target ∈ g.ids) :
    Sweep.known g.ids g.pairs = g.pairs := by
  apply List.filter_eq_self.mpr
  intro pair member
  obtain ⟨e, edge, rfl⟩ := List.mem_map.mp member
  simpa [Edge.pair] using closed e edge

theorem isAcyclic_iff {g : Graph} (distinct : g.ids.Nodup)
    (closed : ∀ e ∈ g.edges, e.source ∈ g.ids ∧ e.target ∈ g.ids) :
    g.isAcyclic = true ↔ Acyclic g.pairs := by
  have counted := length_settled_iff distinct g.pairs
  rw [known_eq_pairs closed] at counted
  rw [isAcyclic, beq_iff_eq, ← counted, ids, List.length_map]

def graphOf (nodes edges : List Json) : Graph := ⟨nodes.map nodeOf, edges.map edgeOf⟩

theorem ids_graphOf (nodes edges : List Json) : (graphOf nodes edges).ids = nodes.map idOf := by
  simp only [ids, graphOf, List.map_map]
  rfl

theorem pairs_graphOf (nodes edges : List Json) :
    (graphOf nodes edges).pairs = edges.map endsOf := by
  simp only [pairs, graphOf, List.map_map]
  rfl

variable {j : Json} {nodes edges : List Json}

theorem Described.closed (described : Described j nodes edges) :
    ∀ e ∈ (graphOf nodes edges).edges,
      e.source ∈ (graphOf nodes edges).ids ∧ e.target ∈ (graphOf nodes edges).ids := by
  intro e member
  obtain ⟨k, edge, rfl⟩ := List.mem_map.mp member
  obtain ⟨source, sourceField, _, sourceKnown⟩ := (described.edge k edge).source
  obtain ⟨target, targetField, _, targetKnown⟩ := (described.edge k edge).target
  rw [ids_graphOf]
  simp only [edgeOf, stringField_eq sourceField, stringField_eq targetField]
  exact ⟨sourceKnown, targetKnown⟩

theorem Described.isAcyclic_iff (described : Described j nodes edges) :
    (graphOf nodes edges).isAcyclic = true ↔ Acyclic (edges.map endsOf) := by
  rw [← pairs_graphOf nodes]
  exact Graph.isAcyclic_iff (by rw [ids_graphOf]; exact described.distinct) described.closed

theorem Described.orphan?_eq_none (described : Described j nodes edges) :
    (graphOf nodes edges).orphan? = none := by
  refine (orphan?_eq_none_iff _).mpr ?_
  intro several n member
  obtain ⟨k, node, rfl⟩ := List.mem_map.mp member
  obtain ⟨e, edge, touching⟩ := described.touched (by simpa [graphOf] using several) k node
  exact ⟨edgeOf e, List.mem_map.mpr ⟨e, edge, rfl⟩, touching⟩

/-- The arrays of a described value are read up to the search for a cycle. -/
theorem Described.read_eq (described : Described j nodes edges) :
    read j = if (graphOf nodes edges).isAcyclic then .ok (graphOf nodes edges)
      else .error .cyclic := by
  have nodesRead : readNodes [] nodes = .ok (nodes.map nodeOf) :=
    (readNodes_eq_ok_iff nodes [] _).mpr ⟨described.node, described.distinct, by simp, rfl⟩
  have edgesRead : readEdges ((nodes.map nodeOf).map Node.id) edges = .ok (edges.map edgeOf) := by
    refine (readEdges_eq_ok_iff _ edges _).mpr ⟨?_, rfl⟩
    have same : (nodes.map nodeOf).map Node.id = nodes.map idOf := ids_graphOf nodes edges
    exact same ▸ described.edge
  have whole := described.orphan?_eq_none
  simp only [graphOf] at whole
  simp only [read, described.object, if_true, described.nodesField, described.edgesField,
    readArrays, List.isEmpty_iff, described.nonempty, if_false, nodesRead, edgesRead,
    checkStructure, whole, graphOf]
  rfl

/-- A reading that comes to the search for a cycle is that of a described value. -/
theorem described_of_read (reading : (∃ g, read j = .ok g) ∨ read j = .error .cyclic) :
    ∃ nodes edges, Described j nodes edges := by
  have stops : ∀ r : Reason, r ≠ .cyclic → read j ≠ .error r := by
    intro r other failed
    rcases reading with ⟨g, ok⟩ | cyclic
    · simp [ok] at failed
    · rw [cyclic] at failed
      exact other (Except.error.inj failed).symm
  unfold read at stops
  split at stops
  · next object =>
      split at stops
      · next nodes edges nodesField edgesField =>
          unfold readArrays at stops
          split at stops
          · exact absurd rfl (stops .noNodes (by simp))
          · next nonempty =>
              split at stops
              · next r failed =>
                  exact absurd rfl (stops r fun h => readNodes_ne_cyclic nodes [] (h ▸ failed))
              · next ns nodesRead =>
                  obtain ⟨node, distinct, _, rfl⟩ := (readNodes_eq_ok_iff nodes [] ns).mp nodesRead
                  have same : (nodes.map nodeOf).map Node.id = nodes.map idOf :=
                    ids_graphOf nodes edges
                  split at stops
                  · next r failed =>
                      exact absurd rfl (stops r fun h => readEdges_ne_cyclic _ edges (h ▸ failed))
                  · next es edgesRead =>
                      obtain ⟨edge, rfl⟩ := (readEdges_eq_ok_iff _ edges es).mp edgesRead
                      rw [same] at edge
                      unfold checkStructure at stops
                      split at stops
                      · exact absurd rfl (stops _ (by simp))
                      · next whole =>
                          refine ⟨nodes, edges, object, nodesField, edgesField,
                            by simpa using nonempty, node, distinct, edge, ?_⟩
                          intro several n member
                          obtain ⟨e, edge, touching⟩ := (orphan?_eq_none_iff _).mp whole
                            (by simpa using several) (nodeOf n) (List.mem_map_of_mem member)
                          obtain ⟨k, kEdge, rfl⟩ := List.mem_map.mp edge
                          exact ⟨k, kEdge, touching⟩
      · exact absurd rfl (stops .notArrays (by simp))
  · exact absurd rfl (stops .notObject (by simp))

end Structure

section Reasons

variable {j : Json}

/-- Reading succeeds exactly on what describes a graph without a cycle. -/
theorem read_eq_ok_iff (g : Graph) :
    read j = .ok g ↔ ∃ nodes edges, Described j nodes edges ∧ Acyclic (edges.map endsOf) ∧
      g = graphOf nodes edges := by
  constructor
  · intro ok
    obtain ⟨nodes, edges, described⟩ := described_of_read (Or.inl ⟨g, ok⟩)
    rw [described.read_eq] at ok
    split at ok
    · next acyclic =>
        exact ⟨nodes, edges, described, described.isAcyclic_iff.mp acyclic, (Except.ok.inj ok).symm⟩
    · cases ok
  · rintro ⟨nodes, edges, described, acyclic, rfl⟩
    rw [described.read_eq, if_pos (described.isAcyclic_iff.mpr acyclic)]

theorem read_eq_cyclic_iff :
    read j = .error .cyclic ↔
      ∃ nodes edges, Described j nodes edges ∧ ¬ Acyclic (edges.map endsOf) := by
  constructor
  · intro cyclic
    obtain ⟨nodes, edges, described⟩ := described_of_read (Or.inr cyclic)
    rw [described.read_eq] at cyclic
    split at cyclic
    · cases cyclic
    · next found => exact ⟨nodes, edges, described, fun h => found (described.isAcyclic_iff.mpr h)⟩
  · rintro ⟨nodes, edges, described, cyclic⟩
    rw [described.read_eq, if_neg fun h => cyclic (described.isAcyclic_iff.mp h)]

theorem reason?_eq_some_iff (r : Reason) : reason? j = some r ↔ read j = .error r := by
  unfold reason?
  split
  · next other failed => simp [failed]
  · next g ok => simp [ok]

theorem reason?_eq_none_iff : reason? j = none ↔ ∃ g, read j = .ok g := by
  unfold reason?
  split
  · next r failed => simp [failed]
  · next g ok => simp [ok]

theorem message_eq_iff_cyclic (r : Reason) :
    r.message = "Invalid flow: graph must be directed and acyclic." ↔ r = .cyclic := by
  refine ⟨fun same => ?_, fun same => by rw [same]; rfl⟩
  cases r with
  | cyclic => rfl
  | _ =>
      unfold Reason.message at same
      have spelled := congrArg String.toList same
      simp [toString] at spelled

/-- A value is accepted exactly if it describes a graph without a cycle, and refused
for a cycle exactly if a cycle is all that is wrong with it. -/
theorem reason?_iff (j : Json) :
    (reason? j = none ↔
      ∃ nodes edges, Described j nodes edges ∧ Acyclic (edges.map endsOf)) ∧
    ((reason? j).map Reason.message = some "Invalid flow: graph must be directed and acyclic." ↔
      ∃ nodes edges, Described j nodes edges ∧
        ∃ v, Relation.TransGen (Joins (edges.map endsOf)) v v) := by
  constructor
  · rw [reason?_eq_none_iff]
    simp only [read_eq_ok_iff]
    constructor
    · rintro ⟨g, nodes, edges, described, acyclic, _⟩
      exact ⟨nodes, edges, described, acyclic⟩
    · rintro ⟨nodes, edges, described, acyclic⟩
      exact ⟨_, nodes, edges, described, acyclic, rfl⟩
  · have cyclic : (reason? j).map Reason.message =
        some "Invalid flow: graph must be directed and acyclic." ↔ read j = .error .cyclic := by
      rw [← reason?_eq_some_iff, Option.map_eq_some_iff]
      simp only [message_eq_iff_cyclic, exists_eq_right]
    rw [cyclic, read_eq_cyclic_iff]
    simp only [Acyclic, not_forall, not_not]

end Reasons

end PromptCanvas.Graph
