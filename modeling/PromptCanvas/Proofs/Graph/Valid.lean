import PromptCanvas.Proofs.Graph.Validity

/-! # Valid graphs

`Graph.Valid`: the conditions on a graph itself under which its value is accepted.
Every graph that was read is valid (`valid_of_read`), and a valid graph that is
written is read as it was (`Valid.read_toJson`). -/

set_option autoImplicit false

namespace PromptCanvas.Graph

section Conditions

structure Valid (g : Graph) : Prop where
  nonempty : g.nodes ≠ []
  named : ∀ n ∈ g.nodes, n.id ≠ ""
  exported : ∀ n ∈ g.nodes, n.role.isExported = true
  solid : ∀ n ∈ g.nodes, Text.trimmed n.content ≠ ""
  distinct : g.ids.Nodup
  closed : ∀ e ∈ g.edges, e.source ∈ g.ids ∧ e.target ∈ g.ids
  loopless : ∀ e ∈ g.edges, e.source ≠ e.target
  touched : 1 < g.nodes.length → ∀ n ∈ g.nodes, ∃ e ∈ g.edges, e.source = n.id ∨ e.target = n.id
  acyclic : Acyclic g.pairs

theorem Valid.acyclic_known {g : Graph} (valid : g.Valid) : Acyclic (Sweep.known g.ids g.pairs) := by
  rw [known_eq_pairs valid.closed]
  exact valid.acyclic

theorem isExported_exportedOfName? {s : String} {r : Role}
    (named : Role.exportedOfName? s = some r) : r.isExported = true := by
  have member := List.mem_of_find?_eq_some named
  exact (List.mem_filter.mp member).2

theorem Described.valid {j : Json} {nodes edges : List Json} (described : Described j nodes edges)
    (acyclic : Acyclic (edges.map endsOf)) : (graphOf nodes edges).Valid := by
  constructor
  case nonempty => simpa [graphOf] using described.nonempty
  case named =>
    intro n member
    obtain ⟨k, node, rfl⟩ := List.mem_map.mp member
    obtain ⟨id, idField, nonempty⟩ := (described.node k node).id
    simpa [nodeOf, idOf, stringField_eq idField] using nonempty
  case exported =>
    intro n member
    obtain ⟨k, node, rfl⟩ := List.mem_map.mp member
    obtain ⟨name, listed, roleField⟩ := (described.node k node).role
    obtain ⟨role, named⟩ :=
      Option.isSome_iff_exists.mp ((isSome_exportedOfName?_iff name).mpr listed)
    simpa [nodeOf, stringField_eq roleField, named] using isExported_exportedOfName? named
  case solid =>
    intro n member
    obtain ⟨k, node, rfl⟩ := List.mem_map.mp member
    obtain ⟨content, contentField, solid⟩ := (described.node k node).content
    simpa [nodeOf, stringField_eq contentField] using solid
  case distinct =>
    rw [ids_graphOf]
    exact described.distinct
  case closed => exact described.closed
  case loopless =>
    intro e member
    obtain ⟨k, edge, rfl⟩ := List.mem_map.mp member
    exact (described.edge k edge).distinct
  case touched => exact (orphan?_eq_none_iff _).mp described.orphan?_eq_none
  case acyclic =>
    rw [pairs_graphOf]
    exact acyclic

theorem valid_of_read {j : Json} {g : Graph} (ok : read j = .ok g) : g.Valid := by
  obtain ⟨nodes, edges, described, acyclic, rfl⟩ := (read_eq_ok_iff g).mp ok
  exact described.valid acyclic

end Conditions

section Writing

theorem Node.fields_toJson (n : Node) :
    n.toJson.field "id" = .string n.id ∧ n.toJson.field "role" = .string n.role.name ∧
      n.toJson.field "label" = .string n.label ∧ n.toJson.field "content" = .string n.content := by
  simp [Node.toJson, Json.field, List.lookup_cons]

theorem Edge.fields_toJson (e : Edge) :
    e.toJson.field "from" = .string e.source ∧ e.toJson.field "to" = .string e.target := by
  simp [Edge.toJson, Json.field, List.lookup_cons]

theorem fields_toJson (g : Graph) :
    g.toJson.field "nodes" = .array (g.nodes.map Node.toJson) ∧
      g.toJson.field "edges" = .array (g.edges.map Edge.toJson) := by
  simp [toJson, Json.field, List.lookup_cons]

theorem idOf_toJson (n : Node) : idOf n.toJson = n.id := stringField_eq n.fields_toJson.1

theorem exportedOfName?_name {r : Role} (exported : r.isExported = true) :
    Role.exportedOfName? r.name = some r := by
  cases r with
  | condition => cases exported
  | _ => decide

theorem nodeOf_toJson {n : Node} (exported : n.role.isExported = true) : nodeOf n.toJson = n := by
  obtain ⟨_, role, label, content⟩ := n.fields_toJson
  simp [nodeOf, idOf_toJson, stringField_eq role, stringField_eq label, stringField_eq content,
    exportedOfName?_name exported]

theorem edgeOf_toJson (e : Edge) : edgeOf e.toJson = e := by
  obtain ⟨source, target⟩ := e.fields_toJson
  simp [edgeOf, stringField_eq source, stringField_eq target]

theorem endsOf_toJson (e : Edge) : endsOf e.toJson = e.pair := by
  obtain ⟨source, target⟩ := e.fields_toJson
  simp [endsOf, stringField_eq source, stringField_eq target, Edge.pair]

variable {g : Graph}

theorem map_idOf_toJson (g : Graph) : (g.nodes.map Node.toJson).map idOf = g.ids := by
  rw [List.map_map]
  exact List.map_congr_left fun n _ => idOf_toJson n

theorem Valid.described (valid : g.Valid) :
    Described g.toJson (g.nodes.map Node.toJson) (g.edges.map Edge.toJson) := by
  refine ⟨rfl, g.fields_toJson.1, g.fields_toJson.2, ?_, ?_, ?_, ?_, ?_⟩
  · simpa using valid.nonempty
  · intro k member
    obtain ⟨n, node, rfl⟩ := List.mem_map.mp member
    obtain ⟨id, role, label, content⟩ := n.fields_toJson
    have listed : n.role.name ∈ ["system", "user", "assistant"] := by
      rw [← isSome_exportedOfName?_iff, exportedOfName?_name (valid.exported n node)]
      rfl
    exact ⟨rfl, ⟨_, id, valid.named n node⟩, ⟨_, listed, role⟩, ⟨_, label⟩,
      ⟨_, content, valid.solid n node⟩⟩
  · rw [map_idOf_toJson]
    exact valid.distinct
  · intro k member
    obtain ⟨e, edge, rfl⟩ := List.mem_map.mp member
    obtain ⟨source, target⟩ := e.fields_toJson
    have named : ∀ id ∈ g.ids, id ≠ "" := by
      intro id listed
      obtain ⟨n, node, rfl⟩ := List.mem_map.mp listed
      exact valid.named n node
    obtain ⟨sourceKnown, targetKnown⟩ := valid.closed e edge
    rw [map_idOf_toJson]
    refine ⟨rfl, ⟨_, source, named _ sourceKnown, sourceKnown⟩,
      ⟨_, target, named _ targetKnown, targetKnown⟩, ?_⟩
    rw [endsOf_toJson]
    exact valid.loopless e edge
  · intro several k member
    obtain ⟨n, node, rfl⟩ := List.mem_map.mp member
    obtain ⟨e, edge, touching⟩ := valid.touched (by simpa using several) n node
    refine ⟨e.toJson, List.mem_map_of_mem edge, ?_⟩
    rw [endsOf_toJson, idOf_toJson]
    exact touching

theorem Valid.read_toJson (valid : g.Valid) : read g.toJson = .ok g := by
  have pairs : (g.edges.map Edge.toJson).map endsOf = g.pairs := by
    rw [List.map_map]
    exact List.map_congr_left fun e _ => endsOf_toJson e
  have nodes : (g.nodes.map Node.toJson).map nodeOf = g.nodes := by
    rw [List.map_map]
    refine (List.map_congr_left fun n member => ?_).trans (List.map_id g.nodes)
    exact nodeOf_toJson (valid.exported n member)
  have edges : (g.edges.map Edge.toJson).map edgeOf = g.edges := by
    rw [List.map_map]
    exact (List.map_congr_left fun e _ => edgeOf_toJson e).trans (List.map_id g.edges)
  refine (read_eq_ok_iff g).mpr ⟨_, _, valid.described, pairs ▸ valid.acyclic, ?_⟩
  rw [graphOf, nodes, edges]

end Writing

end PromptCanvas.Graph
