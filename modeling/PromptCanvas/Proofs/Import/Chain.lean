import PromptCanvas.Proofs.Canvas.Walk
import PromptCanvas.Proofs.Graph.Typed
import PromptCanvas.Proofs.Import.Dialects
import PromptCanvas.Proofs.Import.Sanitizing
import PromptCanvas.Proofs.Text.Digits

/-! # Imported chains

A text that is not blank and holds no JSON graph is imported as a chain (`read_chain`):
its steps are numbered in order, each leads to the next, and their contents are not blank.
Such a chain is refused for nothing but the role of a step, and if it is accepted its
transcript lists the steps in order.

The roles are names of roles wherever the text has no foreign letter; with one of them
a step may stand for a role and have a role that there is not (`read_longS`). -/

set_option autoImplicit false

namespace PromptCanvas.Import

open Text (foreignLetters)

namespace Step

section Identifiers

theorem toList_idOf (n : Nat) : (idOf n).toList = "import-".toList ++ Nat.toDigits 10 n := by
  simp [idOf, toString, Nat.repr]

theorem idOf_injective : Function.Injective idOf := by
  intro m n same
  have spelled := congrArg String.toList same
  rw [toList_idOf, toList_idOf] at spelled
  rw [← Numeral.natOf_toDigits m, List.append_cancel_left spelled, Numeral.natOf_toDigits]

theorem idOf_ne_empty (n : Nat) : idOf n ≠ "" := by
  rw [ne_eq, ← String.toList_inj, toList_idOf]
  exact List.append_ne_nil_of_left_ne_nil (by decide) _

def firstIds (n : Nat) : List String := (List.range n).map fun i => idOf (i + 1)

theorem mem_firstIds {n i : Nat} (inside : i < n) : idOf (i + 1) ∈ firstIds n :=
  List.mem_map_of_mem (List.mem_range.mpr inside)

theorem nodup_firstIds (n : Nat) : (firstIds n).Nodup :=
  List.nodup_range.map fun _ _ same => Nat.succ_injective (idOf_injective same)

theorem linked_firstIds (n : Nat) :
    linked (firstIds n) = (List.range (n - 1)).map fun i => (idOf (i + 1), idOf (i + 2)) := by
  apply List.ext_getElem
  · simp [linked, firstIds]
  · intro i _ _
    simp [linked, firstIds]

end Identifiers

section Fields

theorem fields_toJson (s : Step) (n : Nat) :
    (s.toJson n).field "id" = .string (idOf n) ∧ (s.toJson n).field "role" = .string s.role ∧
      (s.toJson n).field "label" = .string s.label ∧
      (s.toJson n).field "content" = .string s.content :=
  ⟨rfl, rfl, rfl, rfl⟩

theorem getElem?_nodesFrom (steps : List Step) :
    ∀ n i, (nodesFrom n steps)[i]? = steps[i]?.map fun s : Step => s.toJson (n + i) := by
  induction steps with
  | nil => intro n i; rfl
  | cons s steps ih =>
      intro n i
      cases i with
      | zero => rfl
      | succ i =>
          rw [nodesFrom, List.getElem?_cons_succ, List.getElem?_cons_succ, ih,
            Nat.succ_add_eq_add_succ]

theorem nodesFrom_eq (steps : List Step) (n : Nat) :
    nodesFrom n steps = steps.mapIdx fun i s => s.toJson (n + i) := by
  apply List.ext_getElem?
  intro i
  rw [getElem?_nodesFrom, List.getElem?_mapIdx]

theorem length_nodesFrom (steps : List Step) : ∀ n, (nodesFrom n steps).length = steps.length := by
  induction steps with
  | nil => intro n; rfl
  | cons s steps ih => intro n; rw [nodesFrom, List.length_cons, List.length_cons, ih]

theorem mem_nodesFrom {steps : List Step} {n : Nat} {j : Json} (member : j ∈ nodesFrom n steps) :
    ∃ i, ∃ s : Step, steps[i]? = some s ∧ j = s.toJson (n + i) := by
  obtain ⟨i, place⟩ := List.mem_iff_getElem?.mp member
  rw [getElem?_nodesFrom] at place
  obtain ⟨s, listed, same⟩ := Option.map_eq_some_iff.mp place
  exact ⟨i, s, listed, same.symm⟩

theorem map_nodesFrom {β : Type} {f : Json → β} {g : Step → β}
    (same : ∀ n (s : Step), f (s.toJson n) = g s) (steps : List Step) :
    ∀ n, (nodesFrom n steps).map f = steps.map g := by
  induction steps with
  | nil => intro n; rfl
  | cons s steps ih => intro n; rw [nodesFrom, List.map_cons, List.map_cons, same, ih]

theorem map_idOf_nodesFrom (steps : List Step) :
    (nodesFrom 1 steps).map Graph.idOf = firstIds steps.length := by
  apply List.ext_getElem?
  intro i
  rw [List.getElem?_map, getElem?_nodesFrom, firstIds, List.getElem?_map]
  by_cases inside : i < steps.length
  · rw [List.getElem?_eq_getElem inside, List.getElem?_range inside, Nat.add_comm 1 i]
    rfl
  · rw [List.getElem?_eq_none (by omega), List.getElem?_eq_none (by simpa using inside)]
    rfl

def links (n : Nat) : List Json := (List.range (n - 1)).map fun i => link (i + 1)

theorem map_endsOf_links (n : Nat) : (links n).map Graph.endsOf = linked (firstIds n) := by
  rw [linked_firstIds, links, List.map_map]
  rfl

end Fields

section Validity

variable {steps : List Step}

theorem nodeDescribed_toJson {s : Step} (n : Nat) (solid : Text.trimmed s.content ≠ "")
    (exported : (Role.exportedOfName? s.role).isSome) : Graph.NodeDescribed (s.toJson n) :=
  ⟨rfl, ⟨_, rfl, idOf_ne_empty n⟩, ⟨_, (Graph.isSome_exportedOfName?_iff _).mp exported, rfl⟩,
    ⟨_, rfl⟩, ⟨_, rfl, solid⟩⟩

theorem edgeDescribed_link {n i : Nat} (inside : i + 1 < n) :
    Graph.EdgeDescribed (firstIds n) (link (i + 1)) := by
  refine ⟨rfl, ⟨_, rfl, idOf_ne_empty _, mem_firstIds (by omega)⟩,
    ⟨_, rfl, idOf_ne_empty _, mem_firstIds inside⟩, ?_⟩
  exact idOf_injective.ne (Nat.ne_of_lt (Nat.lt_succ_self _))

theorem exists_link {n i : Nat} (several : 1 < n) (inside : i < n) :
    ∃ e ∈ links n, (Graph.endsOf e).1 = idOf (i + 1) ∨ (Graph.endsOf e).2 = idOf (i + 1) := by
  by_cases further : i + 1 < n
  · exact ⟨link (i + 1), List.mem_map_of_mem (List.mem_range.mpr (by omega)), .inl rfl⟩
  · obtain ⟨k, rfl⟩ : ∃ k, i = k + 1 := ⟨i - 1, by omega⟩
    exact ⟨link (k + 1), List.mem_map_of_mem (List.mem_range.mpr (by omega)), .inr rfl⟩

theorem described_chain (nonempty : steps ≠ []) (solid : ∀ s ∈ steps, Text.trimmed s.content ≠ "")
    (exported : ∀ s ∈ steps, (Role.exportedOfName? s.role).isSome) :
    Graph.Described (chain steps) (nodesFrom 1 steps) (links steps.length) := by
  refine ⟨rfl, rfl, rfl, ?_, ?_, ?_, ?_, ?_⟩
  · rw [← List.length_pos_iff, length_nodesFrom]
    exact List.length_pos_iff.mpr nonempty
  · intro j member
    obtain ⟨i, s, listed, rfl⟩ := mem_nodesFrom member
    have inside := List.mem_of_getElem? listed
    exact nodeDescribed_toJson _ (solid s inside) (exported s inside)
  · rw [map_idOf_nodesFrom]
    exact nodup_firstIds _
  · intro e member
    obtain ⟨i, inside, rfl⟩ := List.mem_map.mp member
    rw [List.mem_range] at inside
    rw [map_idOf_nodesFrom]
    exact edgeDescribed_link (by omega)
  · intro several j member
    obtain ⟨i, s, listed, rfl⟩ := mem_nodesFrom member
    obtain ⟨inside, -⟩ := List.getElem?_eq_some_iff.mp listed
    rw [length_nodesFrom] at several
    rw [Nat.add_comm 1 i]
    exact exists_link several inside

theorem acyclic_links (n : Nat) : Acyclic ((links n).map Graph.endsOf) := by
  rw [map_endsOf_links]
  exact acyclic_linked (nodup_firstIds n)

theorem of_read_chain {g : Graph} (accepted : Graph.read (chain steps) = .ok g) :
    g.ids = firstIds steps.length ∧ g.pairs = linked g.ids := by
  obtain ⟨nodes, edges, described, -, rfl⟩ := (Graph.read_eq_ok_iff g).mp accepted
  obtain rfl : nodesFrom 1 steps = nodes := Json.array.inj described.nodesField
  obtain rfl : links steps.length = edges := Json.array.inj described.edgesField
  rw [Graph.ids_graphOf, Graph.pairs_graphOf, map_idOf_nodesFrom, map_endsOf_links]
  exact ⟨rfl, rfl⟩

theorem transcript_chain {g : Graph} (accepted : Graph.read (chain steps) = .ok g)
    (ids : IdSupply) :
    (Transcript.of (g.layOut.complete ids).1.nodes (g.layOut.complete ids).1.edges).steps.map
      Transcript.Step.id = firstIds steps.length := by
  obtain ⟨listed, joined⟩ := of_read_chain accepted
  rw [(Graph.valid_of_read accepted).transcript_linked joined ids, listed]

end Validity

section Refusals

theorem condition_of_not_exported {r : Role} (other : Role.exportedOfName? r.name = none) :
    r = .condition := by
  cases exported : r.isExported with
  | true =>
      rw [Graph.exportedOfName?_name exported] at other
      cases other
  | false =>
      cases r with
      | condition => rfl
      | _ => cases exported

/-- The nodes of some steps are read, or the first role that is not exported is refused. -/
theorem readNodes_nodesFrom {steps : List Step} :
    ∀ (n : Nat) (seen : List String), (∀ s ∈ steps, Text.trimmed s.content ≠ "") →
      (∀ k, n ≤ k → idOf k ∉ seen) →
      (∀ s ∈ steps, (Role.exportedOfName? s.role).isSome) ∨
        ∃ i s, steps[i]? = some s ∧ Role.exportedOfName? s.role = none ∧
          Graph.readNodes seen (nodesFrom n steps) = .error (.badRole (idOf (n + i))) := by
  induction steps with
  | nil =>
      intro n seen _ _
      exact .inl (List.forall_mem_nil _)
  | cons s steps ih =>
      intro n seen solid new
      have fresh : idOf n ∉ seen := new n (Nat.le_refl n)
      rw [List.forall_mem_cons] at solid
      by_cases exported : (Role.exportedOfName? s.role).isSome
      · have first : Graph.readNode seen (s.toJson n) = .ok (Graph.nodeOf (s.toJson n)) :=
          (Graph.readNode_eq_ok_iff _ _ _).mpr
            ⟨nodeDescribed_toJson n solid.1 exported, fresh, rfl⟩
        have newer : ∀ k, n + 1 ≤ k → idOf k ∉ idOf n :: seen := by
          intro k later
          rw [List.mem_cons, not_or]
          exact ⟨idOf_injective.ne (by omega), new k (by omega)⟩
        rcases ih (n + 1) (idOf n :: seen) solid.2 newer with rest | ⟨i, t, listed, other, refused⟩
        · exact .inl (List.forall_mem_cons.mpr ⟨exported, rest⟩)
        · refine .inr ⟨i + 1, t, listed, other, ?_⟩
          have next : (Graph.nodeOf (s.toJson n)).id = idOf n := rfl
          simp only [nodesFrom, Graph.readNodes, first, next, refused, Nat.succ_add_eq_add_succ]
      · rw [Option.not_isSome_iff_eq_none] at exported
        have named : Graph.nonEmpty? ((s.toJson n).field "id") = some (idOf n) :=
          (Graph.nonEmpty?_eq_some_iff _ _).mpr ⟨rfl, idOf_ne_empty n⟩
        have role : ((s.toJson n).field "role").string? = some s.role := rfl
        refine .inr ⟨0, s, rfl, exported, ?_⟩
        simp [nodesFrom, Graph.readNodes, Graph.readNode, named, fresh, role, exported]

theorem read_chain_error {steps : List Step} {reason : Graph.Reason} (nonempty : steps ≠ [])
    (solid : ∀ s ∈ steps, Text.trimmed s.content ≠ "")
    (refused : Graph.read (chain steps) = .error reason) :
    ∃ i s, steps[i]? = some s ∧ (∀ r : Role, s.role = r.name → r = .condition) ∧
      reason = .badRole (idOf (i + 1)) := by
  rcases readNodes_nodesFrom 1 [] solid (fun _ _ => List.not_mem_nil) with
    exported | ⟨i, s, listed, other, stops⟩
  · have accepted := (Graph.read_eq_ok_iff _).mpr
      ⟨_, _, described_chain nonempty solid exported, acyclic_links _, rfl⟩
    rw [accepted] at refused
    cases refused
  · refine ⟨i, s, listed, fun r named => condition_of_not_exported (named ▸ other), ?_⟩
    have some : nodesFrom 1 steps ≠ [] := by
      rw [← List.length_pos_iff, length_nodesFrom]
      exact List.length_pos_iff.mpr nonempty
    have nodesField : (chain steps).field "nodes" = .array (nodesFrom 1 steps) := rfl
    have edgesField : (chain steps).field "edges" = .array (links steps.length) := rfl
    have object : (chain steps).isObject = true := rfl
    rw [Graph.read, if_pos object] at refused
    simp only [nodesField, edgesField, Graph.readArrays, List.isEmpty_iff, some, if_false, stops,
      Except.error.injEq] at refused
    rw [← refused, Nat.add_comm 1 i]

end Refusals

end Step

section Chains

/-- The value has the given nodes, at least one of them: they are numbered in order, each
leads to the next and there is no other edge, and their labels are texts and their contents
texts that are not blank. -/
structure IsChain (j : Json) (nodes : List Json) : Prop where
  nodesField : j.field "nodes" = .array nodes
  nonempty : nodes ≠ []
  ids : nodes.map (fun n => n.field "id") =
    (List.range nodes.length).map fun i => .string (Step.idOf (i + 1))
  edgesField : j.field "edges" = .array ((List.range (nodes.length - 1)).map fun i =>
    .object [("from", .string (Step.idOf (i + 1))), ("to", .string (Step.idOf (i + 2)))])
  label : ∀ n ∈ nodes, ∃ label, n.field "label" = .string label
  content : ∀ n ∈ nodes, ∃ content, n.field "content" = .string content ∧
    Text.trimmed content ≠ ""

theorem isChain_chain {cs : List Char} {steps : List Step} (all : AllTold cs steps) :
    IsChain (Step.chain steps) (Step.nodesFrom 1 steps) := by
  have counted := Step.length_nodesFrom steps 1
  constructor
  case nodesField => rfl
  case nonempty =>
    rw [← List.length_pos_iff, counted]
    exact List.length_pos_iff.mpr all.nonempty
  case ids =>
    have strings : (Step.nodesFrom 1 steps).map (fun n => n.field "id") =
        ((Step.nodesFrom 1 steps).map Graph.idOf).map Json.string := by
      rw [List.map_map]
      refine List.map_congr_left fun n member => ?_
      obtain ⟨i, s, -, rfl⟩ := Step.mem_nodesFrom member
      rfl
    rw [strings, Step.map_idOf_nodesFrom, counted, Step.firstIds, List.map_map]
    rfl
  case edgesField =>
    rw [counted]
    rfl
  case label =>
    intro n member
    obtain ⟨i, s, -, rfl⟩ := Step.mem_nodesFrom member
    exact ⟨s.label, rfl⟩
  case content =>
    intro n member
    obtain ⟨i, s, listed, rfl⟩ := Step.mem_nodesFrom member
    exact ⟨s.content, rfl, (all.told s (List.mem_of_getElem? listed)).content⟩

/-- A text that is not blank and holds no JSON graph is imported as a chain whose roles the
text gives; they are names of roles if the text has no foreign letter.  The chain is refused
only for a role that is not exported, and if it is accepted its transcript lists its steps
in order. -/
theorem read_chain {text : String} (solid : Text.isBlankString text = false)
    (prose : jsonGraph text.toList = .ok none) :
    ∃ j nodes, read text = .ok (some j) ∧ IsChain j nodes ∧
      (∀ n ∈ nodes, ∃ role, n.field "role" = .string role ∧ GivesRole text.toList role) ∧
      (∀ refusal, Graph.ensure j = .error refusal → ∃ (i : Nat) (n : Json), nodes[i]? = some n ∧
        refusal = .invalid (.badRole (Step.idOf (i + 1))) ∧
        ∀ r : Role, n.field "role" = .string r.name → r = .condition) ∧
      ((∀ c ∈ text.toList, c ∉ foreignLetters) →
        (∀ n ∈ nodes, ∃ r : Role, n.field "role" = .string r.name) ∧
        ∀ refusal, Graph.ensure j = .error refusal →
          ∃ n ∈ nodes, n.field "role" = .string Role.condition.name) ∧
      ∀ g, Graph.ensure j = .ok g → ∀ ids : IdSupply,
        (Transcript.of (g.layOut.complete ids).1.nodes (g.layOut.complete ids).1.edges).steps.map
          Transcript.Step.id = (List.range nodes.length).map fun i => Step.idOf (i + 1) := by
  have visible : Text.trim text.toList ≠ [] := by
    rw [ne_eq, ← Text.isBlankText_iff, ← Text.isBlankString, solid]
    exact Bool.false_ne_true
  rw [← jsonGraph_trim] at prose
  obtain ⟨steps, found, all⟩ := read_eq_chain visible prose
  have given : ∀ n ∈ Step.nodesFrom 1 steps,
      ∃ role, n.field "role" = .string role ∧ GivesRole text.toList role := by
    intro n member
    obtain ⟨i, s, listed, rfl⟩ := Step.mem_nodesFrom member
    exact ⟨s.role, rfl,
      (all.told s (List.mem_of_getElem? listed)).role.of_subset (Outline.trim_subset _)⟩
  have refused : ∀ refusal, Graph.ensure (Step.chain steps) = .error refusal →
      ∃ (i : Nat) (n : Json), (Step.nodesFrom 1 steps)[i]? = some n ∧
        refusal = .invalid (.badRole (Step.idOf (i + 1))) ∧
        ∀ r : Role, n.field "role" = .string r.name → r = .condition := by
    intro refusal ensured
    obtain ⟨reason, checked, rfl⟩ := Graph.ensure_eq_error_iff.mp ensured
    obtain ⟨i, s, listed, other, rfl⟩ := Step.read_chain_error all.nonempty
      (fun s member => (all.told s member).content) checked
    have place : (Step.nodesFrom 1 steps)[i]? = some (s.toJson (1 + i)) := by
      rw [Step.getElem?_nodesFrom, listed]
      rfl
    exact ⟨i, _, place, rfl, fun r named => other r (Json.string.inj named)⟩
  refine ⟨Step.chain steps, Step.nodesFrom 1 steps, found, isChain_chain all, given, refused,
    fun plain => ?_, fun g ensured ids => ?_⟩
  · have named : ∀ n ∈ Step.nodesFrom 1 steps, ∃ r : Role, n.field "role" = .string r.name := by
      intro n member
      obtain ⟨role, field, gives⟩ := given n member
      obtain ⟨r, rfl⟩ := gives.isName plain
      exact ⟨r, field⟩
    refine ⟨named, fun refusal ensured => ?_⟩
    obtain ⟨i, n, place, -, other⟩ := refused refusal ensured
    have member := List.mem_of_getElem? place
    obtain ⟨r, field⟩ := named n member
    obtain rfl := other r field
    exact ⟨n, member, field⟩
  · rw [Step.transcript_chain (Graph.ensure_eq_ok_iff.mp ensured) ids, Step.length_nodesFrom,
      Step.firstIds]

def twoBlocks : String := "[1] SYSTEM\n1.1 Be brief.\n\n[2] User\n2.1 Hi.\nAgain."

theorem read_chain_blocks :
    ∃ j nodes, read twoBlocks = .ok (some j) ∧ IsChain j nodes ∧
      ∀ n ∈ nodes, ∃ r : Role, n.field "role" = .string r.name := by
  have solid : Text.isBlankString twoBlocks = false := by decide +kernel
  have prose : (jsonGraph twoBlocks.toList).toOption.map Option.isNone = some true := by
    decide +kernel
  have plain : (twoBlocks.toList.all fun c => decide (c ∉ foreignLetters)) = true := by
    decide +kernel
  obtain ⟨j, nodes, found, chain, -, -, named, -⟩ :=
    read_chain solid (Document.eq_ok_none_of_isNone prose)
  exact ⟨j, nodes, found, chain, (named (List.all_iff_forall_prop.mp plain)).1⟩

/-- The long s stands for an s and is none in lower case: what is told is a system step, and
its role is none that there is. -/
theorem read_longS :
    Text.isBlankString "\u017fystem: hi" = false ∧
      jsonGraph "\u017fystem: hi".toList = .ok none ∧
      read "\u017fystem: hi" = .ok (some (Step.chain [⟨"\u017fystem", "System", "hi"⟩])) ∧
      (∀ r : Role, r.name ≠ "\u017fystem") ∧
      Graph.ensure (Step.chain [⟨"\u017fystem", "System", "hi"⟩]) =
        .error (.invalid (.badRole "import-1")) := by
  have prose : (jsonGraph "\u017fystem: hi".toList).toOption.map Option.isNone = some true := by
    decide +kernel
  have none := Document.eq_ok_none_of_isNone prose
  have trimmed : Text.trim "\u017fystem: hi".toList = "\u017fystem: hi".toList := by
    decide +kernel
  have others : bracketBlocks "\u017fystem: hi".toList = .none ∧
      numberedOutline "\u017fystem: hi".toList = .none ∧
      roleBlocks "\u017fystem: hi".toList = .none := by
    decide +kernel
  have told : roleLines "\u017fystem: hi".toList = some [⟨"\u017fystem", "System", "hi"⟩] := by
    decide +kernel
  refine ⟨by decide +kernel, none, ?_, fun r => by cases r <;> decide, rfl⟩
  rw [read, trimmed]
  simp only [told?, dialects, List.findSome?, none, others, told, Option.map_some]

end Chains

end PromptCanvas.Import
