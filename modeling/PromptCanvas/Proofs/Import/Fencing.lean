import PromptCanvas.Proofs.Import.Sanitizing
import PromptCanvas.Proofs.Json.RoundTrip
import PromptCanvas.Proofs.Text.Words

/-! # Documents in a fence

A text that is JSON is parsed and extracted as the value that it spells, and so is its trimmed
text in a code fence, with a tag or without one and whatever stands in its strings
(`extract_accepted`).  The fence that is taken away is the outermost: the closing one is looked
for at the end of the text, and a document neither begins with the tag nor ends with a blank. -/

set_option autoImplicit false

namespace PromptCanvas

namespace Json

section Heads

variable {strict : Bool} {v : Json} {cs : List Char}

theorem Spells.fold_head_ne (spelled : Spells strict v cs) :
    ∀ c ∈ cs.head?, Text.fold c ≠ 'j' := by
  cases spelled with
  | scalar spelled =>
      intro c head
      refine spelled.forall_mem (P := fun c => Text.fold c ≠ 'j') ?_
        (List.all_iff_forall_prop.mp (by decide)) c (List.mem_of_mem_head? head)
      intro d digit same
      rw [Text.fold_of_isDigit digit] at same
      rw [same] at digit
      cases digit
  | string spelled =>
      cases spelled
      rintro c ⟨⟩
      decide
  | noItems | array | noFields | object =>
      rintro c ⟨⟩
      decide

end Heads

end Json

namespace Document

open Json (Spells)

section Fences

/-- A text in a code fence, with a tag behind the opening mark and gaps around the text. -/
def fenced (tag before body after : List Char) : List Char :=
  fence ++ (tag ++ (before ++ (body ++ (after ++ fence))))

/-- No tag, or the tag of JSON documents in any case. -/
def IsTag (tag : List Char) : Prop := tag = [] ∨ tag.map Text.fold = jsonWord

theorem isPrefixOf?_fence (cs : List Char) : fence.isPrefixOf? (fence ++ cs) = some cs := by
  simp [fence, List.isPrefixOf?, List.replicate]

theorem beforeFence?_append (cs : List Char) : beforeFence? (cs ++ fence) = some cs := by
  have mirrored : (cs ++ fence).reverse = fence ++ cs.reverse := by
    rw [List.reverse_append]
    rfl
  rw [beforeFence?, mirrored, isPrefixOf?_fence, Option.map_some, List.reverse_reverse]

theorem dropTag_append {tag : List Char} (isTag : IsTag tag) {rest : List Char}
    (other : ∀ c ∈ rest.head?, Text.fold c ≠ 'j') : dropTag (tag ++ rest) = rest := by
  rcases isTag with rfl | folds
  · have none : Text.word? jsonWord rest = none := Text.word?_of_head other
    rw [dropTag, List.nil_append, none]
  · rw [dropTag, Text.word?_append folds]

variable {tag before body after : List Char} (isTag : IsTag tag)
  (blankBefore : ∀ c ∈ before, Text.isBlank c = true)
  (blankAfter : ∀ c ∈ after, Text.isBlank c = true)

theorem trim_fenced : Text.trim (fenced tag before body after) = fenced tag before body after := by
  simp only [fenced, ← List.append_assoc]
  refine Text.trim_eq_append ?_ ?_ (List.cons_ne_nil _ _) (List.cons_ne_nil _ _)
  · rintro c ⟨⟩
    rfl
  · rintro c ⟨⟩
    rfl

include isTag blankBefore blankAfter

theorem withoutFence_fenced {v : Json} (spelled : Spells true v body) :
    withoutFence (fenced tag before body after) = body := by
  have other : ∀ c ∈ (before ++ (body ++ (after ++ fence))).head?, Text.fold c ≠ 'j' := by
    cases before with
    | nil =>
        intro c head
        rw [List.nil_append, List.head?_append_of_ne_nil _ spelled.edged.nonempty] at head
        exact spelled.fold_head_ne c head
    | cons b before =>
        rintro c ⟨⟩ same
        have blank := blankBefore b (List.mem_cons_self ..)
        rw [Text.fold_of_isBlank blank] at same
        rw [same] at blank
        cases blank
  have inner : dropTag (tag ++ (before ++ (body ++ (after ++ fence)))) =
      before ++ (body ++ after) ++ fence := by
    rw [dropTag_append isTag other, List.append_assoc, List.append_assoc]
  have found : fencedBody? (fenced tag before body after) = some body := by
    rw [fencedBody?, fenced, isPrefixOf?_fence]
    simp only [inner, beforeFence?_append, Option.map_some,
      Text.trim_surrounded blankBefore blankAfter spelled.edged.solidHead
        spelled.edged.solidLast spelled.edged.nonempty]
  rw [withoutFence, trim_fenced, found, Option.getD_some]

end Fences

section Documents

variable {text : List Char} {v : Json}

/-- What is JSON is parsed and extracted as it is, also trimmed in a code fence. -/
theorem extract_accepted (accepted : Json.load text = .ok v) :
    (parseWith false text = .ok v ∧ extract false text = .ok (some v)) ∧
      ∀ tag before after, IsTag tag → (∀ c ∈ before, Text.isBlank c = true) →
        (∀ c ∈ after, Text.isBlank c = true) →
          parseWith false (fenced tag before (Text.trim text) after) = .ok v ∧
            extract false (fenced tag before (Text.trim text) after) = .ok (some v) := by
  have reading := Json.read_of_load accepted
  have spelled := Json.spells_trim_of_read reading
  refine ⟨⟨parseWith_of_parse (parse_of_read reading), extract_of_read reading⟩, ?_⟩
  intro tag before after isTag blankBefore blankAfter
  have bare := withoutFence_fenced isTag blankBefore blankAfter spelled
  have parsed : parse (fenced tag before (Text.trim text) after) = .ok v := by
    rw [parse_congr (bare.trans (withoutFence_edged spelled.edged).symm), parse_trim]
    exact parse_of_read reading
  exact ⟨parseWith_of_parse parsed, extract_of_parse parsed⟩

def quotation : Json := .array [.string "\x60\x60\x60json 1 \x60\x60\x60", .null]

theorem extract_accepted_quotation :
    let text := (Json.render .document quotation).toList
    Json.load text = .ok quotation ∧
      extract false (fenced "JSON".toList ['\n'] (Text.trim text) ['\n']) =
        .ok (some quotation) := by
  have distinct : quotation.Rereadable := ⟨trivial, trivial, trivial⟩
  have accepted : Json.load (Json.render .document quotation).toList = .ok quotation :=
    (Json.load_render .document distinct).trans rfl
  have tag : IsTag "JSON".toList := .inr (by decide)
  exact ⟨accepted,
    ((extract_accepted accepted).2 _ ['\n'] ['\n'] tag (List.forall_mem_singleton.mpr rfl)
      (List.forall_mem_singleton.mpr rfl)).2⟩

end Documents

end Document

end PromptCanvas
