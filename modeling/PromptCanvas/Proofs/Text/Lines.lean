import PromptCanvas.Proofs.Text.Trim
import PromptCanvas.Text.Lines

/-! # Cutting and joining lines

Lines that are joined and cut again are the same lines (`lines_intercalate`); no
line holds a line break, and every other character of a text stands in a line.  Joined texts have
the blanks at their ends that the first and the last have (`trim_intercalate`). -/

set_option autoImplicit false

namespace PromptCanvas.Text

section Splitting

theorem splitOn_eq (sep : Char) (cs : List Char) : splitOn sep cs = cs.splitOn sep := by
  induction cs with
  | nil => rfl
  | cons c cs ih =>
      rw [splitOn, ih, List.splitOn_cons_eq_if_modifyHead]
      by_cases same : c = sep
      · simp [same]
      · rw [if_neg same, if_neg (by simpa using same)]
        rcases cut : cs.splitOn sep with _ | ⟨first, others⟩
        · exact absurd cut (List.splitOn_ne_nil sep cs)
        · rfl

theorem exists_splitOn (sep : Char) (cs : List Char) :
    ∃ first others, splitOn sep cs = first :: others :=
  List.exists_cons_of_ne_nil (by rw [splitOn_eq]; exact List.splitOn_ne_nil sep cs)

theorem splitOn_append (sep : Char) (front back : List Char) :
    splitOn sep (front ++ sep :: back) = splitOn sep front ++ splitOn sep back := by
  rw [splitOn_eq, splitOn_eq, splitOn_eq]
  exact List.splitOnP_append_cons front back (beq_self_eq_true sep)

theorem lines_intercalate {ls : List (List Char)} (nonempty : ls ≠ [])
    (unbroken : ∀ l ∈ ls, '\n' ∉ l) : lines (List.intercalate ['\n'] ls) = ls := by
  rw [lines, splitOn_eq]
  exact List.splitOn_intercalate '\n' unbroken nonempty

theorem not_mem_of_mem_splitOn {sep : Char} (cs : List Char) :
    ∀ l ∈ splitOn sep cs, sep ∉ l := by
  induction cs with
  | nil => simp [splitOn]
  | cons c cs ih =>
      rw [splitOn]
      split
      · simpa using ih
      · rename_i other
        generalize splitOn sep cs = parts at ih ⊢
        rcases parts with _ | ⟨first, others⟩
        · simpa using Ne.symm other
        · rw [List.forall_mem_cons] at ih ⊢
          exact ⟨by simpa [Ne.symm other] using ih.1, ih.2⟩

theorem subset_of_mem_splitOn {sep : Char} (cs : List Char) : ∀ l ∈ splitOn sep cs, l ⊆ cs := by
  induction cs with
  | nil => simp [splitOn]
  | cons c cs ih =>
      rw [splitOn]
      split
      · intro l member
        rcases List.mem_cons.mp member with rfl | later
        · exact List.nil_subset _
        · exact List.subset_cons_of_subset c (ih l later)
      · generalize splitOn sep cs = parts at ih ⊢
        rcases parts with _ | ⟨first, others⟩
        · simp
        · rw [List.forall_mem_cons] at ih ⊢
          exact ⟨List.cons_subset_cons c ih.1,
            fun l later => List.subset_cons_of_subset c (ih.2 l later)⟩

theorem exists_mem_splitOn {sep : Char} (cs : List Char) {c : Char} (member : c ∈ cs)
    (other : c ≠ sep) : ∃ l ∈ splitOn sep cs, c ∈ l := by
  induction cs with
  | nil => cases member
  | cons d cs ih =>
      rw [splitOn]
      rcases List.mem_cons.mp member with rfl | inside
      · rw [if_neg other]
        split
        · exact ⟨[c], by simp, by simp⟩
        · rename_i first others _
          exact ⟨c :: first, by simp, by simp⟩
      · obtain ⟨l, listed, within⟩ := ih inside
        generalize splitOn sep cs = parts at listed ⊢
        split
        · exact ⟨l, List.mem_cons_of_mem _ listed, within⟩
        · rcases parts with _ | ⟨first, others⟩
          · cases listed
          · rcases List.mem_cons.mp listed with rfl | later
            · exact ⟨d :: l, by simp, List.mem_cons_of_mem _ within⟩
            · exact ⟨l, List.mem_cons_of_mem _ later, within⟩

end Splitting

section Joining

variable {sep : List Char} {texts : List (List Char)}

/-- Behind the first text every other one stands with a separator before it. -/
theorem intercalate_cons (sep text : List Char) (texts : List (List Char)) :
    List.intercalate sep (text :: texts) = text ++ texts.flatMap (sep ++ ·) := by
  induction texts generalizing text with
  | nil => rw [List.intercalate_singleton, List.flatMap_nil, List.append_nil]
  | cons next more ih =>
      rw [List.intercalate_cons_cons, ih, List.flatMap_cons, List.append_assoc, List.append_assoc]

theorem intercalate_ne_nil (visible : ∀ text ∈ texts, text ≠ []) (some : texts ≠ []) :
    List.intercalate sep texts ≠ [] := by
  obtain ⟨text, more, rfl⟩ := List.exists_cons_of_ne_nil some
  rw [intercalate_cons]
  exact List.append_ne_nil_of_left_ne_nil (visible text List.mem_cons_self) _

theorem trim_intercalate (trimmed : ∀ text ∈ texts, trim text = text)
    (visible : ∀ text ∈ texts, text ≠ []) :
    trim (List.intercalate sep texts) = List.intercalate sep texts := by
  induction texts with
  | nil => rfl
  | cons text texts ih =>
      obtain ⟨own, others⟩ := List.forall_mem_cons.mp trimmed
      obtain ⟨first, rest⟩ := List.forall_mem_cons.mp visible
      by_cases last : texts = []
      · rwa [last, List.intercalate_singleton]
      · have head : SolidHead text := ((trim_eq_self_iff _).mp own).1
        have ends : SolidLast (List.intercalate sep texts) :=
          ((trim_eq_self_iff _).mp (ih others rest)).2
        have more : List.intercalate sep texts ≠ [] := intercalate_ne_nil rest last
        obtain ⟨next, following, rfl⟩ := List.exists_cons_of_ne_nil last
        rw [List.intercalate_cons_cons]
        exact trim_eq_append (solidHead_append head first sep) ends
          (List.append_ne_nil_of_left_ne_nil first sep) more

theorem not_mem_intercalate {c : Char} (other : c ∉ sep) (without : ∀ text ∈ texts, c ∉ text) :
    c ∉ List.intercalate sep texts := by
  cases texts with
  | nil => exact List.not_mem_nil
  | cons text texts =>
      obtain ⟨first, others⟩ := List.forall_mem_cons.mp without
      rw [intercalate_cons, List.mem_append, List.mem_flatMap]
      rintro (inside | ⟨next, listed, within⟩)
      · exact first inside
      · exact (List.mem_append.mp within).elim other (others next listed)

end Joining

end PromptCanvas.Text
