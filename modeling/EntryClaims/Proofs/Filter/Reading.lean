/-
# Reading back the text of a filter tree

The text of a tree is a filter with the meaning of the tree, and a tree has an empty text exactly
when it says nothing.  The reader takes a filter from the front of a text and gives back what
follows it, so every statement about it is made for the text of a filter with any text behind.
The reader's bound never matters: twice the length of a filter is enough for it.
-/
import EntryClaims.Filter.Meaning
import Mathlib.Data.List.Forall2
import Mathlib.Tactic.Lemma

namespace EntryClaims
namespace Filter

/-! ## The trees that can be read back -/

/-- A text `name=value` that stands for itself in a filter: it holds no parenthesis and does not
begin like an operator. -/
structure IsCondition (text : String) : Prop where
  /-- A name and a value. -/
  equals_mem : '=' ∈ text.toList
  /-- Nothing opens inside the condition. -/
  open_not_mem : '(' ∉ text.toList
  /-- Nothing ends the condition early. -/
  close_not_mem : ')' ∉ text.toList
  /-- The first character names no operator. -/
  head_not_mem : ∀ c ∈ text.toList.head?, c ∉ ['&', '|', '!']

/-- A text that may stand in a tree: an operator, nothing, or a condition. -/
inductive IsReadable (text : String) : Prop where
  /-- A conjunction or a disjunction. -/
  | join (h : isJoin text = true)
  /-- A negation. -/
  | negation (h : isNegation text = true)
  /-- An empty text. -/
  | empty (h : text = "")
  /-- A condition. -/
  | condition (h : IsCondition text)

instance (text : String) : Decidable (IsCondition text) :=
  decidable_of_iff ('=' ∈ text.toList ∧ '(' ∉ text.toList ∧ ')' ∉ text.toList
      ∧ text.toList.head?.all (fun c => decide (c ∉ ['&', '|', '!'])) = true)
    ⟨fun ⟨hequals, hopen, hclose, hhead⟩ =>
      ⟨hequals, hopen, hclose, by simpa [Option.all_eq_true] using hhead⟩,
    fun ⟨hequals, hopen, hclose, hhead⟩ =>
      ⟨hequals, hopen, hclose, by simpa [Option.all_eq_true] using hhead⟩⟩

instance (text : String) : Decidable (IsReadable text) :=
  decidable_of_iff (isJoin text = true ∨ isNegation text = true ∨ text = "" ∨ IsCondition text)
    ⟨fun h => h.elim .join (·.elim .negation (·.elim .empty .condition)), fun h =>
      match h with
      | .join h => .inl h
      | .negation h => .inr (.inl h)
      | .empty h => .inr (.inr (.inl h))
      | .condition h => .inr (.inr (.inr h))⟩

mutual

/-- The texts in a tree. -/
def literals : Filter → List String
  | .literal text => [text]
  | .list nodes => literalsOfEach nodes

/-- The texts in the nodes. -/
def literalsOfEach : List Filter → List String
  | [] => []
  | node :: rest => literals node ++ literalsOfEach rest

end

lemma mem_literalsOfEach {nodes : List Filter} {text : String} :
    text ∈ literalsOfEach nodes ↔ ∃ node ∈ nodes, text ∈ literals node := by
  induction nodes with
  | nil => simp [literalsOfEach]
  | cons node rest ih => simp [literalsOfEach, ih]

lemma IsCondition.ne_operator {text : String} (h : IsCondition text) :
    text ≠ "&" ∧ text ≠ "|" ∧ text ≠ "!" ∧ text ≠ "" := by
  refine ⟨?_, ?_, ?_, ?_⟩ <;> rintro rfl <;> exact absurd h.equals_mem (by decide)

lemma headedMeaning_condition {head : String} (h : IsCondition head) (entry : Record)
    (said : List (Option Bool)) :
    headedMeaning entry head said = some (conditionHolds entry head) := by
  simp [headedMeaning, h.ne_operator]

/-! ## Reading -/

variable {entry : Record}

/-- Whatever follows it, the text is read as a filter of which the entry says `said`. -/
def Reads (entry : Record) (text : List Char) (said : Bool) : Prop :=
  ∀ fuel rest, 2 * text.length ≤ fuel → matchAt entry fuel (text ++ rest) = some (said, rest)

lemma Reads.exists_cons {text : List Char} {said : Bool} (h : Reads entry text said) :
    ∃ inner, text = '(' :: inner := by
  have hread := h (2 * text.length + 1) [] (by omega)
  cases text with
  | nil => simp [matchAt] at hread
  | cons c inner =>
    by_cases hc : c = '('
    · exact ⟨inner, by rw [hc]⟩
    · simp [matchAt, hc] at hread

lemma Reads.ne_nil {text : List Char} {said : Bool} (h : Reads entry text said) : text ≠ [] := by
  obtain ⟨inner, rfl⟩ := h.exists_cons
  simp

lemma reads_condition {text : String} (h : IsCondition text) :
    Reads entry ('(' :: text.toList ++ [')']) (conditionHolds entry text) := by
  intro fuel rest hfuel
  obtain ⟨fuel, rfl⟩ : ∃ n, fuel = n + 1 := ⟨fuel - 1, by simp at hfuel; omega⟩
  obtain ⟨name, value, htext, hname⟩ := List.eq_append_cons_of_mem h.equals_mem
  have hsplit : Text.cutOnce '=' text.toList = some (name, value) := by
    rw [htext, Text.cutOnce_append hname]
  have hcut := Text.cutOnce_append h.close_not_mem rest
  rw [conditionHolds, hsplit, List.cons_append, List.cons_append, List.append_assoc,
    List.singleton_append]
  have hhead := h.head_not_mem
  cases hchars : text.toList with
  | nil => simp [hchars] at htext
  | cons c cs =>
    rw [hchars] at hsplit hcut hhead
    have hc : c ≠ '&' ∧ c ≠ '|' ∧ c ≠ '!' := by simpa using hhead c rfl
    rw [List.cons_append] at hcut ⊢
    simp [matchAt, hc, hcut, hsplit]

/-- A run of filters is read to its end, where something else begins. -/
lemma matchEach_flatten {texts : List (List Char)} {said : List Bool}
    (h : List.Forall₂ (Reads entry) texts said) {fuel : Nat} {rest : List Char}
    (hfuel : 2 * texts.flatten.length + 1 ≤ fuel) (hrest : rest.head? ≠ some '(') :
    matchEach entry fuel (texts.flatten ++ rest) = some (said, rest) := by
  induction h generalizing fuel with
  | nil =>
    obtain ⟨fuel, rfl⟩ : ∃ n, fuel = n + 1 := ⟨fuel - 1, by omega⟩
    rw [List.flatten_nil, List.nil_append, matchEach]
    rintro inner rfl
    exact hrest rfl
  | @cons text first texts said hfirst _ ih =>
    obtain ⟨inner, rfl⟩ := hfirst.exists_cons
    obtain ⟨fuel, rfl⟩ : ∃ n, fuel = n + 1 := ⟨fuel - 1, by omega⟩
    rw [List.flatten_cons, List.length_append, List.length_cons] at hfuel
    have hread := hfirst fuel (texts.flatten ++ rest) (by rw [List.length_cons]; omega)
    have hrun : matchEach entry fuel (texts.flatten ++ rest) = some (said, rest) := ih (by omega)
    rw [List.cons_append] at hread
    rw [List.flatten_cons, List.append_assoc, List.cons_append, matchEach, hread]
    simp [hrun]

/-- An operator that combines the operands behind it is read with all of them. -/
lemma reads_join {c : Char} {f : List Bool → Bool}
    (hstep : ∀ fuel rest, matchAt entry (fuel + 1) ('(' :: c :: rest)
      = (matchEach entry fuel rest).bind fun (said, rest) =>
          (close? rest).bind fun rest => some (f said, rest))
    {texts : List (List Char)} {said : List Bool} (h : List.Forall₂ (Reads entry) texts said) :
    Reads entry ('(' :: c :: texts.flatten ++ [')']) (f said) := by
  intro fuel rest hfuel
  obtain ⟨fuel, rfl⟩ : ∃ n, fuel = n + 1 := ⟨fuel - 1, by simp at hfuel; omega⟩
  have hrun : matchEach entry fuel (texts.flatten ++ ')' :: rest) = some (said, ')' :: rest) :=
    matchEach_flatten h (by simp at hfuel ⊢; omega) (by simp)
  simp [hstep, hrun, close?]

lemma reads_all {texts : List (List Char)} {said : List Bool}
    (h : List.Forall₂ (Reads entry) texts said) :
    Reads entry ('(' :: '&' :: texts.flatten ++ [')']) (said.all id) :=
  reads_join (c := '&') (f := fun said => said.all id) (fun _ _ => by simp [matchAt]) h

lemma reads_any {texts : List (List Char)} {said : List Bool}
    (h : List.Forall₂ (Reads entry) texts said) :
    Reads entry ('(' :: '|' :: texts.flatten ++ [')']) (said.any id) :=
  reads_join (c := '|') (f := fun said => said.any id) (fun _ _ => by simp [matchAt]) h

lemma reads_not {text : List Char} {said : Bool} (h : Reads entry text said) :
    Reads entry ('(' :: '!' :: text ++ [')']) (!said) := by
  intro fuel rest hfuel
  obtain ⟨fuel, rfl⟩ : ∃ n, fuel = n + 1 := ⟨fuel - 1, by simp at hfuel; omega⟩
  have hread := h fuel (')' :: rest) (by simp at hfuel; omega)
  simp [matchAt, hread, close?]

/-! ## Texts and meanings -/

/-- The text says `said` of the entry: an empty text says nothing, and any other is read as a
filter that says it. -/
inductive Says (entry : Record) : String → Option Bool → Prop where
  /-- An empty text. -/
  | nothing : Says entry "" none
  /-- The text of a filter. -/
  | something {text : String} {said : Bool} (h : Reads entry text.toList said) :
    Says entry text (some said)

lemma Says.eq_empty_iff {text : String} {said : Option Bool} (h : Says entry text said) :
    text = "" ↔ said = none := by
  cases h with
  | nothing => simp
  | something h => simpa using h.ne_nil

/-- A filter that takes up the whole text is read within the bound. -/
lemma Says.accepts {text : String} {said : Bool} (h : Says entry text (some said)) :
    accepts text entry = said := by
  cases h with
  | something h =>
    have hread := h (2 * text.toList.length + 2) [] (by omega)
    rw [List.append_nil] at hread
    simp [Filter.accepts, hread]

/-- What is left of operands when those that say nothing are dropped. -/
lemma reads_filter {texts : List String} {said : List (Option Bool)}
    (h : List.Forall₂ (Says entry) texts said) :
    List.Forall₂ (fun text said => Reads entry text.toList said)
      (texts.filter (!·.isEmpty)) (said.filterMap id) := by
  induction h with
  | nil => exact .nil
  | @cons text first texts said hfirst _ ih =>
    cases hfirst with
    | nothing => exact ih
    | something hread =>
      have hne : text ≠ "" := by simpa using hread.ne_nil
      rw [List.filter_cons_of_pos (by simpa using hne)]
      exact .cons hread ih

/-- A join of operands says what they say together, if a single one counts as itself and several
are read as their combination. -/
lemma says_joinText {operator : String} {combine : List Bool → Bool}
    (hsingle : ∀ said, combine [said] = said)
    (hseveral : ∀ texts said, List.Forall₂ (Reads entry) texts said →
      Reads entry ('(' :: operator.toList ++ texts.flatten ++ [')']) (combine said))
    {texts : List String} {said : List (Option Bool)}
    (h : List.Forall₂ (Says entry) texts said) :
    Says entry (joinText operator texts) (joinMeaning combine said) := by
  have hfilter := reads_filter h
  rw [joinText, joinMeaning]
  generalize texts.filter (!·.isEmpty) = texts at hfilter
  generalize said.filterMap id = said at hfilter
  cases hfilter with
  | nil => exact .nothing
  | @cons text first texts said hfirst hrest =>
    cases hrest with
    | nil =>
      show Says entry text (some (combine [first]))
      rw [hsingle]
      exact .something hfirst
    | cons hsecond hrest =>
      have hread := hseveral _ _ (List.forall₂_map_left_iff.2 (.cons hfirst (.cons hsecond hrest)))
      refine .something ?_
      simpa [parenthesize, String.toList_join, List.flatMap_def] using hread

lemma says_negationText {texts : List String} {said : List (Option Bool)}
    (h : List.Forall₂ (Says entry) texts said) :
    Says entry (negationText texts) (said.head?.join.map (!·)) := by
  cases h with
  | nil => exact .nothing
  | @cons text first texts said hfirst _ =>
    rw [negationText]
    cases hfirst with
    | nothing => exact .nothing
    | something hread =>
      have hne : text ≠ "" := by simpa using hread.ne_nil
      refine .something ?_
      simpa [parenthesize, hne] using reads_not hread

lemma says_headedText {head : String} (hhead : IsReadable head) {texts : List String}
    {said : List (Option Bool)} (h : List.Forall₂ (Says entry) texts said) :
    Says entry (headedText head texts) (headedMeaning entry head said) := by
  cases hhead with
  | join hjoin =>
    have hhead : head = "&" ∨ head = "|" := by simpa [isJoin] using hjoin
    rcases hhead with rfl | rfl
    · exact says_joinText (by simp) (fun _ _ hread => by simpa using reads_all hread) h
    · exact says_joinText (by simp) (fun _ _ hread => by simpa using reads_any hread) h
  | negation hnegation =>
    obtain rfl : head = "!" := by simpa [isNegation] using hnegation
    exact says_negationText h
  | empty hempty =>
    subst hempty
    exact .nothing
  | condition hcondition =>
    obtain ⟨hall, hany, hnot, hempty⟩ := hcondition.ne_operator
    have hread : Reads entry ('(' :: head.toList ++ [')']) (conditionHolds entry head) :=
      reads_condition hcondition
    have htext : headedText head texts = parenthesize head := by
      simp [headedText, isJoin, isNegation, hall, hany, hnot, hempty]
    rw [htext, headedMeaning_condition hcondition]
    exact .something (by simpa [parenthesize] using hread)

mutual

lemma says_render : (filter : Filter) → (∀ text ∈ literals filter, IsReadable text) →
    Says entry (render filter) (meaning entry filter)
  | .literal text, h => by
    rw [render, meaning]
    exact says_headedText (h text (by simp [literals])) .nil
  | .list nodes, h => by
    rw [render, meaning]
    exact says_renderList nodes h

lemma says_renderList : (nodes : List Filter) → (∀ text ∈ literalsOfEach nodes, IsReadable text) →
    Says entry (renderList nodes) (listMeaning entry nodes)
  | [], _ => by
    rw [renderList, listMeaning]
    exact .nothing
  | .literal head :: operands, h => by
    rw [renderList, listMeaning]
    exact says_headedText (h head (by simp [literals, literalsOfEach]))
      (says_renderEach operands fun text htext => h text (by simp [literalsOfEach, htext]))
  | .list nodes :: operands, h => by
    rw [renderList, listMeaning]
    exact says_renderList nodes fun text htext => h text (by simp [literals, literalsOfEach, htext])

lemma says_renderEach : (nodes : List Filter) → (∀ text ∈ literalsOfEach nodes, IsReadable text) →
    List.Forall₂ (Says entry) (renderEach nodes) (eachMeaning entry nodes)
  | [], _ => by
    rw [renderEach, eachMeaning]
    exact .nil
  | node :: rest, h => by
    rw [renderEach, eachMeaning]
    exact .cons (says_render node fun text htext => h text (by simp [literalsOfEach, htext]))
      (says_renderEach rest fun text htext => h text (by simp [literalsOfEach, htext]))

end

/-- **The text of a tree keeps its meaning.**  Take any tree of operators, empty texts and
conditions.  Its text is empty exactly when the tree says nothing of the entry, and otherwise
the text matches the entry exactly when the tree says so. -/
theorem accepts_render (filter : Filter) (entry : Record)
    (h : ∀ text ∈ literals filter, IsReadable text) :
    (render filter = "" ↔ meaning entry filter = none)
      ∧ ∀ said, meaning entry filter = some said → accepts (render filter) entry = said := by
  have hrender : Says entry (render filter) (meaning entry filter) := says_render filter h
  refine ⟨hrender.eq_empty_iff, fun said hsaid => ?_⟩
  rw [hsaid] at hrender
  exact hrender.accepts

/-- A conjunction with operands that say nothing, a nested list and a negation. -/
theorem accepts_render_nested :
    let filter : Filter := .list [.literal "&", .list [.literal "|", .literal "", .literal "&"],
      .list [.list [.literal "uid=BOB", .literal "cn=x"]],
      .list [.literal "!", .list [.literal "|", .literal "l=*", .literal "cn=Ann=\\2a"]]]
    let entry : Record := ⟨[("uid", .single "bob"), ("CN", .multi ["Ann", "Bob"])], by decide⟩
    (∀ text ∈ literals filter, IsReadable text) ∧ meaning entry filter = some true
      ∧ accepts (render filter) entry = true := by
  intro filter entry
  have hreadable : ∀ text ∈ literals filter, IsReadable text := by decide
  have hsaid : meaning entry filter = some true := by decide
  exact ⟨hreadable, hsaid, (accepts_render filter entry hreadable).2 true hsaid⟩

end Filter
end EntryClaims
