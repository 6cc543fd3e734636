/-
# Looking up and assigning along paths

What an assignment does is seen path by path.  Two paths fork when neither continues the other;
along a path that forks from the assigned one everything stays as it was.  On the way to the
assigned value there are objects, and the assignment is refused exactly when one of the values
on the way is neither null nor an object.
-/
import EntryClaims.Claim.Document
import Mathlib.Tactic.Lemma

namespace EntryClaims
namespace Document

/-- Neither path continues the other. -/
def Forked (names other : List String) : Prop := ¬ names <+: other ∧ ¬ other <+: names

instance (names other : List String) : Decidable (Forked names other) :=
  inferInstanceAs (Decidable (¬ names <+: other ∧ ¬ other <+: names))

lemma Forked.symm {names other : List String} (h : Forked names other) : Forked other names :=
  ⟨h.2, h.1⟩

lemma Forked.ne_nil {names other : List String} (h : Forked names other) : names ≠ [] := by
  rintro rfl
  exact h.1 List.nil_prefix

lemma forked_cons {name : String} {names other : List String} :
    Forked (name :: names) (name :: other) ↔ Forked names other := by
  simp [Forked]

/-- A path that continues the names, but is not continued by them, has a next name. -/
lemma exists_next {names path : List String} (hway : names <+: path) (hnot : ¬ path <+: names) :
    ∃ name rest, names ++ name :: rest = path := by
  obtain ⟨rest, hrest⟩ := hway
  cases rest with
  | nil =>
    rw [List.append_nil] at hrest
    exact absurd (hrest ▸ List.prefix_rfl) hnot
  | cons name rest => exact ⟨name, rest, hrest⟩

/-- Whether an assignment may lead through what is found on its way. -/
def passable : Option Json → Bool
  | none | some .null | some (.object _) => true
  | some _ => false

/-! ## Looking up -/

@[simp] lemma getIn_nil (value : Json) : getIn [] value = some value := by
  cases value <;> rfl

lemma getIn_cons_object (name : String) (names : List String) (fields : Json.Fields) :
    getIn (name :: names) (.object fields) = (fields.lookup name).bind (getIn names) := rfl

lemma getIn_of_no_fields {names : List String} (h : names ≠ []) :
    getIn names (.object []) = none := by
  cases names with
  | nil => exact absurd rfl h
  | cons name names => rfl

/-- Nothing in an empty object blocks a way. -/
lemma passable_of_no_fields (way : List String) : passable (getIn way (.object [])) = true := by
  cases way with
  | nil => rfl
  | cons name way => rfl

/-- Names behind one another are looked up one after the other. -/
lemma getIn_append (names others : List String) (value : Json) :
    getIn (names ++ others) value = (getIn names value).bind (getIn others) := by
  induction names generalizing value with
  | nil => simp
  | cons name rest ih =>
    cases value with
    | object fields =>
      rw [List.cons_append, getIn_cons_object, getIn_cons_object, Option.bind_assoc]
      exact Option.bind_congr fun found _ => ih found
    | _ => rfl

/-! ## Assigning -/

/-- The fields that an assignment goes on with behind a name: those of the object that is there,
and none where there is nothing or null. -/
def inner? (name : String) (fields : Json.Fields) : Option Json.Fields :=
  match fields.lookup name with
  | none | some .null => some []
  | some (.object inner) => some inner
  | some _ => none

lemma setIn_cons_cons (name next : String) (names : List String) (value : Json)
    (fields : Json.Fields) :
    setIn (name :: next :: names) value fields
      = (inner? name fields).bind fun inner =>
          (setIn (next :: names) value inner).map fun updated =>
            Pairs.put name (.object updated) fields := by
  simp only [Option.map_eq_bind]
  rfl

/-- Where an assignment can go on, what is found behind the name is found in the fields that it
goes on with. -/
lemma getIn_cons_of_inner? {name : String} {names : List String} {fields inner : Json.Fields}
    (h : inner? name fields = some inner) (hne : names ≠ []) :
    getIn (name :: names) (.object fields) = getIn names (.object inner) := by
  rw [getIn_cons_object]
  rw [inner?] at h
  cases hlookup : fields.lookup name with
  | none =>
    rw [hlookup, Option.some.injEq] at h
    rw [← h, getIn_of_no_fields hne, Option.bind_none]
  | some there =>
    rw [hlookup] at h
    obtain ⟨next, rest, rfl⟩ := List.exists_cons_of_ne_nil hne
    cases there with
    | null =>
      rw [Option.some.injEq] at h
      subst h
      rfl
    | object fields' =>
      rw [Option.some.injEq] at h
      rw [h, Option.bind_some]
    | _ => simp at h

/-- Along a path that forks from the assigned one everything stays as it was. -/
lemma getIn_setIn_of_forked {names other : List String} {value : Json}
    {fields updated : Json.Fields} (h : setIn names value fields = some updated)
    (hforked : Forked names other) :
    getIn other (.object updated) = getIn other (.object fields) := by
  induction names generalizing other fields updated with
  | nil => exact absurd rfl hforked.ne_nil
  | cons name rest ih =>
    obtain ⟨first, others, rfl⟩ := List.exists_cons_of_ne_nil hforked.symm.ne_nil
    cases rest with
    | nil =>
      have hne : first ≠ name := fun e => hforked.1 (by simp [e])
      rw [setIn, Option.some.injEq] at h
      rw [← h, getIn_cons_object, getIn_cons_object, Pairs.lookup_put_of_ne hne]
    | cons next names =>
      rw [setIn_cons_cons, Option.bind_eq_some_iff] at h
      obtain ⟨inner, hinner, h⟩ := h
      obtain ⟨deeper, hdeeper, rfl⟩ := Option.map_eq_some_iff.1 h
      by_cases hfirst : first = name
      · subst hfirst
        have hrest := forked_cons.1 hforked
        rw [getIn_cons_of_inner? hinner hrest.symm.ne_nil, getIn_cons_object,
          Pairs.lookup_put_self, Option.bind_some]
        exact ih hdeeper hrest
      · rw [getIn_cons_object, getIn_cons_object, Pairs.lookup_put_of_ne hfirst]

/-- On the way to the assigned value there are objects: those that were there, with the next name
stored in them, and new ones. -/
lemma getIn_setIn_way {way rest : List String} {name : String} {value : Json}
    {fields updated : Json.Fields} (h : setIn (way ++ name :: rest) value fields = some updated) :
    ∃ earlier inner, getIn way (.object updated) = some (.object (Pairs.put name inner earlier))
      ∧ (earlier = [] ∨ getIn way (.object fields) = some (.object earlier)) := by
  induction way generalizing fields updated with
  | nil =>
    cases rest with
    | nil =>
      rw [List.nil_append, setIn, Option.some.injEq] at h
      exact ⟨fields, value, by rw [getIn_nil, h], Or.inr (getIn_nil _)⟩
    | cons next names =>
      rw [List.nil_append, setIn_cons_cons, Option.bind_eq_some_iff] at h
      obtain ⟨inner, -, h⟩ := h
      obtain ⟨deeper, -, rfl⟩ := Option.map_eq_some_iff.1 h
      exact ⟨fields, .object deeper, getIn_nil _, Or.inr (getIn_nil _)⟩
  | cons first way ih =>
    obtain ⟨next, names, hnames⟩ :=
      List.exists_cons_of_ne_nil (l := way ++ name :: rest) (by simp)
    rw [List.cons_append, hnames, setIn_cons_cons, Option.bind_eq_some_iff] at h
    obtain ⟨inner, hinner, h⟩ := h
    obtain ⟨deeper, hdeeper, rfl⟩ := Option.map_eq_some_iff.1 h
    rw [← hnames] at hdeeper
    obtain ⟨earlier, stored, hfound, hearlier⟩ := ih hdeeper
    refine ⟨earlier, stored, ?_, ?_⟩
    · rw [getIn_cons_object, Pairs.lookup_put_self, Option.bind_some, hfound]
    · by_cases hway : way = []
      · -- the fields that the assignment goes on with are those under the first name, or none
        subst hway
        rw [getIn_nil, Option.some.injEq, Json.object.injEq] at hearlier
        rw [inner?] at hinner
        rw [getIn_cons_object]
        cases hlookup : fields.lookup first with
        | none => simp_all
        | some there => cases there <;> simp_all
      · rw [getIn_cons_of_inner? hinner hway]
        exact hearlier

/-- What an assignment has led through let it through. -/
lemma passable_of_setIn {way rest : List String} {value : Json} {fields updated : Json.Fields}
    (h : setIn (way ++ rest) value fields = some updated) (hrest : rest ≠ []) :
    passable (getIn way (.object fields)) = true := by
  induction way generalizing fields updated with
  | nil => rfl
  | cons name way ih =>
    obtain ⟨next, names, hnames⟩ := List.exists_cons_of_ne_nil (l := way ++ rest) (by simp [hrest])
    rw [List.cons_append, hnames, setIn_cons_cons, Option.bind_eq_some_iff] at h
    obtain ⟨inner, hinner, h⟩ := h
    obtain ⟨deeper, hdeeper, -⟩ := Option.map_eq_some_iff.1 h
    rw [← hnames] at hdeeper
    by_cases hway : way = []
    · subst hway
      rw [inner?] at hinner
      rw [getIn_cons_object]
      cases hlookup : fields.lookup name with
      | none => rfl
      | some there => cases there <;> simp_all [passable]
    · rw [getIn_cons_of_inner? hinner hway]
      exact ih hdeeper

/-- An assignment succeeds when what is found on its way lets it through. -/
lemma exists_setIn {names : List String} {value : Json} {fields : Json.Fields}
    (h : ∀ way rest, way ++ rest = names → rest ≠ [] →
      passable (getIn way (.object fields)) = true) :
    ∃ updated, setIn names value fields = some updated := by
  induction names generalizing fields with
  | nil => exact ⟨fields, rfl⟩
  | cons name rest ih =>
    cases rest with
    | nil => exact ⟨_, rfl⟩
    | cons next names =>
      have hname := h [name] (next :: names) rfl (by simp)
      obtain ⟨inner, hinner⟩ : ∃ inner, inner? name fields = some inner := by
        rw [getIn_cons_object] at hname
        rw [inner?]
        cases hlookup : fields.lookup name with
        | none => exact ⟨_, rfl⟩
        | some there =>
          rw [hlookup] at hname
          cases there <;> simp_all [passable]
      have hway : ∀ way rest, way ++ rest = next :: names → rest ≠ [] →
          passable (getIn way (.object inner)) = true := by
        intro way rest hway hrest
        cases way with
        | nil => rfl
        | cons first way =>
          rw [← getIn_cons_of_inner? hinner (by simp)]
          exact h (name :: first :: way) rest (by rw [List.cons_append, hway]) hrest
      obtain ⟨deeper, hdeeper⟩ := ih hway
      exact ⟨_, by rw [setIn_cons_cons, hinner, Option.bind_some, hdeeper, Option.map_some]⟩

end Document
end EntryClaims
