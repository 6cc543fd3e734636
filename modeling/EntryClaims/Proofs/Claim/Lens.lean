/-
# Looking up what was assigned

An assignment walks through the document and makes the objects that are missing before it knows
whether it will get through.  Still it leaves the document alone when it is refused: in an object
that was made on the way nothing can block it any more, so a way that turns out to be blocked was
blocked before anything was made.  Otherwise the value stands at its path, with objects above it,
and every path that neither leads there nor goes on from there shows what it has shown before.
Paths are compared as texts: one leads to another if the other goes on behind a dot.
-/
import EntryClaims.Proofs.Claim.Paths
import Mathlib.Data.List.Basic
import Mathlib.Tactic.ByContra

namespace EntryClaims
namespace Document

variable {document : Document} {path way rest : String} {names : List String} {value : Json}

/-! ## Assigning in place -/

/-- Making an object where there is nothing, or null, opens the fields that an assignment goes on
with. -/
lemma walkIn_of_inner? (next : String) (names : List String) (value : Json) {name : String}
    {fields inner : Json.Fields} (h : inner? name fields = some inner) :
    ∃ opened, walkIn (name :: next :: names) value fields
        = (Pairs.put name (.object (walkIn (next :: names) value inner).1) opened,
            (walkIn (next :: names) value inner).2)
      ∧ (opened = fields ∧ fields.lookup name = some (.object inner)
        ∨ opened = Pairs.put name (.object []) fields ∧ inner = []) := by
  rw [inner?] at h
  rw [walkIn]
  cases hlookup : fields.lookup name with
  | none =>
    rw [hlookup, Option.some.injEq] at h
    subst h
    exact ⟨_, by simp only [Pairs.lookup_put_self], Or.inr ⟨rfl, rfl⟩⟩
  | some there =>
    rw [hlookup] at h
    cases there with
    | null =>
      rw [Option.some.injEq] at h
      subst h
      exact ⟨_, by simp only [Pairs.lookup_put_self], Or.inr ⟨rfl, rfl⟩⟩
    | object fields' =>
      rw [Option.some.injEq] at h
      subst h
      exact ⟨fields, by simp only [hlookup], Or.inl ⟨rfl, rfl⟩⟩
    | _ => simp at h

/-- An assignment is stopped by a value on its way before it has made anything. -/
lemma walkIn_of_inner?_eq_none {name next : String} {fields : Json.Fields}
    (h : inner? name fields = none) :
    walkIn (name :: next :: names) value fields = (fields, false) := by
  rw [inner?] at h
  rw [walkIn]
  cases hlookup : fields.lookup name with
  | none => simp [hlookup] at h
  | some there => cases there <;> simp_all

/-- In fields that are empty nothing blocks the way. -/
lemma exists_setIn_nil (names : List String) (value : Json) :
    ∃ updated, setIn names value [] = some updated :=
  exists_setIn fun way _ _ _ => passable_of_no_fields way

/-- Assigning in place gives the same fields as assigning at once, and a refused assignment leaves
the fields as they were. -/
lemma walkIn_eq (names : List String) (value : Json) (fields : Json.Fields) :
    walkIn names value fields
      = ((setIn names value fields).getD fields, (setIn names value fields).isSome) := by
  induction names generalizing fields with
  | nil => rfl
  | cons name rest ih =>
    cases rest with
    | nil => rfl
    | cons next names =>
      rw [setIn_cons_cons]
      cases hinner : inner? name fields with
      | none => exact walkIn_of_inner?_eq_none hinner
      | some inner =>
        obtain ⟨opened, hwalk, hopened⟩ := walkIn_of_inner? next names value hinner
        rw [hwalk, ih, Option.bind_some]
        cases hset : setIn (next :: names) value inner with
        | some updated =>
          rcases hopened with ⟨rfl, -⟩ | ⟨rfl, -⟩
          · rfl
          · simp [Pairs.put_put]
        | none =>
          -- only an object that was there can hold something that blocks the way
          rcases hopened with ⟨rfl, hlookup⟩ | ⟨-, rfl⟩
          · simp [Pairs.put_of_lookup hlookup]
          · obtain ⟨updated, hupdated⟩ := exists_setIn_nil (next :: names) value
            simp [hset] at hupdated

lemma assign_eq (document : Document) (path : String) (value : Json) :
    document.assign path value
      = ((document.setPath? path value).getD document,
          (document.setPath? path value).isSome) := by
  rw [assign, walkIn_eq, setPath?]
  cases setIn (segments path) value document.claims <;> rfl

/-! ## Paths as texts -/

lemma segments_ne_nil (path : String) : segments path ≠ [] := Text.splitAt_ne_nil '.' path

lemma segments_append (way rest : String) :
    segments (way ++ "." ++ rest) = segments way ++ segments rest :=
  Text.splitAt_append '.' way rest

/-- Where the names on a path are divided, the path is divided by a dot. -/
lemma exists_of_segments_eq_append {front back : List String} (h : segments path = front ++ back)
    (hfront : front ≠ []) (hback : back ≠ []) :
    ∃ way rest, path = way ++ "." ++ rest ∧ segments way = front ∧ segments rest = back := by
  obtain ⟨pieces, others, hcut, rfl, rfl⟩ := List.map_eq_append_iff.1 h
  obtain ⟨before, after, hpath, rfl, rfl⟩ := Text.exists_of_cutAt_eq_append hcut
    (fun e => hfront (by rw [e, List.map_nil])) (fun e => hback (by rw [e, List.map_nil]))
  refine ⟨String.ofList before, String.ofList after, ?_, ?_, ?_⟩
  · exact String.toList_inj.1 (by simp [hpath])
  · rw [segments, Text.splitAt, String.toList_ofList]
  · rw [segments, Text.splitAt, String.toList_ofList]

/-- A path is known by the names on it. -/
lemma segments_injective : Function.Injective segments := by
  intro path other h
  have hcut : Text.cutAt '.' path.toList = Text.cutAt '.' other.toList :=
    List.map_injective_iff.2 (fun _ _ => String.ofList_inj.1) h
  rw [← String.toList_inj, ← Text.intercalate_cutAt '.' path.toList, hcut,
    Text.intercalate_cutAt]

/-- The names on a path begin with those on another exactly when the path is the other one, or
goes on behind it and a dot. -/
lemma segments_prefix_iff :
    segments way <+: segments path ↔ path = way ∨ ∃ rest, path = way ++ "." ++ rest := by
  constructor
  · rintro ⟨back, hback⟩
    by_cases hnil : back = []
    · rw [hnil, List.append_nil] at hback
      exact Or.inl (segments_injective hback.symm)
    · obtain ⟨front, rest, rfl, hfront, -⟩ :=
        exists_of_segments_eq_append hback.symm (segments_ne_nil way) hnil
      rw [segments_injective hfront]
      exact Or.inr ⟨rest, rfl⟩
  · rintro (rfl | ⟨rest, rfl⟩)
    · exact List.prefix_rfl
    · rw [segments_append]
      exact List.prefix_append _ _

/-! ## Looking up after an assignment -/

/-- An assignment is refused exactly when its way is blocked: a path that it goes on from shows
something other than null or an object. -/
lemma setPath?_eq_none_iff :
    document.setPath? path value = none ↔ ∃ way rest found, path = way ++ "." ++ rest
      ∧ document.getPath? way = some found ∧ found ≠ .null ∧ found.isObject = false := by
  rw [setPath?, Option.map_eq_none_iff]
  constructor
  · intro hnone
    by_contra hfree
    have hpassable : ∀ way rest, way ++ rest = segments path → rest ≠ [] →
        passable (getIn way (.object document.claims)) = true := by
      intro front back happend hback
      by_cases hfront : front = []
      · rw [hfront]
        rfl
      obtain ⟨way, rest, rfl, rfl, -⟩ := exists_of_segments_eq_append happend.symm hfront hback
      cases hfound : getIn (segments way) (.object document.claims) with
      | none => rfl
      | some found =>
        by_contra hblocked
        refine hfree ⟨way, rest, found, rfl, hfound, ?_, ?_⟩
        · rintro rfl
          exact hblocked rfl
        · cases found <;> simp_all [passable, Json.isObject]
    obtain ⟨updated, hupdated⟩ :
        ∃ updated, setIn (segments path) value document.claims = some updated :=
      exists_setIn hpassable
    simp [hnone] at hupdated
  · rintro ⟨way, rest, found, rfl, hfound, hnull, hobject⟩
    by_contra hsome
    obtain ⟨updated, hupdated⟩ := Option.ne_none_iff_exists'.1 hsome
    rw [segments_append] at hupdated
    have hpassable := passable_of_setIn hupdated (segments_ne_nil rest)
    have hfound' : getIn (segments way) (.object document.claims) = some found := hfound
    rw [hfound'] at hpassable
    cases found <;> simp_all [passable, Json.isObject]

/-- What stands behind the assigned value is what stands in it. -/
lemma getPath?_append_of_setPath? {changed : Document}
    (h : document.setPath? path value = some changed) (rest : String) :
    changed.getPath? (path ++ "." ++ rest) = getIn (segments rest) value := by
  have hself : getIn (segments path) (.object changed.claims) = some value := getPath?_setPath? h
  rw [getPath?, segments_append, getIn_append, hself, Option.bind_some]

/-- In front of the assigned value there are objects. -/
lemma exists_object_of_setPath? {changed : Document}
    (h : document.setPath? (way ++ "." ++ rest) value = some changed) :
    ∃ fields, changed.getPath? way = some (.object fields) := by
  obtain ⟨updated, hset, rfl⟩ := Option.map_eq_some_iff.1 h
  obtain ⟨next, behind, hrest⟩ := List.exists_cons_of_ne_nil (segments_ne_nil rest)
  rw [segments_append, hrest] at hset
  obtain ⟨earlier, inner, hfound, -⟩ := getIn_setIn_way hset
  exact ⟨_, hfound⟩

/-- A path that neither leads to the assigned one nor goes on from it shows what it has shown. -/
lemma getPath?_of_setPath?_of_apart {changed : Document} {other : String}
    (h : document.setPath? path value = some changed) (hne : other ≠ path)
    (hway : ∀ rest, path ≠ other ++ "." ++ rest) (hbehind : ∀ rest, other ≠ path ++ "." ++ rest) :
    changed.getPath? other = document.getPath? other := by
  obtain ⟨updated, hset, rfl⟩ := Option.map_eq_some_iff.1 h
  refine getIn_setIn_of_forked hset ⟨fun hprefix => ?_, fun hprefix => ?_⟩
  · rcases segments_prefix_iff.1 hprefix with heq | ⟨rest, heq⟩
    · exact hne heq
    · exact hbehind rest heq
  · rcases segments_prefix_iff.1 hprefix with heq | ⟨rest, heq⟩
    · exact hne heq.symm
    · exact hway rest heq

/-- **Assigning and looking up.**  For every document, path and value, the assignment in place is
refused exactly when a path that the assigned one goes on from shows something other than null or
an object, and then it leaves the document as it was, the order of the names included.  Otherwise
the path shows the value, a path that goes on from it shows what stands in the value, a path that
it goes on from shows an object, and every other path shows what it has shown before.  Assigning at
once has the same result. -/
theorem assign_then_look_up (document : Document) (path : String) (value : Json) :
    let changed := (document.assign path value).1
    let free := (document.assign path value).2
    (free = false ↔ ∃ way rest found, path = way ++ "." ++ rest
        ∧ document.getPath? way = some found ∧ found ≠ .null ∧ found.isObject = false)
      ∧ (free = false → changed = document)
      ∧ (free = true →
          changed.getPath? path = some value
            ∧ (∀ rest, changed.getPath? (path ++ "." ++ rest) = getIn (segments rest) value)
            ∧ (∀ way rest, path = way ++ "." ++ rest →
                ∃ fields, changed.getPath? way = some (.object fields))
            ∧ ∀ other, other ≠ path → (∀ rest, path ≠ other ++ "." ++ rest) →
                (∀ rest, other ≠ path ++ "." ++ rest) →
                  changed.getPath? other = document.getPath? other)
      ∧ document.setPath? path value = if free then some changed else none := by
  rw [assign_eq]
  cases hset : document.setPath? path value with
  | none =>
    refine ⟨?_, fun _ => rfl, fun h => by simp at h, rfl⟩
    exact iff_of_true rfl (setPath?_eq_none_iff.1 hset)
  | some changed =>
    refine ⟨?_, fun h => by simp at h, fun _ => ⟨getPath?_setPath? hset,
      getPath?_append_of_setPath? hset, ?_, fun other hne hway hbehind =>
        getPath?_of_setPath?_of_apart hset hne hway hbehind⟩, rfl⟩
    · refine iff_of_false (by simp) fun hblocked => ?_
      simp [setPath?_eq_none_iff.2 hblocked] at hset
    · rintro way rest rfl
      exact exists_object_of_setPath? hset

/-- An address that is null gives way to the assigned town, and the name stays in its place; a name
that is a text does not give way. -/
theorem assign_then_look_up_of_null_address :
    let document : Document := ⟨[("sub", .string "bob"), ("address", .null)]⟩
    let town := document.assign "address.locality" (.string "Bern")
    let refused := document.assign "sub.first" (.string "Bob")
    town.2 = true ∧ town.1.getPath? "address.locality" = some (.string "Bern")
      ∧ town.1.getPath? "sub" = some (.string "bob")
      ∧ refused.2 = false ∧ refused.1 = document := by
  intro document town refused
  have htown : town.2 = true := by decide
  have hrefused : refused.2 = false := by decide
  obtain ⟨-, -, hfree, -⟩ := assign_then_look_up document "address.locality" (.string "Bern")
  obtain ⟨-, hblocked, -⟩ := assign_then_look_up document "sub.first" (.string "Bob")
  obtain ⟨hself, -, -, hothers⟩ := hfree htown
  have hsub : town.1.getPath? "sub" = document.getPath? "sub" := by
    refine hothers "sub" (by decide) (fun rest heq => ?_) fun rest heq => ?_
    · simpa using congrArg String.toList heq
    · simpa using congrArg String.toList heq
  exact ⟨htown, hself, hsub, hrefused, hblocked hrefused⟩

end Document
end EntryClaims
