/-
# Claim documents

A claim document is a JSON object.  A claim is addressed by a path of names between dots,
such as `address.locality`.  Looking a path up and assigning it follow the nesting of
objects; an assignment creates the objects that are missing on its way, and is refused,
leaving everything as it was, where the way is blocked by a value of another kind.
-/
import EntryClaims.Entry.Record
import EntryClaims.Text.Pieces

namespace EntryClaims

/-- A claim document: the fields of a JSON object. -/
structure Document where
  /-- The claims in order. -/
  claims : Json.Fields := []
deriving DecidableEq, Repr, Inhabited

namespace Document

/-- The names on a claim path; there is at least one. -/
def segments (path : String) : List String := Text.splitAt '.' path

/-- The value reached from `value` along the names. -/
def getIn : (names : List String) → (value : Json) → Option Json
  | [], value => some value
  | name :: names, .object fields => (fields.lookup name).bind (getIn names)
  | _ :: _, _ => none

/-- The fields with `value` assigned along `names`; `none` where a name on the way holds a
value that is neither null nor an object. -/
def setIn : (names : List String) → (value : Json) → Json.Fields → Option Json.Fields
  | [], _, fields => some fields
  | [name], value, fields => some (Pairs.put name value fields)
  | name :: next :: names, value, fields =>
    let inner? : Option Json.Fields :=
      match fields.lookup name with
      | none | some .null => some []
      | some (.object inner) => some inner
      | some _ => none
    do
      let inner ← inner?
      let updated ← setIn (next :: names) value inner
      some (Pairs.put name (.object updated) fields)

/-- The fields after `value` was assigned along `names` in place, and whether the way was free.
What was made on the way before it turned out to be blocked is still there. -/
def walkIn : (names : List String) → (value : Json) → Json.Fields → Json.Fields × Bool
  | [], _, fields => (fields, true)
  | [name], value, fields => (Pairs.put name value fields, true)
  | name :: next :: names, value, fields =>
    -- an object is made where there is nothing, or null
    let opened : Json.Fields :=
      match fields.lookup name with
      | none | some .null => Pairs.put name (.object []) fields
      | some _ => fields
    match opened.lookup name with
    | some (.object inner) =>
      let (updated, free) := walkIn (next :: names) value inner
      (Pairs.put name (.object updated) opened, free)
    | _ => (opened, false)

/-- The claim stored directly under `name`. -/
def get? (document : Document) (name : String) : Option Json := document.claims.lookup name

/-- Whether a claim is stored directly under `name`. -/
def contains (document : Document) (name : String) : Bool := (document.get? name).isSome

/-- The claim at a path. -/
def getPath? (document : Document) (path : String) : Option Json :=
  getIn (segments path) (.object document.claims)

/-- The document with the claim at a path assigned; `none` when the way is blocked. -/
def setPath? (document : Document) (path : String) (value : Json) : Option Document :=
  (setIn (segments path) value document.claims).map Document.mk

/-- The document after the claim at a path was assigned in place, and whether the way was free. -/
def assign (document : Document) (path : String) (value : Json) : Document × Bool :=
  let (claims, free) := walkIn (segments path) value document.claims
  (⟨claims⟩, free)

/-- Whether there is no claim. -/
def isEmpty (document : Document) : Bool := document.claims.isEmpty

/-- The document that shows every attribute of a record as a claim of the same name. -/
def ofRecord (record : Record) : Document :=
  ⟨record.toList.map fun (name, value) => (name, value.toClaim)⟩

/-- The record that stores every claim as an attribute of the same name; claims without a
value are left out. -/
def toRecord (document : Document) : Record :=
  OrderedMap.ofList <| document.claims.filterMap fun (name, claim) =>
    (AttributeValue.ofClaim? claim).map fun value => (name, value)

/-- Read the JSON form: any object. -/
def ofJson? (value : Json) : Option Document := value.object?.map Document.mk

/-- The JSON form. -/
def toJson (document : Document) : Json := .object document.claims

/-! ## Facts -/

/-- What was assigned along some names is found along them. -/
theorem getIn_setIn {names : List String} {value : Json} {fields updated : Json.Fields}
    (hne : names ≠ []) (h : setIn names value fields = some updated) :
    getIn names (.object updated) = some value := by
  induction names generalizing fields updated with
  | nil => exact absurd rfl hne
  | cons name rest ih =>
    cases rest with
    | nil =>
      simp only [setIn, Option.some.injEq] at h
      subst h
      simp [getIn, Pairs.lookup_put_self]
    | cons next names =>
      simp only [setIn, Option.bind_eq_bind, Option.bind_eq_some_iff, Option.some.injEq] at h
      obtain ⟨inner, -, deeper, hd, rfl⟩ := h
      rw [getIn, Pairs.lookup_put_self]
      exact ih (by simp) hd

/-- A claim that was assigned at a path is found there. -/
theorem getPath?_setPath? {document changed : Document} {path : String} {value : Json}
    (h : document.setPath? path value = some changed) : changed.getPath? path = some value := by
  simp only [setPath?, Option.map_eq_some_iff] at h
  obtain ⟨fields, hf, rfl⟩ := h
  exact getIn_setIn (Text.splitAt_ne_nil '.' path) hf

end Document
end EntryClaims
