/-
# JSON values

Claims are JSON values.  An object keeps the order of its fields, and an integer is never
equal to a floating-point number.  Integers range over the signed and unsigned 64-bit
numbers; the parser reads everything else as binary64.
-/
import EntryClaims.Decimal.Shortest
import EntryClaims.OrderedMap

namespace EntryClaims

/-- A JSON number. -/
inductive Number where
  /-- An integer of 64 bits, signed or unsigned. -/
  | integer (n : Int)
  /-- A floating-point number. -/
  | float (x : Binary64)
deriving DecidableEq, Repr, Inhabited

/-- The largest integer. -/
def Number.maxInteger : Nat := 18446744073709551615

/-- The magnitude of the smallest integer. -/
def Number.minMagnitude : Nat := 9223372036854775808

/-- A JSON value. -/
inductive Json where
  /-- The null value. -/
  | null
  /-- A truth value. -/
  | bool (b : Bool)
  /-- A number. -/
  | number (n : Number)
  /-- A string. -/
  | string (s : String)
  /-- An array. -/
  | array (items : List Json)
  /-- An object; its fields keep their order. -/
  | object (fields : List (String × Json))
deriving Repr, Inhabited

/-- Whether two numbers have the same kind and the same value. -/
def Number.same : Number → Number → Bool
  | .integer m, .integer n => m == n
  | .float x, .float y => x.sameValue y
  | _, _ => false

namespace Json

/-- The fields of an object. -/
abbrev Fields := List (String × Json)

/-! ## Kinds of values -/

/-- Whether the value is null. -/
def isNull : Json → Bool
  | .null => true
  | _ => false

/-- Whether the value is an array. -/
def isArray : Json → Bool
  | .array _ => true
  | _ => false

/-- Whether the value is an object. -/
def isObject : Json → Bool
  | .object _ => true
  | _ => false

/-- The text of a string. -/
def string? : Json → Option String
  | .string s => some s
  | _ => none

/-- The fields of an object. -/
def object? : Json → Option Fields
  | .object fields => some fields
  | _ => none

/-- The items of an array. -/
def array? : Json → Option (List Json)
  | .array items => some items
  | _ => none

/-- A truth value. -/
def bool? : Json → Option Bool
  | .bool b => some b
  | _ => none

/-- The texts of an array of strings. -/
def strings? (value : Json) : Option (List String) := do
  let items ← value.array?
  items.mapM string?

/-- The array of the given texts. -/
def ofStrings (texts : List String) : Json := .array (texts.map .string)

/-- A value that is not null. -/
def present? : Json → Option Json
  | .null => none
  | value => some value

/-! ## Sameness -/

mutual

/-- Whether two values are the same when the order of object fields does not count. -/
def same : Json → Json → Bool
  | .null, .null => true
  | .bool b, .bool c => b == c
  | .number m, .number n => m.same n
  | .string s, .string t => s == t
  | .array xs, .array ys => sameItems xs ys
  | .object fields, .object others =>
    fields.length == others.length && sameFields fields others
  | _, _ => false

/-- Whether two lists of values are the same, item by item. -/
def sameItems : List Json → List Json → Bool
  | [], [] => true
  | x :: xs, y :: ys => same x y && sameItems xs ys
  | _, _ => false

/-- Whether every field is among `others` with the same value. -/
def sameFields : Fields → Fields → Bool
  | [], _ => true
  | (key, value) :: rest, others =>
    (match others.lookup key with
      | some other => same value other
      | none => false) && sameFields rest others

end

/-! ## Repeated keys -/

mutual

/-- The value with every repeated key of an object taken once: at its first place, with its
last value. -/
def collapse : Json → Json
  | .array items => .array (collapseItems items)
  | .object fields => .object (Pairs.putAll [] (collapseFields fields))
  | value => value

/-- Every item collapsed. -/
def collapseItems : List Json → List Json
  | [] => []
  | item :: rest => item.collapse :: collapseItems rest

/-- Every field's value collapsed. -/
def collapseFields : Fields → Fields
  | [] => []
  | (key, value) :: rest => (key, value.collapse) :: collapseFields rest

end

/-! ## Deciding equality -/

mutual

/-- Whether two values are equal, field order included. -/
def beq : Json → Json → Bool
  | .null, .null => true
  | .bool b, .bool c => b == c
  | .number m, .number n => m == n
  | .string s, .string t => s == t
  | .array xs, .array ys => beqItems xs ys
  | .object fields, .object others => beqFields fields others
  | _, _ => false

/-- Whether two lists of values are equal. -/
def beqItems : List Json → List Json → Bool
  | [], [] => true
  | x :: xs, y :: ys => beq x y && beqItems xs ys
  | _, _ => false

/-- Whether two lists of fields are equal. -/
def beqFields : Fields → Fields → Bool
  | [], [] => true
  | (key, x) :: xs, (key', y) :: ys => key == key' && (beq x y && beqFields xs ys)
  | _, _ => false

end

mutual

theorem eq_of_beq : ∀ {x y : Json}, beq x y = true → x = y
  | .null, y, h => by cases y <;> simp_all [beq]
  | .bool _, y, h => by cases y <;> simp_all [beq]
  | .number _, y, h => by cases y <;> simp_all [beq]
  | .string _, y, h => by cases y <;> simp_all [beq]
  | .array xs, y, h => by
    cases y <;> simp only [beq, Bool.false_eq_true] at h
    rw [eq_of_beqItems h]
  | .object xs, y, h => by
    cases y <;> simp only [beq, Bool.false_eq_true] at h
    rw [eq_of_beqFields h]

theorem eq_of_beqItems : ∀ {xs ys : List Json}, beqItems xs ys = true → xs = ys
  | [], ys, h => by cases ys <;> simp_all [beqItems]
  | x :: xs, [], h => by simp [beqItems] at h
  | x :: xs, y :: ys, h => by
    simp only [beqItems, Bool.and_eq_true] at h
    rw [eq_of_beq h.1, eq_of_beqItems h.2]

theorem eq_of_beqFields : ∀ {xs ys : Fields}, beqFields xs ys = true → xs = ys
  | [], ys, h => by cases ys <;> simp_all [beqFields]
  | (_, _) :: xs, [], h => by simp [beqFields] at h
  | (k, x) :: xs, (k', y) :: ys, h => by
    simp only [beqFields, Bool.and_eq_true, beq_iff_eq] at h
    rw [h.1, eq_of_beq h.2.1, eq_of_beqFields h.2.2]

end

mutual

theorem beq_self : ∀ x : Json, beq x x = true
  | .null => by simp [beq]
  | .bool _ => by simp [beq]
  | .number _ => by simp [beq]
  | .string _ => by simp [beq]
  | .array xs => by simpa [beq] using beqItems_self xs
  | .object xs => by simpa [beq] using beqFields_self xs

theorem beqItems_self : ∀ xs : List Json, beqItems xs xs = true
  | [] => by simp [beqItems]
  | x :: xs => by simp [beqItems, beq_self x, beqItems_self xs]

theorem beqFields_self : ∀ xs : Fields, beqFields xs xs = true
  | [] => by simp [beqFields]
  | (_, x) :: xs => by simp [beqFields, beq_self x, beqFields_self xs]

end

instance : DecidableEq Json := fun x y =>
  decidable_of_iff (beq x y = true) ⟨eq_of_beq, fun h => h ▸ beq_self x⟩

end Json
end EntryClaims
