/-
# Where an id is placed

A new entry gets a name of which the first part holds the id.  Whatever the id is, a reader of the
name finds the end of this part where it was put: every character of the id that could end the
part, begin another value or be lost at a border is escaped, and a backslash of the id is one of
them, so nothing that follows it is taken for digits.  What was escaped is read as the character it
was, so the id is read back, and no two ids share a name.  Of the text behind the part nothing is
assumed, since the reader never gets there.
-/
import EntryClaims.Adapter.Options
import EntryClaims.Directory.NameReading
import EntryClaims.Proofs.Adapter.Lookup

namespace EntryClaims
namespace DN

variable {text other : List Char} {symbols others : List Symbol} {a b c : Char}

/-! ## Reading a piece of a text -/

/-- Whatever follows it, the text is read as these symbols. -/
def ReadsAs (text : List Char) (symbols : List Symbol) : Prop :=
  ∀ rest, readPart? (text ++ rest) = (readPart? rest).map (.prepend symbols)

lemma Part.prepend_prepend (symbols others : List Symbol) (part : Part) :
    (part.prepend others).prepend symbols = part.prepend (symbols ++ others) := by
  simp [Part.prepend]

lemma ReadsAs.nil : ReadsAs [] [] := fun rest => by
  rw [List.nil_append]
  cases readPart? rest <;> rfl

lemma ReadsAs.append (h : ReadsAs text symbols) (hother : ReadsAs other others) :
    ReadsAs (text ++ other) (symbols ++ others) := fun rest => by
  rw [List.append_assoc, h, hother, Option.map_map]
  exact congrArg (Option.map · (readPart? rest)) (funext (Part.prepend_prepend symbols others))

lemma readsAs_plain (hescape : c ≠ '\\') (hcomma : c ≠ ',') : ReadsAs [c] [plain c] := fun rest =>
  readPart?_plain rest hescape hcomma

lemma readsAs_map_plain (h : ∀ c ∈ text, c ≠ '\\' ∧ c ≠ ',') : ReadsAs text (text.map plain) := by
  induction text with
  | nil => exact .nil
  | cons c cs ih =>
    have hc := h c List.mem_cons_self
    exact (readsAs_plain hc.1 hc.2).append (ih fun d hd => h d (List.mem_cons_of_mem c hd))

/-- A backslash and the character behind it. -/
lemma readsAs_pair (h : c ∈ escapable) : ReadsAs ['\\', c] [⟨c, true⟩] := fun rest =>
  readPart?_pair rest h

/-- A backslash and the two digits behind it. -/
lemma readsAs_digits (h : a ∉ escapable) (hdigits : hexChar? a b = some c) :
    ReadsAs ['\\', a, b] [⟨c, true⟩] := fun rest =>
  readPart?_digits rest h hdigits

/-- A text that is read up to a comma behind it. -/
lemma ReadsAs.readPart?_append_comma (h : ReadsAs text symbols) (rest : List Char) :
    readPart? (text ++ ',' :: rest) = some ⟨symbols, some rest⟩ := by
  rw [h, readPart?_comma]
  simp [Part.prepend]

lemma ReadsAs.readPart?_self (h : ReadsAs text symbols) :
    readPart? text = some ⟨symbols, none⟩ := by
  have hread := h []
  rw [List.append_nil] at hread
  rw [hread]
  simp [readPart?, Part.prepend]

/-! ## Reading an escaped value -/

/-- Whether a character of a value is escaped. -/
def isEscaped (isFirst isLast : Bool) (c : Char) : Bool :=
  decide (c ∈ '\x00' :: reserved ∨ c = ' ' ∧ (isFirst ∨ isLast) ∨ c = '#' ∧ isFirst)

/-- What the characters of a value are read as; `isFirst` tells whether they begin it. -/
def symbolsFrom : (isFirst : Bool) → List Char → List Symbol
  | _, [] => []
  | isFirst, c :: cs => ⟨c, isEscaped isFirst cs.isEmpty c⟩ :: symbolsFrom false cs

lemma isSpecial_iff : isSpecial c = true ↔ c ∈ reserved := by
  simp only [isSpecial, reserved, List.contains_iff_mem, List.mem_cons, List.not_mem_nil, or_false]
  tauto

/-- A character is read as itself in each of its written forms. -/
lemma readsAs_escapeChar (isFirst isLast : Bool) (c : Char) :
    ReadsAs (escapeChar isFirst isLast c) [⟨c, isEscaped isFirst isLast c⟩] := by
  rw [escapeChar]
  split_ifs with hspecial hnull hblank hnumber
  · have hreserved := isSpecial_iff.1 hspecial
    have hescaped : isEscaped isFirst isLast c = true :=
      decide_eq_true (Or.inl (List.mem_cons_of_mem _ hreserved))
    rw [hescaped]
    exact readsAs_pair (List.mem_cons_of_mem _ (List.mem_cons_of_mem _ hreserved))
  · subst hnull
    exact readsAs_digits (by decide) (by decide)
  · have hescaped : isEscaped isFirst isLast c = true := decide_eq_true (Or.inr (Or.inl hblank))
    rw [hescaped, hblank.1]
    exact readsAs_digits (by decide) (by decide)
  · have hescaped : isEscaped isFirst isLast c = true := decide_eq_true (Or.inr (Or.inr hnumber))
    rw [hescaped, hnumber.1]
    exact readsAs_digits (by decide) (by decide)
  · have hreserved : c ∉ reserved := mt isSpecial_iff.2 hspecial
    have hescaped : isEscaped isFirst isLast c = false :=
      decide_eq_false (by simp only [List.mem_cons]; tauto)
    rw [hescaped]
    -- what is left as it is can be neither a backslash nor a comma
    exact readsAs_plain (fun heq => hreserved (heq ▸ by decide))
      fun heq => hreserved (heq ▸ by decide)

/-- The characters of a value are read one after the other, each as itself. -/
lemma readsAs_escapeFrom (isFirst : Bool) (cs : List Char) :
    ReadsAs (escapeFrom isFirst cs) (symbolsFrom isFirst cs) := by
  induction cs generalizing isFirst with
  | nil => exact .nil
  | cons c cs ih => exact (readsAs_escapeChar isFirst cs.isEmpty c).append (ih false)

lemma map_char_symbolsFrom (isFirst : Bool) (cs : List Char) :
    (symbolsFrom isFirst cs).map Symbol.char = cs := by
  induction cs generalizing isFirst with
  | nil => rfl
  | cons c cs ih => rw [symbolsFrom, List.map_cons, ih]

/-! ## What is left unescaped -/

lemma escaped_of_mem_symbolsFrom {isFirst : Bool} {cs : List Char} :
    ∀ symbol ∈ symbolsFrom isFirst cs,
      symbol.char ∈ '\x00' :: reserved → symbol.escaped = true := by
  induction cs generalizing isFirst with
  | nil => simp [symbolsFrom]
  | cons c cs ih =>
    intro symbol hmem hreserved
    rcases List.mem_cons.1 hmem with rfl | hrest
    · simp [isEscaped, List.mem_cons.1 hreserved]
    · exact ih symbol hrest hreserved

lemma escaped_of_getLast?_symbolsFrom {isFirst : Bool} {cs : List Char} :
    ∀ symbol ∈ (symbolsFrom isFirst cs).getLast?, symbol.char = ' ' → symbol.escaped = true := by
  induction cs generalizing isFirst with
  | nil => simp [symbolsFrom]
  | cons c cs ih =>
    cases cs with
    | nil =>
      intro symbol hlast hblank
      obtain rfl : _ = symbol := Option.some.inj hlast
      exact decide_eq_true (Or.inr (Or.inl ⟨hblank, Or.inr rfl⟩))
    | cons d ds =>
      rw [symbolsFrom, symbolsFrom, List.getLast?_cons_cons]
      exact ih

lemma escaped_of_head?_symbolsFrom {cs : List Char} :
    ∀ symbol ∈ (symbolsFrom true cs).head?, symbol.char ∈ [' ', '#'] → symbol.escaped = true := by
  intro symbol hhead hborder
  cases cs with
  | nil => cases hhead
  | cons c cs =>
    obtain rfl : _ = symbol := Option.some.inj hhead
    have hcases : c = ' ' ∨ c = '#' := by simpa using hborder
    rcases hcases with hblank | hnumber
    · exact decide_eq_true (Or.inr (Or.inl ⟨hblank, Or.inl rfl⟩))
    · exact decide_eq_true (Or.inr (Or.inr ⟨hnumber, rfl⟩))

lemma sealed_symbolsFrom (cs : List Char) : Sealed (symbolsFrom true cs) where
  escaped_of_reserved := escaped_of_mem_symbolsFrom
  escaped_of_head := escaped_of_head?_symbolsFrom
  escaped_of_last := escaped_of_getLast?_symbolsFrom

/-- Characters without a meaning of their own are left as they are. -/
lemma sealed_map_plain (h : ∀ c ∈ text, c ∉ '\x00' :: escapable) : Sealed (text.map plain) := by
  have hmem : ∀ symbol ∈ text.map plain, symbol.char ∉ '\x00' :: escapable := by
    intro symbol hsymbol
    obtain ⟨c, hc, rfl⟩ := List.mem_map.1 hsymbol
    exact h c hc
  constructor
  · intro symbol hsymbol hreserved
    refine absurd ?_ (hmem symbol hsymbol)
    have hsublist : List.Sublist ('\x00' :: reserved) ('\x00' :: escapable) :=
      (List.sublist_append_right [' ', '#'] reserved).cons_cons _
    exact hsublist.subset hreserved
  · intro symbol hhead hborder
    refine absurd ?_ (hmem symbol (List.mem_of_mem_head? hhead))
    exact List.mem_cons_of_mem _ (List.mem_append_left reserved hborder)
  · intro symbol hlast hblank
    refine absurd ?_ (hmem symbol (List.mem_of_mem_getLast? hlast))
    exact hblank ▸ by decide

end DN

/-! ## The name of a new entry -/

namespace Placement

open DN (ReadsAs Sealed plain readPart? symbolsFrom textOf)

variable {placement : Placement}

/-- The text behind the first part of a new name: the container, if there is one, and the base. -/
def below (placement : Placement) (base : String) : String :=
  (placement.container.filter (!·.isEmpty)).elim base (· ++ "," ++ base)

lemma entryName_eq (placement : Placement) (id base : String) :
    placement.entryName id base
      = placement.rdnAttribute ++ "=" ++ DN.escape id ++ "," ++ placement.below base := by
  rw [entryName, below]
  cases placement.container.filter (!·.isEmpty) with
  | none => rfl
  | some container => simp [String.append_assoc]

/-- The name of an attribute holds no character that means something else in a name. -/
lemma not_mem_of_isName {name : String} (h : IsName name) :
    ∀ c ∈ name.toList, c ∉ '\x00' :: DN.escapable := by
  have hother : ('\x00' :: DN.escapable).all (fun c => !(c.isAlphanum || c == '-')) = true := by
    decide
  intro c hc hmem
  have hname : (c.isAlphanum || c == '-') = true := by simpa using h c hc
  have hmeans := List.all_eq_true.1 hother c hmem
  rw [hname] at hmeans
  cases hmeans

/-- The first part of a new name is read as the attribute, an equals sign and the id. -/
lemma readsAs_firstPart (h : IsName placement.rdnAttribute) (id : String) :
    ReadsAs (placement.rdnAttribute ++ "=" ++ DN.escape id).toList
      (placement.rdnAttribute.toList.map plain ++ plain '=' :: symbolsFrom true id.toList) := by
  have hattribute : ∀ c ∈ placement.rdnAttribute.toList, c ≠ '\\' ∧ c ≠ ',' := fun c hc =>
    ⟨fun heq => not_mem_of_isName h c hc (heq ▸ by decide),
      fun heq => not_mem_of_isName h c hc (heq ▸ by decide)⟩
  have hequals : ReadsAs ['='] [plain '='] := DN.readsAs_plain (by decide) (by decide)
  have hpart := (DN.readsAs_map_plain hattribute).append
    (hequals.append (DN.readsAs_escapeFrom true id.toList))
  simpa [DN.escape] using hpart

/-- Up to the comma behind its first part, a new name is read as this part. -/
lemma readPart?_entryName (h : IsName placement.rdnAttribute) (id base : String) :
    readPart? (placement.entryName id base).toList
      = some ⟨placement.rdnAttribute.toList.map plain ++ plain '=' :: symbolsFrom true id.toList,
          some (placement.below base).toList⟩ := by
  have hname : (placement.entryName id base).toList
      = (placement.rdnAttribute ++ "=" ++ DN.escape id).toList
        ++ ',' :: (placement.below base).toList := by
    simp [entryName_eq]
  rw [hname, (readsAs_firstPart h id).readPart?_append_comma]

lemma textOf_symbolsFrom (id : String) : textOf (symbolsFrom true id.toList) = id := by
  rw [textOf, DN.map_char_symbolsFrom, String.ofList_toList]

/-- **An id stays inside the first part.**  Whatever the id, the container and the base are, a
reader of the name of a new entry finds a first part that ends where the container, or else the
base, begins behind a comma.  The part is read as the attribute, an equals sign and a value that
stands for the id, and nothing in the attribute or the value is left unescaped that would mean
more than itself.  So different ids have different names. -/
theorem id_stays_in_first_part (h : IsName placement.rdnAttribute) (base id : String) :
    let name := placement.entryName id base
    let part := placement.rdnAttribute ++ "=" ++ DN.escape id
    let front := placement.rdnAttribute.toList.map plain
    (∃ value, name = part ++ "," ++ placement.below base
        ∧ readPart? part.toList = some ⟨front ++ plain '=' :: value, none⟩
        ∧ readPart? name.toList
            = some ⟨front ++ plain '=' :: value, some (placement.below base).toList⟩
        ∧ Sealed front ∧ Sealed value ∧ textOf value = id)
      ∧ ∀ other, placement.entryName other base = name → other = id := by
  intro name part front
  refine ⟨⟨symbolsFrom true id.toList, entryName_eq placement id base,
    (readsAs_firstPart h id).readPart?_self, readPart?_entryName h id base,
    DN.sealed_map_plain (not_mem_of_isName h), DN.sealed_symbolsFrom id.toList,
    textOf_symbolsFrom id⟩, fun other hother => ?_⟩
  -- equal names are read alike, and what was read stands for the id
  have hread := readPart?_entryName h other base
  rw [hother, readPart?_entryName h id base, Option.some.injEq, DN.Part.mk.injEq] at hread
  obtain ⟨-, hvalue⟩ := List.cons.inj (List.append_cancel_left hread.1)
  rw [← textOf_symbolsFrom other, ← hvalue, textOf_symbolsFrom]

/-- An id that begins with a blank and holds a comma, a written escape and a null character. -/
theorem id_stays_in_first_part_hostile :
    let placement : Placement :=
      { rdnAttribute := "uid", container := some "ou=people", objectClasses := ["person"] }
    let id := " #a,\\20=\x00 "
    let name := placement.entryName id "dc=x\\"
    IsName placement.rdnAttribute
      ∧ name = "uid=\\20#a\\,\\\\20\\=\\00\\20,ou=people,dc=x\\"
      ∧ (∃ value, readPart? name.toList
            = some ⟨"uid".toList.map plain ++ plain '=' :: value, some "ou=people,dc=x\\".toList⟩
          ∧ Sealed value ∧ textOf value = id)
      ∧ ∀ other, placement.entryName other "dc=x\\" = name → other = id := by
  intro placement id name
  have hname : IsName placement.rdnAttribute := by decide
  obtain ⟨⟨value, -, -, hread, -, hsealed, htext⟩, hothers⟩ :=
    id_stays_in_first_part hname "dc=x\\" id
  exact ⟨hname, by decide, ⟨value, hread, hsealed, htext⟩, hothers⟩

end Placement
end EntryClaims
