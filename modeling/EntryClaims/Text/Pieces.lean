/-
# Cutting text into pieces

A delimiter cuts a text into the pieces between its occurrences, read from the left and
without overlap; `intercalate` joins the pieces with the delimiter and gives the text back.
Removing and replacing a pattern are the same cut followed by another join.  Everything is
stated on lists of characters, where induction is plain; the versions on `String` convert at
the border.
-/

namespace EntryClaims
namespace Text

/-! ## One character as delimiter -/

/-- Put a character in front of the first piece. -/
def consFirst (c : Char) : List (List Char) → List (List Char)
  | [] => [[c]]
  | piece :: pieces => (c :: piece) :: pieces

/-- The pieces of a text between the occurrences of the character `d`.  There is always at
least one piece. -/
def cutAt (d : Char) : List Char → List (List Char)
  | [] => [[]]
  | c :: cs => if c = d then [] :: cutAt d cs else consFirst c (cutAt d cs)

/-- The text before and after the first occurrence of `d`; `none` when it does not occur. -/
def cutOnce (d : Char) : List Char → Option (List Char × List Char)
  | [] => none
  | c :: cs =>
    if c = d then some ([], cs)
    else (cutOnce d cs).map fun (before, after) => (c :: before, after)

/-! ## A text as delimiter -/

/-- The pieces of a text between the occurrences of the non-empty delimiter `sep`.  The
first `skip` characters are passed over: they belong to an occurrence already found. -/
def cutFrom (sep : List Char) : (skip : Nat) → List Char → List (List Char)
  | _, [] => [[]]
  | skip + 1, _ :: cs => cutFrom sep skip cs
  | 0, c :: cs =>
    if sep.isPrefixOf (c :: cs) then [] :: cutFrom sep (sep.length - 1) cs
    else consFirst c (cutFrom sep 0 cs)

/-- The pieces of a text between the occurrences of `sep`.  The empty delimiter occurs
before and after every character. -/
def cut (sep text : List Char) : List (List Char) :=
  if sep.isEmpty then [] :: (text.map fun c => [c]) ++ [[]] else cutFrom sep 0 text

/-- Put `replacement` for every occurrence of the non-empty `pattern`. -/
def substitute (pattern replacement text : List Char) : List Char :=
  replacement.intercalate (cutFrom pattern 0 text)

/-- The text without any occurrence of `pattern`. -/
def remove (pattern text : List Char) : List Char :=
  (cut pattern text).flatten

/-- Put the text `replacement` for every occurrence of one character. -/
def substituteChar (d : Char) (replacement text : List Char) : List Char :=
  text.flatMap fun c => if c = d then replacement else [c]

/-! ## On strings -/

/-- The pieces of a string between the occurrences of `sep`. -/
def split (sep text : String) : List String :=
  (cut sep.toList text.toList).map String.ofList

/-- The pieces of a string between the occurrences of one character. -/
def splitAt (d : Char) (text : String) : List String :=
  (cutAt d text.toList).map String.ofList

/-! ## Facts -/

theorem consFirst_ne_nil (c : Char) (pieces : List (List Char)) : consFirst c pieces ≠ [] := by
  cases pieces <;> simp [consFirst]

theorem cutAt_ne_nil (d : Char) (text : List Char) : cutAt d text ≠ [] := by
  cases text with
  | nil => simp [cutAt]
  | cons c cs =>
    by_cases h : c = d
    · simp [cutAt, h]
    · simp [cutAt, h, consFirst_ne_nil]

theorem cutFrom_ne_nil (sep : List Char) (skip : Nat) (text : List Char) :
    cutFrom sep skip text ≠ [] := by
  induction text generalizing skip with
  | nil => simp [cutFrom]
  | cons c cs ih =>
    cases skip with
    | succ k => simpa [cutFrom] using ih k
    | zero =>
      simp only [cutFrom]
      split
      · simp
      · exact consFirst_ne_nil _ _

theorem intercalate_consFirst (sep : List Char) (c : Char) {pieces : List (List Char)}
    (h : pieces ≠ []) : sep.intercalate (consFirst c pieces) = c :: sep.intercalate pieces := by
  cases pieces with
  | nil => exact absurd rfl h
  | cons piece rest => cases rest <;> simp [consFirst, List.intercalate_cons_cons]

/-- Joining the pieces with the delimiter gives the text back. -/
theorem intercalate_cutAt (d : Char) (text : List Char) :
    [d].intercalate (cutAt d text) = text := by
  induction text with
  | nil => simp [cutAt]
  | cons c cs ih =>
    by_cases h : c = d
    · subst h
      obtain ⟨piece, rest, e⟩ := List.exists_cons_of_ne_nil (cutAt_ne_nil c cs)
      rw [e] at ih
      simp [cutAt, e, List.intercalate_cons_cons, ih]
    · simp [cutAt, h, intercalate_consFirst _ _ (cutAt_ne_nil d cs), ih]

theorem consFirst_append (c : Char) {pieces : List (List Char)} (h : pieces ≠ [])
    (others : List (List Char)) :
    consFirst c (pieces ++ others) = consFirst c pieces ++ others := by
  obtain ⟨piece, rest, rfl⟩ := List.exists_cons_of_ne_nil h
  rfl

/-- The pieces of two texts with the delimiter between them are those of the one and those of the
other. -/
theorem cutAt_append (d : Char) (before after : List Char) :
    cutAt d (before ++ d :: after) = cutAt d before ++ cutAt d after := by
  induction before with
  | nil => simp [cutAt]
  | cons c cs ih =>
    by_cases h : c = d
    · simp [cutAt, h, ih]
    · simp [cutAt, h, ih, consFirst_append _ (cutAt_ne_nil d cs)]

/-- Where the pieces of a text are divided, there is a delimiter that divides the text. -/
theorem exists_of_cutAt_eq_append {d : Char} {text : List Char} {front back : List (List Char)}
    (h : cutAt d text = front ++ back) (hfront : front ≠ []) (hback : back ≠ []) :
    ∃ before after, text = before ++ d :: after ∧ cutAt d before = front
      ∧ cutAt d after = back := by
  induction text generalizing front with
  | nil =>
    obtain ⟨piece, rest, rfl⟩ := List.exists_cons_of_ne_nil hfront
    have hlength := congrArg List.length h
    have hpos := List.length_pos_iff.2 hback
    simp only [cutAt, List.length_append, List.length_cons, List.length_nil] at hlength
    omega
  | cons c cs ih =>
    obtain ⟨piece, rest, rfl⟩ := List.exists_cons_of_ne_nil hfront
    by_cases hc : c = d
    · subst hc
      simp only [cutAt, ↓reduceIte, List.cons_append, List.cons.injEq] at h
      obtain ⟨rfl, h⟩ := h
      by_cases hrest : rest = []
      · subst hrest
        exact ⟨[], cs, rfl, by simp [cutAt], h⟩
      · obtain ⟨before, after, rfl, hbefore, hafter⟩ := ih h hrest
        exact ⟨c :: before, after, rfl, by simp [cutAt, hbefore], hafter⟩
    · -- the character belongs to the first piece
      obtain ⟨first, others, hcut⟩ := List.exists_cons_of_ne_nil (cutAt_ne_nil d cs)
      rw [cutAt, if_neg hc, hcut, consFirst, List.cons_append, List.cons.injEq] at h
      obtain ⟨rfl, rfl⟩ := h
      obtain ⟨before, after, rfl, hbefore, hafter⟩ := ih hcut (List.cons_ne_nil first rest)
      exact ⟨c :: before, after, rfl, by rw [cutAt, if_neg hc, hbefore, consFirst], hafter⟩

/-- A text cut once is the two parts with the delimiter between them, and the first part does
not hold the delimiter. -/
theorem cutOnce_eq_some {d : Char} {text before after : List Char}
    (h : cutOnce d text = some (before, after)) : text = before ++ d :: after ∧ d ∉ before := by
  induction text generalizing before with
  | nil => simp [cutOnce] at h
  | cons c cs ih =>
    by_cases hc : c = d
    · simp only [cutOnce, hc, ↓reduceIte, Option.some.injEq, Prod.mk.injEq] at h
      obtain ⟨rfl, rfl⟩ := h
      simp [hc]
    · simp only [cutOnce, hc, ↓reduceIte, Option.map_eq_some_iff, Prod.exists] at h
      obtain ⟨b, a, hb, e⟩ := h
      cases e
      obtain ⟨hs, hn⟩ := ih hb
      refine ⟨by rw [hs]; rfl, ?_⟩
      simp [Ne.symm hc, hn]

theorem cutOnce_append {d : Char} {before : List Char} (h : d ∉ before) (after : List Char) :
    cutOnce d (before ++ d :: after) = some (before, after) := by
  induction before with
  | nil => simp [cutOnce]
  | cons c cs ih =>
    rw [List.mem_cons, not_or] at h
    rw [List.cons_append, cutOnce, if_neg (Ne.symm h.1), ih h.2, Option.map_some]

theorem cutOnce_eq_some_iff {d : Char} {text before after : List Char} :
    cutOnce d text = some (before, after) ↔ text = before ++ d :: after ∧ d ∉ before :=
  ⟨cutOnce_eq_some, fun ⟨htext, hbefore⟩ => htext ▸ cutOnce_append hbefore after⟩

theorem splitAt_append (d : Char) (before after : String) :
    splitAt d (before ++ String.singleton d ++ after) = splitAt d before ++ splitAt d after := by
  simp [splitAt, cutAt_append]

theorem splitAt_ne_nil (d : Char) (text : String) : splitAt d text ≠ [] := by
  simp [splitAt, cutAt_ne_nil]

end Text
end EntryClaims
