/-
# Escaped values

Escaping one character after the other throughout a text comes to the same as escaping every
character once, because an escape holds none of the characters that are escaped later.  Undoing
the escapes goes through the same characters, the backslash last.  After each step the text is
the value with fewer characters escaped, so that in the end it is the value itself.  An escape
holds no backslash but the one that begins it, so the backslashes of an escaped value show where
its escapes are.
-/
import EntryClaims.Filter.Escape
import EntryClaims.Json.Printer
import Mathlib.Data.List.Nodup
import Mathlib.Tactic.Lemma

namespace EntryClaims

namespace Text

variable {pattern replacement text : List Char}

/-! ## Substitution, from the left -/

lemma cutFrom_eq_drop (sep : List Char) (skip : Nat) (text : List Char) :
    cutFrom sep skip text = cutFrom sep 0 (text.drop skip) := by
  induction text generalizing skip with
  | nil => simp [cutFrom]
  | cons c cs ih =>
    cases skip with
    | zero => rw [List.drop_zero]
    | succ k => rw [cutFrom, ih, List.drop_succ_cons]

lemma substitute_append (h : pattern ≠ []) (replacement text : List Char) :
    substitute pattern replacement (pattern ++ text)
      = replacement ++ substitute pattern replacement text := by
  obtain ⟨first, others, rfl⟩ := List.exists_cons_of_ne_nil h
  obtain ⟨piece, pieces, hpieces⟩ :=
    List.exists_cons_of_ne_nil (cutFrom_ne_nil (first :: others) 0 text)
  have hprefix : (first :: others).isPrefixOf (first :: (others ++ text)) = true :=
    List.isPrefixOf_iff_prefix.2 (List.prefix_append _ _)
  have hdrop : (others ++ text).drop ((first :: others).length - 1) = text := by simp
  rw [substitute, substitute, List.cons_append, cutFrom, if_pos hprefix, cutFrom_eq_drop, hdrop,
    hpieces, List.intercalate_cons_cons, List.nil_append]

lemma substitute_cons {c : Char} (h : ¬ pattern <+: c :: text) (replacement : List Char) :
    substitute pattern replacement (c :: text) = c :: substitute pattern replacement text := by
  rw [substitute, substitute, cutFrom, if_neg (by rwa [List.isPrefixOf_iff_prefix]),
    intercalate_consFirst _ _ (cutFrom_ne_nil pattern 0 text)]

end Text

namespace Filter

/-! ## Escaping every character once -/

/-- The characters that are escaped, in the order in which the escapes are undone. -/
def special : List Char := ['*', '(', ')', '\x00', '\\']

/-- A backslash and the two hexadecimal digits of a character. -/
def code (c : Char) : List Char :=
  ['\\', Json.hexDigit (c.toNat / 16), Json.hexDigit (c.toNat % 16)]

/-- A character as it stands in a filter. -/
def escapeChar (c : Char) : List Char := if c ∈ special then code c else [c]

lemma escapeChar_of_mem {c : Char} (h : c ∈ special) : escapeChar c = code c := if_pos h

lemma escapeChar_of_not_mem {c : Char} (h : c ∉ special) : escapeChar c = [c] := if_neg h

lemma escapeChars_eq_flatMap (value : List Char) :
    escapeChars value = value.flatMap escapeChar := by
  simp only [escapeChars, Text.substituteChar, List.flatMap_assoc]
  congr 1
  funext c
  by_cases hc : c ∈ special
  · simp only [special, List.mem_cons, List.not_mem_nil, or_false] at hc
    rcases hc with rfl | rfl | rfl | rfl | rfl <;> decide
  · rw [escapeChar_of_not_mem hc]
    simp only [special, List.mem_cons, List.not_mem_nil, or_false, not_or] at hc
    simp [hc]

/-- An escape is a backslash and two characters that are never escaped. -/
lemma escapeChar_eq_of_mem {c : Char} (h : c ∈ special) :
    ∃ high low, escapeChar c = ['\\', high, low] ∧ high ∉ special ∧ low ∉ special := by
  simp only [special, List.mem_cons, List.not_mem_nil, or_false] at h
  rcases h with rfl | rfl | rfl | rfl | rfl <;> exact ⟨_, _, rfl, by decide, by decide⟩

/-- What is written for a character is never one of the characters that end or open a filter. -/
lemma mem_escapeChar {c d : Char} (h : d ∈ escapeChar c) : d = '\\' ∨ d ∉ special := by
  by_cases hc : c ∈ special
  · obtain ⟨high, low, hcode, hhigh, hlow⟩ := escapeChar_eq_of_mem hc
    simp only [hcode, List.mem_cons, List.not_mem_nil, or_false] at h
    rcases h with rfl | rfl | rfl
    · exact .inl rfl
    · exact .inr hhigh
    · exact .inr hlow
  · rw [escapeChar_of_not_mem hc, List.mem_singleton] at h
    exact .inr (h ▸ hc)

/-! ## Undoing the escapes -/

/-- A character as it stands when only the characters in `pending` are escaped. -/
def escapePending (pending : List Char) (c : Char) : List Char :=
  if c ∈ pending then escapeChar c else [c]

/-- Two different escapes differ, so that undoing one of them passes over the other. -/
lemma escapeChar_injOn {c d : Char} (hc : c ∈ special) (hd : d ∈ special)
    (h : escapeChar c = escapeChar d) : c = d := by
  have hnodup : (special.map escapeChar).Nodup := by decide
  exact List.inj_on_of_nodup_map hnodup hc hd h

lemma substitute_escapeChar_of_ne {c d : Char} (hc : c ∈ special) (hd : d ∈ special) (hne : c ≠ d)
    (replacement text : List Char) :
    Text.substitute (escapeChar d) replacement (escapeChar c ++ text)
      = escapeChar c ++ Text.substitute (escapeChar d) replacement text := by
  obtain ⟨high, low, hcode, hhigh, hlow⟩ := escapeChar_eq_of_mem hc
  obtain ⟨high', low', hcode', -, -⟩ := escapeChar_eq_of_mem hd
  have hdiffer : escapeChar c ≠ escapeChar d := fun h => hne (escapeChar_injOn hc hd h)
  have hback : '\\' ∈ special := by decide
  rw [hcode, hcode'] at hdiffer ⊢
  have hfirst : ¬ ['\\', high', low'] <+: '\\' :: high :: low :: text := by
    rintro ⟨rest, hrest⟩
    simp only [List.cons_append, List.nil_append, List.cons.injEq, true_and] at hrest
    exact hdiffer (by rw [hrest.1, hrest.2.1])
  have hsecond : ¬ ['\\', high', low'] <+: high :: low :: text := by
    simp [List.cons_prefix_cons, ne_of_mem_of_not_mem hback hhigh]
  have hthird : ¬ ['\\', high', low'] <+: low :: text := by
    simp [List.cons_prefix_cons, ne_of_mem_of_not_mem hback hlow]
  simp only [List.cons_append, List.nil_append]
  rw [Text.substitute_cons hfirst, Text.substitute_cons hsecond, Text.substitute_cons hthird]

/-- Undoing the escape of the first character that is still escaped leaves the others escaped. -/
lemma substitute_flatMap_escapePending {d : Char} {pending : List Char}
    (h : d :: pending <:+ special) (value : List Char) :
    Text.substitute (escapeChar d) [d] (value.flatMap (escapePending (d :: pending)))
      = value.flatMap (escapePending pending) := by
  have hmem : d ∈ special := h.mem List.mem_cons_self
  have hnot : d ∉ pending := (List.nodup_cons.1 ((by decide : special.Nodup).sublist h.sublist)).1
  -- the backslash is the last to be undone
  have hlast : (d :: pending).getLast (by simp) = '\\' := h.getLast (by simp)
  have hback : '\\' ∈ d :: pending := hlast ▸ List.getLast_mem _
  obtain ⟨high, low, hcode, -, -⟩ := escapeChar_eq_of_mem hmem
  induction value with
  | nil => simp [Text.substitute, Text.cutFrom]
  | cons c cs ih =>
    rw [List.flatMap_cons, List.flatMap_cons]
    by_cases hcd : c = d
    · subst hcd
      have hhere : escapePending (c :: pending) c = escapeChar c := if_pos List.mem_cons_self
      have hthere : escapePending pending c = [c] := if_neg hnot
      rw [hhere, hthere, Text.substitute_append (by simp [hcode]), ih]
    · by_cases hc : c ∈ pending
      · have hhere : escapePending (d :: pending) c = escapeChar c :=
          if_pos (List.mem_cons_of_mem _ hc)
        have hthere : escapePending pending c = escapeChar c := if_pos hc
        have hescaped : c ∈ special := h.mem (List.mem_cons_of_mem _ hc)
        rw [hhere, hthere, substitute_escapeChar_of_ne hescaped hmem hcd, ih]
      · have hnone : c ∉ d :: pending := by simp [hcd, hc]
        have hhere : escapePending (d :: pending) c = [c] := if_neg hnone
        have hthere : escapePending pending c = [c] := if_neg hc
        -- every escape begins with a backslash, and an unescaped character is none
        have hne : '\\' ≠ c := fun h => hnone (h ▸ hback)
        rw [hhere, hthere, List.singleton_append,
          Text.substitute_cons (by simp [hcode, List.cons_prefix_cons, hne]), ih,
          List.singleton_append]

/-- Undoing the pending escapes one after the other gives the value. -/
lemma foldl_substitute_escapePending {pending : List Char} (h : pending <:+ special)
    (value : List Char) :
    pending.foldl (fun text d => Text.substitute (escapeChar d) [d] text)
      (value.flatMap (escapePending pending)) = value := by
  induction pending with
  | nil =>
    have hnone : escapePending [] = fun c => [c] := by
      funext c
      exact if_neg List.not_mem_nil
    rw [List.foldl_nil, hnone, List.flatMap_singleton']
  | cons d rest ih =>
    rw [List.foldl_cons, substitute_flatMap_escapePending h, ih ((List.suffix_cons d rest).trans h)]

/-- A value is what undoing the escapes makes of its escaped form. -/
lemma unescapeChars_escapeChars (value : List Char) :
    unescapeChars (escapeChars value) = value := by
  have hall : escapePending special = escapeChar := by
    funext c
    by_cases hc : c ∈ special
    · exact if_pos hc
    · rw [escapeChar_of_not_mem hc]
      exact if_neg hc
  have hfold (text : List Char) : unescapeChars text
      = special.foldl (fun text d => Text.substitute (escapeChar d) [d] text) text := by
    simp only [special, List.foldl_cons, List.foldl_nil]
    rfl
  rw [escapeChars_eq_flatMap, ← hall, hfold, foldl_substitute_escapePending List.suffix_rfl]

lemma unescape_escape (value : String) : unescape (escape value) = value := by
  rw [unescape, escape, String.toList_ofList, unescapeChars_escapeChars, String.ofList_toList]

/-! ## What an escaped value holds -/

lemma not_mem_escape {c : Char} (h : c ∈ special) (hback : c ≠ '\\') (value : String) :
    c ∉ (escape value).toList := by
  intro hmem
  rw [escape, String.toList_ofList, escapeChars_eq_flatMap, List.mem_flatMap] at hmem
  obtain ⟨written, -, hwritten⟩ := hmem
  exact (mem_escapeChar hwritten).elim hback (absurd h)

/-- A value without special characters stands for itself. -/
lemma escape_eq_self {value : String} (h : ∀ c ∈ special, c ∉ value.toList) :
    escape value = value := by
  have hplain : value.toList.flatMap escapeChar = value.toList.flatMap fun c => [c] := by
    refine List.flatMap_congr fun c hc => escapeChar_of_not_mem fun hspecial => ?_
    exact h c hspecial hc
  rw [escape, escapeChars_eq_flatMap, hplain, List.flatMap_singleton', String.ofList_toList]

/-! ## Where the escapes are -/

/-- A backslash in what is written for a character begins it. -/
lemma eq_nil_of_escapeChar_eq_append {c : Char} {before after : List Char}
    (h : escapeChar c = before ++ '\\' :: after) : before = [] ∧ c ∈ special := by
  have hback : '\\' ∈ special := by decide
  by_cases hc : c ∈ special
  · refine ⟨?_, hc⟩
    obtain ⟨high, low, hcode, hhigh, hlow⟩ := escapeChar_eq_of_mem hc
    rw [hcode] at h
    cases before with
    | nil => rfl
    | cons first rest =>
      -- the digits of the escape are no backslashes
      have hmem : '\\' ∈ [high, low] := by
        rw [(List.cons.inj h).2]
        simp
      simp only [List.mem_cons, List.not_mem_nil, or_false] at hmem
      rcases hmem with rfl | rfl
      · exact absurd hback hhigh
      · exact absurd hback hlow
  · -- the character stands for itself, and it is a backslash
    have hmem : '\\' ∈ escapeChar c := h ▸ List.mem_append_right _ List.mem_cons_self
    rw [escapeChar_of_not_mem hc, List.mem_singleton] at hmem
    exact absurd (hmem ▸ hback) hc

/-- Every backslash in an escaped text begins an escape. -/
lemma exists_escapeChar_prefix {value before after : List Char}
    (h : value.flatMap escapeChar = before ++ '\\' :: after) :
    ∃ c ∈ special, escapeChar c <+: '\\' :: after := by
  induction value generalizing before with
  | nil => simp at h
  | cons c cs ih =>
    rw [List.flatMap_cons] at h
    rcases List.append_eq_append_iff.1 h with ⟨middle, -, hrest⟩ | ⟨middle, hcode, hrest⟩
    · -- it stands in what is written for a later character
      exact ih hrest
    · cases middle with
      | nil =>
        -- what is written for this character ends in front of it
        have hhere : cs.flatMap escapeChar = [] ++ '\\' :: after := hrest.symm
        exact ih hhere
      | cons first others =>
        obtain rfl : '\\' = first := (List.cons.inj hrest).1
        obtain ⟨rfl, hc⟩ := eq_nil_of_escapeChar_eq_append hcode
        refine ⟨c, hc, ?_⟩
        rw [hcode, hrest]
        exact List.prefix_append _ _

/-- **Escaping in one pass.**  An escaped value is what writing the backslash and the two
hexadecimal digits of every special character, and every other character as it is, makes of the
value.  It holds no special character but the backslash, and every backslash in it begins the code
of a special character.  The directory reads it as the value, so different values are escaped
differently. -/
theorem escape_one_pass :
    (∀ value : String,
        (escape value).toList = value.toList.flatMap (fun c => if c ∈ special then code c else [c])
          ∧ (∀ c ∈ special, c ≠ '\\' → c ∉ (escape value).toList)
          ∧ (∀ before after, (escape value).toList = before ++ '\\' :: after →
              ∃ c ∈ special, code c <+: '\\' :: after)
          ∧ unescape (escape value) = value)
      ∧ Function.Injective escape := by
  have hread : Function.LeftInverse unescape escape := unescape_escape
  refine ⟨fun value => ?_, hread.injective⟩
  have hchars : (escape value).toList = value.toList.flatMap escapeChar := by
    rw [escape, String.toList_ofList, escapeChars_eq_flatMap]
  refine ⟨hchars, fun c hc hback => not_mem_escape hc hback value, fun before after h => ?_,
    hread value⟩
  obtain ⟨c, hc, hprefix⟩ := exists_escapeChar_prefix (hchars.symm.trans h)
  rw [escapeChar_of_mem hc] at hprefix
  exact ⟨c, hc, hprefix⟩

-- a value that looks like an escape is told from the escape
example : escape "\\2a*" = "\\5c2a\\2a" ∧ unescape "\\5c2a\\2a" = "\\2a*" := by
  decide

end Filter
end EntryClaims
