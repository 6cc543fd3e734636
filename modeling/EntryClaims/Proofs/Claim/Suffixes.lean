/-
# Suffixes that are put behind a value and removed again

A suffix is put behind a value, but it is removed from the left and wherever it occurs.  An
occurrence that begins in the value and reaches into the suffix behind it would be removed first,
and the end of the suffix would be left.  Such an occurrence divides the suffix in two: what stands
in the suffix that was put there is at the end of the suffix, where the occurrence ends, and at its
beginning.  So if only the whole of the suffix is at both of its ends, a value that does not hold
the suffix comes back as it was.
-/
import EntryClaims.Proofs.Claim.Rereading
import EntryClaims.Proofs.Filter.Escaping
import Mathlib.Data.List.Infix

namespace EntryClaims

/-! ## Patterns that do not overlap themselves -/

namespace Text

variable {pattern text : List Char}

/-- What stands both at the beginning and at the end of the pattern is empty or the whole of it, so
that two occurrences of the pattern never overlap. -/
def Unbordered (pattern : List Char) : Prop :=
  ∀ border, border <+: pattern → border <:+ pattern → border = [] ∨ border = pattern

instance (pattern : List Char) : Decidable (Unbordered pattern) :=
  decidable_of_iff
    (∀ border ∈ pattern.inits, border <:+ pattern → border = [] ∨ border = pattern)
    (by simp [Unbordered])

/-- A pattern that stands behind a text without it does not begin inside the text. -/
lemma Unbordered.not_prefix_append (h : Unbordered pattern) (hfree : ¬ pattern <:+: text)
    (hne : text ≠ []) : ¬ pattern <+: text ++ pattern := by
  rintro ⟨rest, hrest⟩
  rcases List.append_eq_append_iff.1 hrest with ⟨inside, htext, -⟩ | ⟨border, htext, hpattern⟩
  · -- the text begins with the pattern
    exact hfree (htext ▸ (List.prefix_append pattern inside).isInfix)
  · -- the text and a border of the pattern are the pattern
    rcases h border ⟨rest, hpattern.symm⟩ ⟨text, htext.symm⟩ with rfl | rfl
    · rw [List.append_nil] at htext
      exact hfree (htext ▸ List.infix_rfl)
    · exact hne (by simpa using htext)

lemma nil_intercalate (pieces : List (List Char)) :
    ([] : List Char).intercalate pieces = pieces.flatten := by
  induction pieces with
  | nil => rfl
  | cons piece rest ih =>
    cases rest with
    | nil => simp
    | cons second others => simp [List.intercalate_cons_cons, ih]

lemma remove_eq_substitute (h : pattern ≠ []) (text : List Char) :
    remove pattern text = substitute pattern [] text := by
  rw [remove, cut, if_neg (by simpa using h), substitute, nil_intercalate]

/-- From a text without the pattern and the pattern behind it, only the pattern behind is
removed. -/
lemma Unbordered.remove_append (h : Unbordered pattern) (hne : pattern ≠ [])
    (hfree : ¬ pattern <:+: text) : remove pattern (text ++ pattern) = text := by
  rw [remove_eq_substitute hne]
  induction text with
  | nil =>
    have hself := substitute_append hne [] []
    rw [List.append_nil] at hself
    rw [List.nil_append, hself]
    rfl
  | cons c cs ih =>
    have hrest : ¬ pattern <:+: cs := fun hinfix => hfree (List.infix_cons hinfix)
    have hfirst : ¬ pattern <+: c :: (cs ++ pattern) :=
      h.not_prefix_append hfree (List.cons_ne_nil c cs)
    rw [List.cons_append, substitute_cons hfirst, ih hrest]

end Text

/-! ## Rules with a suffix -/

namespace Rule

/-- A rule whose only option is a suffix. -/
def suffixed (source : Source) (suffix : String) : Rule := { source, suffix := some suffix }

variable {suffix : String} {value : AttributeValue}

lemma read?_suffixed (source : Source) (hne : suffix ≠ "") (value : AttributeValue) :
    (suffixed source suffix).read? value.toClaim = some (value.map (· ++ suffix)).toClaim := by
  have hset : nonEmpty? (some suffix) = some suffix := by simp [nonEmpty?, hne]
  simp only [read?, present?_toClaim, suffixed, hset]
  exact congrArg some (AttributeValue.onStrings_toClaim (· ++ suffix) value)

/-- A text without the occurrences of the suffix. -/
def withoutSuffix (suffix text : String) : String :=
  String.ofList (Text.remove suffix.toList text.toList)

lemma write?_suffixed (source : Source) (hne : suffix ≠ "") (value : AttributeValue) :
    (suffixed source suffix).write? value.toClaim
      = some (value.map (withoutSuffix suffix)).toClaim := by
  have hset : nonEmpty? (some suffix) = some suffix := by simp [nonEmpty?, hne]
  simp only [write?, present?_toClaim, suffixed, hset]
  exact congrArg some (AttributeValue.onStrings_toClaim (withoutSuffix suffix) value)

lemma withoutSuffix_append (hne : suffix ≠ "") (hsuffix : Text.Unbordered suffix.toList)
    {text : String} (hfree : ¬ suffix.toList <:+: text.toList) :
    withoutSuffix suffix (text ++ suffix) = text := by
  have hne' : suffix.toList ≠ [] := by simpa using hne
  rw [withoutSuffix, String.toList_append, hsuffix.remove_append hne' hfree, String.ofList_toList]

/-- **A suffix is removed as it was put.**  Let the only option of a rule be a suffix, of which only
the whole stands at both of its ends.  A value whose strings do not hold the suffix is read with the
suffix behind each string, and what was read is written as the value, one string or several. -/
theorem suffix_put_and_removed (source : Source) (hne : suffix ≠ "")
    (hsuffix : Text.Unbordered suffix.toList)
    (hfree : ∀ text ∈ value.texts, ¬ suffix.toList <:+: text.toList) :
    let rule := suffixed source suffix
    let shown := (value.map (· ++ suffix)).toClaim
    rule.read? value.toClaim = some shown ∧ rule.write? shown = some value.toClaim := by
  intro rule shown
  have hback : (value.map (· ++ suffix)).map (withoutSuffix suffix) = value := by
    rw [AttributeValue.map_map]
    exact AttributeValue.map_eq_self fun text htext =>
      withoutSuffix_append hne hsuffix (hfree text htext)
  refine ⟨read?_suffixed source hne value, ?_⟩
  rw [write?_suffixed source hne, hback]

/-- Some strings end in the beginning of the suffix, some begin with its end, and one is empty. -/
theorem suffix_put_and_removed_of_parts :
    let rule := suffixed (.one "uid") "@x.org"
    let value := AttributeValue.multi ["bob@x.or", "@x.@x", "org@", ""]
    let shown := Json.ofStrings ["bob@x.or@x.org", "@x.@x@x.org", "org@@x.org", "@x.org"]
    Text.Unbordered "@x.org".toList ∧ (∀ text ∈ value.texts, ¬ "@x.org".toList <:+: text.toList)
      ∧ rule.read? value.toClaim = some shown ∧ rule.write? shown = some value.toClaim := by
  intro rule value shown
  have hsuffix : Text.Unbordered "@x.org".toList := by decide
  have hfree : ∀ text ∈ value.texts, ¬ "@x.org".toList <:+: text.toList := by decide
  obtain ⟨hread, hwrite⟩ := suffix_put_and_removed (.one "uid") (by decide) hsuffix hfree
  exact ⟨hsuffix, hfree, hread, hwrite⟩

/-- A suffix that overlaps itself is found too early, and its end is left. -/
example : ¬ Text.Unbordered "aba".toList ∧ withoutSuffix "aba" ("ab" ++ "aba") = "ba" := by decide

end Rule
end EntryClaims
