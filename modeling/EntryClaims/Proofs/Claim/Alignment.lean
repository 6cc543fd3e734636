/-
# The synonym table of a mapping

The table lists the families that the rules of a mapping declare, each under its first name.
Where any two rules list the same names or have none in common, the table gives back what a rule
lists: a value for the root of the rule is looked up under the names of the rule, in their order.
-/
import EntryClaims.Claim.Mapping
import EntryClaims.Proofs.Entry.Families

namespace EntryClaims

/-! ## Registering families -/

namespace SynonymTable

variable {table : SynonymTable}

lemma get?_register {family : List String} {root : String} {found : List String}
    (h : (register table family).get? root = some found) :
    table.get? root = some found ∨ found = family ∧ family.head? = some root := by
  match family with
  | [] => exact Or.inl h
  | [_] => exact Or.inl h
  | first :: second :: rest =>
    by_cases hroot : root = first
    · subst hroot
      rw [register, OrderedMap.get?_insert_self, Option.some.injEq] at h
      exact Or.inr ⟨h.symm, rfl⟩
    · rw [register, OrderedMap.get?_insert_of_ne hroot] at h
      exact Or.inl h

/-- A family in a table that was built from a list of families is one of them, and stands
under its first name. -/
lemma get?_foldl_register {families : List (List String)} {root : String} {found : List String}
    (h : (families.foldl register table).get? root = some found) :
    table.get? root = some found ∨ found ∈ families ∧ found.head? = some root := by
  induction families generalizing table with
  | nil => exact Or.inl h
  | cons family rest ih =>
    rcases ih h with hreg | ⟨hmem, hhead⟩
    · rcases get?_register hreg with hold | ⟨rfl, hhead⟩
      · exact Or.inl hold
      · exact Or.inr ⟨List.mem_cons_self, hhead⟩
    · exact Or.inr ⟨List.mem_cons_of_mem _ hmem, hhead⟩

lemma isSome_register {family : List String} {root : String}
    (h : (table.get? root).isSome) : ((register table family).get? root).isSome := by
  match family with
  | [] => exact h
  | [_] => exact h
  | first :: second :: rest =>
    by_cases hroot : root = first
    · rw [register, hroot, OrderedMap.get?_insert_self, Option.isSome_some]
    · rwa [register, OrderedMap.get?_insert_of_ne hroot]

/-- Every family of at least two names has its root in the table. -/
lemma isSome_foldl_register {families : List (List String)} {root second : String}
    {rest : List String} (h : (table.get? root).isSome ∨ root :: second :: rest ∈ families) :
    ((families.foldl register table).get? root).isSome := by
  induction families generalizing table with
  | nil => simpa using h
  | cons family others ih =>
    rcases h with hold | hmem
    · exact ih (Or.inl (isSome_register hold))
    · rcases List.mem_cons.1 hmem with rfl | hothers
      · exact ih (Or.inl (by rw [register, OrderedMap.get?_insert_self, Option.isSome_some]))
      · exact ih (Or.inr hothers)

end SynonymTable

/-! ## The families that rules declare -/

/-- An attribute that has a name has a root. -/
lemma Source.exists_root? {source : Source} (h : source.names ≠ []) :
    ∃ root, source.root? = some root := by
  obtain ⟨root, names, hnames⟩ := List.exists_cons_of_ne_nil h
  exact ⟨root, by rw [root?, hnames, List.head?_cons]⟩

namespace Mapping

lemma get?_synonyms {mapping : Mapping} {root : String} {family : List String}
    (h : mapping.synonyms.get? root = some family) :
    family ∈ mapping.families ∧ family.head? = some root := by
  rcases SynonymTable.get?_foldl_register h with hnone | hmem
  · simp at hnone
  · exact hmem

/-- The families of a mapping start with their roots. -/
lemma rooted_synonyms (mapping : Mapping) : SynonymTable.Rooted mapping.synonyms :=
  fun _ h => (get?_synonyms (OrderedMap.get?_eq_some_iff.2 h)).2

/-- The rules of all claims. -/
def allRules (mapping : Mapping) : List Rule := mapping.toList.flatMap Prod.snd

lemma mem_allRules {mapping : Mapping} {claim : String} {rules : List Rule} {rule : Rule}
    (hmem : (claim, rules) ∈ mapping.toList) (hrule : rule ∈ rules) : rule ∈ mapping.allRules :=
  List.mem_flatMap.2 ⟨_, hmem, hrule⟩

lemma mem_families {mapping : Mapping} {family : List String} :
    family ∈ mapping.families ↔ ∃ rule ∈ mapping.allRules, rule.source = .synonyms family := by
  simp only [families, allRules, List.mem_flatMap, List.mem_filterMap]
  constructor
  · rintro ⟨pair, hpair, rule, hrule, hfamily⟩
    refine ⟨rule, ⟨pair, hpair, hrule⟩, ?_⟩
    cases hsource : rule.source <;> simp_all
  · rintro ⟨rule, ⟨pair, hpair, hrule⟩, hsource⟩
    exact ⟨pair, hpair, rule, hrule, by rw [hsource]⟩

/-- Two rules list the same names, or have no name in common. -/
def Aligned (mapping : Mapping) : Prop :=
  ∀ rule ∈ mapping.allRules, ∀ other ∈ mapping.allRules,
    rule.source.names = other.source.names ∨ ∀ name ∈ rule.source.names, name ∉ other.source.names

instance (mapping : Mapping) : Decidable mapping.Aligned :=
  inferInstanceAs (Decidable (∀ rule ∈ mapping.allRules, ∀ other ∈ mapping.allRules,
    rule.source.names = other.source.names
      ∨ ∀ name ∈ rule.source.names, name ∉ other.source.names))

section Aligned

variable {mapping : Mapping} {rule : Rule} {root : String}

/-- The table has the names of a rule under their root, unless the root is the only name. -/
lemma Aligned.get?_synonyms (h : mapping.Aligned) (hrule : rule ∈ mapping.allRules)
    (hroot : rule.source.root? = some root) :
    mapping.synonyms.get? root = some rule.source.names
      ∨ mapping.synonyms.get? root = none ∧ rule.source.names = [root] := by
  have hmem : root ∈ rule.source.names := List.mem_of_mem_head? hroot
  cases hget : mapping.synonyms.get? root with
  | some family =>
    obtain ⟨hfamily, hhead⟩ := Mapping.get?_synonyms hget
    obtain ⟨other, hother, hsource⟩ := mem_families.1 hfamily
    have hnames : other.source.names = family := by rw [hsource, Source.names_synonyms]
    rcases h rule hrule other hother with heq | hapart
    · exact Or.inl (by rw [heq, hnames])
    · exact absurd (hnames ▸ List.mem_of_mem_head? hhead) (hapart root hmem)
  | none =>
    -- a family of two names or more would be in the table
    refine Or.inr ⟨rfl, ?_⟩
    rw [Source.root?] at hroot
    cases hsource : rule.source with
    | one name => simpa [hsource] using hroot
    | synonyms names =>
      rw [hsource, Source.names_synonyms] at hroot
      match names with
      | [_] => simpa using hroot
      | first :: second :: rest =>
        have hfamily : first :: second :: rest ∈ mapping.families :=
          mem_families.2 ⟨rule, hrule, hsource⟩
        have hsome : (mapping.synonyms.get? first).isSome :=
          SynonymTable.isSome_foldl_register (Or.inr hfamily)
        rw [List.head?_cons, Option.some.injEq] at hroot
        rw [hroot, hget] at hsome
        simp at hsome

/-- In an entry whose attributes all carry data, a value for the root of a rule is stored under
the name that the rule reads from, or else under the root. -/
lemma Aligned.resolve_root (h : mapping.Aligned) (hrule : rule ∈ mapping.allRules)
    (hroot : rule.source.root? = some root) {entry : Record} (hentry : Record.Filled entry) :
    SynonymTable.resolve mapping.synonyms root entry
      = (rule.source.firstWithData? entry).getD root := by
  have hfirst : rule.source.firstWithData? entry = rule.source.names.find? entry.contains :=
    List.find?_congr fun name _ => hentry.hasData_eq name
  rw [SynonymTable.resolve, hfirst]
  rcases h.get?_synonyms hrule hroot with hget | ⟨hget, hnames⟩
  · rw [hget, Option.getD_some]
  · rw [hget, hnames]
    cases hcontains : entry.contains root <;> simp [hcontains]

/-- Where the entry has the value for the root of a rule, the rule reads it. -/
lemma Aligned.firstWithData?_eq (h : mapping.Aligned) (hrule : rule ∈ mapping.allRules)
    (hroot : rule.source.root? = some root) {entry : Record} (hentry : Record.Filled entry)
    (hthere : entry.contains (SynonymTable.resolve mapping.synonyms root entry) = true) :
    rule.source.firstWithData? entry
      = some (SynonymTable.resolve mapping.synonyms root entry) := by
  have hresolve := h.resolve_root hrule hroot hentry
  cases hfirst : rule.source.firstWithData? entry with
  | some name => rw [hresolve, hfirst, Option.getD_some]
  | none =>
    have hnone := List.find?_eq_none.1 hfirst root (List.mem_of_mem_head? hroot)
    rw [hresolve, hfirst, Option.getD_none, ← hentry.hasData_eq] at hthere
    exact absurd hthere hnone

/-- The names for the root of a rule are the names of the rule. -/
lemma Aligned.mem_namesFor_root (h : mapping.Aligned) (hrule : rule ∈ mapping.allRules)
    (hroot : rule.source.root? = some root) {name : String} :
    name ∈ SynonymTable.namesFor mapping.synonyms root ↔ name ∈ rule.source.names := by
  have hmem : root ∈ rule.source.names := List.mem_of_mem_head? hroot
  rw [SynonymTable.namesFor]
  rcases h.get?_synonyms hrule hroot with hget | ⟨hget, hnames⟩
  · rw [hget, Option.getD_some, List.mem_cons]
    constructor
    · rintro (rfl | hname)
      · exact hmem
      · exact hname
    · exact Or.inr
  · rw [hget, hnames, Option.getD_none]

end Aligned

end Mapping
end EntryClaims
