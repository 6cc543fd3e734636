/-
# Where a family is read and where it is looked up

A rule reads a family of synonyms from the first name that carries data.  The changes of an entry
are worked out against the name that the synonym table gives for the root of the family, which is
the first name that the entry has, with data or without.  The table holds one family for a root,
the one that is declared last.  So both go to the same name when no later rule declares other
names under the root, and the entry has no name without data in front of the one that is read.
-/
import EntryClaims.Proofs.Claim.Alignment
import Mathlib.Data.List.Induction

namespace EntryClaims

open SynonymTable (resolve register)

/-- The attribute is a family of at least two names, of which `root` is the first. -/
def Source.Heads (source : Source) (root : String) : Prop :=
  ∃ second rest, source = .synonyms (root :: second :: rest)

/-! ## The family declared last -/

namespace SynonymTable

variable {table : SynonymTable} {root : String} {family : List String}

lemma get?_register_of_head? (h : family.head? = some root) (htwo : 2 ≤ family.length) :
    (register table family).get? root = some family := by
  match family, htwo with
  | first :: second :: rest, _ =>
    obtain rfl : first = root := by simpa using h
    exact OrderedMap.get?_insert_self table first _

lemma get?_register_of_not (h : ¬ (family.head? = some root ∧ 2 ≤ family.length)) :
    (register table family).get? root = table.get? root := by
  match family with
  | [] => rfl
  | [_] => rfl
  | first :: second :: rest =>
    refine OrderedMap.get?_insert_of_ne (fun hroot => h ⟨?_, by simp⟩) table _
    rw [List.head?_cons, hroot]

/-- The families that are registered later leave the one under a root, unless one of them stands
under the same root. -/
lemma get?_foldl_register_of_not {families : List (List String)}
    (h : ∀ family ∈ families, ¬ (family.head? = some root ∧ 2 ≤ family.length)) :
    (families.foldl register table).get? root = table.get? root := by
  induction families generalizing table with
  | nil => rfl
  | cons family rest ih =>
    rw [List.foldl_cons, ih fun f hf => h f (List.mem_cons_of_mem _ hf),
      get?_register_of_not (h family List.mem_cons_self)]

end SynonymTable

namespace Mapping

variable {mapping : Mapping} {rule : Rule} {before behind : List Rule} {root : String}

/-- The names of a family of synonyms. -/
def family? (rule : Rule) : Option (List String) :=
  match rule.source with
  | .one _ => none
  | .synonyms names => some names

lemma family?_eq_some_iff {names : List String} :
    family? rule = some names ↔ rule.source = .synonyms names := by
  rw [family?]
  cases rule.source <;> simp

lemma families_eq (mapping : Mapping) : mapping.families = mapping.allRules.filterMap family? := by
  rw [allRules, List.filterMap_flatMap]
  rfl

/-- Behind the last rule that declares a family under a root the table keeps the names of this
rule. -/
lemma get?_synonyms_of_last (hrules : mapping.allRules = before ++ rule :: behind)
    (hrule : rule.source.Heads root) (hlast : ∀ other ∈ behind, ¬ other.source.Heads root) :
    mapping.synonyms.get? root = some rule.source.names := by
  obtain ⟨second, rest, hsource⟩ := hrule
  have hfamily : family? rule = some (root :: second :: rest) := family?_eq_some_iff.2 hsource
  rw [synonyms, families_eq, hrules, List.filterMap_append, List.filterMap_cons_some hfamily,
    List.foldl_append, List.foldl_cons, SynonymTable.get?_foldl_register_of_not,
    SynonymTable.get?_register_of_head? rfl (by simp), hsource, Source.names_synonyms]
  intro family hmem hroot
  obtain ⟨other, hother, hnames⟩ := List.mem_filterMap.1 hmem
  match family, hroot with
  | first :: next :: others, ⟨hhead, _⟩ =>
    obtain rfl : first = root := by simpa using hhead
    exact hlast other hother ⟨next, others, family?_eq_some_iff.1 hnames⟩

/-- Of the rules that declare a family under a root, one is the last. -/
lemma exists_last {rules : List Rule} (h : ∃ rule ∈ rules, rule.source.Heads root) :
    ∃ earlier last later, rules = earlier ++ last :: later ∧ last.source.Heads root
      ∧ ∀ other ∈ later, ¬ other.source.Heads root := by
  induction rules using List.reverseRecOn with
  | nil => simp at h
  | append_singleton rules final ih =>
    by_cases hfinal : final.source.Heads root
    · exact ⟨rules, final, [], rfl, hfinal, by simp⟩
    · obtain ⟨rule, hmem, hrule⟩ := h
      have hinner : rule ∈ rules := by
        rcases List.mem_append.1 hmem with hinner | hend
        · exact hinner
        · exact absurd (List.mem_singleton.1 hend ▸ hrule) hfinal
      obtain ⟨earlier, last, later, rfl, hlast, hlater⟩ := ih ⟨rule, hinner, hrule⟩
      refine ⟨earlier, last, later ++ [final], by simp, hlast, fun other hother => ?_⟩
      rcases List.mem_append.1 hother with hother | hother
      · exact hlater other hother
      · rwa [List.mem_singleton.1 hother]

/-! ## Reading and looking up -/

/-- The first name with data is the first name that is there, where no name in front of it is
there without data. -/
lemma find?_contains_of_hasData {entry : Record} {names : List String} {name : String}
    (hfirst : names.find? (Record.hasData entry) = some name)
    (hearlier : ∀ earlier ∈ names.takeWhile (· != name),
      entry.contains earlier = true → Record.hasData entry earlier = true) :
    names.find? entry.contains = some name := by
  have hname : Record.hasData entry name = true := List.find?_some hfirst
  induction names with
  | nil => simp at hfirst
  | cons first rest ih =>
    by_cases hdata : Record.hasData entry first = true
    · rw [List.find?_cons_of_pos hdata, Option.some.injEq] at hfirst
      subst hfirst
      exact List.find?_cons_of_pos (Record.contains_of_hasData hname)
    · have hne : first ≠ name := fun heq => hdata (heq ▸ hname)
      rw [List.takeWhile_cons_of_pos (by simpa using hne), List.forall_mem_cons] at hearlier
      have hgone : ¬ entry.contains first = true := fun hthere => hdata (hearlier.1 hthere)
      rw [List.find?_cons_of_neg hdata] at hfirst
      rw [List.find?_cons_of_neg hgone]
      exact ih hfirst hearlier.2

/-- **Where reader and table agree.**  A value for the root of a rule with two or more synonyms is
looked up among the names of the rule that is the last to declare a family under this root: under
the first of them that the entry has, or else under the root.  So where every later family under
the root has the same names, and the entry has no name without data in front of the one that the
rule reads, the value is looked up under the name that the rule reads. -/
theorem resolve_root_agrees {mapping : Mapping} {before behind : List Rule} {rule : Rule}
    {root second : String} {rest : List String}
    (hrules : mapping.allRules = before ++ rule :: behind)
    (hsource : rule.source = .synonyms (root :: second :: rest)) :
    (∃ earlier last later, rule :: behind = earlier ++ last :: later ∧ last.source.Heads root
        ∧ (∀ other ∈ later, ¬ other.source.Heads root)
        ∧ ∀ entry, resolve mapping.synonyms root entry
            = (last.source.names.find? entry.contains).getD root)
      ∧ ((∀ other ∈ behind, other.source.Heads root → other.source.names = rule.source.names) →
          ∀ entry name, rule.source.firstWithData? entry = some name →
            (∀ earlier ∈ rule.source.names.takeWhile (· != name),
              entry.contains earlier = true → Record.hasData entry earlier = true) →
            resolve mapping.synonyms root entry = name) := by
  have hheads : rule.source.Heads root := ⟨second, rest, hsource⟩
  obtain ⟨earlier, last, later, hsplit, hlast, hlater⟩ :=
    exists_last ⟨rule, List.mem_cons_self (l := behind), hheads⟩
  have hplace : mapping.allRules = (before ++ earlier) ++ last :: later := by
    rw [hrules, hsplit, List.append_assoc]
  have htable : mapping.synonyms.get? root = some last.source.names :=
    get?_synonyms_of_last hplace hlast hlater
  have hresolve : ∀ entry, resolve mapping.synonyms root entry
      = (last.source.names.find? entry.contains).getD root := fun entry => by
    rw [resolve, htable, Option.getD_some]
  refine ⟨⟨earlier, last, later, hsplit, hlast, hlater, hresolve⟩, ?_⟩
  intro hsame entry name hfirst hearlier
  have hnames : last.source.names = rule.source.names := by
    have hmem : last ∈ rule :: behind := by rw [hsplit]; simp
    rcases List.mem_cons.1 hmem with heq | hbehind
    · rw [heq]
    · exact hsame last hbehind hlast
  rw [hresolve, hnames, find?_contains_of_hasData hfirst hearlier, Option.getD_some]

/-- A family that is declared twice is looked up where it is read, past a name that is missing. -/
theorem resolve_root_agrees_of_login :
    let login : Rule := .plain (.synonyms ["uid", "userid", "login"])
    let mapping : Mapping := ⟨[("sub", [.plain (.one "employeeId"), login]),
      ("name", [.plain (.synonyms ["cn", "commonName"])]), ("login", [login])], by decide⟩
    let entry : Record := ⟨[("cn", .single ""), ("login", .single ""), ("userid", .single "bob")],
      by decide⟩
    mapping.allRules = [.plain (.one "employeeId")]
        ++ login :: [.plain (.synonyms ["cn", "commonName"]), login]
      ∧ login.source = .synonyms ("uid" :: "userid" :: ["login"])
      ∧ resolve mapping.synonyms "uid" entry = "userid" := by
  intro login mapping entry
  have hrules : mapping.allRules = [.plain (.one "employeeId")]
      ++ login :: [.plain (.synonyms ["cn", "commonName"]), login] := rfl
  have hsource : login.source = .synonyms ("uid" :: "userid" :: ["login"]) := rfl
  refine ⟨hrules, hsource, (resolve_root_agrees hrules hsource).2 ?_ entry "userid" rfl ?_⟩
  · rintro other hother ⟨second, rest, hnames⟩
    rcases List.mem_cons.1 hother with rfl | hother
    · simp [Rule.plain] at hnames
    · rw [List.mem_singleton.1 hother]
  · decide

/-- A second family under the same root takes the place of the one that is read, and a name
without data is looked up that is not read. -/
theorem resolve_root_differs :
    (let rule : Rule := .plain (.synonyms ["cn", "commonName"])
      let mapping : Mapping :=
        ⟨[("name", [rule]), ("nickname", [.plain (.synonyms ["cn", "displayName"])])], by decide⟩
      let entry : Record := ⟨[("commonName", .single "Bob")], by decide⟩
      mapping.validate = .ok () ∧ rule ∈ mapping.allRules
        ∧ rule.source.firstWithData? entry = some "commonName"
        ∧ resolve mapping.synonyms "cn" entry ≠ "commonName")
      ∧ (let rule : Rule := .plain (.synonyms ["uid", "userid"])
        let mapping : Mapping := ⟨[("sub", [rule])], by decide⟩
        let entry : Record := ⟨[("uid", .single ""), ("userid", .single "bob")], by decide⟩
        mapping.validate = .ok () ∧ rule ∈ mapping.allRules
          ∧ rule.source.firstWithData? entry = some "userid"
          ∧ resolve mapping.synonyms "uid" entry ≠ "userid") := by
  refine ⟨⟨by rfl, by decide, by decide, by decide⟩, ⟨by rfl, by decide, by decide, by decide⟩⟩

end Mapping
end EntryClaims
