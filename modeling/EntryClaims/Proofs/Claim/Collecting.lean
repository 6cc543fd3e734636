/-
# How claims share an attribute

The record of a document is built claim by claim.  The first claim that contributes to an attribute
stores its value as it is.  A later one turns the value into a list and puts behind it those of its
own strings that are not there yet.  So nothing is lost and nothing is made up: the attributes are
those that something was contributed to, in the order of the first contributions, and each holds the
strings of its contributions, the first contribution unchanged and no later string twice.
-/
import EntryClaims.Proofs.Claim.Writing
import Mathlib.Data.List.Induction

namespace EntryClaims

/-! ## Values that are put behind others -/

namespace ValueSet

/-- Values are added once each, unless they are there already. -/
lemma addAll_eq_append (values extra : List String) :
    addAll values extra = values ++ (extra.filter (· ∉ values)).eraseDups := by
  induction extra generalizing values with
  | nil => simp [addAll]
  | cons value rest ih =>
    have step : addAll values (value :: rest) = addAll (add values value) rest := rfl
    by_cases hmem : value ∈ values
    · rw [step, add, if_pos hmem, ih, List.filter_cons_of_neg (by simpa using hmem)]
    · have hrest : rest.filter (· ∉ values ++ [value])
          = (rest.filter (· ∉ values)).filter fun other => !other == value := by
        rw [List.filter_filter]
        refine List.filter_congr fun other _ => ?_
        by_cases hother : other = value <;> simp [hother]
      rw [step, add, if_neg hmem, ih, hrest, List.filter_cons_of_pos (by simpa using hmem),
        List.eraseDups_cons, List.append_assoc, List.singleton_append]

lemma addAll_nil (values : List String) : addAll [] values = values.eraseDups := by
  rw [addAll_eq_append, List.nil_append, List.filter_eq_self.2 (by simp)]

lemma addAll_addAll (values extra more : List String) :
    addAll (addAll values extra) more = addAll values (extra ++ more) :=
  List.foldl_append.symm

end ValueSet

namespace Mapping

variable {mapping : Mapping} {document : Document} {claim name : String} {rules : List Rule}
  {value : AttributeValue}

/-! ## Contributing -/

/-- A claim contributes when it has a first rule that names an attribute, its value is there and is
not blank, and what the rule writes for the value can be stored. -/
lemma contribution?_eq_some_iff :
    contribution? document claim rules = some (name, value) ↔
      ∃ rule rest shown written, rules = rule :: rest ∧ rule.source.root? = some name
        ∧ document.getPath? claim = some shown ∧ shown ≠ .null ∧ shown ≠ .string ""
        ∧ rule.write? shown = some written ∧ AttributeValue.ofClaim? written = some value := by
  have hblank : ∀ shown, (!isBlank shown) = true ↔ shown ≠ .null ∧ shown ≠ .string "" := by
    intro shown
    cases shown <;> simp [isBlank]
  cases rules with
  | nil => simp [contribution?]
  | cons rule rest =>
    simp only [contribution?, List.head?_cons, Option.bind_eq_bind, Option.bind_some,
      Option.bind_eq_some_iff, Option.filter_eq_some_iff, hblank, Option.some.injEq,
      Prod.mk.injEq, List.cons.injEq]
    constructor
    · rintro ⟨shown, ⟨hshown, hnull, hempty⟩, written, hwritten, stored, hstored, root, hroot,
        rfl, rfl⟩
      exact ⟨rule, rest, shown, written, ⟨rfl, rfl⟩, hroot, hshown, hnull, hempty, hwritten,
        hstored⟩
    · rintro ⟨_, _, shown, written, ⟨rfl, rfl⟩, hroot, hshown, hnull, hempty, hwritten, hstored⟩
      exact ⟨shown, ⟨hshown, hnull, hempty⟩, written, hwritten, value, hstored, name, hroot,
        rfl, rfl⟩

/-- The values that the claims of a document contribute to an attribute, in the order of the
claims. -/
def valuesFor (mapping : Mapping) (document : Document) (name : String) : List AttributeValue :=
  ((mapping.contributions document).filter (·.1 == name)).map Prod.snd

/-! ## Collecting -/

/-- What an attribute holds after the values were contributed to it one after the other. -/
def collected : List AttributeValue → Option AttributeValue
  | [] => none
  | [value] => some value
  | first :: later =>
    some (.multi (ValueSet.addAll first.texts (later.flatMap AttributeValue.texts)))

/-- One more value is stored as it is, or its strings are put behind those that are there. -/
lemma collected_append (values : List AttributeValue) (value : AttributeValue) :
    collected (values ++ [value])
      = some ((collected values).elim value fun earlier =>
          .multi (ValueSet.addAll earlier.texts value.texts)) := by
  match values with
  | [] => rfl
  | [first] => simp [collected]
  | first :: second :: rest =>
    simp [collected, ValueSet.addAll_addAll]

lemma get?_foldl_collect (given : List (String × AttributeValue)) (name : String) :
    (given.foldl collect OrderedMap.empty).get? name
      = collected ((given.filter (·.1 == name)).map Prod.snd) := by
  -- what the last contribution does depends on what the earlier ones have left
  induction given using List.reverseRecOn with
  | nil => rfl
  | append_singleton given contribution ih =>
    rw [List.foldl_append, List.foldl_cons, List.foldl_nil, List.filter_append]
    by_cases hname : contribution.1 = name
    · subst hname
      rw [get?_collect_self, ih, List.filter_cons_of_pos (by simp), List.filter_nil,
        List.map_append, List.map_singleton, collected_append]
    · rw [get?_collect_of_ne (Ne.symm hname), ih, List.filter_cons_of_neg (by simpa using hname),
        List.filter_nil, List.append_nil]

/-- **The record of a document.**  The attributes are the roots of the claims that contribute, in
the order of the first claims that do.  Where one claim contributes to an attribute, its value is
stored as it is.  Where several do, the attribute holds a list: the strings of the first claim, and
behind them, in the order of the claims, each string of a later claim that is not there yet.  So it
holds the strings of all of them, and none of those put behind comes twice. -/
theorem recordOf_collects (mapping : Mapping) (document : Document) :
    let record := mapping.recordOf document
    (∀ claim rules name value, contribution? document claim rules = some (name, value) ↔
        ∃ rule rest shown written, rules = rule :: rest ∧ rule.source.root? = some name
          ∧ document.getPath? claim = some shown ∧ shown ≠ .null ∧ shown ≠ .string ""
          ∧ rule.write? shown = some written ∧ AttributeValue.ofClaim? written = some value)
      ∧ record.keys = ((mapping.contributions document).map Prod.fst).eraseDups
      ∧ ∀ name,
        (∀ value, mapping.valuesFor document name = [value] → record.get? name = some value)
        ∧ ∀ first second rest, mapping.valuesFor document name = first :: second :: rest →
            let behind := ((second :: rest).flatMap AttributeValue.texts).filter (· ∉ first.texts)
            let appended := behind.eraseDups
            record.get? name = some (.multi (first.texts ++ appended))
              ∧ appended.Nodup ∧ (∀ text ∈ appended, text ∉ first.texts)
              ∧ ∀ text, text ∈ first.texts ++ appended ↔
                  ∃ value ∈ mapping.valuesFor document name, text ∈ value.texts := by
  intro record
  have hget : ∀ name, record.get? name = collected (mapping.valuesFor document name) := fun name =>
    get?_foldl_collect (mapping.contributions document) name
  refine ⟨fun claim rules name value => contribution?_eq_some_iff, ?_, fun name => ⟨?_, ?_⟩⟩
  · exact (keys_foldl_collect OrderedMap.empty (mapping.contributions document)).trans
      (ValueSet.addAll_nil _)
  · intro value hvalues
    rw [hget, hvalues, collected]
  · intro first second rest hvalues behind appended
    refine ⟨?_, ?_, fun text htext => ?_, fun text => ?_⟩
    · rw [hget, hvalues, collected, ValueSet.addAll_eq_append]
      simp
    · have hnodup := ValueSet.nodup_addAll List.nodup_nil behind
      rwa [ValueSet.addAll_nil] at hnodup
    · rw [List.mem_eraseDups, List.mem_filter] at htext
      simpa using htext.2
    · rw [hvalues, ← ValueSet.addAll_eq_append, ValueSet.mem_addAll, List.mem_flatMap]
      simp

/-- Two claims share the addresses, of which the second brings one that is new, and a blank claim
leaves the name alone. -/
theorem recordOf_collects_of_shared_addresses :
    let mapping : Mapping := ⟨[("mail", [.plain (.one "mail")]), ("name", [.plain (.one "cn")]),
      ("aliases", [.plain (.one "mail")]), ("nickname", [.plain (.one "cn")])], by decide⟩
    let document : Document := ⟨[("nickname", .string ""), ("name", .string "Bob"),
      ("aliases", .array [.string "b@x", .string "c@x", .string "c@x"]),
      ("mail", .array [.string "a@x", .string "b@x", .string "a@x"])]⟩
    let record := mapping.recordOf document
    mapping.valuesFor document "cn" = [.single "Bob"]
      ∧ mapping.valuesFor document "mail"
        = [.multi ["a@x", "b@x", "a@x"], .multi ["b@x", "c@x", "c@x"]]
      ∧ record.keys = ["mail", "cn"] ∧ record.get? "cn" = some (.single "Bob")
      ∧ record.get? "mail" = some (.multi ["a@x", "b@x", "a@x", "c@x"]) := by
  intro mapping document record
  have hname : mapping.valuesFor document "cn" = [.single "Bob"] := by decide
  have hmail : mapping.valuesFor document "mail"
      = [.multi ["a@x", "b@x", "a@x"], .multi ["b@x", "c@x", "c@x"]] := by decide
  obtain ⟨-, hkeys, hvalues⟩ := recordOf_collects mapping document
  have hlist := ((hvalues "mail").2 _ _ [] hmail).1
  exact ⟨hname, hmail, hkeys.trans (by decide), (hvalues "cn").1 _ hname,
    hlist.trans (by decide)⟩

end Mapping
end EntryClaims
