/-
# Claims that share an attribute through labels

Claims that select labels may all be stored in one attribute.  What they contribute is taken
together into one list there, and each claim is read again by picking out what ends in its label.
A string is divided at its first space: so where no supplied string holds a space, the content in
front of a label is what stands before the first space, and all that stands behind it is the
label, with the spaces it may hold itself.  Then a string counts for one label only, even if one
label ends or begins in another, and however many strings the labels divide between them, each
claim gets back its own.
-/
import EntryClaims.Proofs.Claim.Labels
import EntryClaims.Proofs.Claim.Reading
import EntryClaims.Proofs.Claim.Saving
import EntryClaims.Proofs.Claim.Unmodified

namespace EntryClaims

/-! ## Contents and labels -/

/-- No string of the value holds a space. -/
def AttributeValue.SpaceFree (value : AttributeValue) : Prop :=
  ∀ text ∈ value.texts, ' ' ∉ text.toList

instance (value : AttributeValue) : Decidable value.SpaceFree :=
  inferInstanceAs (Decidable (∀ text ∈ value.texts, ' ' ∉ text.toList))

namespace Step

variable {label other text content : String}

/-- The content that a string has in front of the label. -/
def contentOf? (label text : String) : Option String :=
  (Text.cutOnce ' ' text.toList).bind fun (content, tag) =>
    if tag = label.toList then some (String.ofList content) else none

/-- The content of a string is what it has in front of its first space, with the label behind. -/
lemma contentOf?_eq_some_iff :
    contentOf? label text = some content
      ↔ text = content ++ " " ++ label ∧ ' ' ∉ content.toList := by
  simp only [contentOf?, Option.bind_eq_some_iff, Prod.exists, Text.cutOnce_eq_some_iff,
    Option.ite_none_right_eq_some, Option.some.injEq, ← String.toList_inj]
  constructor
  · rintro ⟨before, tag, ⟨htext, hspace⟩, rfl, hcontent⟩
    rw [String.toList_ofList] at hcontent
    subst hcontent
    exact ⟨by simpa using htext, hspace⟩
  · rintro ⟨htext, hspace⟩
    exact ⟨content.toList, label.toList, ⟨by simpa using htext, hspace⟩, rfl, by simp⟩

lemma mem_filterMap_contentOf? {texts : List String} :
    content ∈ texts.filterMap (contentOf? label)
      ↔ content ++ " " ++ label ∈ texts ∧ ' ' ∉ content.toList := by
  simp only [List.mem_filterMap, contentOf?_eq_some_iff]
  constructor
  · rintro ⟨text, htext, rfl, hspace⟩
    exact ⟨htext, hspace⟩
  · rintro ⟨htext, hspace⟩
    exact ⟨_, htext, rfl, hspace⟩

/-- With contents that hold no space, strings are equal only if their labels are. -/
lemma content_label_inj (hcontent : ' ' ∉ content.toList) (htext : ' ' ∉ text.toList) :
    content ++ " " ++ label = text ++ " " ++ other ↔ content = text ∧ label = other := by
  refine ⟨fun heq => ?_, fun ⟨hcontents, hlabels⟩ => hcontents ▸ hlabels ▸ rfl⟩
  have hlist := congrArg String.toList heq
  simp only [String.toList_append, List.append_assoc] at hlist
  have hcut := Text.cutOnce_append hcontent label.toList
  have hcut' := Text.cutOnce_append htext other.toList
  rw [show content.toList ++ ' ' :: label.toList = text.toList ++ ' ' :: other.toList from hlist,
    hcut', Option.some.injEq, Prod.mk.injEq, String.toList_inj, String.toList_inj] at hcut
  exact ⟨hcut.1.symm, hcut.2.symm⟩

lemma gather?_strings (texts : List String) :
    gather? (texts.map .string) = (AttributeValue.ofTexts? texts).map AttributeValue.toClaim := by
  match texts with
  | [] => rfl
  | [_] => rfl
  | _ :: _ :: _ => rfl

lemma labelled?_string (label text : String) :
    labelled? label (.string text) = (contentOf? label text).map .string := by
  simp only [labelled?, contentOf?, Option.bind_eq_bind]
  cases Text.cutOnce ' ' text.toList with
  | none => rfl
  | some pair => simp only [Option.bind_some]; split <;> rfl

lemma selectLabel?_toClaim (label : String) (value : AttributeValue) :
    selectLabel? label value.toClaim
      = (AttributeValue.ofTexts? (value.texts.filterMap (contentOf? label))).map
          AttributeValue.toClaim := by
  cases value with
  | single text =>
    have hselect : selectLabel? label (.string text) = labelled? label (.string text) := rfl
    rw [AttributeValue.toClaim, hselect, labelled?_string, AttributeValue.texts_single]
    cases hcontent : contentOf? label text with
    | none => simp [hcontent]
    | some content => simp [hcontent, AttributeValue.ofTexts?, AttributeValue.toClaim]
  | multi texts =>
    rw [AttributeValue.toClaim, Json.ofStrings, selectLabel?, List.filterMap_map,
      AttributeValue.texts_multi, ← gather?_strings, List.map_filterMap]
    exact congrArg gather? (List.filterMap_congr fun text _ => labelled?_string label text)

lemma attachLabel?_toClaim (label : String) (value : AttributeValue) :
    attachLabel? label value.toClaim
      = (AttributeValue.ofTexts? (value.texts.map (· ++ " " ++ label))).map
          AttributeValue.toClaim := by
  cases value with
  | single text => rfl
  | multi texts =>
    have hnull : (texts.map Json.string).filter (!·.isNull) = texts.map .string :=
      List.filter_eq_self.2 fun item hitem => by
        obtain ⟨text, -, rfl⟩ := List.mem_map.1 hitem
        rfl
    rw [AttributeValue.toClaim, Json.ofStrings, attachLabel?, hnull, List.map_map,
      ← gather?_strings, AttributeValue.texts_multi, List.map_map]
    rfl

end Step

/-- Each of the claims is withheld, or supplied with strings that hold no space. -/
def Document.SpaceFree (document : Document) (claims : List String) : Prop :=
  ∀ claim ∈ claims, document.Withholds claim
    ∨ ∃ value : AttributeValue, document.Supplies claim value ∧ value.SpaceFree

/-! ## Mappings of which all claims share an attribute -/

namespace Mapping

open Document (Supplies Withholds)
open Record (Solid textsOf)

/-- All claims of the mapping share one attribute: no claim path continues another, and each claim
has one rule, which reads the attribute and selects a label of the claim's own. -/
structure SharedBy (mapping : Mapping) (source : Source) (label : String → String) : Prop where
  unnested : mapping.Unnested
  names_ne_nil : source.names ≠ []
  eq_labelled : ∀ pair ∈ mapping.toList, pair.2 = [.labelled source (label pair.1)]
  label_ne_empty : ∀ claim ∈ mapping.keys, label claim ≠ ""
  nodup_labels : (mapping.keys.map label).Nodup

instance (mapping : Mapping) (source : Source) (label : String → String) :
    Decidable (mapping.SharedBy source label) :=
  decidable_of_iff
    (mapping.Unnested ∧ source.names ≠ []
      ∧ (∀ pair ∈ mapping.toList, pair.2 = [.labelled source (label pair.1)])
      ∧ (∀ claim ∈ mapping.keys, label claim ≠ "") ∧ (mapping.keys.map label).Nodup)
    ⟨fun ⟨unnested, names, labelled, ne, nodup⟩ => ⟨unnested, names, labelled, ne, nodup⟩,
      fun h => ⟨h.unnested, h.names_ne_nil, h.eq_labelled, h.label_ne_empty, h.nodup_labels⟩⟩

variable {mapping : Mapping} {payload : Document} {record : Record} {source : Source}
  {claim root content tag : String} {label : String → String} {value : AttributeValue}
  {forced : List String}

/-! ## What labels write -/

lemma contribution?_of_withholds (htag : tag ≠ "") (h : payload.Withholds claim) :
    contribution? payload claim [.labelled source tag] = none := by
  simp only [Withholds, List.mem_cons, List.not_mem_nil, or_false] at h
  rcases h with hget | hget | hget | hget <;>
    simp [contribution?, hget, isBlank, write?_labelled source htag, Json.present?,
      Step.attachLabel?, Step.gather?]

/-- A claim that is supplied contributes its strings with the label behind. -/
lemma contribution?_of_supplies (htag : tag ≠ "") (hroot : source.root? = some root)
    (h : payload.Supplies claim value) :
    ∃ stored, contribution? payload claim [.labelled source tag] = some (root, stored)
      ∧ stored.texts = value.texts.map (· ++ " " ++ tag) ∧ stored.Solid := by
  have hne : value.texts.map (· ++ " " ++ tag) ≠ [] := by simpa using h.2.texts_ne_nil
  obtain ⟨stored, hstored, htexts⟩ := AttributeValue.exists_ofTexts? hne
  have hsolid : stored.Solid := ⟨htexts ▸ hne, by simp [htexts]⟩
  have hsource : (Rule.labelled source tag).source.root? = some root := hroot
  refine ⟨stored, ?_, htexts, hsolid⟩
  simp [contribution?, filter_isBlank_of_supplies h, write?_labelled source htag,
    Json.present?_of_ne_null value.toClaim_ne_null, Step.attachLabel?_toClaim, hstored,
    AttributeValue.ofClaim?_toClaim hsolid.hasData, hsource]

/-! ## What labels read -/

lemma read?_labelled (source : Source) (htag : tag ≠ "") (value : AttributeValue) :
    (Rule.labelled source tag).read? value.toClaim
      = (AttributeValue.ofTexts? (value.texts.filterMap (Step.contentOf? tag))).map
          AttributeValue.toClaim := by
  have hset : Rule.nonEmpty? (some tag) = some tag := by simp [Rule.nonEmpty?, htag]
  rw [← Step.selectLabel?_toClaim, Rule.read?, Rule.present?_toClaim]
  simp only [Rule.labelled, hset]
  exact Option.bind_fun_some _

/-- From a record that holds nothing but the shared attribute a claim is read as the contents of
the strings with its label; without any it is not shown. -/
lemma claimValue?_labelled (htag : tag ≠ "") (hroot : source.root? = some root)
    (hsolid : Solid record) (hkeys : ∀ name ∈ record.keys, name = root) (force : Bool) :
    claimValue? [.labelled source tag] force record
      = (AttributeValue.ofTexts? ((textsOf record root).filterMap (Step.contentOf? tag))).map
          fun value => if force then Step.toArray value.toClaim else value.toClaim := by
  have habsent : ∀ name, name ≠ root → record.get? name = none := fun name hne =>
    Pairs.lookup_eq_none_of_not_mem fun hmem => hne (hkeys name hmem)
  obtain ⟨rest, hnames⟩ : ∃ rest, source.names = root :: rest := by
    rw [Source.root?, List.head?_eq_some_iff] at hroot
    exact hroot
  cases hget : record.get? root with
  | none =>
    have hfirst : source.firstWithData? record = none := by
      refine List.find?_eq_none.2 fun name _ => ?_
      by_cases hname : name = root
      · simp [Record.hasData, hname, hget]
      · simp [Record.hasData, habsent name hname]
    have hvalue : claimValue? [.labelled source tag] force record = none :=
      claimValue?_singleton_of_none hfirst force
    rw [hvalue, textsOf, hget]
    rfl
  | some wanted =>
    have hdata : Record.hasData record root = true := by
      rw [hsolid.filled.hasData_eq]
      exact Record.contains_of_get? hget
    have hfirst : source.firstWithData? record = some root := by
      rw [Source.firstWithData?, hnames, List.find?_cons_of_pos hdata]
    have hchosen : chosen? [.labelled source tag] record = some (.labelled source tag, root) := by
      simp [chosen?, Rule.labelled, hfirst]
    rw [Record.textsOf_of_get? hget]
    simp only [claimValue?, hchosen, Option.bind_eq_bind, Option.bind_some, hget,
      read?_labelled source htag, Option.bind_map]
    cases AttributeValue.ofTexts? (wanted.texts.filterMap (Step.contentOf? tag)) <;> rfl

/-- Contents are shown as a value that holds them all, forced to be an array or not. -/
lemma exists_shown {texts : List String} (hne : texts ≠ []) (force : Bool) :
    ∃ got : AttributeValue, ((AttributeValue.ofTexts? texts).map fun value =>
        if force then Step.toArray value.toClaim else value.toClaim) = some got.toClaim
      ∧ got.texts = texts := by
  obtain ⟨value, hvalue, htexts⟩ := AttributeValue.exists_ofTexts? hne
  rw [hvalue, Option.map_some]
  cases force with
  | true => exact ⟨.multi value.texts, congrArg some value.toArray_toClaim, htexts⟩
  | false => exact ⟨value, rfl, htexts⟩

/-! ## The shared list -/

section SharedBy

variable (h : mapping.SharedBy source label)

include h

lemma SharedBy.mem_toList (hclaim : claim ∈ mapping.keys) :
    (claim, [.labelled source (label claim)]) ∈ mapping.toList := by
  obtain ⟨⟨name, rules⟩, hmem, rfl⟩ := List.mem_map.1 hclaim
  have hrules := h.eq_labelled _ hmem
  exact hrules ▸ hmem

lemma SharedBy.eq_of_label_eq {other : String} (hclaim : claim ∈ mapping.keys)
    (hother : other ∈ mapping.keys) (heq : label claim = label other) : claim = other :=
  List.inj_on_of_nodup_map h.nodup_labels hclaim hother heq

variable (hpayload : payload.SpaceFree mapping.keys) (hroot : source.root? = some root)

include hpayload hroot

/-- Whatever is contributed comes from a claim that is supplied: it goes to the shared attribute,
and it is what the claim is supplied with, the claim's label behind each string. -/
lemma SharedBy.exists_supplied {contribution : String × AttributeValue}
    (hmem : contribution ∈ mapping.contributions payload) :
    ∃ claim ∈ mapping.keys, ∃ value : AttributeValue, payload.Supplies claim value
      ∧ value.SpaceFree ∧ contribution.1 = root ∧ contribution.2.Solid
      ∧ contribution.2.texts = value.texts.map (· ++ " " ++ label claim) := by
  obtain ⟨claim, rules, hclaim, hgiven⟩ := mem_contributions.1 hmem
  have hkey : claim ∈ mapping.keys := List.mem_map_of_mem hclaim
  rw [show rules = _ from h.eq_labelled _ hclaim] at hgiven
  have htag := h.label_ne_empty claim hkey
  rcases hpayload claim hkey with hwithheld | ⟨value, hsupplied, hfree⟩
  · simp [contribution?_of_withholds htag hwithheld] at hgiven
  · obtain ⟨stored, hstored, htexts, hsolid⟩ := contribution?_of_supplies htag hroot hsupplied
    obtain rfl := Option.some.inj (hgiven.symm.trans hstored)
    exact ⟨claim, hkey, value, hsupplied, hfree, rfl, hsolid, htexts⟩

lemma SharedBy.eq_root_of_mem_keys :
    ∀ name ∈ (mapping.recordOf payload).keys, name = root := by
  intro name hname
  obtain ⟨stored, hstored⟩ := contains_recordOf.1 (OrderedMap.mem_keys_iff.1 hname)
  obtain ⟨_, _, _, _, _, hname, -⟩ := h.exists_supplied hpayload hroot hstored
  exact hname

lemma SharedBy.solid_recordOf : Solid (mapping.recordOf payload) :=
  Mapping.solid_recordOf fun _ hgiven => by
    obtain ⟨_, _, _, _, _, _, hsolid, -⟩ := h.exists_supplied hpayload hroot hgiven
    exact hsolid

/-- The contents that the shared list holds for a claim are the strings that the claim is supplied
with, and for a claim that is withheld there are none. -/
lemma SharedBy.mem_contents_iff (hclaim : claim ∈ mapping.keys) :
    content ∈ (textsOf (mapping.recordOf payload) root).filterMap (Step.contentOf? (label claim))
      ↔ ∃ value : AttributeValue, payload.Supplies claim value ∧ content ∈ value.texts := by
  rw [Step.mem_filterMap_contentOf?, mem_textsOf_recordOf]
  constructor
  · rintro ⟨⟨stored, hstored, htext⟩, hspace⟩
    obtain ⟨other, hother, value, hsupplied, hfree, -, -, htexts⟩ :=
      h.exists_supplied hpayload hroot hstored
    rw [htexts, List.mem_map] at htext
    obtain ⟨text, hmem, heq⟩ := htext
    -- the string was put there by the claim with this label, and with this content
    obtain ⟨rfl, hlabel⟩ := (Step.content_label_inj (hfree text hmem) hspace).1 heq
    obtain rfl := h.eq_of_label_eq hother hclaim hlabel
    exact ⟨value, hsupplied, hmem⟩
  · rintro ⟨value, hsupplied, hmem⟩
    have hfree : value.SpaceFree := by
      rcases hpayload claim hclaim with hwithheld | ⟨found, hfound, hfree⟩
      · exact absurd hwithheld hsupplied.not_withholds
      · exact hsupplied.unique hfound ▸ hfree
    obtain ⟨stored, hstored, htexts, -⟩ :=
      contribution?_of_supplies (h.label_ne_empty claim hclaim) hroot hsupplied
    refine ⟨⟨stored, mem_contributions.2 ⟨_, _, h.mem_toList hclaim, hstored⟩, ?_⟩,
      hfree content hmem⟩
    rw [htexts]
    exact List.mem_map_of_mem hmem

end SharedBy

/-- **Claims that share an attribute do not mix.**  Let each claim of a mapping select its own label
of one shared attribute and do nothing else.  For every document that withholds each claim or
supplies it with strings without a space, the record that stores the document shows each supplied
claim with the same strings as the document, and does not show the others, whichever claims are
forced to be arrays. -/
theorem shared_claims_apart (h : mapping.SharedBy source label)
    (hpayload : payload.SpaceFree mapping.keys) (forced : List String) :
    let shown := mapping.claimsOf (mapping.recordOf payload) forced
    ∀ claim ∈ mapping.keys,
      (payload.Withholds claim → shown.getPath? claim = none)
        ∧ ∀ value : AttributeValue, payload.Supplies claim value →
            ∃ got : AttributeValue, shown.getPath? claim = some got.toClaim
              ∧ ValueSet.Same got.texts value.texts := by
  intro shown claim hclaim
  obtain ⟨root, hroot⟩ := Source.exists_root? h.names_ne_nil
  have hshown : shown.getPath? claim = _ :=
    (getPath?_claimsOf h.unnested (h.mem_toList hclaim)).trans
      (claimValue?_labelled (h.label_ne_empty claim hclaim) hroot (h.solid_recordOf hpayload hroot)
        (h.eq_root_of_mem_keys hpayload hroot) (forced.contains claim))
  have hcontents : ∀ content, content ∈ (textsOf (mapping.recordOf payload) root).filterMap
        (Step.contentOf? (label claim))
      ↔ ∃ value : AttributeValue, payload.Supplies claim value ∧ content ∈ value.texts :=
    fun _ => h.mem_contents_iff hpayload hroot hclaim
  generalize (textsOf (mapping.recordOf payload) root).filterMap _ = contents at hshown hcontents
  constructor
  · intro hwithheld
    have hnil : contents = [] := List.eq_nil_iff_forall_not_mem.2 fun content hcontent => by
      obtain ⟨value, hsupplied, -⟩ := (hcontents content).1 hcontent
      exact hsupplied.not_withholds hwithheld
    rw [hshown, hnil]
    rfl
  · intro value hsupplied
    have hsame : ValueSet.Same contents value.texts := fun content => by
      rw [hcontents]
      constructor
      · rintro ⟨found, hfound, hcontent⟩
        exact hsupplied.unique hfound ▸ hcontent
      · exact fun hcontent => ⟨value, hsupplied, hcontent⟩
    obtain ⟨text, htext⟩ := List.exists_mem_of_ne_nil _ hsupplied.2.texts_ne_nil
    obtain ⟨got, hgot, htexts⟩ := exists_shown (List.ne_nil_of_mem ((hsame text).2 htext))
      (forced.contains claim)
    exact ⟨got, hshown.trans hgot, htexts ▸ hsame⟩

/-- The labels are parts of each other and hold spaces, two claims are supplied with the same
string, one with a string twice, and one is withheld. -/
theorem shared_claims_apart_of_nested_labels :
    let source : Source := .synonyms ["labeledURI", "uri"]
    let labels : List (String × String) := [("picture", "photo"), ("old.picture", "old photo"),
      ("profile", "photo old"), ("page", "old")]
    let label : String → String := fun claim => (labels.lookup claim).getD ""
    let mapping : Mapping :=
      ⟨labels.map fun (claim, tag) => (claim, [.labelled source tag]), by decide⟩
    let payload : Document := ⟨[("picture", .string "https://b"), ("page", .string "photo"),
      ("old", .object [("picture", Json.ofStrings ["https://a", "https://b", "https://a"])])]⟩
    let shown := mapping.claimsOf (mapping.recordOf payload) ["page"]
    mapping.SharedBy source label ∧ payload.SpaceFree mapping.keys
      ∧ shown.getPath? "profile" = none
      ∧ ∃ got : AttributeValue, shown.getPath? "old.picture" = some got.toClaim
        ∧ ValueSet.Same got.texts ["https://a", "https://b", "https://a"] := by
  intro source labels label mapping payload shown
  have hshared : mapping.SharedBy source label := by decide
  have hkeys : mapping.keys = ["picture", "old.picture", "profile", "page"] := by decide
  have hfree : payload.SpaceFree mapping.keys := by
    intro claim hclaim
    simp only [hkeys, List.mem_cons, List.not_mem_nil, or_false] at hclaim
    rcases hclaim with rfl | rfl | rfl | rfl
    · exact Or.inr ⟨.single "https://b", by decide⟩
    · exact Or.inr ⟨.multi ["https://a", "https://b", "https://a"], by decide⟩
    · exact Or.inl (by decide)
    · exact Or.inr ⟨.single "photo", by decide⟩
  have hshown := shared_claims_apart hshared hfree ["page"]
  have hprofile := (hshown "profile" (by decide)).1 (by decide)
  have hpicture := (hshown "old.picture" (by decide)).2
    (.multi ["https://a", "https://b", "https://a"]) (by decide)
  exact ⟨hshared, hfree, hprofile, hpicture⟩

end Mapping
end EntryClaims
