/-
# The changes that bring an entry to a desired state

Only the attributes of the desired record are managed; whatever else the entry holds stays.
For each of them the entry's value is looked up under the synonym the entry has.  Where it is
missing or empty, the desired values are added under the desired name.  Two different single
values give a replacement under the desired name.  In all other cases the two sides are
compared as sets, and the missing values are added and the surplus ones deleted where the
entry stores them.
-/
import EntryClaims.Entry.Change
import EntryClaims.Entry.Synonyms
import EntryClaims.Entry.ValueSet

namespace EntryClaims
namespace Record

/-- The changes from one set of values to another. -/
def setChanges (target : String) (old new : List String) : List Change :=
  let added := ValueSet.difference new old
  let deleted := ValueSet.difference old new
  (if added.isEmpty then [] else [⟨target, .add, added⟩])
    ++ (if deleted.isEmpty then [] else [⟨target, .delete, deleted⟩])

/-- The changes between sets stay with the attribute, and list no value twice. -/
theorem mem_setChanges {target : String} {old new : List String} {change : Change}
    (h : change ∈ setChanges target old new) : change.target = target ∧ change.texts.Nodup := by
  simp only [setChanges, List.mem_append] at h
  rcases h with h | h
  all_goals
    split at h
    · simp at h
    · simp only [List.mem_singleton] at h
      subst h
      exact ⟨rfl, ValueSet.nodup_difference _ _⟩

/-- The changes for one desired attribute. -/
def changesFor (existing : Record) (synonyms : SynonymTable) (key : String)
    (wanted : AttributeValue) : List Change :=
  let storedAs := SynonymTable.resolve synonyms key existing
  match (existing.get? storedAs).filter AttributeValue.hasData, wanted with
  | none, wanted => if wanted.texts.isEmpty then [] else [⟨key, .add, wanted.texts⟩]
  | some (.single old), .single new => if old = new then [] else [⟨key, .replace, [new]⟩]
  | some current, wanted => setChanges storedAs current.texts wanted.texts

/-- The changes that bring `existing` to `desired`, in the order of the desired attributes.
Protected attributes are passed over. -/
def changes (existing desired : Record) (synonyms : SynonymTable) (protectedKeys : List String) :
    List Change :=
  desired.toList.flatMap fun (key, wanted) =>
    if key ∈ protectedKeys then [] else changesFor existing synonyms key wanted

end Record
end EntryClaims
