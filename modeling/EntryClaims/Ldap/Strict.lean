/-
# A strict server's view of a change

A strict server refuses to add a value that is already held and to delete one that is not, and
it takes no change without values.  What it accepts has the same effect as everywhere else.
-/
import EntryClaims.Entry.Apply
import EntryClaims.Ldap.Session

namespace EntryClaims
namespace Ldap

/-- Whether a strict server accepts a change of an attribute that holds `current`. -/
def admits (current : List String) (change : Change) : Bool :=
  !change.texts.isEmpty &&
    match change.kind with
    | .add => change.texts.all (· ∉ current)
    | .replace => true
    | .delete => change.texts.all (· ∈ current)

/-- The entry after a change as it is sent; none when a strict server refuses it. -/
def strictApply? (record : Record) (change : Change) : Option Record :=
  let change := changeSent change
  if admits (Record.textsOf record change.target) change then some (Record.apply record change)
  else none

/-- The entry after a list of changes, each sent on its own; none when one is refused. -/
def strictApplyAll? (record : Record) (changes : List Change) : Option Record :=
  changes.foldlM strictApply? record

end Ldap
end EntryClaims
