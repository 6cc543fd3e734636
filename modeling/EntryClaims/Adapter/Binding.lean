/-
# Binding

Binding opens a session with the adapter's credentials, or looks an entry up by its login name
and opens a session as that entry.  A directory that was not reached is reported as such; any
other rejection is reported as a failed authentication, whatever its reason.
-/
import EntryClaims.Adapter.Lookup

namespace EntryClaims
namespace Adapter

variable {σ : Type}

/-- The error that a rejected authentication is reported as. -/
def rejection : Error → Error
  | .connectionFailed reason cause => .connectionFailed reason cause
  | _ => .authenticationFailed

/-- The adapter with a session of its own.  The overrides win over the credentials it has. -/
def bind (adapter : Adapter σ) (overrides : Option Credentials) : Task σ (Adapter σ) := do
  let credentials := (overrides.map adapter.credentials.merge).getD adapter.credentials
  let request ← (credentials.request : Except Error BindRequest)
  let session ← ExceptT.adapt rejection (Task.authenticate request)
  return { adapter with credentials, session := some session }

/-- The name of the only entry found. -/
def soleName : List Record → Except Error String
  | [entry] =>
    match Record.dn? entry with
    | some dn => .ok dn
    | none => .error (.operationFailed "search result carries no distinguished name")
  | _ => .error .authenticationFailed

/-- The adapter bound as the entry with the given login name, with that entry as its base. -/
def findAndBind (adapter : Adapter σ) (id password : String) : Task σ (Adapter σ) := do
  match adapter.options.bindAttribute with
  | none => throw (.missingOption "bind_attribute")
  | some bindAttribute =>
    let filter := lookupFilter adapter.options (some (bindAttribute, id))
    let entries ← adapter.search filter adapter.options.baseDn adapter.options.scope
    let dn ← (soleName entries : Except Error String)
    let derived ← (adapter.derive (some dn) none : Except Error (Adapter σ))
    derived.bind (some { bindDn := some dn, password := some password })

end Adapter
end EntryClaims
