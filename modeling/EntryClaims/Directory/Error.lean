/-
# Errors

Everything that can go wrong between an adapter and a directory.  An error has a code for
classification and a message; only a failed connection is worth another attempt.  Values
that cannot be read never appear here: their claims are absent instead.
-/
import EntryClaims.Entry.Change

namespace EntryClaims

/-- Why an operation failed. -/
inductive Error where
  /-- A required option is not set. -/
  | missingOption (option : String)
  /-- An option is set to something unusable. -/
  | invalidConfiguration (reason : String)
  /-- The mapping is unusable. -/
  | invalidMapping (reason : String)
  /-- The adapter holds no session. -/
  | notConnected
  /-- The directory was not reached. -/
  | connectionFailed (reason : String) (cause : Option String := none)
  /-- The directory rejected the credentials. -/
  | authenticationFailed
  /-- Claims were given, but none of them maps to an attribute. -/
  | lostPayload (id : String)
  /-- There is no such entry. -/
  | entryNotFound (dn : String)
  /-- There is such an entry already. -/
  | entryExists (dn : String)
  /-- The directory refused an operation. -/
  | operationFailed (reason : String) (cause : Option String := none)
  /-- The directory refused one change. -/
  | changeFailed (target : String) (kind : ChangeKind) (reason : String)
  /-- A text is not of the expected form. -/
  | malformed (reason : String)
deriving DecidableEq, Repr, Inhabited

namespace Error

/-- The code of an error. -/
def code : Error → String
  | .missingOption _ => "MISSING_OPTION"
  | .invalidConfiguration _ => "INVALID_CONFIG"
  | .invalidMapping _ => "INVALID_MAPPING"
  | .notConnected => "NOT_CONNECTED"
  | .connectionFailed .. => "CONNECTION_FAILED"
  | .authenticationFailed => "AUTH_FAILED"
  | .lostPayload _ => "LOST_PAYLOAD"
  | .entryNotFound _ => "OBJECT_NOT_FOUND"
  | .entryExists _ => "OBJECT_EXISTS"
  | .operationFailed .. => "OPERATION_FAILED"
  | .changeFailed .. => "MUTATION_FAILED"
  | .malformed _ => "SERIALIZATION_ERROR"

/-- The message of an error. -/
def message : Error → String
  | .missingOption option => "missing required option: " ++ option
  | .invalidConfiguration reason => "invalid configuration: " ++ reason
  | .invalidMapping reason => "invalid mapping: " ++ reason
  | .notConnected => "no directory session; bind first"
  | .connectionFailed reason _ => "connection failed: " ++ reason
  | .authenticationFailed => "authentication failed: invalid credentials"
  | .lostPayload id => "payload for '" ++ id ++ "' maps to no directory attribute"
  | .entryNotFound dn => "entry not found: " ++ dn
  | .entryExists dn => "entry already exists: " ++ dn
  | .operationFailed reason _ => "operation failed: " ++ reason
  | .changeFailed target kind reason =>
    kind.name ++ " of attribute '" ++ target ++ "' failed: " ++ reason
  | .malformed reason => "serialization error: " ++ reason

/-- Whether the operation may succeed when it is tried again. -/
def isTransient : Error → Bool
  | .connectionFailed .. => true
  | _ => false

/-- The text of the error behind this one, where one is known. -/
def cause? : Error → Option String
  | .connectionFailed _ cause => cause
  | .operationFailed _ cause => cause
  | _ => none

end Error
end EntryClaims
