/-
# Credentials

What is needed to open a session: the server's address, the name to bind as and a password.
Each may be supplied on its own; a complete set makes a bind request.  The descriptions
never show a password.
-/
import EntryClaims.Directory.Error

namespace EntryClaims

/-- A complete set of credentials. -/
structure BindRequest where
  /-- The server's address. -/
  url : String
  /-- The name to bind as. -/
  dn : String
  /-- The password. -/
  password : String
deriving DecidableEq, Repr, Inhabited

/-- Credentials as far as they are known. -/
structure Credentials where
  /-- The server's address. -/
  url : Option String := none
  /-- The name to bind as. -/
  bindDn : Option String := none
  /-- The password. -/
  password : Option String := none
deriving DecidableEq, Repr, Inhabited

/-- What stands for a password in a description. -/
def redacted : String := "***REDACTED***"

/-- A text between quotes. -/
def quoted (text : String) : String := "\"" ++ text ++ "\""

/-- A text that may be absent. -/
def quotedOption : Option String → String
  | none => "None"
  | some text => "Some(" ++ quoted text ++ ")"

namespace BindRequest

/-- A description without the password. -/
def describe (request : BindRequest) : String :=
  "BindRequest \x7b url: " ++ quoted request.url ++ ", bind_dn: " ++ quoted request.dn
    ++ ", password: " ++ quoted redacted ++ " \x7d"

/-- The JSON form. -/
def toJson (request : BindRequest) : Json :=
  .object [("url", .string request.url), ("bind_dn", .string request.dn),
    ("password", .string request.password)]

end BindRequest

namespace Credentials

/-- Put other credentials over these: whatever they set wins. -/
def merge (credentials overrides : Credentials) : Credentials where
  url := overrides.url.or credentials.url
  bindDn := overrides.bindDn.or credentials.bindDn
  password := overrides.password.or credentials.password

/-- A text that has to be set and not empty. -/
def require (option : String) (value : Option String) : Except Error String :=
  match value.filter (!·.isEmpty) with
  | some text => .ok text
  | none => .error (.missingOption option)

/-- The bind request, when address, name and password are all known; the first one missing is
reported. -/
def request (credentials : Credentials) : Except Error BindRequest := do
  let url ← require "url" credentials.url
  let dn ← require "bind" credentials.bindDn
  let password ← require "password" credentials.password
  return { url, dn, password }

/-- A description without the password. -/
def describe (credentials : Credentials) : String :=
  "BindCredentials \x7b url: " ++ quotedOption credentials.url
    ++ ", bind_dn: " ++ quotedOption credentials.bindDn
    ++ ", password: " ++ quotedOption (credentials.password.map fun _ => redacted) ++ " \x7d"

/-- Read the JSON form. -/
def ofJson? (value : Json) : Option Credentials := do
  match ← Json.slots? ["url", "bind_dn", "password"] value with
  | [url, bindDn, password] =>
    let url ← Json.nullable? Json.string? url
    let bindDn ← Json.nullable? Json.string? bindDn
    let password ← Json.nullable? Json.string? password
    some { url, bindDn, password }
  | _ => none

/-- The JSON form; unset components are left out. -/
def toJson (credentials : Credentials) : Json :=
  .object <|
    Json.field? "url" .string credentials.url
      ++ Json.field? "bind_dn" .string credentials.bindDn
      ++ Json.field? "password" .string credentials.password

end Credentials
end EntryClaims
