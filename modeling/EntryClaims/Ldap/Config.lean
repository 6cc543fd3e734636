/-
# Settings of LDAP connections

Timeouts and transport settings; the server's address comes with each bind request.
-/
import EntryClaims.Directory.Error
import EntryClaims.Json.Form

namespace EntryClaims
namespace Ldap

/-- The settings of LDAP connections. -/
structure Config where
  /-- The time to connect, in seconds. -/
  connectionTimeout : Nat := 30
  /-- The time for each operation, in seconds. -/
  operationTimeout : Nat := 60
  /-- Whether plain connections are upgraded. -/
  startTls : Bool := false
  /-- Whether the server's certificate is left unchecked. -/
  skipVerification : Bool := false
deriving DecidableEq, Repr, Inhabited

namespace Config

/-- Check that both timeouts are positive. -/
def validate (config : Config) : Except Error Unit :=
  if config.connectionTimeout = 0 then
    .error (.invalidConfiguration "connection_timeout_secs must be positive")
  else if config.operationTimeout = 0 then
    .error (.invalidConfiguration "operation_timeout_secs must be positive")
  else .ok ()

/-- Whether an address begins with a scheme, the case of ASCII letters ignored. -/
def hasScheme (url scheme : String) : Bool :=
  scheme.toList.isPrefixOf (url.toList.map Char.toLower)

/-- The schemes of the addresses that can be used. -/
def schemes : List String := ["ldap://", "ldaps://", "ldapi://"]

/-- Check that an address can be used with these settings. -/
def checkUrl (config : Config) (url : String) : Except Error Unit :=
  if !schemes.any (hasScheme url) then
    .error (.invalidConfiguration ("unsupported LDAP URL: " ++ url))
  else if config.startTls && !hasScheme url "ldap://" then
    .error (.invalidConfiguration "STARTTLS requires an ldap:// URL")
  else .ok ()

/-- An unsigned number of 64 bits. -/
def seconds? : Json → Option Nat
  | .number (.integer n) => if 0 ≤ n ∧ n ≤ Number.maxInteger then some n.toNat else none
  | _ => none

/-- Read the JSON form. -/
def ofJson? (value : Json) : Option Config := do
  match ← Json.slots? ["connection_timeout_secs", "operation_timeout_secs", "use_starttls",
      "no_tls_verify"] value with
  | [connectionTimeout, operationTimeout, startTls, skipVerification] =>
    let connectionTimeout ← Json.defaulted? 30 seconds? connectionTimeout
    let operationTimeout ← Json.defaulted? 60 seconds? operationTimeout
    let startTls ← Json.defaulted? false Json.bool? startTls
    let skipVerification ← Json.defaulted? false Json.bool? skipVerification
    some { connectionTimeout, operationTimeout, startTls, skipVerification }
  | _ => none

/-- The JSON form. -/
def toJson (config : Config) : Json :=
  .object [("connection_timeout_secs", .number (.integer config.connectionTimeout)),
    ("operation_timeout_secs", .number (.integer config.operationTimeout)),
    ("use_starttls", .bool config.startTls), ("no_tls_verify", .bool config.skipVerification)]

end Config
end Ldap
end EntryClaims
