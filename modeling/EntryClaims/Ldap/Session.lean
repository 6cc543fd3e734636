/-
# LDAP sessions

An LDAP session turns the operations of a session into requests to a server, and the server's
replies into results.  A reply carries a result code: zero is success, and a few codes have a
meaning of their own.  A client library holds the connection: it opens it, sends the requests
and reads the replies, and for what it cannot send or read there is no reply.
-/
import EntryClaims.Directory.Dialogue
import EntryClaims.Ldap.Config
import EntryClaims.Ldap.Entry

namespace EntryClaims
namespace Ldap

/-! ## Requests and replies -/

/-- What is asked of a server. -/
inductive Request where
  /-- Bind with a name and a password. -/
  | bind (dn password : String)
  /-- Search, asking for the listed attributes. -/
  | search (base filter : String) (scope : Scope) (attributes : List String)
  /-- Create an entry. -/
  | add (dn : String) (attributes : List (String × List String))
  /-- Change the attributes of an entry. -/
  | modify (dn : String) (changes : List Change)
  /-- Delete an entry. -/
  | delete (dn : String)
deriving DecidableEq

/-- What a server replies. -/
structure Answer where
  /-- The result code. -/
  code : Nat := 0
  /-- The server's explanation. -/
  text : String := ""
  /-- The entries found by a search. -/
  entries : List FoundEntry := []
deriving DecidableEq

/-- A client library; a state of type `S` stands for its connection and what is behind it. -/
structure Client (S : Type) where
  /-- Open a connection to the server at an address; whether there is one afterwards. -/
  connect : Config → String → S → Bool × S
  /-- Send a request; none when there is no reply to it. -/
  send : Request → S → Option Answer × S

/-- The code of a successful operation. -/
def success : Nat := 0

/-- The code for an entry that does not exist. -/
def noSuchObject : Nat := 32

/-- The code for rejected credentials. -/
def invalidCredentials : Nat := 49

/-- The code for an entry that exists already. -/
def entryAlreadyExists : Nat := 68

/-! ## What replies mean -/

/-- An error that names the code and the explanation. -/
def codeError (operation : String) (answer : Answer) : Error :=
  .operationFailed ("LDAP " ++ operation ++ " failed with code " ++ toString answer.code ++ ": "
    ++ answer.text)

/-- The outcome of a bind. -/
def bindOutcome (answer : Answer) : Except Error Unit :=
  if answer.code = success then .ok ()
  else if answer.code = invalidCredentials then .error .authenticationFailed
  else .error (codeError "bind" answer)

/-- The outcome of an operation on the entry `dn`. -/
def entryOutcome (operation dn : String) (answer : Answer) : Except Error Unit :=
  if answer.code = success then .ok ()
  else if answer.code = noSuchObject then .error (.entryNotFound dn)
  else if answer.code = entryAlreadyExists then .error (.entryExists dn)
  else .error (codeError operation answer)

/-- The outcome of a search; a base that does not exist has no entries. -/
def searchOutcome (answer : Answer) : Except Error (List Record) :=
  if answer.code = noSuchObject then .ok []
  else if answer.code = success then
    .ok (answer.entries.map FoundEntry.toRecord)
  else .error (.operationFailed "LDAP search failed")

/-! ## Operations -/

variable {S : Type}

/-- Connect to the server and bind. -/
def authenticate (config : Config) (client : Client S) (request : BindRequest) (state : S) :
    Except Error Unit × S :=
  match config.checkUrl request.url with
  | .error e => (.error e, state)
  | .ok () =>
    match client.connect config request.url state with
    | (false, state) =>
      (.error (.connectionFailed ("Failed to connect to LDAP server at " ++ request.url)), state)
    | (true, state) =>
      match client.send (.bind request.dn request.password) state with
      | (some answer, state) => (bindOutcome answer, state)
      | (none, state) => (.error (.connectionFailed ("LDAP bind failed for " ++ request.dn)), state)

/-- A change as it is sent, with its values as a set. -/
def changeSent (change : Change) : Change := { change with texts := valueSet change.texts }

/-- Send a request and read its reply; `failure` is reported when there is none. -/
def exchange {α : Type} (client : Client S) (request : Request) (failure : String)
    (outcome : Answer → Except Error α) (state : S) : Except Error α × S :=
  match client.send request state with
  | (some answer, state) => (outcome answer, state)
  | (none, state) => (.error (.operationFailed failure), state)

/-- Perform an operation. -/
def perform (client : Client S) (operation : Operation) (state : S) :
    Except Error operation.Result × S :=
  match operation with
  | .search base filter scope =>
    exchange client (.search base filter scope ["*"]) "LDAP search failed" searchOutcome state
  | .add dn attributes =>
    exchange client (.add dn (attributesOf attributes)) ("Failed to create entry: " ++ dn)
      (entryOutcome "add" dn) state
  | .modify dn change =>
    exchange client (.modify dn [changeSent change]) ("Failed to update entry: " ++ dn)
      (entryOutcome "modify" dn) state
  | .delete dn =>
    exchange client (.delete dn) ("Failed to delete entry: " ++ dn) (entryOutcome "delete" dn) state

/-- An LDAP server as a partner of dialogues. -/
def directory (config : Config) (client : Client S) : Directory Unit S where
  authenticate := authenticate config client
  perform _ := perform client

end Ldap
end EntryClaims
