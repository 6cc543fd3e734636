/-
# A sample directory

A small directory to try adapters on: an administrator who can bind, a container of people,
one person with a password, and a retired account.
-/
import EntryClaims.Directory.Memory

namespace EntryClaims
namespace Memory

/-- A directory without entries, in which only the administrator can bind. -/
def fresh : Memory := setPassword {} "cn=admin,dc=example,dc=com" "admin-secret"

/-- The container of people. -/
def peopleDn : String := "ou=people,dc=example,dc=com"

/-- A person's entry with further attributes. -/
def person (uid : String) (attributes : List (String × AttributeValue)) : Record :=
  OrderedMap.ofList <|
    [(dnAttribute, .single ("uid=" ++ uid ++ "," ++ peopleDn)),
      (objectClassAttribute, .multi ["top", "inetOrgPerson"]), ("uid", .single uid)] ++ attributes

/-- The sample directory. -/
def sample : Memory :=
  let container : Record := OrderedMap.ofList
    [(dnAttribute, .single peopleDn), (objectClassAttribute, .multi ["top", "organizationalUnit"]),
      ("ou", .single "people")]
  let bob := person "bob"
    [("cn", .single "Bob Builder"), ("sn", .single "Builder"),
      ("mail", .multi ["bob@example.com", "builder@example.com"]), ("l", .single "Zurich"),
      ("description", .single "managed by operators")]
  let retired := person "ret" [("cn", .single "Retired User"), ("employeeType", .single "retired")]
  (((fresh.insert container).insert bob).insert retired).setPassword
    ("uid=bob," ++ peopleDn) "bob-secret"

end Memory
end EntryClaims
