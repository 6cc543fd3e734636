/-
# What a rejected login tells

A login that the directory rejects could tell whether there is an entry for the login name: only
then is a name bound, with credentials that are put together and checked first.  But the rejection
is reported in the same words as an unknown or an ambiguous name.  The one thing that is reported
otherwise is a missing password, which is noticed only when there is a name to bind.
-/
import EntryClaims.Proofs.Adapter.Binding

namespace EntryClaims

open EntryClaims.Task (outcome)

variable {σ S S' : Type}

/-- The directory is reached, and does not accept the credentials. -/
def Directory.Rejects (directory : Directory σ S) (request : BindRequest) (state : S) : Prop :=
  ∃ error, (directory.authenticate request state).1 = .error error
    ∧ ∀ reason cause, error ≠ .connectionFailed reason cause

/-- A missing password is reported as such. -/
lemma Credentials.request_of_no_password {url dn : String} (hurl : url ≠ "") (hdn : dn ≠ "") :
    Credentials.request { url := some url, bindDn := some dn, password := some "" }
      = .error (.missingOption "password") := by
  have hurl' : require "url" (some url) = .ok url := require_eq_ok_iff.2 ⟨rfl, hurl⟩
  have hdn' : require "bind" (some dn) = .ok dn := require_eq_ok_iff.2 ⟨rfl, hdn⟩
  simp only [Credentials.request, hurl', hdn']
  rfl

namespace Adapter

variable {adapter : Adapter σ} {id other password url : String}

/-! ## Logins that are rejected -/

/-- The search for the login name `id` finds the entries; if there is a single one it has a name,
and whoever has the password is rejected under any name. -/
structure Denied (directory : Directory σ S) (adapter : Adapter σ) (id password : String)
    (state : S) (entries : List Record) : Prop where
  /-- Entries can bind, and the search is answered. -/
  answered : ∃ bindAttribute after, adapter.options.bindAttribute = some bindAttribute
    ∧ outcome directory (adapter.lookup bindAttribute id adapter.options.scope) state
        = (.ok entries, after)
    ∧ ∀ request : BindRequest, adapter.credentials.url = some request.url →
        request.password = password → directory.Rejects request after
  /-- The entry has a name. -/
  named : ∀ entry, entries = [entry] → ∃ dn, Record.dn? entry = some dn ∧ dn ≠ ""

/-- The error that a rejected login ends in. -/
def denial (password : String) (entries : List Record) : Error :=
  if password = "" ∧ entries.length = 1 then .missingOption "password" else .authenticationFailed

/-- Only a missing password is told apart, and only when there is a name to bind. -/
lemma denial_eq_denial_iff {entries entries' : List Record} :
    denial password entries = denial password entries' ↔
      password ≠ "" ∨ (entries.length = 1 ↔ entries'.length = 1) := by
  unfold denial
  by_cases hpassword : password = ""
  · by_cases hsingle : entries.length = 1 <;> by_cases hsingle' : entries'.length = 1 <;>
      simp [hpassword, hsingle, hsingle']
  · simp [hpassword]

/-- With no single entry there is nobody to bind. -/
lemma soleName_of_length_ne {entries : List Record} (h : entries.length ≠ 1) :
    soleName entries = .error .authenticationFailed := by
  rcases entries with _ | ⟨first, _ | ⟨second, rest⟩⟩
  · rfl
  · exact absurd rfl h
  · rfl

/-- What is left of the login when one entry with a name is found. -/
lemma loginAs_singleton (directory : Directory σ S) (h : adapter.options.problem? = none)
    (hurl : adapter.credentials.url = some url) (hne : url ≠ "") {entry : Record} {dn : String}
    (hdn : Record.dn? entry = some dn) (hnamed : dn ≠ "") {state : S}
    (hreject : ∀ request : BindRequest, adapter.credentials.url = some request.url →
      request.password = password → directory.Rejects request state) :
    (outcome directory (adapter.loginAs password [entry]) state).1
      = .error (denial password [entry]) := by
  have hsole : soleName [entry] = .ok dn := soleName_eq_ok_iff.2 ⟨entry, rfl, hdn⟩
  by_cases hpassword : password = ""
  · -- the credentials are incomplete, and the directory is not asked
    subst hpassword
    obtain ⟨derived, hderive, heq⟩ : ∃ derived, adapter.derive (some dn) none = .ok derived
        ∧ derived = { adapter with options := { adapter.options with baseDn := dn } } :=
      ⟨_, (derive_base_eq_ok_iff h).2 ⟨hnamed, rfl⟩, rfl⟩
    have hmerged : derived.credentials.merge { bindDn := some dn, password := some "" }
        = { url := some url, bindDn := some dn, password := some "" } := by
      rw [heq, Credentials.merge, hurl]
      rfl
    have hrequest := Credentials.request_of_no_password hne hnamed
    rw [← hmerged] at hrequest
    unfold loginAs
    simp only [hsole, hderive, Task.outcome_bind, Task.outcome_lift]
    rw [outcome_bind_of_error directory hrequest]
    rfl
  · have hrequest : (adapter.loginCredentials dn password).request
        = .ok { url, dn, password } :=
      Credentials.request_eq_ok_iff.2 ⟨⟨hurl, hne⟩, ⟨rfl, hnamed⟩, ⟨rfl, hpassword⟩⟩
    obtain ⟨error, hanswer, hreached⟩ := hreject { url, dn, password } hurl rfl
    rw [(loginAs_of_request directory h hsole hrequest state).2, hanswer]
    simp [denial, hpassword, rejection_eq_of_forall_ne hreached]

/-- A rejected login ends in an error that depends on the password, and on the entries found only
when there is no password. -/
lemma outcome_findAndBind_of_denied (directory : Directory σ S)
    (h : adapter.options.problem? = none) (hurl : adapter.credentials.url = some url)
    (hne : url ≠ "") {state : S} {entries : List Record}
    (hdenied : Denied directory adapter id password state entries) :
    (outcome directory (adapter.findAndBind id password) state).1
      = .error (denial password entries) := by
  obtain ⟨bindAttribute, after, hname, hsearch, hreject⟩ := hdenied.answered
  rw [findAndBind_eq hname, Task.outcome_bind, hsearch]
  dsimp only
  by_cases hsingle : entries.length = 1
  · obtain ⟨entry, rfl⟩ := List.length_eq_one_iff.1 hsingle
    obtain ⟨dn, hdn, hnamed⟩ := hdenied.named entry rfl
    exact loginAs_singleton directory h hurl hne hdn hnamed hreject
  · unfold loginAs
    simp only [soleName_of_length_ne hsingle, Task.outcome_bind, Task.outcome_lift]
    simp [denial, hsingle]

/-- **A rejected login does not tell whether there is an entry for the login name.**  Take two
logins with the same password at an adapter that has an address, for any login names, in any
directories: both searches are answered, with any number of entries, of which a single one has a
name, and both directories are reached and reject the password.  Then both logins end in a failed
authentication, unless the password is empty.  Without a password the two are told apart exactly
when one of the searches found a single entry and the other did not. -/
theorem denied_logins_alike (directory : Directory σ S) (directory' : Directory σ S')
    (hadapter : Obtained adapter) (hurl : adapter.credentials.url = some url) (hne : url ≠ "")
    {state : S} {state' : S'} {entries entries' : List Record}
    (hdenied : Denied directory adapter id password state entries)
    (hdenied' : Denied directory' adapter other password state' entries') :
    let result := (outcome directory (adapter.findAndBind id password) state).1
    let result' := (outcome directory' (adapter.findAndBind other password) state').1
    (password ≠ "" →
        result = .error .authenticationFailed ∧ result' = .error .authenticationFailed)
      ∧ (result = result' ↔ password ≠ "" ∨ (entries.length = 1 ↔ entries'.length = 1)) := by
  intro result result'
  have hproblem := hadapter.problem?_eq_none
  have hresult : result = .error (denial password entries) :=
    outcome_findAndBind_of_denied directory hproblem hurl hne hdenied
  have hresult' : result' = .error (denial password entries') :=
    outcome_findAndBind_of_denied directory' hproblem hurl hne hdenied'
  rw [hresult, hresult']
  refine ⟨fun hpassword => ?_, ?_⟩
  · simp [denial, hpassword]
  · rw [Except.error.injEq]
    exact denial_eq_denial_iff

/-! ### A known and an unknown login name -/

/-- An adapter with an address, a session and a bind attribute. -/
def portal : Adapter Unit where
  options := { baseDn := "ou=people", idAttribute := "uid", bindAttribute := some "uid" }
  credentials := { url := some "ldap://host" }
  session := some ()

/-- The entry of a known login name. -/
def knownBob : Record :=
  ⟨[("dn", .single "uid=bob,ou=people"), ("uid", .single "bob")], by decide⟩

/-- A search finds the entries, and then the credentials are rejected. -/
def refusing (entries : List Record) : List Reply :=
  [.entries entries, .fail (.operationFailed "invalid credentials (49)")]

lemma obtained_portal : Obtained portal := by
  have hcreate : create portal.options = .ok ({ options := portal.options } : Adapter Unit) := rfl
  exact ((Obtained.create hcreate).withCredentials portal.credentials).withSession ()

lemma denied_portal (id password : String) {entries : List Record}
    (hnamed : ∀ entry, entries = [entry] → ∃ dn, Record.dn? entry = some dn ∧ dn ≠ "") :
    Denied Script.directory portal id password (refusing entries) entries where
  answered := ⟨"uid", _, rfl, rfl, fun _ _ _ => ⟨_, rfl, fun reason cause => by simp⟩⟩
  named := hnamed

lemma denied_known (password : String) :
    Denied Script.directory portal "bob" password (refusing [knownBob]) [knownBob] := by
  refine denied_portal "bob" password fun entry hentry => ?_
  cases hentry
  exact ⟨"uid=bob,ou=people", rfl, by decide⟩

lemma denied_unknown (password : String) :
    Denied Script.directory portal "alice" password (refusing []) [] :=
  denied_portal "alice" password fun _ hentry => nomatch hentry

/-- With a wrong password a known login name and an unknown one get the same answer. -/
theorem denied_logins_alike_of_wrong_password :
    (outcome Script.directory (portal.findAndBind "bob" "wrong") (refusing [knownBob])).1
        = .error .authenticationFailed
      ∧ (outcome Script.directory (portal.findAndBind "alice" "wrong") (refusing [])).1
        = .error .authenticationFailed :=
  (denied_logins_alike Script.directory Script.directory obtained_portal rfl (by decide)
    (denied_known "wrong") (denied_unknown "wrong")).1 (by decide)

/-- Without a password a known login name is told apart from an unknown one. -/
theorem empty_password_tells_known_login :
    Obtained portal
      ∧ Denied Script.directory portal "bob" "" (refusing [knownBob]) [knownBob]
      ∧ Denied Script.directory portal "alice" "" (refusing []) []
      ∧ (outcome Script.directory (portal.findAndBind "bob" "") (refusing [knownBob])).1
          = .error (.missingOption "password")
      ∧ (outcome Script.directory (portal.findAndBind "alice" "") (refusing [])).1
          = .error .authenticationFailed :=
  ⟨obtained_portal, denied_known "", denied_unknown "", rfl, rfl⟩

end Adapter
end EntryClaims
