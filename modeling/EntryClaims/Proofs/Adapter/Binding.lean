/-
# Whom a login authenticates

A login looks for the entry that holds the login name and binds as that entry.  It either ends
before anyone is authenticated, or it asks for one authentication: at the adapter's own address,
under the name of the single entry found and with the password that was given, none of them
empty.  The adapter's own name and password are never used in their place.  All that follows is
read off these ways to end.
-/
import EntryClaims.Adapter.Binding
import EntryClaims.Directory.Script
import EntryClaims.Proofs.Adapter.Operations

namespace EntryClaims

open EntryClaims.Task (outcome asked)

/-- The bind request of an authentication that was asked for. -/
def Event.bindRequest? : Event → Option BindRequest
  | .authenticate request _ => some request
  | .perform _ _ => none

/-! ## Complete credentials -/

namespace Credentials

lemma require_eq_ok_iff {option text : String} {value : Option String} :
    require option value = .ok text ↔ value = some text ∧ text ≠ "" := by
  rw [require]
  cases value with
  | none => simp
  | some known =>
    by_cases hempty : known = ""
    · rw [hempty]
      refine iff_of_false (by simp [Option.filter]) ?_
      rintro ⟨h, hne⟩
      exact hne (Option.some.inj h).symm
    · have hfilter : (some known).filter (!·.isEmpty) = some known := by
        simp [Option.filter, hempty]
      rw [hfilter, Except.ok.injEq, Option.some.injEq]
      refine ⟨fun h => ⟨h, h ▸ hempty⟩, fun h => h.1⟩

/-- A bind request needs an address, a name and a password, none of them empty. -/
lemma request_eq_ok_iff {credentials : Credentials} {request : BindRequest} :
    credentials.request = .ok request ↔
      (credentials.url = some request.url ∧ request.url ≠ "")
        ∧ (credentials.bindDn = some request.dn ∧ request.dn ≠ "")
        ∧ (credentials.password = some request.password ∧ request.password ≠ "") := by
  unfold Credentials.request
  simp only [Error.bind_eq_ok_iff, require_eq_ok_iff]
  constructor
  · rintro ⟨url, hurl, dn, hdn, password, hpassword, heq⟩
    cases heq
    exact ⟨hurl, hdn, hpassword⟩
  · rintro ⟨hurl, hdn, hpassword⟩
    exact ⟨_, hurl, _, hdn, _, hpassword, rfl⟩

end Credentials

lemma Options.validate_eq_ok_iff {options : Options} :
    options.validate = .ok () ↔ options.problem? = none := by
  rw [validate]
  cases options.problem? <;> simp

namespace Adapter

variable {σ S : Type} {adapter other : Adapter σ}

/-! ## Adapters that can be had -/

/-- An adapter that was made by the operations on adapters.  Binding only puts credentials and a
session into the adapter it is called on, and a login derives an adapter before that. -/
inductive Obtained : Adapter σ → Prop where
  /-- A new adapter. -/
  | create {options : Options} {adapter : Adapter σ} (h : create options = .ok adapter) :
      Obtained adapter
  /-- Another mapping. -/
  | withMapping {adapter other : Adapter σ} {mapping : Mapping} (hold : Obtained adapter)
      (h : adapter.withMapping mapping = .ok other) : Obtained other
  /-- Other credentials. -/
  | withCredentials {adapter : Adapter σ} (hold : Obtained adapter) (credentials : Credentials) :
      Obtained { adapter with credentials }
  /-- Another session. -/
  | withSession {adapter : Adapter σ} (hold : Obtained adapter) (session : σ) :
      Obtained { adapter with session := some session }
  /-- Another base, another mapping, or both. -/
  | derive {adapter other : Adapter σ} {baseDn : Option String} {mapping : Option Mapping}
      (hold : Obtained adapter) (h : adapter.derive baseDn mapping = .ok other) : Obtained other

lemma derive_eq (adapter : Adapter σ) (baseDn : Option String) (mapping : Option Mapping) :
    adapter.derive baseDn mapping
      = ((baseDn.elim (.ok adapter) adapter.withBase : Except Error (Adapter σ)) >>= fun derived =>
          mapping.elim (.ok derived) derived.withMapping) := by
  cases baseDn <;> cases mapping <;> rfl

lemma options_of_withMapping {mapping : Mapping} (h : adapter.withMapping mapping = .ok other) :
    other.options = adapter.options := by
  obtain ⟨_, _, rfl⟩ := Error.map_eq_ok_iff.1 h
  rfl

lemma withBase_eq_ok_iff {baseDn : String} :
    adapter.withBase baseDn = .ok other ↔
      ({ adapter.options with baseDn } : Options).problem? = none
        ∧ other = { adapter with options := { adapter.options with baseDn } } := by
  rw [withBase, Error.map_eq_ok_iff, ← Options.validate_eq_ok_iff]
  exact ⟨fun ⟨_, hvalid, heq⟩ => ⟨hvalid, heq.symm⟩, fun ⟨hvalid, heq⟩ => ⟨_, hvalid, heq.symm⟩⟩

/-- Nothing is wrong with the options of an adapter, however it was made. -/
lemma Obtained.problem?_eq_none (h : Obtained adapter) : adapter.options.problem? = none := by
  induction h with
  | create h =>
    obtain ⟨_, hvalid, rfl⟩ := Error.map_eq_ok_iff.1 h
    exact Options.validate_eq_ok_iff.1 hvalid
  | withMapping _ h ih => rw [options_of_withMapping h, ih]
  | withCredentials _ _ ih => exact ih
  | withSession _ _ ih => exact ih
  | @derive adapter other baseDn mapping _ h ih =>
    rw [derive_eq] at h
    obtain ⟨derived, hbase, hmapping⟩ := Error.bind_eq_ok_iff.1 h
    have hderived : derived.options.problem? = none := by
      cases baseDn with
      | none =>
        cases hbase
        exact ih
      | some baseDn =>
        obtain ⟨hvalid, rfl⟩ := withBase_eq_ok_iff.1 hbase
        exact hvalid
    cases mapping with
    | none =>
      cases hmapping
      exact hderived
    | some mapping => rw [options_of_withMapping hmapping, hderived]

/-- Where nothing is wrong with the options, any base but the empty one can be put into them. -/
lemma derive_base_eq_ok_iff (h : adapter.options.problem? = none) {baseDn : String} :
    adapter.derive (some baseDn) none = .ok other ↔
      baseDn ≠ "" ∧ other = { adapter with options := { adapter.options with baseDn } } := by
  have hproblem : ({ adapter.options with baseDn } : Options).problem? = none ↔ baseDn ≠ "" := by
    have hold : adapter.options.baseDn ≠ "" := by
      intro hempty
      simp [Options.problem?, hempty] at h
    by_cases hempty : baseDn = ""
    · simp [Options.problem?, hempty]
    · simpa [Options.problem?, hempty, hold] using h
  have hderive : adapter.derive (some baseDn) none = adapter.withBase baseDn := by
    rw [derive_eq]
    exact bind_pure _
  rw [hderive, withBase_eq_ok_iff, hproblem]

/-! ## Opening a session -/

section Session

variable (directory : Directory σ S) {overrides : Credentials} {state : S}

lemma outcome_bind_of_error {error : Error}
    (h : (adapter.credentials.merge overrides).request = .error error) :
    outcome directory (adapter.bind (some overrides)) state = (.error error, state) := by
  unfold Adapter.bind
  simp only [Option.map_some, Option.getD_some, h, Task.outcome_bind, Task.outcome_lift]

lemma asked_bind_of_error {error : Error}
    (h : (adapter.credentials.merge overrides).request = .error error) :
    asked directory (adapter.bind (some overrides)) state = [] := by
  unfold Adapter.bind
  simp only [Option.map_some, Option.getD_some, h, Task.asked_bind, Task.outcome_lift,
    Task.asked_lift, List.append_nil]

/-- The adapter's answer to an authentication. -/
lemma outcome_bind_of_ok {request : BindRequest}
    (h : (adapter.credentials.merge overrides).request = .ok request) :
    (outcome directory (adapter.bind (some overrides)) state).1
      = match (directory.authenticate request state).1 with
        | .ok session => .ok { adapter with
            credentials := adapter.credentials.merge overrides, session := some session }
        | .error error => .error (rejection error) := by
  unfold Adapter.bind
  simp only [Option.map_some, Option.getD_some, h, Task.outcome_bind, Task.outcome_lift,
    Task.outcome_adapt, Task.outcome_authenticate]
  cases (directory.authenticate request state).1 <;> rfl

lemma asked_bind_of_ok {request : BindRequest}
    (h : (adapter.credentials.merge overrides).request = .ok request) :
    asked directory (adapter.bind (some overrides)) state
      = [.authenticate request (accepted (directory.authenticate request state).1)] := by
  unfold Adapter.bind
  simp only [Option.map_some, Option.getD_some, h, Task.asked_bind, Task.outcome_lift,
    Task.asked_lift, Task.outcome_adapt, Task.asked_adapt, Task.asked_authenticate,
    Task.outcome_authenticate]
  cases (directory.authenticate request state).1 <;> rfl

end Session

/-! ## Logging in -/

/-- The adapter bound by a request with a session as its answer; the name that was bound is its
base. -/
def boundAs (adapter : Adapter σ) (request : BindRequest) (session : σ) : Adapter σ where
  options := { adapter.options with baseDn := request.dn }
  mapping := adapter.mapping
  credentials :=
    { url := some request.url, bindDn := some request.dn, password := some request.password }
  session := some session

/-- The search for the login name `id` finds one entry and leaves the directory in the state
`after`, and the request binds as that entry: at the adapter's address, under the entry's name
and with the given password, none of them empty. -/
structure FindsLogin (directory : Directory σ S) (adapter : Adapter σ) (id password : String)
    (state : S) (request : BindRequest) (after : S) : Prop where
  /-- The entry found. -/
  found : ∃ bindAttribute entry, adapter.options.bindAttribute = some bindAttribute
    ∧ adapter.isBound = true
    ∧ outcome directory (adapter.lookup bindAttribute id adapter.options.scope) state
        = (.ok [entry], after)
    ∧ Record.dn? entry = some request.dn
  /-- The address is the adapter's. -/
  url_eq : adapter.credentials.url = some request.url
  /-- The password is the one given. -/
  password_eq : request.password = password
  /-- There is an address. -/
  url_ne : request.url ≠ ""
  /-- There is a name. -/
  dn_ne : request.dn ≠ ""
  /-- There is a password. -/
  password_ne : request.password ≠ ""

/-- The ways in which a login can end: what it asked for, and its result. -/
inductive Login (directory : Directory σ S) (adapter : Adapter σ) (id password : String)
    (state : S) : List Event → Except Error (Adapter σ) → Prop where
  /-- Nobody is found who could be authenticated. -/
  | unknown {events : List Event} {error : Error}
      (hnone : events.filterMap Event.bindRequest? = [])
      (hunknown : ∀ request after, ¬ FindsLogin directory adapter id password state request after) :
      Login directory adapter id password state events (.error error)
  /-- The authentication is accepted. -/
  | accepted {events : List Event} {request : BindRequest} {after : S} {session : σ}
      (hone : events.filterMap Event.bindRequest? = [request])
      (hfound : FindsLogin directory adapter id password state request after)
      (hanswer : (directory.authenticate request after).1 = .ok session) :
      Login directory adapter id password state events (.ok (adapter.boundAs request session))
  /-- The authentication is rejected. -/
  | rejected {events : List Event} {request : BindRequest} {after : S} {error : Error}
      (hone : events.filterMap Event.bindRequest? = [request])
      (hfound : FindsLogin directory adapter id password state request after)
      (hanswer : (directory.authenticate request after).1 = .error error) :
      Login directory adapter id password state events (.error (rejection error))

section Login

variable (directory : Directory σ S) {id password : String} {state : S}

/-- At most one request can come of a login. -/
lemma FindsLogin.unique {directory : Directory σ S} {request other : BindRequest} {after after' : S}
    (h : FindsLogin directory adapter id password state request after)
    (h' : FindsLogin directory adapter id password state other after') :
    request = other ∧ after = after' := by
  obtain ⟨name, entry, hname, -, hsearch, hdn⟩ := h.found
  obtain ⟨name', entry', hname', -, hsearch', hdn'⟩ := h'.found
  obtain rfl : name = name' := by simpa [hname] using hname'
  rw [hsearch, Prod.mk.injEq, Except.ok.injEq, List.cons.injEq] at hsearch'
  obtain ⟨⟨rfl, -⟩, rfl⟩ := hsearch'
  have hurl : request.url = other.url := by simpa [h.url_eq] using h'.url_eq
  have hdnEq : request.dn = other.dn := by simpa [hdn] using hdn'
  have hpassword : request.password = other.password := h.password_eq.trans h'.password_eq.symm
  refine ⟨?_, rfl⟩
  cases request
  cases other
  cases hurl
  cases hdnEq
  cases hpassword
  rfl

/-- What is left of a login when the search has found entries. -/
def loginAs (adapter : Adapter σ) (password : String) (entries : List Record) :
    Task σ (Adapter σ) := do
  let dn ← (soleName entries : Except Error String)
  let derived ← (adapter.derive (some dn) none : Except Error (Adapter σ))
  derived.bind (some { bindDn := some dn, password := some password })

lemma findAndBind_eq {bindAttribute : String}
    (h : adapter.options.bindAttribute = some bindAttribute) :
    adapter.findAndBind id password
      = (adapter.lookup bindAttribute id adapter.options.scope >>= adapter.loginAs password) := by
  rw [findAndBind, h]
  rfl

lemma asked_lookup (bindAttribute : String) (scope : Scope) :
    (asked directory (adapter.lookup bindAttribute id scope) state).filterMap Event.bindRequest?
      = [] := by
  rw [lookup, asked_search]
  cases adapter.session <;> rfl

lemma soleName_eq_ok_iff {entries : List Record} {dn : String} :
    soleName entries = .ok dn ↔ ∃ entry, entries = [entry] ∧ Record.dn? entry = some dn := by
  rcases entries with _ | ⟨entry, _ | ⟨second, rest⟩⟩
  · simp [soleName]
  · cases hdn : Record.dn? entry <;> simp [soleName, hdn]
  · simp [soleName]

lemma isBound_of_outcome_lookup {bindAttribute : String} {scope : Scope} {entries : List Record}
    {after : S}
    (h : outcome directory (adapter.lookup bindAttribute id scope) state = (.ok entries, after)) :
    adapter.isBound = true := by
  rw [lookup, outcome_search] at h
  cases hsession : adapter.session with
  | none => simp [hsession] at h
  | some session => simp [isBound, hsession]

/-- The credentials of a login: the given ones win, and the address is the adapter's. -/
def loginCredentials (adapter : Adapter σ) (dn password : String) : Credentials :=
  adapter.credentials.merge { bindDn := some dn, password := some password }

/-- Which request comes of the entries found. -/
lemma findsLogin_iff {bindAttribute : String} {entries : List Record} {after after' : S}
    {request : BindRequest} (hname : adapter.options.bindAttribute = some bindAttribute)
    (hsearch : outcome directory (adapter.lookup bindAttribute id adapter.options.scope) state
      = (.ok entries, after)) :
    FindsLogin directory adapter id password state request after' ↔
      after' = after ∧ ∃ dn, soleName entries = .ok dn
        ∧ (adapter.loginCredentials dn password).request = .ok request := by
  constructor
  · intro h
    obtain ⟨name, entry, hname', -, hsearch', hdn⟩ := h.found
    obtain rfl : bindAttribute = name := by simpa [hname] using hname'
    rw [hsearch, Prod.mk.injEq, Except.ok.injEq] at hsearch'
    obtain ⟨rfl, rfl⟩ := hsearch'
    refine ⟨rfl, request.dn, soleName_eq_ok_iff.2 ⟨entry, rfl, hdn⟩, ?_⟩
    exact Credentials.request_eq_ok_iff.2 ⟨⟨h.url_eq, h.url_ne⟩, ⟨rfl, h.dn_ne⟩,
      ⟨congrArg some h.password_eq.symm, h.password_ne⟩⟩
  · rintro ⟨rfl, dn, hdn, hrequest⟩
    obtain ⟨entry, rfl, hentry⟩ := soleName_eq_ok_iff.1 hdn
    obtain ⟨⟨hurl, hurlNe⟩, ⟨hname', hdnNe⟩, ⟨hpassword, hpasswordNe⟩⟩ :=
      Credentials.request_eq_ok_iff.1 hrequest
    obtain rfl : dn = request.dn := Option.some.inj hname'
    exact {
      found := ⟨bindAttribute, entry, hname, isBound_of_outcome_lookup directory hsearch, hsearch,
        hentry⟩
      url_eq := hurl
      password_eq := (Option.some.inj hpassword).symm
      url_ne := hurlNe
      dn_ne := hdnNe
      password_ne := hpasswordNe }

/-- With complete credentials for a single name the authentication is asked for, and its answer
decides. -/
lemma loginAs_of_request (h : adapter.options.problem? = none) {entries : List Record} {dn : String}
    {request : BindRequest} (hdn : soleName entries = .ok dn)
    (hrequest : (adapter.loginCredentials dn password).request = .ok request) (state : S) :
    asked directory (adapter.loginAs password entries) state
        = [.authenticate request (accepted (directory.authenticate request state).1)]
      ∧ (outcome directory (adapter.loginAs password entries) state).1
        = match (directory.authenticate request state).1 with
          | .ok session => .ok (adapter.boundAs request session)
          | .error error => .error (rejection error) := by
  obtain ⟨⟨hurl, -⟩, ⟨hname, hne⟩, ⟨hpassword, -⟩⟩ := Credentials.request_eq_ok_iff.1 hrequest
  obtain rfl : dn = request.dn := Option.some.inj hname
  obtain ⟨derived, hderive, heq⟩ : ∃ derived, adapter.derive (some request.dn) none = .ok derived
      ∧ derived = { adapter with options := { adapter.options with baseDn := request.dn } } :=
    ⟨_, (derive_base_eq_ok_iff h).2 ⟨hne, rfl⟩, rfl⟩
  have hmerged : derived.credentials.merge
      { bindDn := some request.dn, password := some password }
        = adapter.loginCredentials request.dn password := by
    rw [heq, loginCredentials]
  have hcredentials : adapter.loginCredentials request.dn password
      = { url := some request.url, bindDn := some request.dn,
          password := some request.password } := by
    rw [← hurl, ← hname, ← hpassword]
  unfold loginAs
  simp only [hdn, hderive, Task.asked_bind, Task.outcome_bind, Task.outcome_lift, Task.asked_lift,
    List.nil_append]
  rw [← hmerged] at hrequest
  refine ⟨asked_bind_of_ok directory hrequest, ?_⟩
  rw [outcome_bind_of_ok directory hrequest, hmerged, hcredentials, heq]
  rfl

/-- Otherwise nothing more is asked, and the login fails. -/
lemma loginAs_of_no_request (h : adapter.options.problem? = none) {entries : List Record}
    (hnone : ∀ dn request, soleName entries = .ok dn →
      (adapter.loginCredentials dn password).request ≠ .ok request) (state : S) :
    asked directory (adapter.loginAs password entries) state = []
      ∧ ∃ error, (outcome directory (adapter.loginAs password entries) state).1 = .error error := by
  unfold loginAs
  cases hdn : soleName entries with
  | error error => simp [Task.asked_bind, Task.outcome_bind]
  | ok dn =>
    cases hderive : adapter.derive (some dn) none with
    | error error => simp [hderive, Task.asked_bind, Task.outcome_bind]
    | ok derived =>
      have hcredentials : derived.credentials = adapter.credentials := by
        rw [((derive_base_eq_ok_iff h).1 hderive).2]
      cases hrequest : (adapter.loginCredentials dn password).request with
      | ok request => exact absurd hrequest (hnone dn request hdn)
      | error error =>
        rw [loginCredentials, ← hcredentials] at hrequest
        simp only [hderive, Task.asked_bind, Task.outcome_bind, Task.outcome_lift,
          Task.asked_lift, List.nil_append]
        exact ⟨asked_bind_of_error directory hrequest, error,
          congrArg Prod.fst (outcome_bind_of_error directory hrequest)⟩

/-- A login of an adapter that nothing is wrong with ends in one of the three ways. -/
lemma login_findAndBind (h : adapter.options.problem? = none) (id password : String) (state : S) :
    Login directory adapter id password state
      (asked directory (adapter.findAndBind id password) state)
      (outcome directory (adapter.findAndBind id password) state).1 := by
  cases hname : adapter.options.bindAttribute with
  | none =>
    rw [findAndBind, hname]
    refine .unknown rfl fun request after hfound => ?_
    obtain ⟨name, entry, hname', -⟩ := hfound.found
    simp [hname] at hname'
  | some name =>
    have hlookup : (asked directory (adapter.lookup name id adapter.options.scope) state).filterMap
        Event.bindRequest? = [] := asked_lookup directory name adapter.options.scope
    rw [findAndBind_eq hname, Task.asked_bind, Task.outcome_bind]
    rcases hsearch : outcome directory (adapter.lookup name id adapter.options.scope) state with
      ⟨error | entries, after⟩
    · refine .unknown (by simpa using hlookup) fun request after' hfound => ?_
      obtain ⟨name', entry, hname', -, hsearch', -⟩ := hfound.found
      obtain rfl : name = name' := by simpa [hname] using hname'
      simp [hsearch] at hsearch'
    · have hiff (request : BindRequest) (after' : S) :
          FindsLogin directory adapter id password state request after' ↔
            after' = after ∧ ∃ dn, soleName entries = .ok dn
              ∧ (adapter.loginCredentials dn password).request = .ok request :=
        findsLogin_iff directory hname hsearch
      by_cases hex : ∃ dn request, soleName entries = .ok dn
          ∧ (adapter.loginCredentials dn password).request = .ok request
      · obtain ⟨dn, request, hdn, hrequest⟩ := hex
        have hfound : FindsLogin directory adapter id password state request after :=
          (hiff request after).2 ⟨rfl, dn, hdn, hrequest⟩
        obtain ⟨hasked, hresult⟩ :=
          loginAs_of_request directory h hdn hrequest after
        dsimp only
        rw [hasked, hresult]
        have hone (granted : Bool) :
            (asked directory (adapter.lookup name id adapter.options.scope) state
              ++ [Event.authenticate request granted]).filterMap Event.bindRequest?
                = [request] := by
          rw [List.filterMap_append, hlookup]
          rfl
        cases hanswer : (directory.authenticate request after).1 with
        | ok session => exact .accepted (hone _) hfound hanswer
        | error error => exact .rejected (hone _) hfound hanswer
      · simp only [not_exists, not_and] at hex
        obtain ⟨hasked, error, hresult⟩ :=
          loginAs_of_no_request directory h hex after
        dsimp only
        rw [hasked, hresult, List.append_nil]
        refine .unknown hlookup fun request after' hfound => ?_
        obtain ⟨-, dn, hdn, hrequest⟩ := (hiff request after').1 hfound
        exact hex dn request hdn hrequest

end Login

/-! ## Whom a login authenticates -/

namespace Login

variable {directory : Directory σ S} {id password : String} {state : S} {events : List Event}
  {result : Except Error (Adapter σ)}

lemma length_requests_le (h : Login directory adapter id password state events result) :
    (events.filterMap Event.bindRequest?).length ≤ 1 := by
  cases h with
  | unknown hnone => simp [hnone]
  | accepted hone => simp [hone]
  | rejected hone => simp [hone]

lemma findsLogin_of_mem (h : Login directory adapter id password state events result)
    {request : BindRequest} (hmem : request ∈ events.filterMap Event.bindRequest?) :
    ∃ after, FindsLogin directory adapter id password state request after := by
  cases h with
  | unknown hnone => simp [hnone] at hmem
  | accepted hone hfound =>
    obtain rfl : request = _ := by simpa [hone] using hmem
    exact ⟨_, hfound⟩
  | rejected hone hfound =>
    obtain rfl : request = _ := by simpa [hone] using hmem
    exact ⟨_, hfound⟩

lemma eq_ok_iff (h : Login directory adapter id password state events result)
    {bound : Adapter σ} :
    result = .ok bound ↔
      ∃ request after session, FindsLogin directory adapter id password state request after
        ∧ (directory.authenticate request after).1 = .ok session
        ∧ bound = adapter.boundAs request session := by
  cases h with
  | unknown hnone hunknown =>
    simp only [reduceCtorEq, false_iff, not_exists, not_and]
    exact fun request after _ hfound => absurd hfound (hunknown request after)
  | @accepted request after session hone hfound hanswer =>
    constructor
    · intro h
      cases h
      exact ⟨request, after, session, hfound, hanswer, rfl⟩
    · rintro ⟨other, after', session', hother, hanswer', rfl⟩
      obtain ⟨rfl, rfl⟩ := hfound.unique hother
      rw [hanswer, Except.ok.injEq] at hanswer'
      rw [hanswer']
  | rejected hone hfound hanswer =>
    simp only [reduceCtorEq, false_iff]
    rintro ⟨other, after', session', hother, hanswer', -⟩
    obtain ⟨rfl, rfl⟩ := hfound.unique hother
    simp [hanswer] at hanswer'

lemma eq_rejection (h : Login directory adapter id password state events result)
    {request : BindRequest} {after : S} {error : Error}
    (hfound : FindsLogin directory adapter id password state request after)
    (hanswer : (directory.authenticate request after).1 = .error error) :
    result = .error (rejection error) := by
  cases h with
  | unknown hnone hunknown => exact absurd hfound (hunknown request after)
  | accepted hone hother haccepted =>
    obtain ⟨rfl, rfl⟩ := hother.unique hfound
    simp [hanswer] at haccepted
  | rejected hone hother hrejected =>
    obtain ⟨rfl, rfl⟩ := hother.unique hfound
    rw [hanswer, Except.error.injEq] at hrejected
    rw [hrejected]

end Login

/-- Only a directory that was not reached is told apart from rejected credentials. -/
lemma rejection_eq_of_forall_ne {error : Error}
    (h : ∀ reason cause, error ≠ .connectionFailed reason cause) :
    rejection error = .authenticationFailed := by
  cases error with
  | connectionFailed reason cause => exact absurd rfl (h reason cause)
  | _ => rfl

/-- **A login authenticates only the entry that was found.**  Whatever the directory answers, a
login asks for at most one authentication, and only as the entry that it found: at the adapter's
address, under the name of the single entry found and with the given password, none of them
empty.  It succeeds exactly when that authentication is accepted; the new adapter then has the
entry as its base, the new session and the same mapping.  A rejection is reported as a failed
authentication, unless the directory was not reached. -/
theorem findAndBind_authenticates_found (directory : Directory σ S) (adapter : Adapter σ)
    (hadapter : Obtained adapter) (id password : String) (state : S) :
    let requests :=
      (asked directory (adapter.findAndBind id password) state).filterMap Event.bindRequest?
    let result := (outcome directory (adapter.findAndBind id password) state).1
    requests.length ≤ 1
      ∧ (∀ request ∈ requests,
          ∃ after, FindsLogin directory adapter id password state request after)
      ∧ (∀ bound, result = .ok bound ↔
          ∃ request after session, FindsLogin directory adapter id password state request after
            ∧ (directory.authenticate request after).1 = .ok session
            ∧ bound = adapter.boundAs request session)
      ∧ ∀ request after error, FindsLogin directory adapter id password state request after →
          (directory.authenticate request after).1 = .error error →
            (∀ reason cause, error = .connectionFailed reason cause → result = .error error)
              ∧ ((∀ reason cause, error ≠ .connectionFailed reason cause) →
                  result = .error .authenticationFailed) := by
  intro requests result
  have hlogin : Login directory adapter id password state
      (asked directory (adapter.findAndBind id password) state) result :=
    login_findAndBind directory hadapter.problem?_eq_none id password state
  refine ⟨hlogin.length_requests_le, fun request => hlogin.findsLogin_of_mem,
    fun bound => hlogin.eq_ok_iff, fun request after error hfound hanswer => ?_⟩
  have hrejection : result = .error (rejection error) := hlogin.eq_rejection hfound hanswer
  refine ⟨?_, fun hreached => by rw [hrejection, rejection_eq_of_forall_ne hreached]⟩
  rintro reason cause rfl
  exact hrejection

/-- The credentials of an adapter that was bound before give way to those of the entry found. -/
theorem findAndBind_binds_bob :
    let bob : Record := ⟨[("dn", .single "uid=bob,ou=people"), ("uid", .single "bob")], by decide⟩
    let options : Options :=
      { baseDn := "ou=people", idAttribute := "uid", bindAttribute := some "uid" }
    let credentials : Credentials :=
      { url := some "ldap://host", bindDn := some "cn=admin", password := some "admin-secret" }
    let adapter : Adapter Unit := { options, credentials, session := some () }
    let request : BindRequest :=
      { url := "ldap://host", dn := "uid=bob,ou=people", password := "bob-secret" }
    Obtained adapter
      ∧ (outcome Script.directory (adapter.findAndBind "bob" "bob-secret")
          [.entries [bob], .agree]).1 = .ok (adapter.boundAs request ()) := by
  intro bob options credentials adapter request
  have hcreate : Adapter.create options = .ok ({ options } : Adapter Unit) := rfl
  have hadapter : Obtained adapter :=
    ((Obtained.create hcreate).withCredentials credentials).withSession ()
  have hfound : FindsLogin Script.directory adapter "bob" "bob-secret" [.entries [bob], .agree]
      request [.agree] :=
    { found := ⟨"uid", bob, rfl, rfl, rfl, rfl⟩
      url_eq := rfl
      password_eq := rfl
      url_ne := by decide
      dn_ne := by decide
      password_ne := by decide }
  refine ⟨hadapter, ?_⟩
  exact ((findAndBind_authenticates_found Script.directory adapter hadapter "bob" "bob-secret"
    [.entries [bob], .agree]).2.2.1 _).2 ⟨request, [.agree], (), hfound, rfl, rfl⟩

end Adapter
end EntryClaims
