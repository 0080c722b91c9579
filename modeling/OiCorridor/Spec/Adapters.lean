import OiCorridor.Spec.Capabilities

/-! `package adapters`: the mock adapter and the adapter registry. `Register`
files an adapter under its own name and is the only writer of the map, so the
registry structure carries that fact: every registry value is one `Register`
could have built. `Invoke` returns the registry as it stands after the call,
since the Go code mutates the adapter in place. -/

set_option autoImplicit false

namespace OI

/-- `adapters.Invocation`. -/
structure Invocation where
  tokenDigest : String
  params : GoMap
  result : GoMap
  deriving DecidableEq, Repr

/-- `adapters.MockAdapter`. -/
structure MockAdapter where
  name : String
  invocations : List Invocation
  deriving DecidableEq, Repr

/-- The errors of `MockAdapter`, one constructor per `fmt.Errorf`. -/
inductive AdapterError where
  /-- `nil token - invoke rejected` -/
  | nilTokenInvoke
  /-- `nil token - tokenless invocation rejected` -/
  | tokenless
  /-- `token verification failed: %w` -/
  | verificationFailed (e : VerifyError)
  /-- `token does not have scope for adapter %s` -/
  | noScope (name : String)
  deriving DecidableEq, Repr

/-- `NewMockAdapter(name)`. -/
def newMockAdapter (name : String) : MockAdapter := ⟨name, []⟩

namespace MockAdapter

/-- The map `Invoke` returns and records. -/
def result (m : MockAdapter) : GoMap :=
  [("status", .str "success"), ("message", .str ("mock adapter " ++ m.name ++ " invoked"))]

/-- `MockAdapter.Invoke(token, params)`. -/
def invoke (m : MockAdapter) (token : Option Token) (params : GoMap) :
    Except AdapterError GoMap × MockAdapter :=
  match token with
  | none => (.error .nilTokenInvoke, m)
  | some t => (.ok m.result, { m with invocations := m.invocations ++ [⟨t.digest, params, m.result⟩] })

/-- `MockAdapter.VerifyToken(token, currentPosture)` at clock value `now`. -/
def verifyToken (m : MockAdapter) (token : Option Token) (currentPosture now : Int) :
    Except AdapterError Unit :=
  match token with
  | none => .error .tokenless
  | some t =>
    match t.verify currentPosture now with
    | .error e => .error (.verificationFailed e)
    | .ok () => if !t.hasScope m.name && !t.hasScope "*" then .error (.noScope m.name) else .ok ()

theorem verifyToken_eq_ok_iff (m : MockAdapter) (token : Option Token) (p now : Int) :
    m.verifyToken token p now = .ok () ↔ ∃ t, token = some t ∧ t.verify p now = .ok () ∧
      (m.name ∈ t.scope ∨ "*" ∈ t.scope) := by
  unfold verifyToken
  rcases token with _ | t
  · simp
  · rcases h : t.verify p now with e | ⟨⟩
    · simp [h]
    · simp [h, or_iff_not_imp_left]

end MockAdapter

/-- `adapters.Registry`: its map from name to adapter, each filed under its own name. -/
structure Registry where
  adapters : AList fun _ : String => MockAdapter
  named : ∀ n a, adapters.lookup n = some a → a.name = n

/-- The errors of `Registry`, one constructor per `fmt.Errorf`. -/
inductive RegistryError where
  /-- `adapter %s already registered` -/
  | alreadyRegistered (name : String)
  /-- `adapter %s not found` -/
  | notFound (name : String)
  /-- `token verification failed: %w` -/
  | verification (e : AdapterError)
  /-- an error of the adapter's own `Invoke`, passed through -/
  | adapter (e : AdapterError)
  deriving DecidableEq, Repr

/-- `NewRegistry()`. -/
def newRegistry : Registry := ⟨∅, by simp⟩

namespace Registry

/-- `r.adapters[a.Name()] = a`. -/
def put (r : Registry) (a : MockAdapter) : Registry :=
  ⟨r.adapters.insert a.name a, fun n b h => by
    by_cases hn : n = a.name
    · subst hn
      rw [AList.lookup_insert] at h
      cases h
      rfl
    · rw [AList.lookup_insert_ne hn] at h
      exact r.named n b h⟩

theorem lookup_put (r : Registry) (a : MockAdapter) (n : String) :
    (r.put a).adapters.lookup n = if n = a.name then some a else r.adapters.lookup n := by
  split_ifs with h
  · subst h; exact AList.lookup_insert _
  · exact AList.lookup_insert_ne h

/-- `Registry.Register(adapter)`. -/
def register (r : Registry) (adapter : MockAdapter) : Except RegistryError Registry :=
  if adapter.name ∈ r.adapters then .error (.alreadyRegistered adapter.name) else .ok (r.put adapter)

/-- `Registry.Get(name)`. -/
def get (r : Registry) (name : String) : Except RegistryError MockAdapter :=
  match r.adapters.lookup name with
  | some a => .ok a
  | none => .error (.notFound name)

/-- `Registry.Invoke(adapterName, token, currentPosture, params)` at clock value
`now`, with the registry after the call. -/
def invoke (r : Registry) (adapterName : String) (token : Option Token) (currentPosture : Int)
    (params : GoMap) (now : Int) : Except RegistryError GoMap × Registry :=
  match r.get adapterName with
  | .error e => (.error e, r)
  | .ok a =>
    match a.verifyToken token currentPosture now with
    | .error e => (.error (.verification e), r)
    | .ok () =>
      let (res, a') := a.invoke token params
      (res.mapError .adapter, r.put a')

end Registry

end OI
