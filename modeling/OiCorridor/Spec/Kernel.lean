import OiCorridor.Spec.Audit
import OiCorridor.Spec.Adapters
import OiCorridor.Spec.Cdi

/-! `package kernel`: the system state and the corridor `Execute`. Tokens are
`*capabilities.Token` pointers: the state holds the token objects by address
(`tokens`, with `nextToken` the next free address), and `ActiveCapabilityTokens`
maps a digest to an address, so a revocation through the map is seen by every
holder of the pointer. `Execute` reads the clock five times; `clock i` is the
`i`-th reading. Its `cdi_decision_failed`, `token_mint_failed` and
`cif_egress_failed` exits are unreachable (`Decide`, `Mint` and `Egress` never
return an error) and are not modelled. -/

set_option autoImplicit false

namespace OI

structure IdentityCapsule where
  principalID : String
  namespaceID : String

structure AuthorityCapsule where
  activeConsents : List (String × Bool)

structure GovernanceCapsule where
  rules : Option GoMap

/-- `kernel.SystemState`, the fields the corridor reads or writes, with the
token objects it points to. -/
structure SystemState where
  identityCapsule : IdentityCapsule
  authorityCapsule : AuthorityCapsule
  governanceCapsule : GovernanceCapsule
  auditLedger : Ledger
  integrityState : String
  postureLevel : Int
  activeCapabilityTokens : AList fun _ : String => Nat
  adapterRegistry : Registry
  tokens : Nat → Token
  nextToken : Nat

/-- `kernel.Request`. -/
structure Request where
  rawInput : String
  metadata : Option GoMap

/-- The errors of `kernelExecute`. -/
inductive KernelError where
  /-- `token revoked - STOP dominance` -/
  | revoked
  /-- an error of `Registry.Invoke`, passed through -/
  | registry (e : RegistryError)

/-- The text of `Response.Error`, one constructor per `fmt.Sprintf` of `Execute`. -/
inductive ResponseError where
  /-- `""` -/
  | none
  /-- `cif_ingress_failed: %v` -/
  | cifIngressFailed (e : IngressError)
  /-- `request denied: %s` -/
  | requestDenied (reason : String)
  /-- `kernel_execute_failed: %v` -/
  | kernelExecuteFailed (e : KernelError)
  /-- `output blocked by CDI` -/
  | outputBlocked

/-- `kernel.Response`. -/
structure Response where
  content : Bytes
  success : Bool
  error : ResponseError
  auditTrail : List String

/-- The `error` `Execute` returns next to its response. -/
inductive ExecError where
  | ingress (e : IngressError)
  | kernel (e : KernelError)

/-- What `Execute` returns, with the state after the call. -/
structure ExecOutcome where
  response : Response
  err : Option ExecError
  state : SystemState

section

variable (sha256Hex : String → String)

/-- `NewSystemState(principalID, namespaceID)`, at clock value `now`. -/
def newSystemState (principalID namespaceID : String) (now : Int) : SystemState where
  identityCapsule := ⟨principalID, namespaceID⟩
  authorityCapsule := ⟨[]⟩
  governanceCapsule := ⟨some []⟩
  auditLedger := newLedger sha256Hex now
  integrityState := "INTEGRITY_OK"
  postureLevel := Posture.P1
  activeCapabilityTokens := ∅
  adapterRegistry := newRegistry
  tokens := fun _ => default
  nextToken := 0

namespace SystemState

/-- `&capabilities.Token{...}`: `t` stored at the next free address. -/
def alloc (s : SystemState) (t : Token) : SystemState :=
  { s with tokens := Function.update s.tokens s.nextToken t, nextToken := s.nextToken + 1 }

/-- `SystemState.AddToken(token)` for the token at address `ref`, at clock value `now`. -/
def addToken (s : SystemState) (now : Int) (ref : Nat) : SystemState :=
  { s with
    activeCapabilityTokens := s.activeCapabilityTokens.insert (s.tokens ref).digest ref
    auditLedger := s.auditLedger.appendTokenMint sha256Hex now (s.tokens ref).digest (s.tokens ref).scope }

/-- The token objects after `token.Revoke()` on each address of `refs`. -/
def revokeEach (tokens : Nat → Token) (now : Int) (refs : List Nat) : Nat → Token :=
  refs.foldl (fun h ref => Function.update h ref ((h ref).revoke now)) tokens

/-- `SystemState.RevokeAllTokens()`, at clock value `now`. -/
def revokeAllTokens (s : SystemState) (now : Int) : SystemState :=
  { s with
    tokens := revokeEach s.tokens now (s.activeCapabilityTokens.entries.map Sigma.snd)
    auditLedger := s.auditLedger.appendStopEvent sha256Hex now s.activeCapabilityTokens.entries.length }

/-- `SystemState.SetIntegrityState(state)`, at clock value `now`. -/
def setIntegrityState (s : SystemState) (now : Int) (state : String) : SystemState :=
  { s with integrityState := state,
           auditLedger := s.auditLedger.appendIntegrityStateChange sha256Hex now state }

/-- The `cdi.DecisionContext` `Execute` builds for `lr`. -/
def decisionContext (s : SystemState) (lr : LabeledRequest) : DecisionContext where
  request := lr
  postureLevel := s.postureLevel
  governanceRules := s.governanceCapsule.rules
  integrityState := s.integrityState
  activeConsents := s.authorityCapsule.activeConsents

end SystemState

/-- `mintToken(decision, request, state)`, at clock value `now`; it never fails. -/
def mintToken (now : Int) (decision : DecisionResult) (s : SystemState) : Token :=
  let scope := if decision.degradedScope.isEmpty then ["*"] else decision.degradedScope
  mint sha256Hex now "kernel" s.identityCapsule.principalID "adapters" scope ⟨10, 1000, []⟩
    (5 * minute) ⟨decision.requiredPosture, 4⟩ s.identityCapsule.namespaceID
    s.identityCapsule.principalID

/-- The text `kernelExecute` extracts from an adapter result. -/
def resultMessage (result : GoMap) : String :=
  match result.lookup "message" with
  | some (.str message) => message
  | _ => "result: " ++ fmtMap result

/-- `kernelExecute(token, request, state)`; `tVerify` and `tAttempt` are the
clock values read by `VerifyToken` and by the `adapter_attempt` receipt. -/
def kernelExecute (tVerify tAttempt : Int) (token : Token) (request : LabeledRequest)
    (s : SystemState) : Except KernelError String × SystemState :=
  if token.revokedAt.isSome then (.error .revoked, s)
  else
    let adapterName := "mock_adapter"
    let params : GoMap := [("input", .str request.sanitizedInput)]
    let (result, registry) :=
      s.adapterRegistry.invoke adapterName (some token) s.postureLevel params tVerify
    let s := { s with adapterRegistry := registry }
    match result with
    | .error e =>
      (.error (.registry e),
        { s with auditLedger := s.auditLedger.appendAdapterAttempt sha256Hex tAttempt adapterName false token.digest })
    | .ok res =>
      (.ok (resultMessage res),
        { s with auditLedger := s.auditLedger.appendAdapterAttempt sha256Hex tAttempt adapterName true token.digest })

/-- `Execute` from the output decision on (steps 6 to 8). -/
def executeOutput (output : String) (lr : LabeledRequest) (trail : List String) (s : SystemState) :
    Option ExecOutcome :=
  let trail := trail ++ ["kernel_execute_complete", "cdi_output_decision_start"]
  if (Cdi.decideOutput output lr.sensitivityLevel s.postureLevel).decision = .DENY then
    some ⟨⟨[], false, .outputBlocked, trail⟩, none, s⟩
  else
    let trail := trail ++ ["cdi_output_decision_complete", "cif_egress_start"]
    (Cif.egress sha256Hex ⟨output, lr.sensitivityLevel, output.utf8ByteSize⟩ s.postureLevel 10000).map
      fun final => ⟨⟨final.content, true, .none, trail ++ ["cif_egress_complete"]⟩, none, s⟩

/-- `Execute` from the token mint on (steps 4 and 5), after a non-`DENY` decision. -/
def executeGranted (clock : Nat → Int) (decision : DecisionResult) (lr : LabeledRequest)
    (trail : List String) (s : SystemState) : Option ExecOutcome :=
  let trail := trail ++ ["token_mint_start"]
  let token := mintToken sha256Hex (clock 1) decision s
  let s := (s.alloc token).addToken sha256Hex (clock 2) s.nextToken
  let trail := trail ++ ["token_mint_complete", "kernel_execute_start"]
  match kernelExecute sha256Hex (clock 3) (clock 4) token lr s with
  | (.error e, s) => some ⟨⟨[], false, .kernelExecuteFailed e, trail⟩, some (.kernel e), s⟩
  | (.ok output, s) => executeOutput sha256Hex output lr trail s

/-- `Execute` from the action decision on (steps 2 and 3). -/
def executeDecided (clock : Nat → Int) (lr : LabeledRequest) (s : SystemState) : Option ExecOutcome :=
  let trail := ["cif_ingress_start", "cif_ingress_complete", "cdi_decision_start"]
  let decision := Cdi.decide (s.decisionContext lr)
  let s := { s with auditLedger :=
    s.auditLedger.appendCDIDecision sha256Hex (clock 0) decision.decision.toString lr.inputHash "" }
  let trail := trail ++ ["cdi_decision: " ++ decision.decision.toString]
  if decision.decision = .DENY then
    some ⟨⟨[], false, .requestDenied decision.reason, trail ++ ["deny_terminal"]⟩, none, s⟩
  else executeGranted sha256Hex clock decision lr trail s

/-- `kernel.Execute(req, state)`; `none` is a panic. -/
def execute (clock : Nat → Int) (req : Request) (s : SystemState) : Option ExecOutcome :=
  (Cif.ingress sha256Hex req.rawInput req.metadata).bind fun
    | .error e => some ⟨⟨[], false, .cifIngressFailed e, ["cif_ingress_start"]⟩, some (.ingress e), s⟩
    | .ok lr => executeDecided sha256Hex clock lr s

end

end OI
