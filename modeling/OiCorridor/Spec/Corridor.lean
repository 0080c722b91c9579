import Mathlib.Data.List.Basic

/-! The second kernel, `internal/kernel`: `Kernel.ExecuteCorridor` with the
packages it calls (`cif`, `cdi`, `capabilities`, `adapters`, `audit`). One
kernel holds one adapter and one ledger, which every call appends to. The
`pkg/types` package the code imports is not among the sources: its records are
read off their uses here, and `types.Decision` is held as its two values, whose
texts the receipts would carry. Each `time.Now()` a call makes is a reading of
`Readings`; SHA-256 is the parameter `sha256Hex` and `Time.Format(RFC3339Nano)`
the parameter `rfc3339Nano`. Times are nanoseconds. -/

set_option autoImplicit false

namespace OI.Corridor

/-- `types.Decision`: `DecisionAllow` and `DecisionDeny`. -/
inductive Decision where
  | allow
  | deny
  deriving DecidableEq, Repr

/-- `types.OIRequest`. -/
structure OIRequest where
  userIntent : String
  userPayload : String
  principalID : String
  namespaceID : String
  deriving DecidableEq, Repr

/-- `types.SystemState`, with the fields the corridor reads. -/
structure SystemState where
  postureLevel : String
  governanceCapsuleOK : Bool
  stopRequested : Bool
  deriving DecidableEq, Repr

/-- `types.OIResponse`. -/
structure OIResponse where
  denied : Bool := false
  reasonCode : String := ""
  body : String := ""
  deriving DecidableEq, Repr

/-- `audit.Receipt`; an unset `Decision` is `none`. -/
structure Receipt where
  timeUTC : Int
  eventType : String
  tokenDigest : String := ""
  postureLevel : String
  decision : Option Decision := none
  detailsDigest : String := ""
  deriving DecidableEq, Repr

/-- `capabilities.CapabilityToken`. -/
structure CapabilityToken where
  issuer : String
  subject : String
  audience : String
  scope : List String
  ttl : Int
  issuedAt : Int
  expiresAt : Int
  postureMin : String
  postureMax : String
  namespaceID : String
  principalID : String
  digest : String
  revokedAt : Option Int := none
  deriving DecidableEq, Repr

section Capabilities

variable (sha256Hex : String → String) (rfc3339Nano : Int → String)

/-- `capabilities.Mint` at clock value `now`: the digest hashes the issuer,
subject, audience, namespace, principal and expiry. -/
def mint (issuer subject audience : String) (scope : List String) (ttl : Int)
    (postureMin postureMax namespaceID principalID : String) (now : Int) : CapabilityToken :=
  let expiresAt := now + ttl
  { issuer, subject, audience, scope, ttl, issuedAt := now, expiresAt, postureMin, postureMax,
    namespaceID, principalID,
    digest := sha256Hex (issuer ++ "|" ++ subject ++ "|" ++ audience ++ "|" ++ namespaceID ++ "|" ++
      principalID ++ "|" ++ rfc3339Nano expiresAt) }

end Capabilities

/-- `CapabilityToken.IsRevoked`. -/
def CapabilityToken.isRevoked (c : CapabilityToken) : Bool := c.revokedAt.isSome

/-- `CapabilityToken.IsExpired(now)`: `now.After(ExpiresAt)`. -/
def CapabilityToken.isExpired (c : CapabilityToken) (now : Int) : Bool := decide (c.expiresAt < now)

/-- An `adapters.Adapter` as the kernel uses it: its `Name()`, and `InvokeModel`
on a token and an input at the clock value the adapter reads. -/
structure Adapter where
  name : String
  invokeModel : CapabilityToken → String → Int → Except String String

/-- `NoopModelAdapter.Verify` at clock value `now`: the error text, if any. -/
def NoopModelAdapter.verify (c : CapabilityToken) (now : Int) : Option String :=
  if c.isRevoked then some "TOKEN_REVOKED"
  else if c.isExpired now then some "TOKEN_EXPIRED"
  else none

/-- `NoopModelAdapter`: `InvokeModel` returns the input once `Verify` passes. -/
def noopModelAdapter : Adapter where
  name := "noop-model"
  invokeModel c input now :=
    match NoopModelAdapter.verify c now with
    | some e => .error e
    | none => .ok input

/-- `cdi.Decision`. -/
structure Decided where
  value : Decision
  reason : String
  deriving DecidableEq, Repr

/-- `cdi.DecideAction` at clock value `now`: deny without the governance
capsule, then on a stop request, else allow; the decision is logged. -/
def decideAction (s : SystemState) (now : Int) (ledger : List Receipt) : Decided × List Receipt :=
  let d : Decided :=
    if !s.governanceCapsuleOK then ⟨.deny, "MISSING_GOVERNANCE_CAPSULE"⟩
    else if s.stopRequested then ⟨.deny, "STOP_DOMINANCE"⟩
    else ⟨.allow, "ALLOW_LOW_RISK_DEFAULT"⟩
  (d, ledger ++ [{ timeUTC := now, eventType := "CDI_ACTION", postureLevel := s.postureLevel,
                   decision := some d.value }])

/-- `cdi.DecideOutput` at clock value `now`: allow, logged. -/
def decideOutput (s : SystemState) (now : Int) (ledger : List Receipt) : Decided × List Receipt :=
  let d : Decided := ⟨.allow, "ALLOW_OUTPUT_DEFAULT"⟩
  (d, ledger ++ [{ timeUTC := now, eventType := "CDI_OUTPUT", postureLevel := s.postureLevel,
                   decision := some d.value }])

/-- `cif.LabeledUserRequest`. -/
structure LabeledUserRequest where
  request : OIRequest
  taintLabels : List String
  sensitivity : String

/-- `cif.Ingress`: the request labelled `UNTRUSTED`, sensitivity `UNKNOWN`; it
never fails. -/
def ingress (req : OIRequest) (_s : SystemState) : Except String LabeledUserRequest :=
  .ok ⟨req, ["UNTRUSTED"], "UNKNOWN"⟩

/-- `cif.Egress`: the output as it is; it never fails. -/
def egress (output : OIResponse) (_s : SystemState) : Except String OIResponse := .ok output

/-- The `time.Now()` readings of one `ExecuteCorridor`: the action decision's
receipt, the token's issue time, its receipt, the adapter's own reading, the
adapter receipt and the output decision's receipt. -/
structure Readings where
  actionAt : Int
  mintAt : Int
  mintLoggedAt : Int
  invokeAt : Int
  invokeLoggedAt : Int
  outputAt : Int
  deriving DecidableEq, Repr

/-- A `Kernel`: its adapter and its ledger's receipts. -/
structure Kernel where
  adapter : Adapter
  ledger : List Receipt

/-- What `ExecuteCorridor` returns: the response, the system state and the error. -/
structure Outcome where
  response : OIResponse
  state : SystemState
  err : Option String

section Execute

variable (sha256Hex : String → String) (rfc3339Nano : Int → String)

/-- `Kernel.ExecuteCorridor`: CIF ingress, the CDI action decision, a
`MODEL_INVOKE` token for the adapter valid 30 s, the adapter call, the CDI
output decision and CIF egress, each logged to the kernel's ledger; the result
with the ledger after the call. -/
def Kernel.executeCorridor (k : Kernel) (rd : Readings) (req : OIRequest) (s : SystemState) :
    Outcome × List Receipt :=
  match ingress req s with
  | .error e => (⟨{ denied := true, reasonCode := "CIF_INGRESS_ERROR" }, s, some e⟩, k.ledger)
  | .ok labeled =>
    let (actionDecision, ledger) := decideAction s rd.actionAt k.ledger
    if actionDecision.value = .deny then
      (⟨{ denied := true, reasonCode := actionDecision.reason }, s, none⟩, ledger)
    else
      let token := mint sha256Hex rfc3339Nano "kernel-go" labeled.request.principalID k.adapter.name
        ["MODEL_INVOKE"] 30000000000 "LOW" s.postureLevel labeled.request.namespaceID
        labeled.request.principalID rd.mintAt
      let ledger := ledger ++ [{ timeUTC := rd.mintLoggedAt, eventType := "TOKEN_MINT",
                                 tokenDigest := token.digest, postureLevel := s.postureLevel }]
      match k.adapter.invokeModel token labeled.request.userPayload rd.invokeAt with
      | .error e =>
        (⟨{ denied := true, reasonCode := "ADAPTER_DENIED" }, s, some e⟩,
          ledger ++ [{ timeUTC := rd.invokeLoggedAt, eventType := "ADAPTER_DENY",
                       tokenDigest := token.digest, postureLevel := s.postureLevel }])
      | .ok modelOut =>
        let ledger := ledger ++ [{ timeUTC := rd.invokeLoggedAt, eventType := "ADAPTER_OK",
                                   tokenDigest := token.digest, postureLevel := s.postureLevel }]
        let output : OIResponse := { body := modelOut }
        let (outputDecision, ledger) := decideOutput s rd.outputAt ledger
        if outputDecision.value = .deny then
          (⟨{ denied := true, reasonCode := outputDecision.reason }, s, none⟩, ledger)
        else
          match egress output s with
          | .error e => (⟨{ denied := true, reasonCode := "CIF_EGRESS_ERROR" }, s, some e⟩, ledger)
          | .ok shaped => (⟨shaped, s, none⟩, ledger)

/-- Calls of `ExecuteCorridor` one after another on one kernel: each with its
readings, request and system state. The kernel after them. -/
def Kernel.run (k : Kernel) : List (Readings × OIRequest × SystemState) → Kernel
  | [] => k
  | (rd, req, s) :: calls =>
    Kernel.run { k with ledger := (k.executeCorridor sha256Hex rfc3339Nano rd req s).2 } calls

end Execute

end OI.Corridor
