import OiCorridor.Spec.Cif

/-! `package cdi` and `package posture`: the action decision, evaluated in its
fixed order with the first match winning, and the output decision. `Decide` is
called by `Execute` only with a non-nil context, so its `nil context` branch is
not modelled. -/

set_option autoImplicit false

namespace OI

namespace Posture

def P0 : Int := 0
def P1 : Int := 1
def P2 : Int := 2
def P3 : Int := 3
def P4 : Int := 4

end Posture

inductive Decision where
  | ALLOW
  | DENY
  | DEGRADE
  deriving DecidableEq, Repr

/-- `string(d)`. -/
def Decision.toString : Decision → String
  | .ALLOW => "ALLOW"
  | .DENY => "DENY"
  | .DEGRADE => "DEGRADE"

/-- `cdi.DecisionResult`, the fields the kernel reads. -/
structure DecisionResult where
  decision : Decision
  reason : String
  degradedScope : List String
  requiredPosture : Int
  deriving DecidableEq, Repr

/-- `cdi.DecisionContext`. A nil consent map reads like an empty one; a nil
rule map differs from an empty one, so `governanceRules` is optional. -/
structure DecisionContext where
  request : LabeledRequest
  postureLevel : Int
  governanceRules : Option GoMap
  integrityState : String
  activeConsents : List (String × Bool)
  deriving DecidableEq, Repr

namespace Cdi

/-- A `DENY` result, with the zero scope and posture Go leaves unset. -/
def deny (reason : String) : DecisionResult := ⟨.DENY, reason, [], 0⟩

/-- `hasConsent(consents, required)`. -/
def hasConsent (consents : List (String × Bool)) (required : String) : Bool :=
  (consents.lookup required).getD false

/-- `evaluateRequest(ctx)`. -/
def evaluateRequest (ctx : DecisionContext) : DecisionResult :=
  let sensitivity := ctx.request.sensitivityLevel
  if sensitivity = "high" ∧ !hasConsent ctx.activeConsents "high_risk_operations" then
    deny "high_risk_requires_consent"
  else if ctx.integrityState = "INTEGRITY_DEGRADED" then
    ⟨.DEGRADE, "integrity_degraded", ["read_only", "query"], ctx.postureLevel⟩
  else if sensitivity = "low" ∧ !ctx.request.isTainted then
    ⟨.ALLOW, "clean_low_sensitivity", ["*"], ctx.postureLevel⟩
  else if sensitivity = "medium" then
    ⟨.DEGRADE, "medium_sensitivity", ["query", "search", "read"], ctx.postureLevel⟩
  else deny "unknown_case"

/-- `cdi.Decide(ctx)` on a non-nil context; its error is always nil there. -/
def decide (ctx : DecisionContext) : DecisionResult :=
  if ctx.integrityState = "INTEGRITY_VOID" then deny "integrity_void"
  else if ctx.request.isTainted then deny "tainted_input"
  else if ctx.postureLevel = 0 then deny "undefined_posture"
  else if ctx.governanceRules = none then deny "missing_governance"
  else evaluateRequest ctx

/-- `containsBypassPatterns(content)`. -/
def containsBypassPatterns (_content : String) : Bool := false

/-- `cdi.DecideOutput(content, sensitivity, postureLevel)`; its error is always nil. -/
def decideOutput (content sensitivity : String) (postureLevel : Int) : DecisionResult :=
  if sensitivity = "high" ∧ postureLevel ≥ 2 then deny "high_sensitivity_blocked_by_posture"
  else if containsBypassPatterns content then deny "bypass_instruction_in_output"
  else ⟨.ALLOW, "output_approved", [], 0⟩

end Cdi

end OI
