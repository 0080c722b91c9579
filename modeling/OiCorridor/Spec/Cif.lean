import OiCorridor.Spec.Go

/-! `package cif`. Ingress turns a raw input into a labelled request; it panics
when the caller's `sensitivity` metadata is not a string (`level.(string)`),
and a panic is `none`. Egress shapes the output; it slices the content by bytes,
so it works on the byte string, and it panics on a negative budget. -/

set_option autoImplicit false

namespace OI

/-- `cif.LabeledRequest`. -/
structure LabeledRequest where
  originalInput : String
  sanitizedInput : String
  taintLabels : List String
  sensitivityLevel : String
  inputHash : String
  metadata : Option GoMap
  deriving DecidableEq, Repr

/-- Why `Ingress` fails, one constructor per `fmt.Errorf`. -/
inductive IngressError where
  /-- `empty input rejected` -/
  | empty
  /-- `input exceeds size limit` -/
  | tooLarge
  deriving DecidableEq, Repr

/-- `cif.OutputArtifact`, the fields `Egress` reads. -/
structure OutputArtifact where
  content : String
  sensitivityLevel : String
  leakBudgetUsed : Int
  deriving DecidableEq, Repr

/-- `cif.UserResponse`. -/
structure UserResponse where
  content : Bytes
  redacted : Bool
  redactionReason : String
  outputHash : String
  deriving DecidableEq, Repr

namespace Cif

/-- `sanitizeInput`: drop control characters other than newline and tab. -/
def sanitizeInput (input : String) : String :=
  ⟨input.data.filter fun r => !(r.toNat < 32 && r != '\n' && r != '\t')⟩

/-- The role-impersonation `patterns` of `detectTaint`. -/
def smugglingPatterns : List String :=
  ["system:", "assistant:", "<|im_start|>", "<|im_end|>", "[INST]", "[/INST]",
    "### Instruction:", "### System:"]

/-- The `pressurePatterns` of `detectTaint`. -/
def pressurePatterns : List String :=
  ["urgent", "emergency", "immediately", "override", "ignore previous", "disregard"]

/-- `detectTaint(input)`. -/
def detectTaint (input : String) : List String :=
  let lowerInput := toLower input
  let labels := if smugglingPatterns.any fun p => contains lowerInput (toLower p)
    then ["instruction_smuggling_attempt"] else []
  let labels := if pressurePatterns.any (contains lowerInput) then labels ++ ["pressure_tactic"]
    else labels
  if labels.isEmpty then ["clean"] else labels

/-- `assessSensitivity(input, metadata)`; it does not read `input`. -/
def assessSensitivity (metadata : Option GoMap) : Option String :=
  match metadata.bind (List.lookup "sensitivity") with
  | none => some "low"
  | some (.str level) => some level
  | some _ => none

/-- `cif.Ingress(rawInput, metadata)`. -/
def ingress (sha256Hex : String → String) (rawInput : String) (metadata : Option GoMap) :
    Option (Except IngressError LabeledRequest) :=
  if rawInput.utf8ByteSize = 0 then some (.error .empty)
  else if rawInput.utf8ByteSize > 100 * 1024 then some (.error .tooLarge)
  else (assessSensitivity metadata).map fun sensitivity => .ok
    { originalInput := rawInput, sanitizedInput := sanitizeInput rawInput,
      taintLabels := detectTaint rawInput, sensitivityLevel := sensitivity,
      inputHash := sha256Hex (sanitizeInput rawInput), metadata }

end Cif

/-- `LabeledRequest.IsTainted()`. -/
def LabeledRequest.isTainted (lr : LabeledRequest) : Bool := lr.taintLabels.any (· != "clean")

namespace Cif

def budgetMarker : String := "\n[REDACTED: leak budget exceeded]"

/-- `redactOverBudget(content, budget)`; `content[:budget]` panics when `budget < 0`. -/
def redactOverBudget (content : Bytes) (budget : Int) : Option Bytes :=
  if (content.length : Int) ≤ budget then some content
  else if budget < 0 then none
  else some (content.take budget.toNat ++ bytes budgetMarker)

/-- `shouldRedactByPosture(sensitivity, posture)`. -/
def shouldRedactByPosture (sensitivity : String) (posture : Int) : Bool :=
  match sensitivity with
  | "high" => posture ≥ 2
  | "medium" => posture ≥ 3
  | "low" => false
  | _ => true

/-- `redactSensitive(content)`: a fixed marker. -/
def redactSensitive (_content : Bytes) : Bytes :=
  bytes "[REDACTED: sensitive content filtered by posture constraint]"

/-- The `bypassPatterns` of `containsBypassInstructions`. -/
def bypassPatterns : List String :=
  ["ignore previous instructions", "disregard the above", "new instructions:", "system prompt:",
    "<|im_start|>", "override security"]

/-- `containsBypassInstructions(content)`. -/
def containsBypassInstructions (content : Bytes) : Bool :=
  bypassPatterns.any fun p => containsBytes (lowerBytes content) (bytes p)

/-- `stripBypassInstructions(content)`: a fixed marker. -/
def stripBypassInstructions (_content : Bytes) : Bytes :=
  bytes "[OUTPUT BLOCKED: bypass instruction pattern detected]"

/-- `cif.Egress(artifact, postureLevel, leakBudget)`; it never returns an error. -/
def egress (sha256Hex : String → String) (artifact : OutputArtifact) (postureLevel leakBudget : Int) :
    Option UserResponse := do
  let mut content := bytes artifact.content
  let mut redacted := false
  let mut redactionReason := ""
  let outputHash := sha256Hex artifact.content
  if artifact.leakBudgetUsed > leakBudget then
    content ← redactOverBudget content leakBudget
    redacted := true
    redactionReason := "leak_budget_exceeded"
  if shouldRedactByPosture artifact.sensitivityLevel postureLevel then
    content := redactSensitive content
    redacted := true
    redactionReason := "posture_constraint"
  if containsBypassInstructions content then
    content := stripBypassInstructions content
    redacted := true
    redactionReason := "bypass_instruction_detected"
  return { content, redacted, redactionReason, outputHash }

end Cif

end OI
