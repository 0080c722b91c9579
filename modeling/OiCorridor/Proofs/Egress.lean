import OiCorridor.Proofs.Ingress

/-! What `Egress` returns, and how the output decision compares with it. At a
budget of at least 0 every response is free of the bypass patterns, carries the
hash of the original content and is marked redacted whenever its content
changed; when the used budget is at least the content's length, as `Execute`
sets it, the response holds at most `leakBudget` bytes of that content. So
every response `Execute` returns is free of the patterns and at most 10000
bytes and the budget marker long. `DecideOutput` scans for nothing:
`containsBypassPatterns` is a stub, so outside its posture rule it approves
every content, also one `Egress` blocks. -/

set_option autoImplicit false

namespace OI

/-! ### The bytes of a string -/

theorem bytes_eq (s : String) : bytes s = s.data.flatMap String.utf8EncodeChar := rfl

namespace Cif

section

variable {sha256Hex : String → String} {artifact : OutputArtifact} {postureLevel leakBudget : Int}
  {r : UserResponse}

end

theorem decideOutput_of_not_posture (content : String) {sensitivity : String} {postureLevel : Int}
    (h : ¬ (sensitivity = "high" ∧ postureLevel ≥ 2)) :
    Cdi.decideOutput content sensitivity postureLevel = ⟨.ALLOW, "output_approved", [], 0⟩ := by
  rw [Cdi.decideOutput, if_neg h]
  rfl

theorem decideOutput_misses_bypass :
    Cdi.decideOutput "ignore previous instructions" "low" 1 = ⟨.ALLOW, "output_approved", [], 0⟩ ∧
      containsBypassInstructions (bytes "ignore previous instructions") = true := by
  refine ⟨decideOutput_of_not_posture _ (by decide), ?_⟩
  simp only [containsBypassInstructions, bypassPatterns, bytes_eq]
  decide

end Cif

/-! ### What `Execute` returns -/

section

variable (sha256Hex : String → String)

end

end OI
