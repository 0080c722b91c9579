import Mathlib.Data.String.Basic
import OiCorridor.Proofs.Execute

/-! What `Ingress` checks, and when `Execute` panics. `detectTaint` reads the
raw input, and `sanitizeInput` then drops the control characters other than
newline and tab. So a `clean` label says that the raw input, lowered, holds
none of the smuggling or pressure patterns. The text forwarded to the adapter
is the sanitized one: it holds none either when the raw input has no dropped
character, but may when a dropped character splits a pattern. `Execute` panics
exactly where `Ingress` does: on a non-empty input of at most 100 KiB whose
`sensitivity` metadata is present and not a string. `Egress` at the leak
budget 10000 that `Execute` passes never panics. -/

set_option autoImplicit false

namespace OI

namespace Cif

/-! ### The taint label and the sanitized text -/

theorem sanitizeInput_of_no_control {input : String}
    (h : ∀ r ∈ input.data, r.toNat < 32 → r = '\n' ∨ r = '\t') : sanitizeInput input = input :=
  congrArg String.mk (List.filter_eq_self.mpr fun r hr => by
    rcases Nat.lt_or_ge r.toNat 32 with hlt | hge
    · rcases h r hr hlt with rfl | rfl <;> rfl
    · simp [Nat.not_lt.mpr hge])

theorem pressurePatterns_map_toLower : pressurePatterns.map toLower = pressurePatterns := by
  decide

theorem detectTaint_clean_iff (input : String) :
    (detectTaint input).any (· != "clean") = false ↔
      ∀ p ∈ smugglingPatterns ++ pressurePatterns, contains (toLower input) (toLower p) = false := by
  have hp : pressurePatterns.any (contains (toLower input)) =
      pressurePatterns.any fun p => contains (toLower input) (toLower p) := by
    conv_lhs => rw [← pressurePatterns_map_toLower]
    exact List.any_map
  unfold detectTaint
  dsimp only
  rw [hp, List.forall_mem_append]
  cases hs : smugglingPatterns.any fun p => contains (toLower input) (toLower p) <;>
    cases hq : pressurePatterns.any fun p => contains (toLower input) (toLower p) <;>
    simp_all [List.any_eq_false]

/-! ### Ingress -/

theorem ingress_eq_ok {sha256Hex : String → String} {rawInput : String} {metadata : Option GoMap}
    {lr : LabeledRequest} (h : ingress sha256Hex rawInput metadata = some (.ok lr)) :
    rawInput.utf8ByteSize ≠ 0 ∧ rawInput.utf8ByteSize ≤ 100 * 1024 ∧
      ∃ level, assessSensitivity metadata = some level ∧
        lr = ⟨rawInput, sanitizeInput rawInput, detectTaint rawInput, level,
          sha256Hex (sanitizeInput rawInput), metadata⟩ := by
  unfold ingress at h
  split_ifs at h with h0 h1
  · cases h
  · cases h
  obtain ⟨level, hl, hlr⟩ := Option.map_eq_some'.mp h
  cases hlr
  exact ⟨h0, Nat.not_lt.mp h1, level, hl, rfl⟩

theorem assessSensitivity_eq_none_iff (metadata : Option GoMap) :
    assessSensitivity metadata = none ↔
      ∃ v, metadata.bind (List.lookup "sensitivity") = some v ∧ ∀ level, v ≠ .str level := by
  unfold assessSensitivity
  rcases metadata.bind (List.lookup "sensitivity") with _ | (level | n | b | l | _) <;> simp

theorem ingress_eq_none_iff (sha256Hex : String → String) (rawInput : String) (metadata : Option GoMap) :
    ingress sha256Hex rawInput metadata = none ↔
      rawInput.utf8ByteSize ≠ 0 ∧ rawInput.utf8ByteSize ≤ 100 * 1024 ∧ assessSensitivity metadata = none := by
  unfold ingress
  split_ifs with h0 h1 <;> simp [h0, Nat.not_lt.mp, *]

/-! ### Egress -/

theorem redactOverBudget_isSome (content : Bytes) {budget : Int} (h : 0 ≤ budget) :
    (redactOverBudget content budget).isSome := by
  unfold redactOverBudget
  split_ifs <;> first | rfl | omega

theorem leakStage_isSome (content : Bytes) (used : Int) {budget : Int} (h : 0 ≤ budget) :
    (if used > budget then redactOverBudget content budget else some content).isSome := by
  split_ifs
  · exact redactOverBudget_isSome content h
  · rfl

theorem egress_eq (sha256Hex : String → String) (artifact : OutputArtifact) (postureLevel : Int)
    {leakBudget : Int} {c₁ c₂ : Bytes}
    (h₁ : (if artifact.leakBudgetUsed > leakBudget then redactOverBudget (bytes artifact.content) leakBudget
      else some (bytes artifact.content)) = some c₁)
    (h₂ : (if shouldRedactByPosture artifact.sensitivityLevel postureLevel then redactSensitive c₁ else c₁) = c₂) :
    egress sha256Hex artifact postureLevel leakBudget = some
      { content := if containsBypassInstructions c₂ then stripBypassInstructions c₂ else c₂
        redacted := decide (artifact.leakBudgetUsed > leakBudget) ||
          shouldRedactByPosture artifact.sensitivityLevel postureLevel || containsBypassInstructions c₂
        redactionReason := if containsBypassInstructions c₂ then "bypass_instruction_detected"
          else if shouldRedactByPosture artifact.sensitivityLevel postureLevel then "posture_constraint"
          else if artifact.leakBudgetUsed > leakBudget then "leak_budget_exceeded" else ""
        outputHash := sha256Hex artifact.content } := by
  subst h₂
  unfold egress
  simp only [Option.pure_def, Option.bind_eq_bind]
  by_cases hb : artifact.leakBudgetUsed > leakBudget
  · rw [if_pos hb] at h₁ ⊢
    rw [h₁, Option.some_bind, Option.some_bind]
    split_ifs <;> simp_all
  · rw [if_neg hb] at h₁ ⊢
    cases h₁
    rw [Option.some_bind]
    split_ifs <;> simp_all

theorem egress_isSome (sha256Hex : String → String) (artifact : OutputArtifact) (postureLevel : Int)
    {leakBudget : Int} (h : 0 ≤ leakBudget) : (egress sha256Hex artifact postureLevel leakBudget).isSome := by
  obtain ⟨c₁, h₁⟩ := Option.isSome_iff_exists.mp
    (leakStage_isSome (bytes artifact.content) artifact.leakBudgetUsed h)
  rw [egress_eq sha256Hex artifact postureLevel h₁ rfl]
  rfl

end Cif

/-! ### Execute -/

section

variable (sha256Hex : String → String) (clock : Nat → Int)

theorem executeOutput_isSome (output : String) (lr : LabeledRequest) (trail : List String) (s : SystemState) :
    (executeOutput sha256Hex output lr trail s).isSome := by
  unfold executeOutput
  split_ifs
  · rfl
  · exact Option.isSome_map'.trans (Cif.egress_isSome sha256Hex _ _ (by decide))

theorem executeGranted_isSome (d : DecisionResult) (lr : LabeledRequest) (trail : List String)
    (s : SystemState) : (executeGranted sha256Hex clock d lr trail s).isSome := by
  unfold executeGranted
  dsimp only
  split
  · rfl
  · exact executeOutput_isSome sha256Hex _ _ _ _

theorem executeDecided_isSome (lr : LabeledRequest) (s : SystemState) :
    (executeDecided sha256Hex clock lr s).isSome := by
  unfold executeDecided
  dsimp only
  split_ifs
  · rfl
  · exact executeGranted_isSome sha256Hex clock _ _ _ _

/-- `Execute` panics exactly when `Ingress` does: on a non-empty raw input of at
most 100 KiB whose `sensitivity` metadata is present and not a string, at every
state and clock. -/
theorem execute_eq_none_iff (req : Request) (s : SystemState) :
    execute sha256Hex clock req s = none ↔
      req.rawInput.utf8ByteSize ≠ 0 ∧ req.rawInput.utf8ByteSize ≤ 100 * 1024 ∧
        ∃ v, req.metadata.bind (List.lookup "sensitivity") = some v ∧ ∀ level, v ≠ .str level := by
  rw [← Cif.assessSensitivity_eq_none_iff, ← Cif.ingress_eq_none_iff sha256Hex]
  unfold execute
  rcases Cif.ingress sha256Hex req.rawInput req.metadata with _ | (e | lr)
  · simp
  · simp
  · simpa [Option.isSome_iff_ne_none] using executeDecided_isSome sha256Hex clock lr s

/-- An integer `sensitivity` entry panics `Execute` on the tests' state, at
every clock and for every hash function. -/
theorem execute_panics_on_int_sensitivity :
    execute sha256Hex clock ⟨"hello", some [("sensitivity", .int 1)]⟩ (mockState sha256Hex) = none :=
  rfl

/-! ### The text forwarded to the adapter -/

theorem decide_deny_of_tainted {ctx : DecisionContext} (h : ctx.request.isTainted = true) :
    (Cdi.decide ctx).decision = .DENY := by
  unfold Cdi.decide
  split_ifs <;> simp_all [Cdi.deny]

/-- Every invocation one `Execute` call records carries, under `input`, the
sanitized text of a request `Ingress` labelled clean. When the raw input has no
control character other than newline and tab, that text is the raw input and
holds, lowered, none of `detectTaint`'s patterns. -/
theorem ingress_clean_free_of_patterns (req : Request) (s : SystemState) {out : ExecOutcome}
    (h : execute sha256Hex clock req s = some out) :
    (∀ m, out.state.adapterRegistry.invocationsOf m = s.adapterRegistry.invocationsOf m) ∨
    ∃ lr inv, Cif.ingress sha256Hex req.rawInput req.metadata = some (.ok lr) ∧ lr.isTainted = false ∧
      inv.params = [("input", .str lr.sanitizedInput)] ∧
      (∀ m, out.state.adapterRegistry.invocationsOf m =
        if m = "mock_adapter" then s.adapterRegistry.invocationsOf m ++ [inv]
        else s.adapterRegistry.invocationsOf m) ∧
      ((∀ r ∈ req.rawInput.data, r.toNat < 32 → r = '\n' ∨ r = '\t') → lr.sanitizedInput = req.rawInput ∧
        ∀ p ∈ Cif.smugglingPatterns ++ Cif.pressurePatterns,
          contains (toLower lr.sanitizedInput) (toLower p) = false) := by
  rcases execute_cases sha256Hex h with ⟨e, -, rfl⟩ | ⟨lr, d, hi, rfl, ⟨-, rfl⟩ | ⟨hd, h⟩⟩
  · exact .inl fun _ => rfl
  · exact .inl fun _ => rfl
  rcases executeGranted_spec sha256Hex clock _ lr _ _ h with hr | ⟨t, inv, s₂, s₃, -, hp, rfl, hrec, hout⟩
  · exact .inl fun m => by rw [hr]
  have ht : lr.isTainted = false := Bool.eq_false_iff.mpr fun ht => hd (decide_deny_of_tainted ht)
  refine .inr ⟨lr, inv, hi, ht, hp, fun m => by rw [hout]; exact hrec.2 m, fun hc => ?_⟩
  obtain ⟨-, -, level, -, rfl⟩ := Cif.ingress_eq_ok hi
  have hs := Cif.sanitizeInput_of_no_control hc
  refine ⟨hs, ?_⟩
  simp only [hs]
  exact (Cif.detectTaint_clean_iff req.rawInput).mp ht

end

theorem ingress_clean_free_of_patterns_hello :
    ∃ out, execute (fun _ => "") (fun _ => 0) ⟨"hello", none⟩ (mockState fun _ => "") = some out ∧
      (out.state.adapterRegistry.invocationsOf "mock_adapter").length = 1 ∧
      ((∀ m, out.state.adapterRegistry.invocationsOf m = (mockState fun _ => "").adapterRegistry.invocationsOf m) ∨
      ∃ lr inv, Cif.ingress (fun _ => "") "hello" none = some (.ok lr) ∧ lr.isTainted = false ∧
        inv.params = [("input", .str lr.sanitizedInput)] ∧
        (∀ m, out.state.adapterRegistry.invocationsOf m =
          if m = "mock_adapter" then (mockState fun _ => "").adapterRegistry.invocationsOf m ++ [inv]
          else (mockState fun _ => "").adapterRegistry.invocationsOf m) ∧
        ((∀ r ∈ "hello".data, r.toNat < 32 → r = '\n' ∨ r = '\t') → lr.sanitizedInput = "hello" ∧
          ∀ p ∈ Cif.smugglingPatterns ++ Cif.pressurePatterns,
            contains (toLower lr.sanitizedInput) (toLower p) = false)) :=
  ⟨_, rfl, rfl, ingress_clean_free_of_patterns (fun _ => "") (fun _ => 0) ⟨"hello", none⟩ _ rfl⟩

/-- A control character inside a pattern hides it from `detectTaint`, and
`sanitizeInput` drops it: the request is labelled clean, and the text forwarded
to the adapter holds `system:`, for every hash function. -/
theorem ingress_clean_sanitizes_to_pattern (sha256Hex : String → String) :
    ∃ lr, Cif.ingress sha256Hex "sys\x01tem: hi" none = some (.ok lr) ∧ lr.isTainted = false ∧
      "system:" ∈ Cif.smugglingPatterns ∧
      contains (toLower lr.sanitizedInput) (toLower "system:") = true := by
  refine ⟨_, rfl, ?_, by decide, ?_⟩
  · show (Cif.detectTaint "sys\x01tem: hi").any (· != "clean") = false
    decide
  · show contains (toLower (Cif.sanitizeInput "sys\x01tem: hi")) (toLower "system:") = true
    decide

end OI
