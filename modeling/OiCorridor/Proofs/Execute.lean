import OiCorridor.Proofs.Registry
import OiCorridor.Proofs.Stop

/-! Judge before power, for one call of `Execute`. The corridor is a chain of
state updates, and an adapter invocation is recorded only as the fourth of
them: after `AppendCDIDecision` with a non-`DENY` decision, after `AddToken` of
the freshly minted token, and before `AppendAdapterAttempt(.., true, digest)`
with that token's digest. On an ingress error nothing changes; on `DENY` only
the `cdi_decision` receipt is added. -/

set_option autoImplicit false

namespace OI

/-- `s'` is `s` with one invocation, `inv`, recorded on adapter `n`, and nothing else changed. -/
def RecordsInvocation (s s' : SystemState) (n : String) (inv : Invocation) : Prop :=
  s' = { s with adapterRegistry := s'.adapterRegistry } ∧
  ∀ m, s'.adapterRegistry.invocationsOf m =
    if m = n then s.adapterRegistry.invocationsOf m ++ [inv] else s.adapterRegistry.invocationsOf m

section

variable (sha256Hex : String → String)

/-- The parameters `kernelExecute` passes to the adapter. -/
def kernelParams (lr : LabeledRequest) : GoMap := [("input", .str lr.sanitizedInput)]

theorem kernelExecute_cases (tV tA : Int) (t : Token) (lr : LabeledRequest) (s : SystemState)
    (hr : t.revokedAt = none) :
    (∃ e, kernelExecute sha256Hex tV tA t lr s = (.error (.registry e),
      { s with auditLedger := s.auditLedger.appendAdapterAttempt sha256Hex tA "mock_adapter" false t.digest })) ∨
    ∃ a, s.adapterRegistry.adapters.lookup "mock_adapter" = some a ∧
      kernelExecute sha256Hex tV tA t lr s = (.ok (resultMessage a.result),
        { s with adapterRegistry := s.adapterRegistry.put (Registry.recorded (kernelParams lr) a t),
                 auditLedger := s.auditLedger.appendAdapterAttempt sha256Hex tA "mock_adapter" true t.digest }) := by
  rcases Registry.invoke_some_cases s.adapterRegistry "mock_adapter" s.postureLevel (kernelParams lr) tV t
    with ⟨a, ha, hi⟩ | ⟨e, hi⟩ <;> simp only [kernelParams] at hi
  · exact .inr ⟨a, ha, by simp [kernelExecute, hr, hi, kernelParams]⟩
  · exact .inl ⟨e, by simp [kernelExecute, hr, hi]⟩

theorem executeOutput_state {output : String} {lr : LabeledRequest} {trail : List String}
    {s : SystemState} {out : ExecOutcome} (h : executeOutput sha256Hex output lr trail s = some out) :
    out.state = s := by
  unfold executeOutput at h
  split_ifs at h
  · cases h; rfl
  · obtain ⟨_, -, rfl⟩ := Option.map_eq_some'.mp h
    rfl

theorem kernelExecute_tokens (tV tA : Int) (t : Token) (lr : LabeledRequest) (s : SystemState) :
    (kernelExecute sha256Hex tV tA t lr s).2.tokens = s.tokens ∧
      (kernelExecute sha256Hex tV tA t lr s).2.nextToken = s.nextToken := by
  unfold kernelExecute
  split_ifs
  · exact ⟨rfl, rfl⟩
  · dsimp only
    split <;> exact ⟨rfl, rfl⟩

theorem executeGranted_state {clock : Nat → Int} {d : DecisionResult} {lr : LabeledRequest}
    {trail : List String} {s : SystemState} {out : ExecOutcome}
    (h : executeGranted sha256Hex clock d lr trail s = some out) :
    out.state.tokens = Function.update s.tokens s.nextToken (mintToken sha256Hex (clock 1) d s) ∧
      out.state.nextToken = s.nextToken + 1 := by
  unfold executeGranted at h
  dsimp only at h
  set t := mintToken sha256Hex (clock 1) d s
  obtain ⟨htok, hnext⟩ := kernelExecute_tokens sha256Hex (clock 3) (clock 4) t lr
    ((s.alloc t).addToken sha256Hex (clock 2) s.nextToken)
  have hout : out.state = (kernelExecute sha256Hex (clock 3) (clock 4) t lr
      ((s.alloc t).addToken sha256Hex (clock 2) s.nextToken)).2 := by
    rcases hk : kernelExecute sha256Hex (clock 3) (clock 4) t lr
      ((s.alloc t).addToken sha256Hex (clock 2) s.nextToken) with ⟨_ | _, s'⟩ <;> rw [hk] at h
    · cases h; rfl
    · exact executeOutput_state sha256Hex h
  rw [hout, htok, hnext]
  exact ⟨rfl, rfl⟩

theorem recordsInvocation_put (s : SystemState) (a : MockAdapter) (params : GoMap) (t : Token)
    (ha : s.adapterRegistry.adapters.lookup "mock_adapter" = some a) :
    RecordsInvocation s { s with adapterRegistry := s.adapterRegistry.put (Registry.recorded params a t) }
      "mock_adapter" ⟨t.digest, params, a.result⟩ :=
  ⟨rfl, fun m => Registry.invocationsOf_put_recorded _ _ params ha t m⟩

theorem executeGranted_spec (clock : Nat → Int) (d : DecisionResult) (lr : LabeledRequest)
    (trail : List String) (s₁ : SystemState) {out : ExecOutcome}
    (h : executeGranted sha256Hex clock d lr trail s₁ = some out) :
    out.state.adapterRegistry = s₁.adapterRegistry ∨
    ∃ t inv s₂ s₃, inv.tokenDigest = t.digest ∧ inv.params = kernelParams lr ∧
      s₂ = (s₁.alloc t).addToken sha256Hex (clock 2) s₁.nextToken ∧
      RecordsInvocation s₂ s₃ "mock_adapter" inv ∧
      out.state = { s₃ with auditLedger :=
        s₃.auditLedger.appendAdapterAttempt sha256Hex (clock 4) "mock_adapter" true t.digest } := by
  unfold executeGranted at h
  dsimp only at h
  set t := mintToken sha256Hex (clock 1) d s₁
  rcases kernelExecute_cases sha256Hex (clock 3) (clock 4) t lr
    ((s₁.alloc t).addToken sha256Hex (clock 2) s₁.nextToken) (mint_revokedAt ..) with
    ⟨e, hk⟩ | ⟨a, ha, hk⟩
  · rw [hk] at h
    cases h
    exact .inl rfl
  · rw [hk] at h
    exact .inr ⟨_, _, _, _, rfl, rfl, rfl, recordsInvocation_put _ a (kernelParams lr) _ ha,
      executeOutput_state sha256Hex h⟩

theorem addToken_lookup_fresh (s : SystemState) (t : Token) (now : Int) :
    ((s.alloc t).addToken sha256Hex now s.nextToken).activeCapabilityTokens.lookup t.digest =
      some s.nextToken := by
  simp

theorem execute_cases {clock : Nat → Int} {req : Request} {s : SystemState} {out : ExecOutcome}
    (h : execute sha256Hex clock req s = some out) :
    (∃ e, Cif.ingress sha256Hex req.rawInput req.metadata = some (.error e) ∧
      out = ⟨⟨[], false, .cifIngressFailed e, ["cif_ingress_start"]⟩, some (.ingress e), s⟩) ∨
    ∃ lr d, Cif.ingress sha256Hex req.rawInput req.metadata = some (.ok lr) ∧
      Cdi.decide (s.decisionContext lr) = d ∧
      let s₁ := { s with auditLedger :=
        s.auditLedger.appendCDIDecision sha256Hex (clock 0) d.decision.toString lr.inputHash "" }
      let trail := ["cif_ingress_start", "cif_ingress_complete", "cdi_decision_start",
        "cdi_decision: " ++ d.decision.toString]
      (d.decision = .DENY ∧
        out = ⟨⟨[], false, .requestDenied d.reason, trail ++ ["deny_terminal"]⟩, none, s₁⟩) ∨
      (d.decision ≠ .DENY ∧ executeGranted sha256Hex clock d lr trail s₁ = some out) := by
  unfold execute at h
  rcases hi : Cif.ingress sha256Hex req.rawInput req.metadata with _ | (e | lr) <;>
    simp only [hi, Option.none_bind, Option.some_bind, reduceCtorEq] at h
  · exact .inl ⟨e, rfl, (Option.some.inj h).symm⟩
  · refine .inr ⟨lr, _, rfl, rfl, ?_⟩
    unfold executeDecided at h
    dsimp only at h ⊢
    split_ifs at h with hd
    · exact .inl ⟨hd, (Option.some.inj h).symm⟩
    · exact .inr ⟨hd, h⟩

/-- What one `Execute` call from `s` may do to the state, for each exit of the
pipeline. Either no adapter records anything, or the new state comes from four
updates in this order: `AppendCDIDecision` with a non-`DENY` decision; `AddToken`
of the minted token (its map entry and its `token_mint` receipt); exactly one
invocation, on `mock_adapter` and carrying that token's digest;
`AppendAdapterAttempt` with `accepted = true` and that digest. On an ingress
error the state is unchanged, and on `DENY` the only change is the
`cdi_decision` receipt. -/
def ExecuteEffect (clock : Nat → Int) (req : Request) (s s' : SystemState) : Prop :=
  ((∀ m, s'.adapterRegistry.invocationsOf m = s.adapterRegistry.invocationsOf m) ∨
    ∃ (d : Decision) (lr : LabeledRequest) (t : Token) (inv : Invocation) (s₁ s₂ s₃ : SystemState),
      d ≠ Decision.DENY ∧ inv.tokenDigest = t.digest ∧
      s₁ = { s with auditLedger :=
        s.auditLedger.appendCDIDecision sha256Hex (clock 0) d.toString lr.inputHash "" } ∧
      s₂ = (s₁.alloc t).addToken sha256Hex (clock 2) s₁.nextToken ∧
      s₂.activeCapabilityTokens.lookup t.digest = some s₁.nextToken ∧
      RecordsInvocation s₂ s₃ "mock_adapter" inv ∧
      s' = { s₃ with auditLedger :=
        s₃.auditLedger.appendAdapterAttempt sha256Hex (clock 4) "mock_adapter" true t.digest } ∧
      ∀ m, s'.adapterRegistry.invocationsOf m =
        if m = "mock_adapter" then s.adapterRegistry.invocationsOf m ++ [inv]
        else s.adapterRegistry.invocationsOf m) ∧
  (∀ e, Cif.ingress sha256Hex req.rawInput req.metadata = some (.error e) → s' = s) ∧
  (∀ lr, Cif.ingress sha256Hex req.rawInput req.metadata = some (.ok lr) →
    (Cdi.decide (s.decisionContext lr)).decision = .DENY →
    s' = { s with auditLedger :=
      s.auditLedger.appendCDIDecision sha256Hex (clock 0) "DENY" lr.inputHash "" })

/-- Every run of `Execute` that returns, for every request, state and clock,
has the effect `ExecuteEffect` describes. -/
theorem execute_invokes_only_after_grant (clock : Nat → Int) (req : Request) (s : SystemState)
    {out : ExecOutcome} (h : execute sha256Hex clock req s = some out) :
    ExecuteEffect sha256Hex clock req s out.state := by
  rcases execute_cases sha256Hex h with ⟨e, hi, rfl⟩ | ⟨lr, d, hi, rfl, ⟨hd, rfl⟩ | ⟨hd, h⟩⟩ <;>
    rw [ExecuteEffect, hi]
  · exact ⟨.inl fun _ => rfl, fun _ _ => rfl, fun _ h' => (by cases h')⟩
  · refine ⟨.inl fun _ => rfl, fun _ h' => (by cases h'), fun lr' h' _ => ?_⟩
    cases h'
    rw [hd]
    rfl
  · have hno : ∀ lr', some (Except.ok lr) = some (Except.ok lr' : Except IngressError _) →
        (Cdi.decide (s.decisionContext lr')).decision ≠ .DENY := fun lr' h' => by
      cases h'
      exact hd
    rcases executeGranted_spec sha256Hex clock _ lr _ _ h with hr | ⟨t, inv, s₂, s₃, hinv, -, rfl, hrec, hout⟩
    · exact ⟨.inl fun m => by rw [hr], fun _ h' => (by cases h'), fun lr' h' hD => absurd hD (hno lr' h')⟩
    · refine ⟨.inr ⟨_, lr, t, inv, _, _, s₃, hd, hinv, rfl, rfl, addToken_lookup_fresh sha256Hex _ t _,
        hrec, hout, fun m => ?_⟩, fun _ h' => (by cases h'), fun lr' h' hD => absurd hD (hno lr' h')⟩
      rw [hout]
      exact hrec.2 m

/-- `NewSystemState` with `mock_adapter` registered, as the kernel's pipeline tests set it up. -/
def mockState : SystemState :=
  let s := newSystemState sha256Hex "test_principal" "test_namespace" 0
  { s with adapterRegistry := s.adapterRegistry.put (newMockAdapter "mock_adapter") }

theorem execute_invokes_only_after_grant_hello :
    ∃ out, execute (fun _ => "") (fun _ => 0) ⟨"hello", none⟩ (mockState fun _ => "") = some out ∧
      out.response.success = true ∧ (out.state.adapterRegistry.invocationsOf "mock_adapter").length = 1 ∧
      ExecuteEffect (fun _ => "") (fun _ => 0) ⟨"hello", none⟩ (mockState fun _ => "") out.state :=
  ⟨_, rfl, rfl, rfl, execute_invokes_only_after_grant _ _ _ _ rfl⟩

/-! ### The audit trail -/

/-- The stages `Execute` records on a run that reaches `Egress`, for the action
decision `d`. -/
def pipelineTrail (d : Decision) : List String :=
  ["cif_ingress_start", "cif_ingress_complete", "cdi_decision_start", "cdi_decision: " ++ d.toString,
    "token_mint_start", "token_mint_complete", "kernel_execute_start", "kernel_execute_complete",
    "cdi_output_decision_start", "cdi_output_decision_complete", "cif_egress_start", "cif_egress_complete"]

/-- The forms a response's trail may take for the action decision `d`: a prefix
of `pipelineTrail d`, or its first four stages with `cdi_decision: DENY` and then
`deny_terminal`. `deny_terminal` appears exactly on `DENY`, and the run succeeds
exactly when the trail is the whole of `pipelineTrail d`. -/
def TrailShape (d : Decision) (r : Response) : Prop :=
  (r.auditTrail <+: pipelineTrail d ∨ r.auditTrail = (pipelineTrail .DENY).take 4 ++ ["deny_terminal"]) ∧
    ("deny_terminal" ∈ r.auditTrail ↔ d = .DENY) ∧
    (r.success = true ↔ r.auditTrail = pipelineTrail d)

theorem deny_terminal_not_mem_pipelineTrail (d : Decision) : "deny_terminal" ∉ pipelineTrail d := by
  cases d <;> simp [pipelineTrail, Decision.toString]

theorem trailShape_take {d : Decision} {r : Response} {k : Nat} (hd : d ≠ .DENY) (hk : k < 12)
    (ht : r.auditTrail = (pipelineTrail d).take k) (hs : r.success = false) : TrailShape d r := by
  have hlen : r.auditTrail.length = k := by rw [ht, List.length_take]; simp [pipelineTrail]; omega
  refine ⟨.inl (ht ▸ List.take_prefix k _), ⟨fun hm => ?_, fun h => absurd h hd⟩, ?_⟩
  · exact absurd ((ht ▸ hm : "deny_terminal" ∈ (pipelineTrail d).take k) |> List.mem_of_mem_take)
      (deny_terminal_not_mem_pipelineTrail d)
  · rw [hs]
    refine ⟨fun h => (by cases h), fun h => ?_⟩
    have := congrArg List.length h
    simp [hlen, pipelineTrail] at this
    omega

theorem executeOutput_trail {output : String} {lr : LabeledRequest} {trail : List String}
    {s : SystemState} {out : ExecOutcome} (h : executeOutput sha256Hex output lr trail s = some out) :
    (out.response.auditTrail = trail ++ ["kernel_execute_complete", "cdi_output_decision_start"] ∧
      out.response.success = false) ∨
    (out.response.auditTrail = trail ++ ["kernel_execute_complete", "cdi_output_decision_start",
      "cdi_output_decision_complete", "cif_egress_start", "cif_egress_complete"] ∧
      out.response.success = true) := by
  unfold executeOutput at h
  split_ifs at h
  · cases h
    exact .inl ⟨rfl, rfl⟩
  · obtain ⟨_, -, rfl⟩ := Option.map_eq_some'.mp h
    exact .inr ⟨by simp, rfl⟩

theorem executeGranted_trail (clock : Nat → Int) (d : DecisionResult) (lr : LabeledRequest)
    (s : SystemState) {out : ExecOutcome}
    (h : executeGranted sha256Hex clock d lr ((pipelineTrail d.decision).take 4) s = some out) :
    ((out.response.auditTrail = (pipelineTrail d.decision).take 7 ∨
        out.response.auditTrail = (pipelineTrail d.decision).take 9) ∧ out.response.success = false) ∨
      (out.response.auditTrail = pipelineTrail d.decision ∧ out.response.success = true) := by
  unfold executeGranted at h
  dsimp only at h
  split at h
  · cases h
    exact .inl ⟨.inl rfl, rfl⟩
  · rcases executeOutput_trail sha256Hex h with ⟨ht, hs⟩ | ⟨ht, hs⟩
    · exact .inl ⟨.inr ht, hs⟩
    · exact .inr ⟨ht, hs⟩

/-- Every response `Execute` returns has a trail of the forms `TrailShape`
allows, for the decision `Decide` reaches on the labelled request; on an ingress
error the trail is the first stage alone. -/
theorem execute_auditTrail (clock : Nat → Int) (req : Request) (s : SystemState) {out : ExecOutcome}
    (h : execute sha256Hex clock req s = some out) :
    (∃ e, Cif.ingress sha256Hex req.rawInput req.metadata = some (.error e) ∧
      out.response.auditTrail = ["cif_ingress_start"] ∧ out.response.success = false) ∨
    ∃ lr, Cif.ingress sha256Hex req.rawInput req.metadata = some (.ok lr) ∧
      TrailShape (Cdi.decide (s.decisionContext lr)).decision out.response := by
  rcases execute_cases sha256Hex h with ⟨e, hi, rfl⟩ | ⟨lr, d, hi, rfl, ⟨hd, rfl⟩ | ⟨hd, h⟩⟩
  · exact .inl ⟨e, hi, rfl, rfl⟩
  · refine .inr ⟨lr, hi, .inr (by rw [hd]; rfl), ⟨fun _ => hd, fun _ => (by simp)⟩,
      ⟨fun h => (by cases h), fun h' => ?_⟩⟩
    have := congrArg List.length h'
    simp [pipelineTrail] at this
  · refine .inr ⟨lr, hi, ?_⟩
    rcases executeGranted_trail sha256Hex clock _ lr _ h with ⟨ht | ht, hs⟩ | ⟨ht, hs⟩
    · exact trailShape_take hd (by decide) ht hs
    · exact trailShape_take hd (by decide) ht hs
    · refine ⟨.inl (ht ▸ List.prefix_refl _), ⟨fun hm => ?_, fun h => absurd h hd⟩, by simp [hs, ht]⟩
      exact absurd (ht ▸ hm) (deny_terminal_not_mem_pipelineTrail _)

theorem execute_auditTrail_hello :
    ∃ out, execute (fun _ => "") (fun _ => 0) ⟨"hello", none⟩ (mockState fun _ => "") = some out ∧
      out.response.success = true ∧
      ((∃ e, Cif.ingress (fun _ => "") "hello" none = some (.error e) ∧
        out.response.auditTrail = ["cif_ingress_start"] ∧ out.response.success = false) ∨
      ∃ lr, Cif.ingress (fun _ => "") "hello" none = some (.ok lr) ∧
        TrailShape (Cdi.decide ((mockState fun _ => "").decisionContext lr)).decision out.response) :=
  ⟨_, rfl, rfl, execute_auditTrail (fun _ => "") (fun _ => 0) ⟨"hello", none⟩ _ rfl⟩

end

end OI
