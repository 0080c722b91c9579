import OiCorridor.Proofs.Execute

/-! The action decision and the token minted from it. `Decide` refuses a
context only on the four tests it makes: integrity `INTEGRITY_VOID`, a taint
label other than `clean`, posture 0, and a nil rule map. Any other posture,
integrity string or rule map passes them, the empty map `NewSystemState`
installs included. Making a context more restrictive (more taint labels, fewer
consents, a more severe integrity state) never widens what it grants, except on
the move from `INTEGRITY_OK` to `INTEGRITY_DEGRADED`: that move sends every
sensitivity but `low` to the `read_only`/`query` scope, whatever it was before.
A `DEGRADE` token's scope is one of the two degraded scopes, so the mock
adapter takes it only where it takes the `ALLOW` token minted at the same
instant; and the `ALLOW` token passes `Verify` only at a posture in
`[PostureLevel, 4]`, empty for a posture above 4. -/

set_option autoImplicit false

namespace OI

namespace Cdi

theorem decide_of_checks {ctx : DecisionContext} (hv : ctx.integrityState ≠ "INTEGRITY_VOID")
    (ht : ctx.request.isTainted = false) (hp : ctx.postureLevel ≠ 0) (hr : ctx.governanceRules ≠ none) :
    decide ctx = evaluateRequest ctx := by
  simp [decide, hv, ht, hp, hr]

end Cdi

/-- On a state whose integrity is neither `INTEGRITY_VOID` nor
`INTEGRITY_DEGRADED`, whose posture is not 0 and whose rule map is not nil,
`Decide` allows every clean low-sensitivity request, whatever posture,
integrity string or rule map the state holds, and `Execute` then mints a token
at the next free address. -/
theorem decide_allows_unchecked_context (sha256Hex : String → String) (s : SystemState)
    (lr : LabeledRequest) (hclean : lr.isTainted = false) (hlow : lr.sensitivityLevel = "low")
    (hvoid : s.integrityState ≠ "INTEGRITY_VOID") (hdeg : s.integrityState ≠ "INTEGRITY_DEGRADED")
    (hp : s.postureLevel ≠ 0) (hr : s.governanceCapsule.rules ≠ none) :
    (Cdi.decide (s.decisionContext lr)).decision = .ALLOW ∧
      ∀ clock req out, Cif.ingress sha256Hex req.rawInput req.metadata = some (.ok lr) →
        execute sha256Hex clock req s = some out →
        out.state.nextToken = s.nextToken + 1 ∧
          out.state.tokens s.nextToken =
            mintToken sha256Hex (clock 1) (Cdi.decide (s.decisionContext lr)) s := by
  have hallow : (Cdi.decide (s.decisionContext lr)).decision = .ALLOW := by
    rw [Cdi.decide_of_checks hvoid hclean hp hr]
    simp [Cdi.evaluateRequest, SystemState.decisionContext, hlow, hdeg, hclean]
  refine ⟨hallow, fun clock req out hi h => ?_⟩
  simp only [execute, hi, Option.some_bind, executeDecided, hallow, reduceCtorEq, if_false] at h
  obtain ⟨htok, hnext⟩ := executeGranted_state sha256Hex h
  rw [htok, hnext]
  exact ⟨rfl, Function.update_same _ _ _⟩

/-- A clean request of the given sensitivity. -/
def cleanRequest (sensitivity : String) : LabeledRequest :=
  ⟨"q", "q", ["clean"], sensitivity, "", none⟩

/-- The empty rule map `NewSystemState` installs passes as a configured one. -/
theorem decide_allows_unchecked_context_fresh :
    (cleanRequest "low").isTainted = false ∧
      (newSystemState id "p" "n" 0).governanceCapsule.rules = some [] ∧
      (Cdi.decide ((newSystemState id "p" "n" 0).decisionContext (cleanRequest "low"))).decision = .ALLOW :=
  ⟨rfl, rfl, (decide_allows_unchecked_context id (newSystemState id "p" "n" 0) (cleanRequest "low")
    rfl rfl (by decide) (by decide) (by decide) (by decide)).1⟩

/-! ### Restricting a context -/

/-- What a decision grants: `DENY` nothing, `ALLOW` every operation (its scope
`"*"`), `DEGRADE` the operations of its `DegradedScope`. -/
def DecisionResult.grants (d : DecisionResult) (op : String) : Bool :=
  match d.decision with
  | .DENY => false
  | .ALLOW => true
  | .DEGRADE => d.degradedScope.contains op

/-- The severity of a named integrity state: `INTEGRITY_OK` < `INTEGRITY_DEGRADED` < `INTEGRITY_VOID`. -/
def integritySeverity (state : String) : Option Nat :=
  if state = "INTEGRITY_OK" then some 0
  else if state = "INTEGRITY_DEGRADED" then some 1
  else if state = "INTEGRITY_VOID" then some 2
  else none

/-- `ctx'` is `ctx` made more restrictive: an integrity state at least as
severe, a superset of the taint labels, a subset of the active consents, and
nothing else changed. -/
structure DecisionContext.Restricts (ctx ctx' : DecisionContext) : Prop where
  request : ctx'.request = { ctx.request with taintLabels := ctx'.request.taintLabels }
  labels : ctx.request.taintLabels ⊆ ctx'.request.taintLabels
  consents : ∀ k, Cdi.hasConsent ctx'.activeConsents k = true → Cdi.hasConsent ctx.activeConsents k = true
  integrity : ctx'.integrityState = ctx.integrityState ∨ ∃ a b,
    integritySeverity ctx.integrityState = some a ∧ integritySeverity ctx'.integrityState = some b ∧ a ≤ b
  posture : ctx'.postureLevel = ctx.postureLevel
  rules : ctx'.governanceRules = ctx.governanceRules

theorem integritySeverity_eq_some {state : String} {n : Nat} (h : integritySeverity state = some n) :
    (state = "INTEGRITY_OK" ∧ n = 0) ∨ (state = "INTEGRITY_DEGRADED" ∧ n = 1) ∨
      (state = "INTEGRITY_VOID" ∧ n = 2) := by
  unfold integritySeverity at h
  split_ifs at h <;> cases h <;> simp_all

theorem DecisionContext.Restricts.integrity_cases {ctx ctx' : DecisionContext} (h : ctx.Restricts ctx') :
    ctx'.integrityState = ctx.integrityState ∨ ctx'.integrityState = "INTEGRITY_VOID" ∨
      (ctx.integrityState = "INTEGRITY_OK" ∧ ctx'.integrityState = "INTEGRITY_DEGRADED") := by
  rcases h.integrity with he | ⟨a, b, ha, hb, hab⟩
  · exact .inl he
  rcases integritySeverity_eq_some ha with ⟨ha, rfl⟩ | ⟨ha, rfl⟩ | ⟨ha, rfl⟩ <;>
    rcases integritySeverity_eq_some hb with ⟨hb, rfl⟩ | ⟨hb, rfl⟩ | ⟨hb, rfl⟩ <;>
    first | omega | simp_all

theorem LabeledRequest.isTainted_of_subset {lr lr' : LabeledRequest}
    (hs : lr.taintLabels ⊆ lr'.taintLabels) (h : lr.isTainted = true) : lr'.isTainted = true := by
  simp only [LabeledRequest.isTainted, List.any_eq_true] at h ⊢
  obtain ⟨l, hl, hne⟩ := h
  exact ⟨l, hs hl, hne⟩

theorem Cdi.grants_deny (reason op : String) : (Cdi.deny reason).grants op = false := rfl

theorem Cdi.checks_of_grants {ctx : DecisionContext} {op : String} (h : (decide ctx).grants op = true) :
    ctx.integrityState ≠ "INTEGRITY_VOID" ∧ ctx.request.isTainted = false ∧ ctx.postureLevel ≠ 0 ∧
      ctx.governanceRules ≠ none := by
  unfold decide at h
  split_ifs at h with h1 h2 h3 h4
  all_goals try simp only [grants_deny, Bool.false_eq_true] at h
  exact ⟨h1, Bool.eq_false_iff.mpr h2, h3, h4⟩

theorem Cdi.evaluateRequest_congr {ctx ctx' : DecisionContext}
    (hs : ctx'.request.sensitivityLevel = ctx.request.sensitivityLevel)
    (hc : ctx.request.sensitivityLevel = "high" →
      hasConsent ctx'.activeConsents "high_risk_operations" = hasConsent ctx.activeConsents "high_risk_operations")
    (hi : ctx'.integrityState = ctx.integrityState) (ht : ctx'.request.isTainted = ctx.request.isTainted)
    (hp : ctx'.postureLevel = ctx.postureLevel) : evaluateRequest ctx' = evaluateRequest ctx := by
  unfold evaluateRequest
  rw [hs, hi, ht, hp]
  by_cases hh : ctx.request.sensitivityLevel = "high"
  · rw [hc hh]
  · simp only [hh, false_and, if_false]

/-- Restricting a context never widens what `Decide` grants, except by moving
the integrity state from `INTEGRITY_OK` to `INTEGRITY_DEGRADED` for a request
whose sensitivity is not `low`. -/
theorem decide_monotone_in_restriction {ctx ctx' : DecisionContext} (h : ctx.Restricts ctx')
    (hdeg : ctx'.integrityState = "INTEGRITY_DEGRADED" → ctx.integrityState ≠ "INTEGRITY_DEGRADED" →
      ctx.request.sensitivityLevel = "low")
    (op : String) : (Cdi.decide ctx').grants op = true → (Cdi.decide ctx).grants op = true := by
  intro hg
  obtain ⟨hv', ht', hp', hr'⟩ := Cdi.checks_of_grants hg
  have ht : ctx.request.isTainted = false :=
    Bool.eq_false_iff.mpr fun htc => by simp [LabeledRequest.isTainted_of_subset h.labels htc] at ht'
  have hs : ctx'.request.sensitivityLevel = ctx.request.sensitivityLevel := by rw [h.request]
  have hp : ctx.postureLevel ≠ 0 := h.posture ▸ hp'
  have hr : ctx.governanceRules ≠ none := h.rules ▸ hr'
  rw [Cdi.decide_of_checks hv' ht' hp' hr'] at hg
  rcases h.integrity_cases with hi | hi | ⟨hok, hdeg'⟩
  · rw [Cdi.decide_of_checks (hi ▸ hv') ht hp hr]
    refine (Cdi.evaluateRequest_congr hs (fun hh => ?_) hi (ht'.trans ht.symm) h.posture) ▸ hg
    by_cases hc : Cdi.hasConsent ctx'.activeConsents "high_risk_operations" = true
    · rw [hc, h.consents _ hc]
    · simp [Cdi.evaluateRequest, hs, hh, hc, Cdi.grants_deny] at hg
  · exact absurd hi hv'
  · have hlow := hdeg hdeg' (by rw [hok]; decide)
    rw [Cdi.decide_of_checks (by rw [hok]; decide) ht hp hr]
    simp [Cdi.evaluateRequest, hlow, hok, ht, DecisionResult.grants]

/-- A clean request of the given sensitivity at posture 1, holding the
`high_risk_operations` consent, under integrity `integrity`. -/
def consentedContext (sensitivity integrity : String) : DecisionContext :=
  ⟨cleanRequest sensitivity, 1, some [], integrity, [("high_risk_operations", true)]⟩

theorem decide_monotone_in_restriction_low :
    (consentedContext "low" "INTEGRITY_OK").Restricts (consentedContext "low" "INTEGRITY_DEGRADED") ∧
      (consentedContext "low" "INTEGRITY_OK").request.sensitivityLevel = "low" ∧
      ((Cdi.decide (consentedContext "low" "INTEGRITY_DEGRADED")).grants "query" = true →
        (Cdi.decide (consentedContext "low" "INTEGRITY_OK")).grants "query" = true) :=
  have h : (consentedContext "low" "INTEGRITY_OK").Restricts (consentedContext "low" "INTEGRITY_DEGRADED") :=
    ⟨rfl, fun _ h => h, fun _ h => h, .inr ⟨0, 1, rfl, rfl, by decide⟩, rfl, rfl⟩
  ⟨h, rfl, decide_monotone_in_restriction h (fun _ _ => rfl) "query"⟩

/-- Moving a consented `high` request, or a `medium` one, from `INTEGRITY_OK` to
`INTEGRITY_DEGRADED` widens what it is granted: from nothing to `query`, and
from `query`, `search`, `read` to a scope with `read_only`. -/
theorem degraded_integrity_widens_grants :
    (consentedContext "high" "INTEGRITY_OK").Restricts (consentedContext "high" "INTEGRITY_DEGRADED") ∧
      (Cdi.decide (consentedContext "high" "INTEGRITY_OK")).grants "query" = false ∧
      (Cdi.decide (consentedContext "high" "INTEGRITY_DEGRADED")).grants "query" = true ∧
    (consentedContext "medium" "INTEGRITY_OK").Restricts (consentedContext "medium" "INTEGRITY_DEGRADED") ∧
      (Cdi.decide (consentedContext "medium" "INTEGRITY_OK")).grants "read_only" = false ∧
      (Cdi.decide (consentedContext "medium" "INTEGRITY_DEGRADED")).grants "read_only" = true :=
  ⟨⟨rfl, fun _ h => h, fun _ h => h, .inr ⟨0, 1, rfl, rfl, by decide⟩, rfl, rfl⟩, by decide, by decide,
    ⟨rfl, fun _ h => h, fun _ h => h, .inr ⟨0, 1, rfl, rfl, by decide⟩, rfl, rfl⟩, by decide, by decide⟩

/-! ### The token minted from a decision -/

theorem Cdi.evaluateRequest_cases (ctx : DecisionContext) :
    (∃ reason, evaluateRequest ctx = deny reason) ∨
      evaluateRequest ctx = ⟨.DEGRADE, "integrity_degraded", ["read_only", "query"], ctx.postureLevel⟩ ∨
      evaluateRequest ctx = ⟨.ALLOW, "clean_low_sensitivity", ["*"], ctx.postureLevel⟩ ∨
      evaluateRequest ctx = ⟨.DEGRADE, "medium_sensitivity", ["query", "search", "read"], ctx.postureLevel⟩ := by
  unfold evaluateRequest
  dsimp only
  split_ifs
  exacts [.inl ⟨_, rfl⟩, .inr (.inl rfl), .inr (.inr (.inl rfl)), .inr (.inr (.inr rfl)), .inl ⟨_, rfl⟩]

theorem Cdi.decide_cases (ctx : DecisionContext) :
    (∃ reason, decide ctx = deny reason) ∨
      decide ctx = ⟨.DEGRADE, "integrity_degraded", ["read_only", "query"], ctx.postureLevel⟩ ∨
      decide ctx = ⟨.ALLOW, "clean_low_sensitivity", ["*"], ctx.postureLevel⟩ ∨
      decide ctx = ⟨.DEGRADE, "medium_sensitivity", ["query", "search", "read"], ctx.postureLevel⟩ := by
  unfold decide
  split_ifs
  any_goals exact .inl ⟨_, rfl⟩
  exact evaluateRequest_cases ctx

theorem Cdi.decide_degrade {ctx : DecisionContext} (h : (decide ctx).decision = .DEGRADE) :
    ((decide ctx).degradedScope = ["read_only", "query"] ∨
      (decide ctx).degradedScope = ["query", "search", "read"]) ∧
    (decide ctx).requiredPosture = ctx.postureLevel := by
  rcases decide_cases ctx with ⟨r, hr⟩ | hr | hr | hr <;> rw [hr] at h ⊢ <;> first | (cases h; done) | simp

theorem Cdi.decide_allow {ctx : DecisionContext} (h : (decide ctx).decision = .ALLOW) :
    (decide ctx).degradedScope = ["*"] ∧ (decide ctx).requiredPosture = ctx.postureLevel := by
  rcases decide_cases ctx with ⟨r, hr⟩ | hr | hr | hr <;> rw [hr] at h ⊢ <;> first | (cases h; done) | simp

theorem Token.verify_congr {t t' : Token} (hr : t'.revokedAt = t.revokedAt)
    (he : t'.expiresAt = t.expiresAt) (hb : t'.postureBounds = t.postureBounds) (p now : Int) :
    t'.verify p now = t.verify p now := by
  simp only [Token.verify, hr, he, hb]

variable (sha256Hex : String → String)

section Mint

variable (now : Int) (d : DecisionResult) (s : SystemState)

@[simp] theorem mintToken_scope :
    (mintToken sha256Hex now d s).scope = if d.degradedScope.isEmpty then ["*"] else d.degradedScope := rfl

@[simp] theorem mintToken_expiresAt : (mintToken sha256Hex now d s).expiresAt = now + 5 * minute := rfl

@[simp] theorem mintToken_postureBounds :
    (mintToken sha256Hex now d s).postureBounds = ⟨d.requiredPosture, 4⟩ := rfl

@[simp] theorem mintToken_revokedAt : (mintToken sha256Hex now d s).revokedAt = none := rfl

theorem mintToken_refused_above_four (h : 4 < d.requiredPosture) (m : MockAdapter) (p t : Int) :
    m.verifyToken (some (mintToken sha256Hex now d s)) p t ≠ .ok () := fun hm => by
  obtain ⟨_, ht, hv, -⟩ := (MockAdapter.verifyToken_eq_ok_iff _ _ _ _).mp hm
  cases ht
  rw [Token.verify_eq_ok_iff, mintToken_postureBounds] at hv
  exact absurd (hv.2.2.1.trans hv.2.2.2) (not_le.mpr h)

end Mint

/-- A token minted from a `DEGRADE` has a non-empty scope of degraded operations
without `"*"`, one minted from an `ALLOW` the scope `"*"`. Minted from the same
state at the same instant, the mock adapter accepts the `DEGRADE` token only
where it accepts the `ALLOW` one. When the state's posture is at most 4, some
adapter accepts the `ALLOW` token and refuses the `DEGRADE` one; above 4 no
adapter accepts either, since `Decide` passes the posture on unchecked. -/
theorem degrade_token_within_allow (now : Int) (s : SystemState) (lrD lrA : LabeledRequest)
    (hD : (Cdi.decide (s.decisionContext lrD)).decision = .DEGRADE)
    (hA : (Cdi.decide (s.decisionContext lrA)).decision = .ALLOW) :
    let tD := mintToken sha256Hex now (Cdi.decide (s.decisionContext lrD)) s
    let tA := mintToken sha256Hex now (Cdi.decide (s.decisionContext lrA)) s
    (tD.scope ≠ [] ∧ (∀ op ∈ tD.scope, op ∈ ["read_only", "query", "search", "read"]) ∧ "*" ∉ tD.scope) ∧
      tA.scope = ["*"] ∧
      (∀ (m : MockAdapter) (p t : Int), m.verifyToken (some tD) p t = .ok () →
        m.verifyToken (some tA) p t = .ok ()) ∧
      (s.postureLevel ≤ 4 → ∃ (m : MockAdapter) (p t : Int),
        m.verifyToken (some tA) p t = .ok () ∧ m.verifyToken (some tD) p t ≠ .ok ()) ∧
      (4 < s.postureLevel → ∀ (m : MockAdapter) (p t : Int),
        m.verifyToken (some tD) p t ≠ .ok () ∧ m.verifyToken (some tA) p t ≠ .ok ()) := by
  intro tD tA
  obtain ⟨hsD, hpD⟩ := Cdi.decide_degrade hD
  obtain ⟨hsA, hpA⟩ := Cdi.decide_allow hA
  have hscopeD : tD.scope = ["read_only", "query"] ∨ tD.scope = ["query", "search", "read"] := by
    rcases hsD with h | h <;> simp [tD, h]
  have hscopeA : tA.scope = ["*"] := by simp [tA, hsA]
  have hbounds : tA.postureBounds = ⟨s.postureLevel, 4⟩ ∧ tD.postureBounds = ⟨s.postureLevel, 4⟩ :=
    ⟨by simp only [tA, mintToken_postureBounds, hpA]; rfl, by simp only [tD, mintToken_postureBounds, hpD]; rfl⟩
  have hverify : ∀ p t, tA.verify p t = tD.verify p t :=
    Token.verify_congr rfl rfl (hbounds.1.trans hbounds.2.symm)
  refine ⟨by rcases hscopeD with h | h <;> simp [h], hscopeA, fun m p t h => ?_, fun hp => ?_,
    fun hp m p t => ⟨mintToken_refused_above_four sha256Hex now _ s (hpD ▸ hp) m p t,
      mintToken_refused_above_four sha256Hex now _ s (hpA ▸ hp) m p t⟩⟩
  · obtain ⟨_, ht, hv, -⟩ := (MockAdapter.verifyToken_eq_ok_iff m (some tD) p t).mp h
    cases ht
    exact (MockAdapter.verifyToken_eq_ok_iff m (some tA) p t).mpr
      ⟨tA, rfl, (hverify p t).trans hv, .inr (by simp [hscopeA])⟩
  · have hvA : tA.verify s.postureLevel now = .ok () := by
      rw [Token.verify_eq_ok_iff, hbounds.1]
      simp only [tA, mintToken_revokedAt, mintToken_expiresAt, minute]
      exact ⟨trivial, by omega, le_rfl, hp⟩
    refine ⟨newMockAdapter "mock_adapter", s.postureLevel, now,
      (MockAdapter.verifyToken_eq_ok_iff _ _ _ _).mpr ⟨tA, rfl, hvA, .inr (by simp [hscopeA])⟩, fun h => ?_⟩
    obtain ⟨_, ht, -, hn⟩ := (MockAdapter.verifyToken_eq_ok_iff _ _ _ _).mp h
    cases ht
    rcases hscopeD with h | h <;> simp [h, newMockAdapter] at hn

/-- On a fresh state a `medium` request is degraded and a `low` one allowed. -/
theorem degrade_token_within_allow_fresh :
    (Cdi.decide ((newSystemState id "p" "n" 0).decisionContext (cleanRequest "medium"))).decision =
        .DEGRADE ∧
      (Cdi.decide ((newSystemState id "p" "n" 0).decisionContext (cleanRequest "low"))).decision = .ALLOW ∧
      (mintToken id 0 (Cdi.decide ((newSystemState id "p" "n" 0).decisionContext (cleanRequest "low")))
        (newSystemState id "p" "n" 0)).scope = ["*"] :=
  have hD : (Cdi.decide ((newSystemState id "p" "n" 0).decisionContext (cleanRequest "medium"))).decision =
      .DEGRADE := by decide
  have hA : (Cdi.decide ((newSystemState id "p" "n" 0).decisionContext (cleanRequest "low"))).decision =
      .ALLOW := by decide
  ⟨hD, hA, (degrade_token_within_allow id 0 _ _ _ hD hA).2.1⟩

/-- A fresh state at posture 5. -/
def posture5State : SystemState := { newSystemState id "p" "n" 0 with postureLevel := 5 }

/-- At posture 5 `Decide` still returns `DEGRADE` and `ALLOW`, but no adapter
accepts the `ALLOW` token at any posture or instant: its bounds are `[5, 4]`. -/
theorem allow_token_refused_above_posture_four :
    (Cdi.decide (posture5State.decisionContext (cleanRequest "medium"))).decision = .DEGRADE ∧
      (Cdi.decide (posture5State.decisionContext (cleanRequest "low"))).decision = .ALLOW ∧
      ∀ (m : MockAdapter) (p t : Int), m.verifyToken
        (some (mintToken id 0 (Cdi.decide (posture5State.decisionContext (cleanRequest "low"))) posture5State))
        p t ≠ .ok () :=
  ⟨by decide, by decide, mintToken_refused_above_four id 0 _ _ (by decide)⟩

end OI
