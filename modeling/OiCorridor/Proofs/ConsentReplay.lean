import OiCorridor.Proofs.Requests

/-! Consent over every interleaving of the request threads. `checkAndStore`
drops a nonce once a thread's `cleanup` reads a clock value more than 300 s
after it was stored, and a consent token lives 120 s: so a second request that
checked the token in its lifetime and reaches `putIfAbsent` more than 180 s
later may find the nonce gone, and gets past `verifyConsent` too, however soon
after its check it read the clock in `checkAndStore`. When no request's
`putIfAbsent` comes later than that, at most one request stores each nonce, so
at most one gets past `verifyConsent` and a token presented for another action
is spent; every pass matches the action and the audience, and a tool result
needs an allowed tool and a capability scoped for it, whatever the timing. -/

set_option autoImplicit false

namespace OI.Flourish

instance (g : Gateway) (a : Action) : Decidable (a.Valid g) := by
  cases a <;> unfold Action.Valid <;> infer_instance

instance (d : Int) (g : Gateway) (a : Action) : Decidable (a.Timely d g) := by
  unfold Action.Timely
  split
  · split <;> infer_instance
  · infer_instance

instance Gateway.Runs.instDecidable (cfg : Config) (P : Gateway → Action → Prop)
    [∀ g a, Decidable (P g a)] : ∀ g as, Decidable (Gateway.Runs cfg P g as)
  | _, [] => isTrue trivial
  | g, a :: as =>
    haveI := Gateway.Runs.instDecidable cfg P (g.step cfg a) as
    inferInstanceAs (Decidable (P g a ∧ Gateway.Runs cfg P (g.step cfg a) as))

/-- For every run from a fresh gateway in which the clock never goes back and
every minted consent token gets a fresh nonce: when no request's `putIfAbsent`
comes more than `nonceTtl - consentTtl` seconds after its expiry check, at most
one request gets past `verifyConsent` per nonce; each request that gets past it
presented a token for its own action hash and the configured audience; and a
`/v1/tool/run` request gets a result from `Tools.run` only for an allowed tool
and with a signed capability token whose scopes hold `tool:` and the tool. -/
theorem gateway_consent_guarantees (t₀ : Int) (as : List Action)
    (hvalid : Gateway.Runs config (fun g a => a.Valid g) (Gateway.init t₀) as) :
    (Gateway.Runs config (fun g a => a.Timely (config.nonceTtlSeconds - config.consentTtlSeconds) g)
        (Gateway.init t₀) as → OncePerNonce ((Gateway.init t₀).run config as).requests) ∧
      (∀ r ∈ ((Gateway.init t₀).run config as).requests, ∀ c, r.stage.consent? = some c →
        c.payload.actHash = some r.actHash ∧ c.payload.aud = some config.consentAudience) ∧
      ∀ r ∈ ((Gateway.init t₀).run config as).requests, ∀ c res,
        r.stage = .done c (.ok (some res)) → ∃ tool capToken args,
          r.route = .toolRun (some tool) capToken args ∧ tool ∈ config.allowTools ∧
          ∃ p ∈ ((Gateway.init t₀).run config as).capSigned, capToken = .payload p ∧
            ∃ scopes, p.scopes = some scopes ∧ "tool:" ++ tool ∈ scopes := by
  have hi := (ConsentInv.init config t₀).run hvalid
  refine ⟨fun ht => ((OnceStored.init t₀).run (ConsentInv.init config t₀) (hvalid.and ht)).oncePerNonce,
    fun r hr c hc => ⟨(hi.requests r hr).matched c hc,
      ((hi.requests r hr).kept c (Stage.stored?_of_consent? hc)).aud_eq⟩,
    fun r hr c res hs => ?_⟩
  obtain ⟨tool, capToken, args, h1, h2, h3⟩ :=
    ToolResults.run ⟨rfl, rfl⟩ (fun _ h => by cases h) as r hr c res hs
  exact ⟨tool, capToken, args, h1, by rcases h2 with rfl | rfl <;> decide, h3⟩

/-- The consent token for the action hash `h`, minted at 0 with the nonce `n`. -/
def replayToken : Payload := mintConsent config.consentAudience config.consentTtlSeconds "n" "h" 0

/-- A consent token with the nonce `m`, minted at 301. -/
def laterToken : Payload := mintConsent config.consentAudience config.consentTtlSeconds "m" "h" 301

/-- Two `/v1/ask` requests present the same token. The first checks and stores
it at 0. The second checks it at 100, reads the clock in `checkAndStore` at
once, and waits; at 301 a third request's `cleanup` drops the first entry, and
the second request's `putIfAbsent` then stores the nonce again. -/
def replayRun : List Action :=
  [.mintConsent 0 "n" "h", .arrive 0 .ask (.payload replayToken) "h",
    .arrive 0 .ask (.payload replayToken) "h", .step 0 0, .step 0 0, .step 0 0, .step 1 100, .step 1 100,
    .mintConsent 301 "m" "h", .arrive 301 .ask (.payload laterToken) "h", .step 2 301, .step 2 301,
    .evict 2 "n" 301, .step 1 301]

/-- On a run where the clock never goes back and the nonces are fresh, two
requests get past `verifyConsent` with the same nonce. The second read the
clock in `checkAndStore` as it checked the token, but its `putIfAbsent` came
201 s after its check. -/
theorem consent_replayed_after_eviction :
    Gateway.Runs config (fun g a => a.Valid g) (Gateway.init 0) replayRun ∧
      ((Gateway.init 0).run config replayRun).requests.map (·.stage.consent?) =
        [some ⟨replayToken, 0, 0⟩, some ⟨replayToken, 100, 100⟩, none] ∧
      ¬ OncePerNonce ((Gateway.init 0).run config replayRun).requests ∧
      ¬ Gateway.Runs config
        (fun g a => a.Timely (config.nonceTtlSeconds - config.consentTtlSeconds) g)
        (Gateway.init 0) replayRun :=
  ⟨by decide, by decide, fun h => absurd (h 0 1 _ _ _ _ rfl rfl rfl rfl rfl) (by decide), by decide⟩

/-- A capability token scoped for `echo`, minted at 0. -/
def echoCap : Payload := mintCap config ["tool:echo"] 0

/-- A `/v1/tool/run` request for `echo` with both tokens, a second between its
check, its `checkAndStore` and the tool. -/
def echoRun : List Action :=
  [.mintConsent 0 "n" "h", .mintCap 0 ["tool:echo"],
    .arrive 0 (.toolRun (some "echo") (.payload echoCap) []) (.payload replayToken) "h",
    .step 0 0, .step 0 1, .step 0 1, .step 0 2]

theorem gateway_consent_guarantees_echo :
    Gateway.Runs config (fun g a => a.Valid g) (Gateway.init 0) echoRun ∧
      OncePerNonce ((Gateway.init 0).run config echoRun).requests ∧
      ((Gateway.init 0).run config echoRun).requests.map (·.stage.consent?) =
        [some ⟨replayToken, 0, 1⟩] :=
  have hv : Gateway.Runs config (fun g a => a.Valid g) (Gateway.init 0) echoRun := by decide
  ⟨hv, (gateway_consent_guarantees 0 echoRun hv).1 (by decide), by decide⟩

/-- Run alone, with `requireConsent` on, the consent steps of a request that
`checkToolAllowed` lets through are `verifyConsent` with the clock reads
`checkedAt` and `storedAt`: the token checks at `checkedAt`, the clock read of
`checkAndStore` at `storedAt`, one removal of `cleanup` per entry of the cache,
and `putIfAbsent` at any later clock value. The cache ends as `verifyConsent`
leaves it; the request fails with each exception it throws but the act_hash
mismatch, is `spent` on that one, and gets past it, with the payload its token
decodes to, when it returns. -/
theorem request_steps_verifyConsent (cfg : Config) (hreq : cfg.requireConsent = true) (g : Gateway)
    (r : Request) (hs : r.stage = .start)
    (hcdi : ∀ tool capToken args, r.route = .toolRun tool capToken args →
      CDI.checkToolAllowed cfg tool = none)
    (checkedAt storedAt putAt : Int) :
    let s₁ := r.step cfg g checkedAt
    let s₂ := s₁.1.step cfg { g with seen := s₁.2 } storedAt
    let s₃ := s₂.1.step cfg { g with seen := s₂.2.foldl (fun seen e => s₂.1.evict cfg e.1 seen) s₂.2 } putAt
    let v := verifyConsent cfg g.consentSigned g.seen r.consentToken r.actHash checkedAt storedAt
    s₃.2 = v.2 ∧ (∀ e, e ≠ .actHashMismatch → (s₃.1.stage = .failed e ↔ v.1 = .error e)) ∧
      (v.1 = .error .actHashMismatch ↔ ∃ p, r.consentToken = .payload p ∧
        s₃.1.stage = .spent ⟨p, checkedAt, storedAt⟩) ∧
      (v.1 = .ok () ↔ ∃ p, r.consentToken = .payload p ∧
        s₃.1.stage = .consented (some ⟨p, checkedAt, storedAt⟩)) := by
  dsimp only
  rw [Request.step_start r hs hcdi]
  rcases hv : verifyConsentToken cfg g.consentSigned r.consentToken checkedAt with e | _ | p
  · simp only [Request.step, Request.evict, verifyConsent, hv, List.foldl_fixed]
    refine ⟨trivial, fun e' _ => by simp, ⟨fun h => ?_, by simp⟩, by simp⟩
    cases h
    rcases verifyConsentToken_error hv with h | h | h | h | h | h <;> cases h
  · exact absurd hv (verifyConsentToken_ne_none hreq _ _ _)
  obtain ⟨ht, -⟩ := verifyConsentToken_some hv
  simp only [verifyConsent, hv, verifyConsentNonce, NonceCache.checkAndStore]
  rcases hn : p.nonce with _ | n
  · simp [Request.step, Request.evict, hn]
  by_cases hb : isBlank n = true
  · simp [Request.step, Request.evict, hn, hb]
  simp only [Request.step, hn, hb, Request.evict, if_false, Bool.false_eq_true,
    NonceCache.foldl_evict_self]
  rcases hput : (NonceCache.cleanup cfg.nonceTtlSeconds storedAt g.seen).putIfAbsent n storedAt
    with ⟨_ | _, seen'⟩
  · simp
  · by_cases ha : p.actHash = some r.actHash <;> simp [ha, ht, eq_comm]

/-- `replayToken` presented for the action `x`: `verifyConsent` throws
`act_hash mismatch` and stores the nonce, and the request's steps end `spent`
with the same cache. -/
theorem request_steps_verifyConsent_replayToken :
    let r : Request := ⟨.ask, .payload replayToken, "x", .start⟩
    let g : Gateway := ⟨0, [replayToken], [], [], []⟩
    let s₁ := r.step config g 0
    let s₂ := s₁.1.step config { g with seen := s₁.2 } 1
    let s₃ := s₂.1.step config { g with seen := s₂.2.foldl (fun seen e => s₂.1.evict config e.1 seen) s₂.2 } 2
    let v := verifyConsent config g.consentSigned g.seen r.consentToken r.actHash 0 1
    v.1 = .error .actHashMismatch ∧ s₃.1.stage = .spent ⟨replayToken, 0, 1⟩ ∧ s₃.2 = v.2 :=
  have h := request_steps_verifyConsent config rfl ⟨0, [replayToken], [], [], []⟩
    ⟨.ask, .payload replayToken, "x", .start⟩ rfl (fun _ _ _ h => by cases h) 0 1 2
  have hv : (verifyConsent config [replayToken] [] (.payload replayToken) "x" 0 1).1 = .error .actHashMismatch :=
    rfl
  ⟨hv, by obtain ⟨p, hp, hs⟩ := h.2.2.1.mp hv; cases hp; exact hs, h.1⟩

/-- `verifyConsent` stores the nonce before it compares the act_hash, so a
consent token presented for another action is spent. For every run from a fresh
gateway in which the clock never goes back, every minted consent token gets a
fresh nonce, and no request's `putIfAbsent` comes more than
`nonceTtl - consentTtl` seconds after its expiry check: a request whose
`verifyConsent` threw `act_hash mismatch` presented a token for another action,
and no request, before it, after it or beside it, gets past `verifyConsent` with
that token's nonce. -/
theorem consent_spent_by_mismatch (t₀ : Int) (as : List Action)
    (hvalid : Gateway.Runs config (fun g a => a.Valid g) (Gateway.init t₀) as)
    (htimely : Gateway.Runs config
      (fun g a => a.Timely (config.nonceTtlSeconds - config.consentTtlSeconds) g) (Gateway.init t₀) as) :
    ∀ r ∈ ((Gateway.init t₀).run config as).requests, ∀ c, r.stage = .spent c →
      c.payload.actHash ≠ some r.actHash ∧
      ∀ r' ∈ ((Gateway.init t₀).run config as).requests, ∀ c', r'.stage.consent? = some c' →
        c'.payload.nonce ≠ c.payload.nonce := by
  have hi := (ConsentInv.init config t₀).run hvalid
  have ho := (OnceStored.init t₀).run (ConsentInv.init config t₀) (hvalid.and htimely)
  intro r hr c hs
  refine ⟨(hi.requests r hr).spent c hs, fun r' hr' c' hc' he => ?_⟩
  obtain ⟨i, hri⟩ := List.mem_iff_getElem?.mp hr
  obtain ⟨j, hrj⟩ := List.mem_iff_getElem?.mp hr'
  obtain rfl := ho i j r r' c c' hri hrj (by rw [hs]; rfl) (Stage.stored?_of_consent? hc') he.symm
  cases hri.symm.trans hrj
  rw [hs] at hc'
  cases hc'

/-- Request 0 presents the token for the action `x`, request 1 then presents it
for its own action `h`. -/
def mismatchRun : List Action :=
  [.mintConsent 0 "n" "h", .arrive 0 .ask (.payload replayToken) "x", .arrive 0 .ask (.payload replayToken) "h",
    .step 0 0, .step 0 0, .step 0 0, .step 1 10, .step 1 10, .step 1 10]

/-- The first request spends the token; the second is refused as a replay. -/
theorem consent_spent_by_mismatch_replayToken :
    Gateway.Runs config (fun g a => a.Valid g) (Gateway.init 0) mismatchRun ∧
      Gateway.Runs config (fun g a => a.Timely (config.nonceTtlSeconds - config.consentTtlSeconds) g)
        (Gateway.init 0) mismatchRun ∧
      ((Gateway.init 0).run config mismatchRun).requests.map (·.stage.stored?) =
        [some ⟨replayToken, 0, 0⟩, none] ∧
      (∀ r ∈ ((Gateway.init 0).run config mismatchRun).requests, ∀ c, r.stage = .spent c →
        c.payload.actHash ≠ some r.actHash ∧
        ∀ r' ∈ ((Gateway.init 0).run config mismatchRun).requests, ∀ c', r'.stage.consent? = some c' →
          c'.payload.nonce ≠ c.payload.nonce) :=
  have hv : Gateway.Runs config (fun g a => a.Valid g) (Gateway.init 0) mismatchRun := by decide
  have ht : Gateway.Runs config (fun g a => a.Timely (config.nonceTtlSeconds - config.consentTtlSeconds) g)
      (Gateway.init 0) mismatchRun := by decide
  ⟨hv, ht, by decide, consent_spent_by_mismatch 0 mismatchRun hv ht⟩

end OI.Flourish
