import OiCorridor.Spec.Kernel

/-! STOP: `RevokeAllTokens` revokes every token the map `ActiveCapabilityTokens`
points to and records how many entries the map has. The map is keyed by digest,
and the digest reads the issue and expiry times in whole seconds, so a second
token minted with the same fields in the same second takes the first one's key:
the first token then stays unrevoked after STOP. -/

set_option autoImplicit false

namespace OI

namespace SystemState

variable (sha256Hex : String → String)

@[simp] theorem alloc_tokens (s : SystemState) (t : Token) :
    (s.alloc t).tokens = Function.update s.tokens s.nextToken t := rfl

@[simp] theorem alloc_nextToken (s : SystemState) (t : Token) :
    (s.alloc t).nextToken = s.nextToken + 1 := rfl

@[simp] theorem alloc_activeCapabilityTokens (s : SystemState) (t : Token) :
    (s.alloc t).activeCapabilityTokens = s.activeCapabilityTokens := rfl

@[simp] theorem alloc_auditLedger (s : SystemState) (t : Token) :
    (s.alloc t).auditLedger = s.auditLedger := rfl

@[simp] theorem addToken_tokens (s : SystemState) (now : Int) (ref : Nat) :
    (s.addToken sha256Hex now ref).tokens = s.tokens := rfl

@[simp] theorem addToken_activeCapabilityTokens (s : SystemState) (now : Int) (ref : Nat) :
    (s.addToken sha256Hex now ref).activeCapabilityTokens =
      s.activeCapabilityTokens.insert (s.tokens ref).digest ref := rfl

@[simp] theorem addToken_nextToken (s : SystemState) (now : Int) (ref : Nat) :
    (s.addToken sha256Hex now ref).nextToken = s.nextToken := rfl

@[simp] theorem revokeAllTokens_activeCapabilityTokens (s : SystemState) (now : Int) :
    (s.revokeAllTokens sha256Hex now).activeCapabilityTokens = s.activeCapabilityTokens := rfl

theorem revokeEach_cons (tokens : Nat → Token) (now : Int) (r : Nat) (rs : List Nat) :
    revokeEach tokens now (r :: rs) =
      revokeEach (Function.update tokens r ((tokens r).revoke now)) now rs := rfl

theorem revokeEach_of_not_mem (tokens : Nat → Token) (now : Int) {refs : List Nat} {ref : Nat}
    (h : ref ∉ refs) : revokeEach tokens now refs ref = tokens ref := by
  induction refs generalizing tokens with
  | nil => rfl
  | cons r rs ih =>
    simp only [List.mem_cons, not_or] at h
    rw [revokeEach_cons, ih _ h.2, Function.update_noteq h.1]

theorem revokeEach_of_mem (tokens : Nat → Token) (now : Int) {refs : List Nat} {ref : Nat}
    (h : ref ∈ refs) : (revokeEach tokens now refs ref).revokedAt = some now := by
  induction refs generalizing tokens with
  | nil => simp at h
  | cons r rs ih =>
    rw [revokeEach_cons]
    by_cases hr : ref ∈ rs
    · exact ih _ hr
    · obtain rfl : ref = r := by simpa [hr] using h
      rw [revokeEach_of_not_mem _ _ hr, Function.update_same, Token.revoke_revokedAt]

theorem revokeAllTokens_revokes_active (s : SystemState) (now : Int) {d : String} {ref : Nat}
    (h : s.activeCapabilityTokens.lookup d = some ref) :
    ((s.revokeAllTokens sha256Hex now).tokens ref).revokedAt = some now := by
  apply revokeEach_of_mem
  exact List.mem_map.mpr ⟨⟨d, ref⟩, AList.mem_lookup_iff.mp h, rfl⟩

theorem revokeAllTokens_of_not_active (s : SystemState) (now : Int) {ref : Nat}
    (h : ∀ d, s.activeCapabilityTokens.lookup d ≠ some ref) :
    (s.revokeAllTokens sha256Hex now).tokens ref = s.tokens ref := by
  apply revokeEach_of_not_mem
  intro hm
  obtain ⟨⟨d, r⟩, he, rfl⟩ := List.mem_map.mp hm
  exact h d (AList.mem_lookup_iff.mpr he)

theorem revokeAllTokens_stop_event (s : SystemState) (now : Int) :
    ((s.revokeAllTokens sha256Hex now).auditLedger.receipts.getLast?.map Receipt.eventData) =
      some [("tokens_revoked", .int s.activeCapabilityTokens.entries.length)] := by
  simp [revokeAllTokens, Ledger.appendStopEvent]

end SystemState

/-- The token of the `C7_stop_dominance` probes, minted at clock value `now`. -/
def probeToken (sha256Hex : String → String) (now : Int) : Token :=
  mint sha256Hex now "issuer" "subject" "audience" ["scope1"] ⟨10, 100, []⟩ (5 * minute) ⟨1, 4⟩
    "ns1" "prin1"

/-- Two probe tokens minted at 1.0 s and 1.5 s, registered in turn on a fresh
state, then STOP at 2.0 s. -/
def shadowRun (sha256Hex : String → String) : SystemState :=
  let s := newSystemState sha256Hex "test_principal" "test_namespace" 0
  let s := (s.alloc (probeToken sha256Hex 1000000000)).addToken sha256Hex 1000000000 0
  let s := (s.alloc (probeToken sha256Hex 1500000000)).addToken sha256Hex 1500000000 1
  s.revokeAllTokens sha256Hex 2000000000

theorem probeToken_digest_eq (sha256Hex : String → String) :
    probeToken sha256Hex 1000000000 ≠ probeToken sha256Hex 1500000000 ∧
      (probeToken sha256Hex 1000000000).digest = (probeToken sha256Hex 1500000000).digest := by
  refine ⟨fun h => absurd (congrArg Token.issuedAt h) (by
    show (1000000000 : Int) ≠ 1500000000
    decide), ?_⟩
  simp only [probeToken, mint, Token.computeDigest, Token.digestInput]
  rfl

/-- On the run `shadowRun`, for every hash function: after STOP the first
registered token is unrevoked and still passes `Verify` at posture 1, and the
`stop_event` receipt counts one token although two distinct tokens were
registered. -/
theorem revokeAllTokens_misses_shadowed_token (sha256Hex : String → String) :
    ((shadowRun sha256Hex).tokens 0).revokedAt = none ∧
      ((shadowRun sha256Hex).tokens 0).verify 1 2000000000 = .ok () ∧
      (shadowRun sha256Hex).auditLedger.receipts.getLast?.map Receipt.eventData =
        some [("tokens_revoked", .int 1)] := by
  obtain ⟨-, hd⟩ := probeToken_digest_eq sha256Hex
  have hmap : (((((newSystemState sha256Hex "test_principal" "test_namespace" 0).alloc
      (probeToken sha256Hex 1000000000)).addToken sha256Hex 1000000000 0).alloc
      (probeToken sha256Hex 1500000000)).addToken sha256Hex 1500000000 1).activeCapabilityTokens.entries
      = [⟨(probeToken sha256Hex 1500000000).digest, 1⟩] := by
    simp [newSystemState, AList.insert_entries, hd, List.kerase_cons_eq]
  have h0 : (shadowRun sha256Hex).tokens 0 = probeToken sha256Hex 1000000000 := by
    rw [shadowRun, SystemState.revokeAllTokens_of_not_active]
    · simp [newSystemState]
    · intro d hl
      have := AList.mem_lookup_iff.mp hl
      rw [hmap] at this
      simp at this
  refine ⟨by rw [h0]; rfl, by rw [h0]; simp [probeToken, mint, Token.verify, minute], ?_⟩
  rw [shadowRun, SystemState.revokeAllTokens_stop_event, hmap]
  rfl

end OI
