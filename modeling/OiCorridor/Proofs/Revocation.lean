import OiCorridor.Spec.Session
import OiCorridor.Proofs.Execute

/-! Revocation across any sequence of calls on the kernel's state. A token the
state holds changes only through `Revoke` and `RevokeAllTokens`, each of which
sets `RevokedAt` to the clock value of the call: no call clears it, but a later
revocation of a revoked token moves it to the later instant. -/

set_option autoImplicit false

namespace OI

section

variable (sha256Hex : String → String)

@[simp] theorem Token.revoke_revoke (t : Token) (a b : Int) : (t.revoke a).revoke b = t.revoke b := rfl

theorem SystemState.revokeEach_apply (tokens : Nat → Token) (now : Int) (refs : List Nat) (ref : Nat) :
    SystemState.revokeEach tokens now refs ref =
      if ref ∈ refs then (tokens ref).revoke now else tokens ref := by
  induction refs generalizing tokens with
  | nil => rfl
  | cons r rs ih =>
    rw [SystemState.revokeEach_cons, ih]
    by_cases hr : ref = r
    · subst hr; simp
    · simp [hr, Function.update_noteq hr]

theorem execute_tokens {clock : Nat → Int} {req : Request} {s : SystemState} {out : ExecOutcome}
    (h : execute sha256Hex clock req s = some out) {ref : Nat} (href : ref < s.nextToken) :
    out.state.tokens ref = s.tokens ref ∧ s.nextToken ≤ out.state.nextToken := by
  rcases execute_cases sha256Hex h with ⟨e, -, rfl⟩ | ⟨lr, d, -, -, ⟨-, rfl⟩ | ⟨-, h⟩⟩
  · exact ⟨rfl, le_rfl⟩
  · exact ⟨rfl, le_rfl⟩
  · obtain ⟨htok, hnext⟩ := executeGranted_state sha256Hex h
    rw [htok, hnext]
    exact ⟨Function.update_noteq (Nat.ne_of_lt href) _ _, Nat.le_succ _⟩

namespace KernelCall

theorem apply_token (s : SystemState) (c : KernelCall) {ref : Nat} (href : ref < s.nextToken) :
    ((c.apply sha256Hex s).tokens ref = s.tokens ref ∨
      ∃ now, c.stopTime = some now ∧ (c.apply sha256Hex s).tokens ref = (s.tokens ref).revoke now) ∧
    s.nextToken ≤ (c.apply sha256Hex s).nextToken := by
  cases c with
  | revoke r now =>
    refine ⟨?_, le_rfl⟩
    by_cases hr : ref = r
    · subst hr; exact .inr ⟨now, rfl, Function.update_same _ _ _⟩
    · exact .inl (Function.update_noteq hr _ _)
  | revokeAll now =>
    refine ⟨?_, le_rfl⟩
    simp only [apply, SystemState.revokeAllTokens, SystemState.revokeEach_apply]
    split_ifs
    exacts [.inr ⟨now, rfl, rfl⟩, .inl rfl]
  | addToken t now =>
    exact ⟨.inl (Function.update_noteq (Nat.ne_of_lt href) _ _), Nat.le_succ _⟩
  | execute clock req =>
    simp only [apply]
    rcases h : OI.execute sha256Hex clock req s with _ | out
    · exact ⟨.inl rfl, le_rfl⟩
    · obtain ⟨ht, hn⟩ := execute_tokens sha256Hex h href
      exact ⟨.inl ht, hn⟩
  | verify => exact ⟨.inl rfl, le_rfl⟩

theorem run_token (s : SystemState) (cs : List KernelCall) {ref : Nat} (href : ref < s.nextToken) :
    (run sha256Hex s cs).tokens ref = s.tokens ref ∨
      ∃ now ∈ cs.filterMap stopTime, (run sha256Hex s cs).tokens ref = (s.tokens ref).revoke now := by
  induction cs generalizing s with
  | nil => exact .inl rfl
  | cons c cs ih =>
    obtain ⟨hstep, hnext⟩ := apply_token sha256Hex s c href
    rcases ih (c.apply sha256Hex s) (lt_of_lt_of_le href hnext) with h | ⟨now, hmem, h⟩ <;>
      simp only [run, List.foldl_cons] at h ⊢ <;> rw [h]
    · rcases hstep with hs | ⟨now, hc, hs⟩
      · exact .inl hs
      · exact .inr ⟨now, by simp [List.filterMap_cons, hc], hs⟩
    · obtain ⟨c', hc', hcs⟩ := List.mem_filterMap.mp hmem
      refine .inr ⟨now, List.mem_filterMap.mpr ⟨c', List.mem_cons_of_mem _ hc', hcs⟩, ?_⟩
      rcases hstep with hs | ⟨_, _, hs⟩ <;> simp only [hs, Token.revoke_revoke]

end KernelCall

/-- A token the state holds stays revoked once revoked. After any sequence of
`Revoke`, `RevokeAllTokens`, `AddToken`, `Execute` and `Verify` calls its
`RevokedAt` is set, to its old value or to the clock value of one of the
sequence's revocations, so at clock values not before its revocation it only
moves forward. -/
theorem revokedAt_persists (s : SystemState) (cs : List KernelCall) {ref : Nat}
    (href : ref < s.nextToken) {r : Int} (hr : (s.tokens ref).revokedAt = some r) :
    ∃ r', ((KernelCall.run sha256Hex s cs).tokens ref).revokedAt = some r' ∧
      (r' = r ∨ r' ∈ cs.filterMap KernelCall.stopTime) ∧
      ((∀ t ∈ cs.filterMap KernelCall.stopTime, r ≤ t) → r ≤ r') := by
  rcases KernelCall.run_token sha256Hex s cs href with h | ⟨now, hmem, h⟩ <;> rw [h]
  · exact ⟨r, hr, .inl rfl, fun _ => le_rfl⟩
  · exact ⟨now, rfl, .inr hmem, fun hle => hle now hmem⟩

end

/-- The probe token registered on a fresh state at 1 s, then STOP at 2 s. -/
def probeStopped (sha256Hex : String → String) : SystemState :=
  KernelCall.run sha256Hex (newSystemState sha256Hex "test_principal" "test_namespace" 0)
    [.addToken (probeToken sha256Hex 1000000000) 1000000000, .revokeAll 2000000000]

theorem revokedAt_persists_probe :
    0 < (probeStopped id).nextToken ∧ ((probeStopped id).tokens 0).revokedAt = some 2000000000 ∧
      ∃ r', ((KernelCall.run id (probeStopped id) [.revokeAll 3000000000, .verify 0 1 3000000000]).tokens
        0).revokedAt = some r' ∧ (r' = 2000000000 ∨ r' ∈ [3000000000]) ∧
        ((∀ t ∈ [(3000000000 : Int)], 2000000000 ≤ t) → 2000000000 ≤ r') :=
  have h0 : 0 < (probeStopped id).nextToken := Nat.zero_lt_one
  have hr : ((probeStopped id).tokens 0).revokedAt = some 2000000000 := rfl
  ⟨h0, hr, revokedAt_persists id (probeStopped id) [.revokeAll 3000000000, .verify 0 1 3000000000] h0 hr⟩

/-- A second STOP moves the `RevokedAt` of a token the first STOP revoked, for
every hash function. -/
theorem second_stop_moves_revokedAt (sha256Hex : String → String) :
    ((probeStopped sha256Hex).tokens 0).revokedAt = some 2000000000 ∧
      ((KernelCall.run sha256Hex (probeStopped sha256Hex) [.revokeAll 3000000000]).tokens 0).revokedAt =
        some 3000000000 :=
  ⟨rfl, rfl⟩

end OI
