import OiCorridor.Spec.Threads
import OiCorridor.Proofs.Registry
import OiCorridor.Proofs.Stop

/-! STOP against goroutines in `kernelExecute`. A thread run with no other step
in between computes `kernelExecute`, and so does `RevokeAllTokens` compute the
sequential `RevokeAllTokens`: the goroutine model refines the sequential one.
Under interleaving, STOP preempts every thread that has not passed
`VerifyToken` when the loop revokes its token; a thread that passes it before,
even after STOP has taken the lock, still reaches the adapter's `Invoke`, which
records the invocation with the revoked token. -/

set_option autoImplicit false

namespace OI

section
variable (sha256Hex : String → String)

/-- Five steps of a thread from the start of `kernelExecute`, with no other step
between them, compute `kernelExecute`, the clock reading `now` throughout. -/
theorem soloRun_kernelExecute (now : Int) (ref : Nat) (lr : LabeledRequest) (s : SystemState) :
    Thread.soloRun sha256Hex (List.replicate 5 now) ⟨ref, lr, .checkRevoked⟩ s =
      (⟨ref, lr, .done (kernelExecute sha256Hex now now (s.tokens ref) lr s).1⟩,
        (kernelExecute sha256Hex now now (s.tokens ref) lr s).2) := by
  simp only [Thread.soloRun, List.replicate, List.foldl_cons, List.foldl_nil]
  unfold kernelExecute
  rcases hr : (s.tokens ref).revokedAt with _ | t
  · rcases hg : s.adapterRegistry.adapters.lookup "mock_adapter" with _ | a
    · simp [Thread.step, hr, hg, Registry.get, Registry.invoke, Except.map, Except.mapError]
    · rcases hv : a.verifyToken (some (s.tokens ref)) s.postureLevel now with e | ⟨⟩
      · simp [Thread.step, hr, hg, hv, Registry.get, Registry.invoke, Except.map, Except.mapError]
      · simp [Thread.step, hr, hg, hv, Registry.get, Registry.invoke, MockAdapter.invoke,
          Except.mapError, Except.map]
  · simp [Thread.step, hr]

@[simp] theorem Thread.step_tokens (now : Int) (th : Thread) (s : SystemState) :
    (th.step sha256Hex now s).2.tokens = s.tokens := by
  unfold Thread.step
  dsimp only
  split <;> (repeat' split) <;> rfl

@[simp] theorem Thread.step_token (now : Int) (th : Thread) (s : SystemState) :
    (th.step sha256Hex now s).1.token = th.token := by
  unfold Thread.step
  dsimp only
  split <;> (repeat' split) <;> rfl

theorem Thread.step_registry {now : Int} {th : Thread} {s : SystemState} (hpc : th.pc ≠ .invoke) :
    (th.step sha256Hex now s).2.adapterRegistry = s.adapterRegistry := by
  rcases th with ⟨ref, lr, pc⟩
  cases pc
  case invoke => exact absurd rfl hpc
  all_goals (unfold Thread.step; dsimp only) <;> (repeat' split) <;> rfl

theorem Thread.step_ne_invoke {now : Int} {th : Thread} {s : SystemState}
    (hrev : (s.tokens th.token).revokedAt.isSome) (hpc : th.pc ≠ .invoke) :
    (th.step sha256Hex now s).1.pc ≠ .invoke := by
  unfold Thread.step
  dsimp only
  split
  · split <;> simp
  · split <;> simp
  · split
    · simp
    · split
      · simp
      · rename_i h
        obtain ⟨t, ht, hv, -⟩ := (MockAdapter.verifyToken_eq_ok_iff ..).mp h
        cases ht
        simp [((Token.verify_eq_ok_iff ..).mp hv).1] at hrev
  · exact absurd ‹_› hpc
  · simp
  · exact hpc

theorem revoke_update_revokedAt_isSome (tokens : Nat → Token) (ref' : Nat) (now : Int) {ref : Nat}
    (h : (tokens ref).revokedAt.isSome) :
    (Function.update tokens ref' ((tokens ref').revoke now) ref).revokedAt.isSome := by
  by_cases hr : ref = ref'
  · subst hr; simp [Token.revoke]
  · rwa [Function.update_noteq hr]

theorem World.step_thread_registry {w : World} {i : Nat} {th : Thread}
    (h : w.threads[i]? = some th) (hpc : th.pc ≠ .invoke) (now : Int) :
    (w.step sha256Hex (.thread i now)).state.adapterRegistry = w.state.adapterRegistry := by
  simp only [World.step, h]
  exact Thread.step_registry sha256Hex hpc

/-- Thread `i` holds token `ref`, which is revoked, and does not stand at `Invoke`. -/
def Preempted (w : World) (i ref : Nat) : Prop :=
  (w.state.tokens ref).revokedAt.isSome ∧
    ∀ th, w.threads[i]? = some th → th.token = ref ∧ th.pc ≠ .invoke

theorem Preempted.step {w : World} {i ref : Nat} (h : Preempted w i ref) (a : Action) :
    Preempted (w.step sha256Hex a) i ref := by
  obtain ⟨hrev, hth⟩ := h
  cases a with
  | thread j now =>
    dsimp only [World.step]
    rcases hj : w.threads[j]? with _ | thj
    · exact ⟨hrev, hth⟩
    refine ⟨by simpa using hrev, fun th h' => ?_⟩
    by_cases hji : j = i
    · subst hji
      have hlt : j < w.threads.length := (List.getElem?_eq_some_iff.mp hj).1
      obtain ⟨hr, hp⟩ := hth thj hj
      rw [List.getElem?_set_self hlt, Option.some.injEq] at h'
      subst h'
      exact ⟨by rw [Thread.step_token, hr], Thread.step_ne_invoke sha256Hex (hr ▸ hrev) hp⟩
    · rw [List.getElem?_set_ne hji] at h'
      exact hth th h'
  | stopBegin =>
    simp only [World.step]
    split <;> exact ⟨hrev, hth⟩
  | stopRevoke j now =>
    simp only [World.step]
    split
    · split
      · exact ⟨revoke_update_revokedAt_isSome _ _ _ hrev, hth⟩
      · exact ⟨hrev, hth⟩
    · exact ⟨hrev, hth⟩
  | stopEnd now =>
    simp only [World.step]
    split <;> exact ⟨hrev, hth⟩

theorem Preempted.run {w : World} {i ref : Nat} (h : Preempted w i ref) (as : List Action) :
    Preempted (w.run sha256Hex as) i ref := by
  induction as generalizing w with
  | nil => exact h
  | cons a as ih => exact ih (h.step sha256Hex a)

/-- STOP preempts every thread that has not passed `VerifyToken` when the loop
of `RevokeAllTokens` revokes its token: if thread `i` does not stand at the
adapter's `Invoke` at that step, then after any interleaving that follows it
still does not stand there, and its next step leaves every adapter's
invocations as they are. -/
theorem stop_preempts_unverified_thread (w : World) (now : Int) {i j : Nat} {th : Thread}
    {refs : List Nat} (hth : w.threads[i]? = some th) (hpc : th.pc ≠ .invoke)
    (hstop : w.stopping = some refs) (hj : refs[j]? = some th.token) (as : List Action) :
    ∀ th', ((w.step sha256Hex (.stopRevoke j now)).run sha256Hex as).threads[i]? = some th' →
      th'.pc ≠ .invoke ∧ ∀ now',
        (((w.step sha256Hex (.stopRevoke j now)).run sha256Hex as).step sha256Hex (.thread i now')).state.adapterRegistry =
          ((w.step sha256Hex (.stopRevoke j now)).run sha256Hex as).state.adapterRegistry := by
  have h₀ : Preempted (w.step sha256Hex (.stopRevoke j now)) i th.token := by
    refine ⟨by simp [World.step, hstop, hj, Token.revoke], fun th' h' => ?_⟩
    simp only [World.step, hstop, hj] at h'
    obtain rfl : th' = th := Option.some.inj (h'.symm.trans hth)
    exact ⟨rfl, hpc⟩
  intro th' h'
  have hp := ((h₀.run sha256Hex as).2 th' h').2
  exact ⟨hp, World.step_thread_registry sha256Hex h' hp⟩

theorem run_stopRevoke_all (now : Int) (s : SystemState) (ths : List Thread) (refs : List Nat) :
    World.run sha256Hex ⟨s, ths, some refs⟩ (List.replicate refs.length (.stopRevoke 0 now)) =
      ⟨{ s with tokens := SystemState.revokeEach s.tokens now refs }, ths, some []⟩ := by
  induction refs generalizing s with
  | nil => rfl
  | cons r rs ih =>
    have hstep : World.step sha256Hex ⟨s, ths, some (r :: rs)⟩ (.stopRevoke 0 now) =
        ⟨{ s with tokens := Function.update s.tokens r ((s.tokens r).revoke now) }, ths, some rs⟩ := by
      simp only [World.step, List.getElem?_cons_zero, List.eraseIdx_cons_zero]
    rw [List.length_cons, List.replicate_succ, World.run, List.foldl_cons, hstep]
    exact ih _

/-- `RevokeAllTokens` run with no other step between its steps, each
`token.Revoke()` reading the clock at `now`, computes the sequential
`RevokeAllTokens` at `now`. -/
theorem run_stopActions (w : World) (now : Int) (h : w.stopping = none) :
    w.run sha256Hex (stopActions w.state now) = { w with state := w.state.revokeAllTokens sha256Hex now } := by
  obtain ⟨s, ths, _⟩ := w
  cases h
  have hlen : s.activeCapabilityTokens.entries.length = (s.activeCapabilityTokens.entries.map Sigma.snd).length :=
    (List.length_map _ _).symm
  rw [stopActions, World.run, List.foldl_append, List.foldl_cons, hlen]
  exact congrArg (World.step sha256Hex · (.stopEnd now)) (run_stopRevoke_all sha256Hex now s ths _)

theorem revokeEach_digest (tokens : Nat → Token) (now : Int) (refs : List Nat) (ref : Nat) :
    (SystemState.revokeEach tokens now refs ref).digest = (tokens ref).digest := by
  induction refs generalizing tokens with
  | nil => rfl
  | cons r rs ih =>
    rw [SystemState.revokeEach_cons, ih]
    by_cases h : ref = r
    · subst h
      simp
    · rw [Function.update_noteq h]

@[simp] theorem revokeAllTokens_adapterRegistry (s : SystemState) (now : Int) :
    (s.revokeAllTokens sha256Hex now).adapterRegistry = s.adapterRegistry := rfl

@[simp] theorem revokeAllTokens_digest (s : SystemState) (now : Int) (ref : Nat) :
    ((s.revokeAllTokens sha256Hex now).tokens ref).digest = (s.tokens ref).digest :=
  revokeEach_digest _ _ _ ref

/-- For every state in which the mock adapter is registered and a thread's
token, one the map points to, passes `VerifyToken`: if `RevokeAllTokens` runs
after the thread's `VerifyToken` and before its `Invoke`, the token is in the
map and revoked when STOP returns, and the thread's next step still records an
invocation carrying the token's digest. -/
theorem stop_between_verify_and_invoke (s : SystemState) (ref : Nat) (lr : LabeledRequest)
    (a : MockAdapter) (c tVerify tStop tInvoke : Int) {d : String}
    (hreg : s.adapterRegistry.adapters.lookup "mock_adapter" = some a)
    (hactive : s.activeCapabilityTokens.lookup d = some ref)
    (hver : a.verifyToken (some (s.tokens ref)) s.postureLevel tVerify = .ok ()) :
    let w := World.run sha256Hex ⟨s, [⟨ref, lr, .checkRevoked⟩], none⟩
      ([.thread 0 c, .thread 0 c, .thread 0 tVerify] ++ stopActions s tStop)
    w.state.activeCapabilityTokens.lookup d = some ref ∧
    (w.state.tokens ref).revokedAt = some tStop ∧
    (w.step sha256Hex (.thread 0 tInvoke)).state.adapterRegistry.invocationsOf "mock_adapter" =
      w.state.adapterRegistry.invocationsOf "mock_adapter" ++
        [⟨(s.tokens ref).digest, [("input", .str lr.sanitizedInput)], a.result⟩] := by
  intro w
  have hrev : (s.tokens ref).revokedAt = none := by
    obtain ⟨t, ht, hv, -⟩ := (MockAdapter.verifyToken_eq_ok_iff ..).mp hver
    cases ht
    exact ((Token.verify_eq_ok_iff ..).mp hv).1
  have hverified : World.run sha256Hex ⟨s, [⟨ref, lr, .checkRevoked⟩], none⟩
      [.thread 0 c, .thread 0 c, .thread 0 tVerify] = ⟨s, [⟨ref, lr, .invoke⟩], none⟩ := by
    simp [World.run, World.step, Thread.step, hrev, Registry.get, hreg, hver]
  have hw : w = ⟨s.revokeAllTokens sha256Hex tStop, [⟨ref, lr, .invoke⟩], none⟩ := by
    show List.foldl _ _ (_ ++ _) = _
    rw [List.foldl_append]
    exact (congrArg (World.run sha256Hex · (stopActions s tStop)) hverified).trans
      (run_stopActions sha256Hex ⟨s, [⟨ref, lr, .invoke⟩], none⟩ tStop rfl)
  rw [hw]
  refine ⟨hactive, SystemState.revokeAllTokens_revokes_active sha256Hex _ _ hactive, ?_⟩
  have hname : a.name = "mock_adapter" := s.adapterRegistry.named _ a hreg
  simp [World.step, Thread.step, Registry.get, hreg, MockAdapter.invoke, Registry.invocationsOf,
    Registry.lookup_put, hname]

end

/-- A new system state with the mock adapter registered and a token minted for
an `ALLOW` decision stored at address 0 and added to the map: the state
`Execute` leaves when its goroutine enters `kernelExecute`. -/
def raceState (sha256Hex : String → String) : SystemState :=
  let s := newSystemState sha256Hex "test_principal" "test_namespace" 0
  let s := { s with adapterRegistry := s.adapterRegistry.put (newMockAdapter "mock_adapter") }
  (s.alloc (mintToken sha256Hex 0 ⟨.ALLOW, "", [], Posture.P1⟩ s)).addToken sha256Hex 0 0

/-- A clean request's goroutine on `raceState`. -/
def raceThread : Thread := ⟨0, ⟨"hello", "hello", ["clean"], "LOW", "hello", none⟩, .checkRevoked⟩

/-- STOP at clock value 2, after the goroutine's `VerifyToken` at 1. -/
theorem stop_between_verify_and_invoke_fresh :
    let w := World.run (fun x => x) ⟨raceState (fun x => x), [raceThread], none⟩
      ([.thread 0 1, .thread 0 1, .thread 0 1] ++ stopActions (raceState (fun x => x)) 2)
    w.state.activeCapabilityTokens.lookup ((raceState (fun x => x)).tokens 0).digest = some 0 ∧
    (w.state.tokens 0).revokedAt = some 2 ∧
    (w.step (fun x => x) (.thread 0 3)).state.adapterRegistry.invocationsOf "mock_adapter" =
      w.state.adapterRegistry.invocationsOf "mock_adapter" ++
        [⟨((raceState (fun x => x)).tokens 0).digest, [("input", .str "hello")],
          (newMockAdapter "mock_adapter").result⟩] :=
  stop_between_verify_and_invoke _ _ _ _ _ _ _ _ _ rfl rfl rfl

/-- STOP takes the lock while the goroutine on `raceState` stands at its
revocation check, and revokes its token at clock value 2; two steps of the
goroutine and STOP's return follow. -/
theorem stop_preempts_unverified_thread_fresh :
    let w : World := (World.mk (raceState (fun x => x)) [raceThread] none).step (fun x => x) .stopBegin
    let w' := (w.step (fun x => x) (.stopRevoke 0 2)).run (fun x => x) [.thread 0 3, .thread 0 3, .stopEnd 2]
    (raceThread.pc ≠ .invoke ∧ w.stopping = some [raceThread.token]) ∧
    ∀ th', w'.threads[0]? = some th' → th'.pc ≠ .invoke ∧ ∀ now',
      (w'.step (fun x => x) (.thread 0 now')).state.adapterRegistry = w'.state.adapterRegistry :=
  ⟨⟨Pc.noConfusion, rfl⟩, @stop_preempts_unverified_thread (fun x => x)
    ((World.mk (raceState (fun x => x)) [raceThread] none).step (fun x => x) .stopBegin) 2 0 0 raceThread [0]
    rfl Pc.noConfusion rfl rfl _⟩

/-- With no other step between them, STOP's steps on `raceState` revoke its one token. -/
theorem run_stopActions_raceState :
    let w : World := ⟨raceState (fun x => x), [raceThread], none⟩
    w.stopping = none ∧ (w.run (fun x => x) (stopActions w.state 2)).state.tokens 0 = ((raceState (fun x => x)).tokens 0).revoke 2 ∧
      w.run (fun x => x) (stopActions w.state 2) = { w with state := w.state.revokeAllTokens (fun x => x) 2 } :=
  ⟨rfl, rfl, run_stopActions (fun x => x) _ 2 rfl⟩

end OI
