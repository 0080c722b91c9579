import OiCorridor.Spec.Kernel

/-! `kernelExecute` and `RevokeAllTokens` as their Go code runs next to other
goroutines. Neither `kernelExecute` nor `Registry.Invoke` holds
`SystemState.mu`, and the token is a pointer, so a thread reads the token object
again at each of its steps: the revocation check; the registry lookup, which
also reads `PostureLevel` as the argument of `Registry.Invoke`; `VerifyToken`;
the adapter's `Invoke`; and the `adapter_attempt` receipt before the return.
`RevokeAllTokens` holds `SystemState.mu`, which no thread step takes: the lock
keeps a second STOP and `AddToken` out, but the loop's `token.Revoke()` calls
interleave with the threads' steps, one token at a time, in the order Go's map
iteration picks, each reading the clock. The adapter pointer `Get` returns is
the registry's entry, which no step removes, so a thread reads the entry again
where it uses it. -/

set_option autoImplicit false

namespace OI

/-- Where a thread running `kernelExecute` stands. -/
inductive Pc where
  /-- `if token.RevokedAt != nil` -/
  | checkRevoked
  /-- `r.Get(adapterName)`, called with `state.PostureLevel` -/
  | lookup
  /-- `adapter.VerifyToken(token, currentPosture)` -/
  | verify (currentPosture : Int)
  /-- `adapter.Invoke(token, params)` -/
  | invoke
  /-- `AppendAdapterAttempt(adapterName, accepted, token.Digest)` and the return -/
  | attempt (result : Except RegistryError GoMap)
  /-- returned `result` -/
  | done (result : Except KernelError String)

/-- A goroutine in `kernelExecute`: the address of its token, its request and
where it stands. -/
structure Thread where
  token : Nat
  request : LabeledRequest
  pc : Pc

/-- A system state, the goroutines running `kernelExecute` on it, and the
addresses a running `RevokeAllTokens` has still to revoke. -/
structure World where
  state : SystemState
  threads : List Thread
  stopping : Option (List Nat)

/-- An atomic step: one step of the `i`-th thread, or one step of `RevokeAllTokens`. -/
inductive Action where
  | thread (i : Nat) (now : Int)
  /-- `s.mu.Lock()` and the start of the loop over `ActiveCapabilityTokens` -/
  | stopBegin
  /-- `token.Revoke()` of the `j`-th token the loop has still to reach, reading the clock at `now` -/
  | stopRevoke (j : Nat) (now : Int)
  /-- `AppendStopEvent(len(s.ActiveCapabilityTokens))` and the unlock -/
  | stopEnd (now : Int)

section
variable (sha256Hex : String → String)

/-- One step of a thread at clock value `now`. -/
def Thread.step (now : Int) (th : Thread) (s : SystemState) : Thread × SystemState :=
  let token := s.tokens th.token
  let adapterName := "mock_adapter"
  match th.pc with
  | .checkRevoked =>
    if token.revokedAt.isSome then ({ th with pc := .done (.error .revoked) }, s)
    else ({ th with pc := .lookup }, s)
  | .lookup =>
    match s.adapterRegistry.get adapterName with
    | .error e => ({ th with pc := .attempt (.error e) }, s)
    | .ok _ => ({ th with pc := .verify s.postureLevel }, s)
  | .verify currentPosture =>
    match s.adapterRegistry.get adapterName with
    | .error e => ({ th with pc := .attempt (.error e) }, s)
    | .ok a =>
      match a.verifyToken (some token) currentPosture now with
      | .error e => ({ th with pc := .attempt (.error (.verification e)) }, s)
      | .ok () => ({ th with pc := .invoke }, s)
  | .invoke =>
    match s.adapterRegistry.get adapterName with
    | .error e => ({ th with pc := .attempt (.error e) }, s)
    | .ok a =>
      let (res, a') := a.invoke (some token) [("input", .str th.request.sanitizedInput)]
      ({ th with pc := .attempt (res.mapError .adapter) },
        { s with adapterRegistry := s.adapterRegistry.put a' })
  | .attempt res =>
    let accepted := match res with
      | .ok _ => true
      | .error _ => false
    ({ th with pc := .done ((res.map resultMessage).mapError .registry) },
      { s with auditLedger :=
          s.auditLedger.appendAdapterAttempt sha256Hex now adapterName accepted token.digest })
  | .done _ => (th, s)

/-- A thread's steps at the clock values `times`, with no other step between them. -/
def Thread.soloRun (times : List Int) (th : Thread) (s : SystemState) : Thread × SystemState :=
  times.foldl (fun p now => p.1.step sha256Hex now p.2) (th, s)

/-- The world after the atomic step `a`; a STOP that finds the lock held waits. -/
def World.step (w : World) : Action → World
  | .thread i now =>
    match w.threads[i]? with
    | none => w
    | some th =>
      let (th', s) := th.step sha256Hex now w.state
      { w with state := s, threads := w.threads.set i th' }
  | .stopBegin =>
    match w.stopping with
    | none => { w with stopping := some (w.state.activeCapabilityTokens.entries.map Sigma.snd) }
    | some _ => w
  | .stopRevoke j now =>
    match w.stopping with
    | some refs =>
      match refs[j]? with
      | some ref =>
        { w with state := { w.state with
                   tokens := Function.update w.state.tokens ref ((w.state.tokens ref).revoke now) },
                 stopping := some (refs.eraseIdx j) }
      | none => w
    | none => w
  | .stopEnd now =>
    match w.stopping with
    | some [] =>
      let ledger := w.state.auditLedger.appendStopEvent sha256Hex now w.state.activeCapabilityTokens.entries.length
      { w with state := { w.state with auditLedger := ledger }, stopping := none }
    | _ => w

/-- The world after the atomic steps `as`, in order. -/
def World.run (w : World) (as : List Action) : World := as.foldl (World.step sha256Hex) w

/-- The steps of one `RevokeAllTokens` on `s` with no other step between them,
the loop taking the tokens in the map's order and reading the clock at `now`. -/
def stopActions (s : SystemState) (now : Int) : List Action :=
  .stopBegin :: List.replicate s.activeCapabilityTokens.entries.length (.stopRevoke 0 now) ++ [.stopEnd now]

end

end OI
