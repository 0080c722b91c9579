import OiCorridor.Spec.Kernel

/-! What the callers of `package kernel` do to one `SystemState`, one call at a
time: `Token.Revoke` on a token they hold, `SystemState.RevokeAllTokens`,
`AddToken` of a token they minted, `Execute`, and `Token.Verify`, which reads
the token and writes nothing. A token is held by its address in `tokens`. An
`Execute` that panics does so in `cif.Ingress`, before its first write, so the
state after it is the state before. -/

set_option autoImplicit false

namespace OI

/-- One call on the system state, with the clock values it reads. -/
inductive KernelCall where
  /-- `token.Revoke()` on the token at address `ref` -/
  | revoke (ref : Nat) (now : Int)
  | revokeAll (now : Int)
  /-- `s.AddToken(token)` of a token the caller minted -/
  | addToken (t : Token) (now : Int)
  | execute (clock : Nat → Int) (req : Request)
  /-- `token.Verify(currentPosture)` on the token at address `ref` -/
  | verify (ref : Nat) (currentPosture now : Int)

namespace KernelCall

variable (sha256Hex : String → String)

/-- The state after one call. -/
def apply (s : SystemState) : KernelCall → SystemState
  | .revoke ref now => { s with tokens := Function.update s.tokens ref ((s.tokens ref).revoke now) }
  | .revokeAll now => s.revokeAllTokens sha256Hex now
  | .addToken t now => (s.alloc t).addToken sha256Hex now s.nextToken
  | .execute clock req => ((OI.execute sha256Hex clock req s).map ExecOutcome.state).getD s
  | .verify _ _ _ => s

/-- The state after a sequence of calls. -/
def run (s : SystemState) (cs : List KernelCall) : SystemState := cs.foldl (apply sha256Hex) s

/-- The clock value a revoking call writes into `RevokedAt`. -/
def stopTime : KernelCall → Option Int
  | .revoke _ now | .revokeAll now => some now
  | _ => none

end KernelCall

end OI
