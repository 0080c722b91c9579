import OiCorridor.Spec.Go

/-! `package capabilities`: the token record, `Mint`, `computeDigest`,
`Verify`, `Revoke` and `HasScope`. Every function that reads `time.Now()`
takes the clock value as `now`; `sha256Hex` is SHA-256 followed by hex
encoding, left abstract. -/

set_option autoImplicit false

namespace OI

structure Limits where
  maxDepth : Int
  maxBudget : Int
  workspaceBounds : List String
  deriving DecidableEq, Repr, Inhabited

structure PostureBounds where
  minPosture : Int
  maxPosture : Int
  deriving DecidableEq, Repr, Inhabited

/-- `capabilities.Token`. -/
structure Token where
  issuer : String
  subject : String
  audience : String
  scope : List String
  limits : Limits
  ttl : Int
  issuedAt : Int
  expiresAt : Int
  postureBounds : PostureBounds
  namespaceID : String
  principalID : String
  digest : String
  revokedAt : Option Int
  deriving DecidableEq, Repr, Inhabited

/-- `%v` of a `Limits` struct, such as `{10 1000 []}`. -/
def Limits.fmt (l : Limits) : String :=
  "\x7b" ++ toString l.maxDepth ++ " " ++ toString l.maxBudget ++ " " ++
    fmtStrings l.workspaceBounds ++ "\x7d"

/-- Why `Token.Verify` fails, one constructor per `fmt.Errorf`. -/
inductive VerifyError where
  /-- `token revoked at %v` -/
  | revoked (time : Int)
  /-- `token expired at %v` -/
  | expired (time : Int)
  /-- `current posture %d below minimum %d` -/
  | belowMinimum (current minimum : Int)
  /-- `current posture %d above maximum %d` -/
  | aboveMaximum (current maximum : Int)
  deriving DecidableEq, Repr

namespace Token

variable (sha256Hex : String → String)

/-- The `fmt.Sprintf("%s|%s|%s|%v|%v|%v|%v|%s|%s", ...)` text `computeDigest` hashes. -/
def digestInput (t : Token) : String :=
  t.issuer ++ "|" ++ t.subject ++ "|" ++ t.audience ++ "|" ++ fmtStrings t.scope ++ "|" ++
    t.limits.fmt ++ "|" ++ toString (unixSeconds t.issuedAt) ++ "|" ++ toString (unixSeconds t.expiresAt) ++ "|" ++
    t.namespaceID ++ "|" ++ t.principalID

def computeDigest (t : Token) : String := sha256Hex t.digestInput

/-- `Token.Verify(currentPosture)` at clock value `now`. -/
def verify (t : Token) (currentPosture : Int) (now : Int) : Except VerifyError Unit :=
  match t.revokedAt with
  | some r => .error (.revoked r)
  | none =>
    if now > t.expiresAt then .error (.expired t.expiresAt)
    else if currentPosture < t.postureBounds.minPosture then
      .error (.belowMinimum currentPosture t.postureBounds.minPosture)
    else if currentPosture > t.postureBounds.maxPosture then
      .error (.aboveMaximum currentPosture t.postureBounds.maxPosture)
    else .ok ()

/-- `Token.Revoke()` at clock value `now`. -/
def revoke (t : Token) (now : Int) : Token := { t with revokedAt := some now }

/-- `Token.HasScope(operation)`. -/
def hasScope (t : Token) (operation : String) : Bool := t.scope.contains operation

@[simp] theorem revoke_revokedAt (t : Token) (now : Int) : (t.revoke now).revokedAt = some now := rfl
@[simp] theorem revoke_digest (t : Token) (now : Int) : (t.revoke now).digest = t.digest := rfl

@[simp] theorem hasScope_iff (t : Token) (operation : String) :
    t.hasScope operation = true ↔ operation ∈ t.scope := by
  simp [hasScope]

@[simp] theorem hasScope_eq_false_iff (t : Token) (operation : String) :
    t.hasScope operation = false ↔ operation ∉ t.scope := by
  simp [hasScope]

theorem verify_eq_ok_iff (t : Token) (p : Int) (now : Int) :
    t.verify p now = .ok () ↔ t.revokedAt = none ∧ now ≤ t.expiresAt ∧
      t.postureBounds.minPosture ≤ p ∧ p ≤ t.postureBounds.maxPosture := by
  unfold verify
  rcases t.revokedAt with _ | r
  · simp only [true_and]
    split_ifs <;> simp <;> omega
  · simp

theorem verify_revoke (t : Token) (now p : Int) (later : Int) :
    (t.revoke now).verify p later = .error (.revoked now) := rfl

end Token

/-- `capabilities.Mint`, at clock value `now`. It never fails. -/
def mint (sha256Hex : String → String) (now : Int) (issuer subject audience : String)
    (scope : List String) (limits : Limits) (ttl : Int) (postureBounds : PostureBounds)
    (namespaceID principalID : String) : Token :=
  let token : Token :=
    { issuer, subject, audience, scope, limits, ttl, issuedAt := now, expiresAt := now + ttl,
      postureBounds, namespaceID, principalID, digest := "", revokedAt := none }
  { token with digest := token.computeDigest sha256Hex }

@[simp] theorem mint_revokedAt (sha256Hex : String → String) (now : Int) (i s a : String)
    (scope : List String) (l : Limits) (ttl : Int) (pb : PostureBounds) (ns pr : String) :
    (mint sha256Hex now i s a scope l ttl pb ns pr).revokedAt = none := rfl

end OI
