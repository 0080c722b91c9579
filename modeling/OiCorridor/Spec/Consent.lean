import OiCorridor.Spec.Gateway

/-! The gateway's consent and capability checks. A token is signed with Ed25519
by one of the app's two key boxes; the signature check is modelled as accepting
exactly the payloads that box signed, so a presented token is the payload it
decodes to, and each box is the list of payloads it signed. A payload is held as
the values the checks read of it (`asInt`, `asString`, the `exp` number and the
strings of the `scopes` list). The clock is in epoch seconds. -/

set_option autoImplicit false

namespace OI.Flourish

/-- The exceptions the consent, capability and tool checks throw. -/
inductive GatewayError where
  /-- `CDI: missing consent token` -/
  | missingConsentToken
  /-- `bad token`, or the exception of the Base64 decoder -/
  | badToken
  /-- `sig invalid` -/
  | sigInvalid
  /-- `token expired` -/
  | tokenExpired
  /-- `consent bad version` -/
  | consentBadVersion
  /-- `consent bad aud` -/
  | consentBadAud
  /-- `consent replay or missing nonce` -/
  | consentReplay
  /-- `consent act_hash mismatch` -/
  | actHashMismatch
  /-- `missing cap token` -/
  | missingCapToken
  /-- `cap bad version` -/
  | capBadVersion
  /-- `cap bad aud` -/
  | capBadAud
  /-- `cap scopes missing` -/
  | capScopesMissing
  /-- `missing scope ` followed by the wanted scope -/
  | missingScope (want : String)
  /-- `CDI: missing tool` -/
  | missingTool
  /-- `CDI: tool not allowed by policy` -/
  | toolNotAllowed
  /-- `CDI: network tools disabled` -/
  | networkToolsDisabled
  /-- `net/http_get disabled` -/
  | httpGetDisabled
  /-- `unknown tool` -/
  | unknownTool
  deriving DecidableEq, Repr

/-- A signed payload as the checks read it: `asInt(p.get("v"), -1)`,
`asString(p.get("aud"))`, the `exp` number, `asString` of `nonce` and
`act_hash`, and the strings of `scopes` when it is a list. -/
structure Payload where
  v : Int
  aud : Option String
  exp : Int
  nonce : Option String
  actHash : Option String
  scopes : Option (List String)
  deriving DecidableEq, Repr

/-- A token string as the checks see it: `null` or blank, one that does not
split into two Base64 parts, or the payload it decodes to. -/
inductive Presented where
  | missing
  | malformed
  | payload (p : Payload)
  deriving DecidableEq, Repr

/-- The payload `mintConsent(box, aud, ttlSec, nonce, actHash)` signs at clock
value `now`. -/
def mintConsent (aud : String) (ttlSec : Int) (nonce actHash : String) (now : Int) : Payload :=
  ⟨1, some aud, now + ttlSec, some nonce, some actHash, none⟩

/-- The payload `devCapMint` signs for `scopes` at clock value `now`. -/
def mintCap (cfg : Config) (scopes : List String) (now : Int) : Payload :=
  ⟨1, some cfg.capAudience, now + cfg.capTtlSeconds, none, none, some scopes⟩

/-- `verifySignedToken(box, token)` at clock value `now`, where `signed` are the
payloads `box` signed. A signed payload is a JSON object with an `exp`, so the
`payload not object` and `missing exp` branches are not reached. -/
def verifySignedToken (signed : List Payload) (token : Presented) (now : Int) :
    Except GatewayError Payload :=
  match token with
  | .payload p =>
    if p ∈ signed then (if now > p.exp then .error .tokenExpired else .ok p) else .error .sigInvalid
  | _ => .error .badToken

/-- `NonceCache.seen`: each nonce with the epoch second it was stored at. -/
abbrev NonceCache := List (String × Int)

namespace NonceCache

/-- `cleanup(now)`: drops the entries older than `ttlSec`. -/
def cleanup (ttlSec now : Int) (seen : NonceCache) : NonceCache :=
  seen.filter fun e => !(now - e.2 > ttlSec)

/-- One `seen.remove(e.getKey(), e.getValue())` of `cleanup(now)`: drops the
entry for `nonce` when it is older than `ttlSec`. -/
def evict (ttlSec now : Int) (nonce : String) (seen : NonceCache) : NonceCache :=
  seen.filter fun e => !(e.1 = nonce ∧ now - e.2 > ttlSec)

/-- `seen.putIfAbsent(nonce, now) == null`. -/
def putIfAbsent (seen : NonceCache) (nonce : String) (now : Int) : Bool × NonceCache :=
  if seen.any (·.1 = nonce) then (false, seen) else (true, seen ++ [(nonce, now)])

/-- `checkAndStore(nonce)` at clock value `now`, run alone. -/
def checkAndStore (ttlSec : Int) (seen : NonceCache) (nonce : Option String) (now : Int) :
    Bool × NonceCache :=
  match nonce with
  | none => (false, seen)
  | some n => if isBlank n then (false, seen) else putIfAbsent (cleanup ttlSec now seen) n now

end NonceCache

/-- `verifyConsent` up to the nonce: the token is present, `verifySignedToken`
accepts it at clock value `now`, its version is 1 and its audience the
configured one. `none` when `requireConsent` is off, where the check returns at
once. -/
def verifyConsentToken (cfg : Config) (signed : List Payload) (consentToken : Presented)
    (now : Int) : Except GatewayError (Option Payload) :=
  if !cfg.requireConsent then .ok none
  else
    match consentToken with
    | .missing => .error .missingConsentToken
    | token =>
      match verifySignedToken signed token now with
      | .error e => .error e
      | .ok p =>
        if p.v ≠ 1 then .error .consentBadVersion
        else if p.aud ≠ some cfg.consentAudience then .error .consentBadAud
        else .ok (some p)

/-- The rest of `verifyConsent`, at clock value `now`: `checkAndStore` of the
payload's nonce, then the comparison of its `act_hash`. -/
def verifyConsentNonce (cfg : Config) (seen : NonceCache) (p : Payload) (expectedActHash : String)
    (now : Int) : Except GatewayError Unit × NonceCache :=
  let (fresh, seen) := seen.checkAndStore cfg.nonceTtlSeconds p.nonce now
  if !fresh then (.error .consentReplay, seen)
  else if p.actHash = some expectedActHash then (.ok (), seen)
  else (.error .actHashMismatch, seen)

/-- `verifyConsent(consentToken, expectedActHash)`, whose `verifySignedToken`
reads the clock at `checkedAt` and whose `checkAndStore` reads it at `storedAt`. -/
def verifyConsent (cfg : Config) (signed : List Payload) (seen : NonceCache)
    (consentToken : Presented) (expectedActHash : String) (checkedAt storedAt : Int) :
    Except GatewayError Unit × NonceCache :=
  match verifyConsentToken cfg signed consentToken checkedAt with
  | .error e => (.error e, seen)
  | .ok none => (.ok (), seen)
  | .ok (some p) => verifyConsentNonce cfg seen p expectedActHash storedAt

/-- `verifyCap(capToken, tool)` at clock value `now`. -/
def verifyCap (cfg : Config) (signed : List Payload) (capToken : Presented) (tool : String)
    (now : Int) : Except GatewayError Unit :=
  if !cfg.requireCapabilityForTools || !cfg.failClosed then .ok ()
  else
    match capToken with
    | .missing => .error .missingCapToken
    | token =>
      match verifySignedToken signed token now with
      | .error e => .error e
      | .ok p =>
        if p.v ≠ 1 then .error .capBadVersion
        else if p.aud ≠ some cfg.capAudience then .error .capBadAud
        else
          match p.scopes with
          | none => .error .capScopesMissing
          | some scopes =>
            if "tool:" ++ tool ∈ scopes then .ok () else .error (.missingScope ("tool:" ++ tool))

namespace CDI

/-- `toolsLower`, built by the constructor: the allowed tools, lowered. -/
def toolsLower (cfg : Config) : List String := cfg.allowTools.map toLowerCase

/-- `checkToolAllowed(tool)`: the refusal, `none` when the tool is allowed. -/
def checkToolAllowed (cfg : Config) (tool : Option String) : Option GatewayError :=
  match tool with
  | none => some .missingTool
  | some tool =>
    if isBlank tool then some .missingTool
    else
      let t := toLowerCase tool
      if t ∉ toolsLower cfg then some .toolNotAllowed
      else if startsWith t "net/" ∧ !cfg.allowNetworkTools then some .networkToolsDisabled
      else none

end CDI

/-- What `Tools.run` returns: `echo` of the arguments, or the time at `now`. -/
inductive ToolResult where
  | echo (args : List (String × String))
  | utc (now : Int)
  deriving DecidableEq, Repr

/-- `Tools.run(tool, args)` at clock value `now`. -/
def Tools.run (tool : String) (args : List (String × String)) (now : Int) :
    Except GatewayError ToolResult :=
  if tool = "echo" then .ok (.echo args)
  else if tool = "time" then .ok (.utc now)
  else if tool = "net/http_get" then .error .httpGetDisabled
  else .error .unknownTool

end OI.Flourish
