import OiCorridor.Spec.Consent

/-! The `/v1/ask` and `/v1/tool/run` handlers as threads of the HTTP server's
pool, sharing the nonce cache and the key boxes. A thread's steps are atomic,
each at the clock value it reads: the checks up to `verifySignedToken` and the
audience (after `checkToolAllowed` on `/v1/tool/run`); the nonce's blank check
and the clock read of `checkAndStore`; `putIfAbsent`, with the act_hash
comparison after it; and what follows `verifyConsent`. Between the clock read
and `putIfAbsent` the thread runs `cleanup`, whose removals are actions of their
own: each drops one entry older than the TTL at the thread's clock read, in any
order and interleaved with every other thread, which covers every traversal of
the `ConcurrentHashMap`. Before its first step a handler has read the body: the
tokens, the tool and its arguments, and the hash of the canonical action, which
a thread carries. The rate limiter and `audit.canPersist` can only refuse a
request earlier and are left out. -/

set_option autoImplicit false

namespace OI.Flourish

/-- The route of a request and what its handler read for it from the body. -/
inductive Route where
  | ask
  | toolRun (tool : Option String) (capToken : Presented) (args : List (String × String))
  deriving DecidableEq, Repr

/-- A pass through `checkAndStore`: the payload, and the clock values at which
`verifySignedToken` and `checkAndStore` read the clock. -/
structure Consent where
  payload : Payload
  checkedAt : Int
  storedAt : Int
  deriving DecidableEq, Repr

/-- How far a request's handler has got. -/
inductive Stage where
  | start
  /-- the consent token passed the checks up to the audience at `checkedAt` -/
  | checked (p : Payload) (checkedAt : Int)
  /-- in `checkAndStore` of the non-blank nonce `n`, which read the clock at `storedAt` -/
  | storing (p : Payload) (n : String) (checkedAt storedAt : Int)
  /-- past `verifyConsent`; `none` when `requireConsent` is off -/
  | consented (consent : Option Consent)
  /-- past `verifyConsent`, with the handler's outcome: a tool's result or an error -/
  | done (consent : Option Consent) (result : Except GatewayError (Option ToolResult))
  /-- `checkAndStore` stored the nonce, then `verifyConsent` threw `consent act_hash mismatch` -/
  | spent (c : Consent)
  /-- refused before or in `verifyConsent`, storing nothing -/
  | failed (e : GatewayError)
  deriving Repr

/-- The pass through `verifyConsent` a stage records. -/
def Stage.consent? : Stage → Option Consent
  | .consented c => c
  | .done c _ => c
  | _ => none

/-- The pass through `checkAndStore` a stage records. -/
def Stage.stored? : Stage → Option Consent
  | .spent c => some c
  | s => s.consent?

/-- A request thread: its route, its consent token, the hash of its canonical
action (`computeActHash(canonicalJsonSorted(action))`) and its stage. -/
structure Request where
  route : Route
  consentToken : Presented
  actHash : String
  stage : Stage
  deriving Repr

/-- The gateway: the clock, what each key box has signed, the nonce cache and
the requests it has received. -/
structure Gateway where
  clock : Int
  consentSigned : List Payload
  capSigned : List Payload
  seen : NonceCache
  requests : List Request
  deriving Repr

/-- A gateway started at clock value `now`. -/
def Gateway.init (now : Int) : Gateway := ⟨now, [], [], [], []⟩

namespace Request

variable (cfg : Config)

/-- The step of request `r` at clock value `now`, with the nonce cache after it. -/
def step (g : Gateway) (now : Int) (r : Request) : Request × NonceCache :=
  match r.stage with
  | .start =>
    let refusal := match r.route with
      | .toolRun tool _ _ => CDI.checkToolAllowed cfg tool
      | .ask => none
    match refusal with
    | some e => ({ r with stage := .failed e }, g.seen)
    | none =>
      match verifyConsentToken cfg g.consentSigned r.consentToken now with
      | .error e => ({ r with stage := .failed e }, g.seen)
      | .ok none => ({ r with stage := .consented none }, g.seen)
      | .ok (some p) => ({ r with stage := .checked p now }, g.seen)
  | .checked p checkedAt =>
    match p.nonce with
    | some n =>
      if isBlank n then ({ r with stage := .failed .consentReplay }, g.seen)
      else ({ r with stage := .storing p n checkedAt now }, g.seen)
    | none => ({ r with stage := .failed .consentReplay }, g.seen)
  | .storing p n checkedAt storedAt =>
    match g.seen.putIfAbsent n storedAt with
    | (false, seen) => ({ r with stage := .failed .consentReplay }, seen)
    | (true, seen) =>
      if p.actHash = some r.actHash then ({ r with stage := .consented (some ⟨p, checkedAt, storedAt⟩) }, seen)
      else ({ r with stage := .spent ⟨p, checkedAt, storedAt⟩ }, seen)
  | .consented c =>
    match r.route with
    | .ask => ({ r with stage := .done c (.ok none) }, g.seen)
    | .toolRun (some tool) capToken args =>
      let result := match verifyCap cfg g.capSigned capToken tool now with
        | .error e => .error e
        | .ok () => (Tools.run tool args now).map some
      ({ r with stage := .done c result }, g.seen)
    -- not reached: `checkToolAllowed` refuses a missing tool
    | .toolRun none _ _ => ({ r with stage := .done c (.error .missingTool) }, g.seen)
  | _ => (r, g.seen)

/-- One removal of the `cleanup` that request `r` runs in `checkAndStore`: the entry for `nonce`. -/
def evict (r : Request) (nonce : String) (seen : NonceCache) : NonceCache :=
  match r.stage with
  | .storing _ _ _ storedAt => seen.evict cfg.nonceTtlSeconds storedAt nonce
  | _ => seen

end Request

/-- What can happen next: the server signs a consent token (the dev mint
endpoint, which mints a fresh UUID nonce) or a capability token, a request
arrives, request `i` takes its next step, or its `cleanup` removes the entry
for `nonce`; each at a clock value. -/
inductive Action where
  | mintConsent (now : Int) (nonce actHash : String)
  | mintCap (now : Int) (scopes : List String)
  | arrive (now : Int) (route : Route) (consentToken : Presented) (actHash : String)
  | step (i : Nat) (now : Int)
  | evict (i : Nat) (nonce : String) (now : Int)
  deriving DecidableEq, Repr

/-- The clock value an action reads. -/
def Action.now : Action → Int
  | .mintConsent now _ _ | .mintCap now _ | .arrive now _ _ _ | .step _ now | .evict _ _ now => now

namespace Gateway

variable (cfg : Config)

/-- The gateway after action `a`. -/
def step (g : Gateway) (a : Action) : Gateway :=
  match a with
  | .mintConsent now nonce actHash =>
    { g with clock := now,
             consentSigned := g.consentSigned ++
               [mintConsent cfg.consentAudience cfg.consentTtlSeconds nonce actHash now] }
  | .mintCap now scopes => { g with clock := now, capSigned := g.capSigned ++ [mintCap cfg scopes now] }
  | .arrive now route consentToken actHash =>
    { g with clock := now, requests := g.requests ++ [⟨route, consentToken, actHash, .start⟩] }
  | .step i now =>
    match g.requests[i]? with
    | none => { g with clock := now }
    | some r =>
      let (r', seen) := r.step cfg g now
      { g with clock := now, seen := seen, requests := g.requests.set i r' }
  | .evict i nonce now =>
    match g.requests[i]? with
    | none => { g with clock := now }
    | some r => { g with clock := now, seen := r.evict cfg nonce g.seen }

/-- The gateway after a sequence of actions. -/
def run (g : Gateway) (as : List Action) : Gateway := as.foldl (step cfg) g

end Gateway

end OI.Flourish
