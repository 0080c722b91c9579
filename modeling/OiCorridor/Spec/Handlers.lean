import OiCorridor.Spec.Requests
import OiCorridor.Spec.GatewayAudit

/-! The `/v1/ask` and `/v1/tool/run` handlers from the rate limiter to the
reply, for one request with no other thread between its steps. The exceptions
their `catch (Exception e)` receives are held with the text `e.getMessage()`
gives, which the handlers write to the audit log and to the reply, and from
which `/v1/ask` picks its status. What the model leaves abstract is a
parameter: how a token string decodes (`Codec.decode`), the action hashes
(`computeActHash(canonicalJsonSorted(action))`), `String.valueOf` of an
argument, and the texts of the exceptions the JDK throws inside
`MiniJson.parse` and while a reply is written. A token whose parts are not
Base64 is refused with `bad token` here, where the JDK's decoder gives its own
text. -/

set_option autoImplicit false

namespace OI.Flourish

open MiniJson

/-- A text with no line feed and no carriage return. -/
def NoBreak (s : String) : Prop := ∀ c ∈ s.data, c ≠ '\n' ∧ c ≠ '\r'

instance : DecidablePred NoBreak := fun s => inferInstanceAs (Decidable (∀ c ∈ s.data, _))

theorem NoBreak.append {s t : String} (hs : NoBreak s) (ht : NoBreak t) : NoBreak (s ++ t) :=
  fun c hc => (List.mem_append.mp hc).elim (hs c) (ht c)

/-- `e.getMessage()` of the exceptions the JDK throws while `MiniJson.parse`
reads `body`. A `StringIndexOutOfBoundsException` of `charAt` or `substring`
names indices; a `NumberFormatException` of `parseInt`, `parseLong` or
`parseDouble` quotes its input (`For input string: "..."`). The texts vary
between JDK releases: none starts with `CIF:`, and only the quoted input can
bring a line break. -/
structure JdkTexts where
  indexOutOfBounds : String → String
  numberFormat (body input : String) : String
  index_not_cif : ∀ body, startsWith (indexOutOfBounds body) "CIF:" = false
  number_not_cif : ∀ body input, startsWith (numberFormat body input) "CIF:" = false
  index_noBreak : ∀ body, NoBreak (indexOutOfBounds body)
  number_noBreak : ∀ body input, NoBreak input → NoBreak (numberFormat body input)

/-- An `IOException` of `json(ex,200,…)`, the reply write inside a handler's
`try`: its text, one of the JDK's HTTP server (`Broken pipe`, `headers already
sent`), and the clock value of the `audit.append` its `catch` makes. -/
structure ReplyFault where
  msg : String
  auditAt : Int
  not_cif : startsWith msg "CIF:" = false
  noBreak : NoBreak msg
  deriving DecidableEq, Repr

/-- What the handlers leave to code the model does not embed: the payload a
token string decodes to (`split`, Base64, the JSON of the first part), the
action hashes of `/v1/ask` (of the prompt) and of `/v1/tool/run` (of the tool
and the arguments), and `String.valueOf` of an argument. -/
structure Codec where
  decode : String → Presented
  askActHash : String → String
  toolActHash : String → List (String × String) → String
  valueOf : JValue → String

/-- The map `Tools.run` receives: the entries of `args`, each value through
`String.valueOf`. -/
def Codec.args (codec : Codec) (m : List (String × JValue)) : List (String × String) :=
  (toolArgs m).map fun (k, v) => (k, codec.valueOf v)

/-- What a handler reads besides the request and the gateway: whether the rate
limiter lets it through, `audit.canPersist()`, the clock values of
`verifySignedToken` and `checkAndStore` in `verifyConsent`, of `verifyCap`, of
`Tools.run` and of `audit.append`, whether the audit lines reach the file, and
the `IOException`, if any, of the `200` reply. -/
structure Readings where
  rateOk : Bool
  canPersist : Bool
  checkedAt : Int
  storedAt : Int
  capAt : Int
  runAt : Int
  auditAt : Int
  written : Bool
  replyFault : Option ReplyFault
  deriving DecidableEq, Repr

/-- `e.getMessage()` of the filter's exceptions. -/
def CifError.message : CifError → String
  | .disallowedContentType => "CIF: disallowed Content-Type"
  | .bodyTooLarge => "CIF: body too large"
  | .blockedPattern => "CIF: blocked pattern detected"

/-- The texts of `MiniJson`'s own exceptions, and the JDK's for the rest. -/
def JsonError.message (jdk : JdkTexts) (body : String) : JsonError → String
  | .trailing => "json trailing"
  | .eof => "json eof"
  | .bad => "json bad"
  | .exp c => "json exp " ++ c.toString
  | .escape => "json escape"
  | .bool => "json bool"
  | .null => "json null"
  | .indexOutOfBounds => jdk.indexOutOfBounds body
  | .numberFormat input => jdk.numberFormat body input
  -- not reached: `parse` never runs out of fuel
  | .fuel => jdk.indexOutOfBounds body

/-- `e.getMessage()` of the consent, capability, policy and tool exceptions. -/
def GatewayError.message : GatewayError → String
  | .missingConsentToken => "CDI: missing consent token"
  | .badToken => "bad token"
  | .sigInvalid => "sig invalid"
  | .tokenExpired => "token expired"
  | .consentBadVersion => "consent bad version"
  | .consentBadAud => "consent bad aud"
  | .consentReplay => "consent replay or missing nonce"
  | .actHashMismatch => "consent act_hash mismatch"
  | .missingCapToken => "missing cap token"
  | .capBadVersion => "cap bad version"
  | .capBadAud => "cap bad aud"
  | .capScopesMissing => "cap scopes missing"
  | .missingScope want => "missing scope " ++ want
  | .missingTool => "CDI: missing tool"
  | .toolNotAllowed => "CDI: tool not allowed by policy"
  | .networkToolsDisabled => "CDI: network tools disabled"
  | .httpGetDisabled => "net/http_get disabled"
  | .unknownTool => "unknown tool"

/-- An exception a handler's `catch (Exception e)` receives. -/
inductive Refusal where
  /-- `audit unavailable` -/
  | auditUnavailable
  | cif (e : CifError)
  /-- thrown by `MiniJson.parse` on the body -/
  | json (e : JsonError)
  /-- `bad json`: the body is JSON but not an object -/
  | badJson
  | gateway (e : GatewayError)

/-- `e.getMessage()`, for a request whose body is `body`. -/
def Refusal.message (jdk : JdkTexts) (body : String) : Refusal → String
  | .auditUnavailable => "audit unavailable"
  | .cif e => e.message
  | .json e => JsonError.message jdk body e
  | .badJson => "bad json"
  | .gateway e => e.message

/-- The token a handler hands to `verifyConsent` or `verifyCap`: `null` or blank
is missing, else the payload it decodes to. -/
def presentedOf (decode : String → Presented) : Option String → Presented
  | none => .missing
  | some s => if isBlank s then .missing else decode s

/-- The JSON a handler sends. -/
inductive Body where
  /-- `\x7berror\x7d` -/
  | error (text : String)
  /-- `/v1/ask` passed: the output and a receipt `ALLOW`, `ok` with the audit hash -/
  | askAllow (output auditRef : String)
  /-- `/v1/ask` refused: an empty output and a receipt `DENY` with the reason -/
  | askDeny (reason auditRef : String)
  /-- `/v1/tool/run` passed: the tool's result and a receipt `ALLOW`, `ok` -/
  | toolAllow (result : ToolResult) (auditRef : String)
  /-- `/v1/tool/run` refused: the error and a receipt `DENY` with it as reason -/
  | toolDeny (reason auditRef : String)
  deriving DecidableEq, Repr

/-- The `audit_ref` a body returns. -/
def Body.auditRef? : Body → Option String
  | .error _ => none
  | .askAllow _ ref | .askDeny _ ref | .toolAllow _ ref | .toolDeny _ ref => some ref

/-- A handler's reply: the status and the body. -/
structure Reply where
  status : Nat
  body : Body
  deriving DecidableEq, Repr

section Handlers

variable (sha256Hex : String → String) (cfg : Config) (jdk : JdkTexts) (codec : Codec)
  (rd : Readings)

/-- The `try` block of `/v1/ask` up to its reply: the output, or the exception,
with the nonce cache after it. -/
def askTry (g : Gateway) (ex : Exchange) : Except Refusal String × NonceCache :=
  if cfg.failClosed ∧ rd.canPersist = false then (.error .auditUnavailable, g.seen)
  else
    match CIF.readChecked cfg ex with
    | .error e => (.error (.cif e), g.seen)
    | .ok body =>
      match parse body with
      | .error e => (.error (.json e), g.seen)
      | .ok (.obj m) =>
        let prompt := askPrompt m
        match verifyConsent cfg g.consentSigned g.seen
            (presentedOf codec.decode (stringField m "consent_token"))
            (codec.askActHash prompt) rd.checkedAt rd.storedAt with
        | (.error e, seen) => (.error (.gateway e), seen)
        | (.ok (), seen) => (.ok ("MODEL_STUB: " ++ prompt), seen)
      | .ok _ => (.error .badJson, g.seen)

/-- What `ask()` and `toolRun()` do around their `try` blocks, whose outcome is
`outcome`: the rate limiter and the method check, then an audit line, kind
`okKind` with `okMsg` of the result or kind `denyKind` with the exception's
text, and the reply built from the line's hash. When the `200` reply throws an
`IOException`, the `catch` appends a second line, kind `denyKind` with its
text, and replies with that line's hash. -/
def serve {α : Type} (g : Gateway) (a : Audit) (ex : Exchange) (outcome : Except Refusal α × NonceCache)
    (okKind denyKind : String) (okMsg : α → String) (okReply : α → String → Reply)
    (denyReply : String → String → Reply) : Reply × NonceCache × Audit :=
  if !rd.rateOk then (⟨429, .error "rate limited"⟩, g.seen, a)
  else if toUpperCase ex.method ≠ "POST" then (⟨405, .error "method not allowed"⟩, g.seen, a)
  else
    match outcome with
    | (.ok x, seen) =>
      let (ref, a) := a.append sha256Hex okKind (some (okMsg x)) rd.auditAt rd.written
      match rd.replyFault with
      | none => (okReply x ref, seen, a)
      | some f =>
        let (ref, a) := a.append sha256Hex denyKind (some f.msg) f.auditAt rd.written
        (denyReply f.msg ref, seen, a)
    | (.error e, seen) =>
      let msg := e.message jdk ex.body
      let (ref, a) := a.append sha256Hex denyKind (some msg) rd.auditAt rd.written
      (denyReply msg ref, seen, a)

/-- `ask()`: 200 with the output, or 400 when the exception's text starts with
`CIF:` and 403 otherwise. -/
def ask (g : Gateway) (a : Audit) (ex : Exchange) : Reply × NonceCache × Audit :=
  serve sha256Hex jdk rd g a ex (askTry cfg codec rd g ex) "ASK_ALLOW" "ASK_DENY" (fun _ => "ok")
    (fun out ref => ⟨200, .askAllow out ref⟩)
    (fun msg ref => ⟨if startsWith msg "CIF:" then 400 else 403, .askDeny msg ref⟩)

/-- The `try` block of `/v1/tool/run` up to its reply: the tool and its result,
or the exception, with the nonce cache after it. -/
def toolRunTry (g : Gateway) (ex : Exchange) :
    Except Refusal (String × ToolResult) × NonceCache :=
  if cfg.failClosed ∧ rd.canPersist = false then (.error .auditUnavailable, g.seen)
  else
    match CIF.readChecked cfg ex with
    | .error e => (.error (.cif e), g.seen)
    | .ok body =>
      match parse body with
      | .error e => (.error (.json e), g.seen)
      | .ok (.obj m) =>
        match CDI.checkToolAllowed cfg (stringField m "tool"), stringField m "tool" with
        | some e, _ => (.error (.gateway e), g.seen)
        -- not reached: `checkToolAllowed` refuses a missing tool
        | none, none => (.error (.gateway .missingTool), g.seen)
        | none, some tool =>
          let args := codec.args m
          match verifyConsent cfg g.consentSigned g.seen
              (presentedOf codec.decode (stringField m "consent_token"))
              (codec.toolActHash tool args) rd.checkedAt rd.storedAt with
          | (.error e, seen) => (.error (.gateway e), seen)
          | (.ok (), seen) =>
            match verifyCap cfg g.capSigned (presentedOf codec.decode (stringField m "cap_token"))
                tool rd.capAt with
            | .error e => (.error (.gateway e), seen)
            | .ok () =>
              match Tools.run tool args rd.runAt with
              | .error e => (.error (.gateway e), seen)
              | .ok res => (.ok (tool, res), seen)
      | .ok _ => (.error .badJson, g.seen)

/-- `toolRun()`: 200 with the tool's result, logged with the tool's name, or
403 for every exception. -/
def toolRun (g : Gateway) (a : Audit) (ex : Exchange) : Reply × NonceCache × Audit :=
  serve sha256Hex jdk rd g a ex (toolRunTry cfg codec rd g ex) "TOOL_OK" "TOOL_DENY" (·.1)
    (fun r ref => ⟨200, .toolAllow r.2 ref⟩) (fun msg ref => ⟨403, .toolDeny msg ref⟩)

end Handlers

/-- What the audit file sees: a request to `/v1/ask` or `/v1/tool/run`, served
at gateway state `g` under readings `rd`, or a restart of the gateway, whose
`new Audit(path)` reads the file back at clock value `ts`. -/
inductive Call where
  | ask (g : Gateway) (ex : Exchange) (rd : Readings)
  | toolRun (g : Gateway) (ex : Exchange) (rd : Readings)
  | restart (ts : Int) (written : Bool)

section Calls

variable (sha256Hex : String → String) (cfg : Config) (jdk : JdkTexts) (codec : Codec)

/-- The audit after one call. -/
def Call.audit (a : Audit) : Call → Audit
  | .ask g ex rd => (Flourish.ask sha256Hex cfg jdk codec rd g a ex).2.2
  | .toolRun g ex rd => (Flourish.toolRun sha256Hex cfg jdk codec rd g a ex).2.2
  | .restart ts written => Audit.new sha256Hex a.file ts written

/-- The audit after a sequence of calls. -/
def Call.run (a : Audit) (cs : List Call) : Audit := cs.foldl (Call.audit sha256Hex cfg jdk codec) a

end Calls

end OI.Flourish
