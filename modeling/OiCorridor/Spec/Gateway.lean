import OiCorridor.Spec.Json

/-! The gateway `Flourish`: its fixed configuration, the content filter `CIF`
that every POST handler runs on the request before `MiniJson.parse`, and the
fields the `/v1/ask` and `/v1/tool/run` handlers read from the parsed body.
A Java string is a Lean string: `new String(body, UTF_8)` of the bytes the
filter returns is the request body itself. The gateway only compares case-mapped
text with ASCII text, so `toLowerCase(Locale.ROOT)` and `toUpperCase(Locale.ROOT)`
map exactly the characters whose mapping holds an ASCII letter, and keep the
rest, whose mappings hold none. -/

set_option autoImplicit false

namespace OI.Flourish

open MiniJson

/-- `Config`: the fields the modelled code reads. -/
structure Config where
  failClosed : Bool
  maxBodyBytes : Nat
  allowedContentTypes : List String
  blockPatterns : List String
  allowTools : List String
  allowNetworkTools : Bool
  requireConsent : Bool
  requireCapabilityForTools : Bool
  consentAudience : String
  capAudience : String
  consentTtlSeconds : Int
  capTtlSeconds : Int
  nonceTtlSeconds : Int

/-- The values `Config`'s field initialisers give; every `App` has these. -/
def config : Config where
  failClosed := true
  maxBodyBytes := 16384
  allowedContentTypes := ["application/json"]
  blockPatterns := ["ignore previous", "system prompt", "exfiltrate", "bypass", "jailbreak"]
  allowTools := ["echo", "time"]
  allowNetworkTools := false
  requireConsent := true
  requireCapabilityForTools := true
  consentAudience := "oi-runtime"
  capAudience := "oi-runtime"
  consentTtlSeconds := 120
  capTtlSeconds := 3600
  nonceTtlSeconds := 300

/-- What `toLowerCase(Locale.ROOT)` makes of one character: `A`-`Z` lowered,
U+212A (Kelvin sign) to `k`, and U+0130 to `i` and U+0307 by the special casing. -/
def lowerChar (c : Char) : List Char :=
  if c = '\u212A' then ['k'] else if c = '\u0130' then ['i', '\u0307'] else [c.toLower]

/-- `s.toLowerCase(Locale.ROOT)`. -/
def toLowerCase (s : String) : String := ⟨s.data.flatMap lowerChar⟩

/-- What `toUpperCase(Locale.ROOT)` makes of one character: `a`-`z` raised,
U+0131 and U+017F by their upper cases, and by the special casing `ß`, the
ligatures U+FB00-U+FB06 and the letters whose upper case is an ASCII letter and
a mark. -/
def upperChar (c : Char) : List Char :=
  if c = '\u0131' then ['I'] else if c = '\u017F' then ['S']
  else if c = '\u00DF' then ['S', 'S'] else if c = '\uFB00' then ['F', 'F']
  else if c = '\uFB01' then ['F', 'I'] else if c = '\uFB02' then ['F', 'L']
  else if c = '\uFB03' then ['F', 'F', 'I'] else if c = '\uFB04' then ['F', 'F', 'L']
  else if c = '\uFB05' ∨ c = '\uFB06' then ['S', 'T']
  else if c = '\u0149' then ['\u02BC', 'N'] else if c = '\u01F0' then ['J', '\u030C']
  else if c = '\u1E96' then ['H', '\u0331'] else if c = '\u1E97' then ['T', '\u0308']
  else if c = '\u1E98' then ['W', '\u030A'] else if c = '\u1E99' then ['Y', '\u030A']
  else if c = '\u1E9A' then ['A', '\u02BE'] else [c.toUpper]

/-- `s.toUpperCase(Locale.ROOT)`. -/
def toUpperCase (s : String) : String := ⟨s.data.flatMap upperChar⟩

/-- `s.startsWith(p)`. -/
def startsWith (s p : String) : Bool := p.data.isPrefixOf s.data

/-- `Character.isWhitespace(c)`: U+0009-U+000D, U+001C-U+001F, and the Unicode
space, line and paragraph separators but the no-break spaces U+00A0, U+2007 and
U+202F. -/
def Character.isWhitespace (c : Char) : Bool :=
  let n := c.toNat
  (9 ≤ n && n ≤ 13) || (28 ≤ n && n ≤ 32) || n == 0x1680 || (0x2000 ≤ n && n ≤ 0x200A && n != 0x2007) ||
    n == 0x2028 || n == 0x2029 || n == 0x205F || n == 0x3000

/-- `s.isBlank()`. -/
def isBlank (s : String) : Bool := s.data.all Character.isWhitespace

/-- What the filter reads of an `HttpExchange`: the method, the first
`Content-Type` header if any, and the body. -/
structure Exchange where
  method : String
  contentType : Option String
  body : String

/-- The exceptions `CIF.readChecked` throws. -/
inductive CifError where
  /-- `CIF: disallowed Content-Type` -/
  | disallowedContentType
  /-- `CIF: body too large` -/
  | bodyTooLarge
  /-- `CIF: blocked pattern detected` -/
  | blockedPattern
  deriving DecidableEq, Repr

namespace CIF

/-- `blockedLower`, built by the constructor: the patterns lowered. -/
def blockedLower (cfg : Config) : List String := cfg.blockPatterns.map toLowerCase

/-- `readChecked(ex)`. The body is read in chunks until more than
`maxBodyBytes` bytes have arrived; with `failClosed` that throws, so a body is
refused exactly when its UTF-8 size exceeds the bound. Without `failClosed` the
read stops at a chunk boundary the stream decides; that branch is not taken
under `config`, and here the body is kept whole. -/
def readChecked (cfg : Config) (ex : Exchange) : Except CifError String :=
  let method := toUpperCase ex.method
  let ct := toLowerCase (ex.contentType.getD "")
  let ok := cfg.allowedContentTypes.any fun a => startsWith ct (toLowerCase a)
  if (method = "POST" ∨ method = "PUT" ∨ method = "PATCH") ∧ !ok ∧ cfg.failClosed then
    .error .disallowedContentType
  else if cfg.maxBodyBytes < ex.body.utf8ByteSize ∧ cfg.failClosed then .error .bodyTooLarge
  else
    let low := toLowerCase ex.body
    if (blockedLower cfg).any fun p => !isBlank p && contains low p && cfg.failClosed then
      .error .blockedPattern
    else .ok ex.body

end CIF

/-- `(m.get(k) instanceof String) ? (String) m.get(k) : null` on a parsed object. -/
def stringField (m : List (String × JValue)) (k : String) : Option String :=
  match m.lookup k with
  | some (.str s) => some s
  | _ => none

/-- The prompt `/v1/ask` echoes after `MODEL_STUB: `: the `prompt` field if it is
a string, else `""`. -/
def askPrompt (m : List (String × JValue)) : String := (stringField m "prompt").getD ""

/-- The entries of the `args` object of a `/v1/tool/run` body, which the handler
copies, each value through `String.valueOf`, into the map `Tools.run` receives. -/
def toolArgs (m : List (String × JValue)) : List (String × JValue) :=
  match m.lookup "args" with
  | some (.obj raw) => raw
  | _ => []

end OI.Flourish
