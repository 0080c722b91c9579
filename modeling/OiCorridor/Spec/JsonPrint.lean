import Mathlib.Data.List.Sort
import OiCorridor.Spec.Json
import OiCorridor.Spec.Consent

/-! `MiniJson.q` and `MiniJson.str`, the gateway's JSON printer, and the token
payloads it prints: `canonicalJsonSorted`, the maps `mintConsent` and
`devCapMint` sign, and `verifySignedToken` on the JSON text a token carries.
Java walks a string's UTF-16 units; a `Char` above `U+FFFF` is two units that
`q` copies as they are, so `q` goes by `Char`. A `Double` is held as its text
(see `JValue`), which `str` prints as it is: that is the text `Double.toString`
prints when the value came from `str`. The Ed25519 check accepts exactly the
texts the box signed, and Base64 and UTF-8 give a signed text back unchanged. -/

set_option autoImplicit false

namespace OI.MiniJson

/-- `String.format("\\u%04x", n)`: `n` in lower-case hex, padded to four digits. -/
def hex4 (n : Nat) : List Char :=
  let ds := Nat.toDigits 16 n
  List.replicate (4 - ds.length) '0' ++ ds

/-- One character of the `switch` in `q`'s loop. -/
def qChar (c : Char) : List Char :=
  if c = '"' then ['\\', '"']
  else if c = '\\' then ['\\', '\\']
  else if c = '\n' then ['\\', 'n']
  else if c = '\r' then ['\\', 'r']
  else if c = '\t' then ['\\', 't']
  else if c.toNat < 0x20 then '\\' :: 'u' :: hex4 c.toNat
  else [c]

/-- `q(s)`: the string in quotes, with `"`, `\`, newline, return and tab
escaped by name and the other control characters as `\u00XX`. -/
def q (s : String) : String := ⟨'"' :: s.data.flatMap qChar ++ ['"']⟩

mutual

/-- `str(o)` on the values `parse` returns. An `Integer` and a `Long` print
alike, as `Number.toString`, and a `Boolean` as `true` or `false`. -/
def str : JValue → String
  | .null => "null"
  | .str s => q s
  | .long v => toString v
  | .double text => text
  | .bool b => toString b
  | .obj members => "\x7b" ++ strMembers true members ++ "\x7d"
  | .arr items => "[" ++ strItems true items ++ "]"

/-- The loop over `m.entrySet()`; `first` is the loop's flag. -/
def strMembers : Bool → List (String × JValue) → String
  | _, [] => ""
  | first, (k, v) :: members => (if first then "" else ",") ++ q k ++ ":" ++ str v ++ strMembers false members

/-- The loop over the list's items; `first` is `k == 0`. -/
def strItems : Bool → List JValue → String
  | _, [] => ""
  | first, v :: items => (if first then "" else ",") ++ str v ++ strItems false items

end

end OI.MiniJson

namespace OI.Flourish

open MiniJson

/-! ### Token payloads -/

/-- A string as the UTF-16 units `String.compareTo` compares. -/
def utf16Units (s : String) : List Nat :=
  s.data.flatMap fun c =>
    if c.toNat < 0x10000 then [c.toNat]
    else [0xD800 + (c.toNat - 0x10000) / 0x400, 0xDC00 + (c.toNat - 0x10000) % 0x400]

/-- `a.compareTo(b) <= 0`, the order `Collections.sort` puts strings in. -/
def compareToLE (a b : String) : Prop := ¬ @List.lt Nat instLTNat (utf16Units b) (utf16Units a)

instance : DecidableRel compareToLE := fun a b =>
  @instDecidableNot _ (@List.hasDecidableLt Nat instLTNat Nat.decLt (utf16Units b) (utf16Units a))

/-- The map `out` of `canonicalJsonSorted(payload)`: the keys sorted, each
`put` with `payload.get(k)`. -/
def sortedPayload (payload : List (String × JValue)) : List (String × JValue) :=
  ((payload.map (·.1)).insertionSort compareToLE).foldl
    (fun out k => put out k ((payload.lookup k).getD .null)) []

/-- `canonicalJsonSorted(payload)`. -/
def canonicalJsonSorted (payload : List (String × JValue)) : String := str (.obj (sortedPayload payload))

/-- The map `mintConsent(box, aud, ttlSec, nonce, actHash)` signs, for the
box's key id `kid` and `exp` the epoch second plus `ttlSec`. -/
def mintConsentMap (kid aud : String) (exp : Int) (nonce actHash : String) : List (String × JValue) :=
  put (put (put (put (put (put [] "v" (.long 1)) "kid" (.str kid)) "aud" (.str aud)) "exp" (.long exp))
    "nonce" (.str nonce)) "act_hash" (.str actHash)

/-- The map `devCapMint` signs for `scopes`. -/
def devCapMintMap (kid aud : String) (exp : Int) (scopes : List String) : List (String × JValue) :=
  put (put (put (put (put [] "v" (.long 1)) "kid" (.str kid)) "aud" (.str aud)) "exp" (.long exp))
    "scopes" (.arr (scopes.map .str))

/-- The map `toolRun` binds consent to: `op`, the tool, and the arguments
copied from the body's `args` object, each value through `String.valueOf`. -/
def toolAction (tool : String) (args : List (String × String)) : List (String × JValue) :=
  put (put (put [] "op" (.str "tool/run")) "tool" (.str tool)) "args" (.obj (args.map fun a => (a.1, .str a.2)))

/-- Why `verifySignedToken` fails on a token's text: the checks `GatewayError`
names, an exception of `MiniJson.parse`, or a payload that is no object or has
no `exp` number. -/
inductive SignedTokenError where
  | gateway (e : GatewayError)
  | json (e : JsonError)
  /-- `payload not object` -/
  | payloadNotObject
  /-- `missing exp` -/
  | missingExp
  deriving DecidableEq, Repr

/-- `((Number) o).longValue()` on what `parse` returns; a `Double`'s is the
JDK's `(long)` conversion, given as `doubleLong`. -/
def longValue (doubleLong : String → Int) : JValue → Option Int
  | .long v => some v
  | .double text => some (doubleLong text)
  | _ => none

/-- `verifySignedToken(box, token)` at epoch second `now`, on the text
`payload` the token's first part decodes to (`none` when the token does not
split in two parts or decode), `signed` being the texts `box` signed. -/
def verifySignedTokenJson (doubleLong : String → Int) (signed : List String) (payload : Option String)
    (now : Int) : Except SignedTokenError (List (String × JValue)) :=
  match payload with
  | none => .error (.gateway .badToken)
  | some text =>
    if text ∉ signed then .error (.gateway .sigInvalid)
    else
      match parse text with
      | .error e => .error (.json e)
      | .ok (.obj m) =>
        match (m.lookup "exp").bind (longValue doubleLong) with
        | none => .error .missingExp
        | some exp => if now > exp then .error (.gateway .tokenExpired) else .ok m
      | .ok _ => .error .payloadNotObject

end OI.Flourish
