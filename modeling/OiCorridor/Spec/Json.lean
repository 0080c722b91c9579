import OiCorridor.Spec.Go

/-! `Flourish.MiniJson`, the gateway's JSON parser. The Java code walks a
`String` with an index; here each function takes the characters left and
returns what it read with the characters after it. `val` and the loops of
`obj` and `arr` recurse on a fuel argument; `parse` gives enough fuel, which
`Proofs/Json` shows. Character classes are ASCII (`Character.isDigit` and the
digits `Integer.parseInt` reads also accept other Unicode digits), and a `\u`
escape naming a surrogate gives `U+0000`, where Java keeps the lone UTF-16 unit. -/

set_option autoImplicit false

namespace OI.MiniJson

/-- A value `parse` returns: `LinkedHashMap`, `ArrayList`, `String`, `Boolean`,
`null`, `Integer` or `Long` (`long`), `Double` (`double`, kept as its text). -/
inductive JValue where
  | obj (members : List (String × JValue))
  | arr (items : List JValue)
  | str (s : String)
  | bool (b : Bool)
  | null
  | long (v : Int)
  | double (text : String)
  deriving Repr

/-- The exceptions `parse` throws. -/
inductive JsonError where
  /-- `json trailing` -/
  | trailing
  /-- `json eof` -/
  | eof
  /-- `json bad` -/
  | bad
  /-- `json exp ` followed by the character -/
  | exp (c : Char)
  /-- `json escape` -/
  | escape
  /-- `json bool` -/
  | bool
  /-- `json null` -/
  | null
  /-- a `StringIndexOutOfBoundsException` of `charAt` or `substring` -/
  | indexOutOfBounds
  /-- a `NumberFormatException` of `parseInt`, `parseLong` or `parseDouble` on `input` -/
  | numberFormat (input : String)
  /-- the fuel ran out; `parse` gives enough that this never happens -/
  | fuel
  deriving DecidableEq, Repr

/-- `LinkedHashMap.put`: a new key goes last, an old one keeps its place. -/
def put (m : List (String × JValue)) (k : String) (v : JValue) : List (String × JValue) :=
  if m.any (·.1 == k) then m.map fun p => if p.1 = k then (k, v) else p else m ++ [(k, v)]

/-- `ws()`: skips spaces, newlines, carriage returns and tabs. -/
def ws : List Char → List Char
  | c :: cs => if c = ' ' ∨ c = '\n' ∨ c = '\r' ∨ c = '\t' then ws cs else c :: cs
  | [] => []

/-- `eat(c)`. -/
def eat (c : Char) : List Char → Except JsonError (List Char)
  | d :: cs => if d = c then .ok cs else .error (.exp c)
  | [] => .error (.exp c)

def hexDigit (c : Char) : Option Nat :=
  if 48 ≤ c.toNat ∧ c.toNat ≤ 57 then some (c.toNat - 48)
  else if 97 ≤ c.toNat ∧ c.toNat ≤ 102 then some (c.toNat - 87)
  else if 65 ≤ c.toNat ∧ c.toNat ≤ 70 then some (c.toNat - 55)
  else none

/-- The value of a non-empty run of hex digits. -/
def hexValue (ds : List Char) : Option Nat :=
  if ds = [] then none else ds.foldlM (fun acc d => (hexDigit d).map (acc * 16 + ·)) 0

/-- `Integer.parseInt(hex, 16)`: an optional sign, then hex digits. -/
def parseHex : List Char → Option Int
  | '-' :: ds => (hexValue ds).map fun v => -(v : Int)
  | '+' :: ds => (hexValue ds).map Int.ofNat
  | ds => (hexValue ds).map Int.ofNat

/-- `(char) v`: the low 16 bits. -/
def javaChar (v : Int) : Char := Char.ofNat (v % 65536).toNat

/-- The body of `strv()` after its opening quote: the characters read up to the
closing quote or the end of the input, which also ends the string. -/
def strChars : List Char → Except JsonError (List Char × List Char)
  | [] => .ok ([], [])
  | '"' :: rest => .ok ([], rest)
  | '\\' :: rest =>
    match rest with
    | [] => .error .indexOutOfBounds
    | '"' :: rest => (strChars rest).map fun (b, r) => ('"' :: b, r)
    | '\\' :: rest => (strChars rest).map fun (b, r) => ('\\' :: b, r)
    | 'n' :: rest => (strChars rest).map fun (b, r) => ('\n' :: b, r)
    | 'r' :: rest => (strChars rest).map fun (b, r) => ('\r' :: b, r)
    | 't' :: rest => (strChars rest).map fun (b, r) => ('\t' :: b, r)
    | 'u' :: a :: b :: c :: d :: rest =>
      match parseHex [a, b, c, d] with
      | none => .error (.numberFormat (String.mk [a, b, c, d]))
      | some v => (strChars rest).map fun (s, r) => (javaChar v :: s, r)
    | 'u' :: _ => .error .indexOutOfBounds
    | _ :: _ => .error .escape
  | c :: rest => (strChars rest).map fun (b, r) => (c :: b, r)

/-- `strv()`. -/
def strv (cs : List Char) : Except JsonError (String × List Char) := do
  let cs ← eat '"' cs
  let (b, rest) ← strChars cs
  return (String.mk b, rest)

/-- `bool()`. -/
def bool (cs : List Char) : Except JsonError (JValue × List Char) :=
  if "true".data.isPrefixOf cs then .ok (.bool true, cs.drop 4)
  else if "false".data.isPrefixOf cs then .ok (.bool false, cs.drop 5)
  else .error .bool

/-- `nul()`. -/
def nul (cs : List Char) : Except JsonError (JValue × List Char) :=
  if "null".data.isPrefixOf cs then .ok (.null, cs.drop 4) else .error .null

/-- The optional `-` `num()` starts with. -/
def scanSign : List Char → List Char × List Char
  | '-' :: cs => (['-'], cs)
  | cs => ([], cs)

/-- The optional fraction: `.` and its digits, with the digits alone. -/
def scanFrac : List Char → (List Char × List Char) × List Char
  | '.' :: cs => (('.' :: (cs.span Char.isDigit).1, (cs.span Char.isDigit).1), (cs.span Char.isDigit).2)
  | cs => (([], []), cs)

/-- The optional exponent: `e` or `E`, an optional sign, digits. -/
def expPart : List Char → List Char × List Char
  | c :: cs =>
    if c = 'e' ∨ c = 'E' then
      let sign := scanExpSign cs
      (c :: sign.1 ++ (sign.2.span Char.isDigit).1, (sign.2.span Char.isDigit).2)
    else ([], c :: cs)
  | [] => ([], [])
where
  scanExpSign : List Char → List Char × List Char
    | s :: cs => if s = '+' ∨ s = '-' then ([s], cs) else ([], s :: cs)
    | [] => ([], [])

/-- What `num()` scans: `-?d*(.d*)?([eE][+-]?d*)?`. -/
structure NumText where
  sign : List Char
  intDigits : List Char
  frac : List Char
  fracDigits : List Char
  exp : List Char

def NumText.text (t : NumText) : List Char := t.sign ++ t.intDigits ++ t.frac ++ t.exp

/-- The scan of `num()`, with the characters after it. -/
def scanNum (cs : List Char) : NumText × List Char :=
  let sign := scanSign cs
  let ints := sign.2.span Char.isDigit
  let frac := scanFrac ints.2
  let exp := expPart frac.2
  (⟨sign.1, ints.1, frac.1.1, frac.1.2, exp.1⟩, exp.2)

/-- `Long.parseLong(n)` on the text `num()` scanned without `.` or exponent; the
bounds are `Long.MIN_VALUE` and `Long.MAX_VALUE + 1`. -/
def parseLong (n : List Char) : Except JsonError Int :=
  let (neg, ds) := match n with
    | '-' :: ds => (true, ds)
    | ds => (false, ds)
  if ds = [] then .error (.numberFormat (String.mk n))
  else
    let v : Int := ds.foldl (fun acc d => acc * 10 + (d.toNat - 48)) 0
    let v := if neg then -v else v
    if -9223372036854775808 ≤ v ∧ v < 9223372036854775808 then .ok v
    else .error (.numberFormat (String.mk n))

/-- `num()`: the text is a `long` when it has no `.` or exponent, else a
`Double`, which needs a digit in the mantissa and one in a present exponent. -/
def num (cs : List Char) : Except JsonError (JValue × List Char) :=
  let (t, rest) := scanNum cs
  if t.frac = [] ∧ t.exp = [] then (parseLong t.text).map fun v => (.long v, rest)
  else if (t.intDigits ++ t.fracDigits ≠ []) ∧ (t.exp = [] ∨ (t.exp.drop 1).any Char.isDigit) then
    .ok (.double (String.mk t.text), rest)
  else .error (.numberFormat (String.mk t.text))

mutual

/-- `val()`. The `{` and `[` cases are `obj()` and `arr()` up to their loops. -/
def val : Nat → List Char → Except JsonError (JValue × List Char)
  | 0, _ => .error .fuel
  | fuel + 1, cs =>
    match ws cs with
    | [] => .error .eof
    | '{' :: rest =>
      match ws rest with
      | '}' :: rest => .ok (.obj [], rest)
      | rest => members fuel [] rest
    | '[' :: rest =>
      match ws rest with
      | ']' :: rest => .ok (.arr [], rest)
      | rest => items fuel [] rest
    | '"' :: rest => (strChars rest).map fun (b, r) => (.str (String.mk b), r)
    | c :: rest =>
      if c = 't' ∨ c = 'f' then bool (c :: rest)
      else if c = 'n' then nul (c :: rest)
      else if c = '-' ∨ c.isDigit then num (c :: rest)
      else .error .bad

/-- The loop of `obj()`: a key, `:`, a value, then `}` or `,` and the next member. -/
def members : Nat → List (String × JValue) → List Char → Except JsonError (JValue × List Char)
  | 0, _, _ => .error .fuel
  | fuel + 1, m, cs =>
    match strv (ws cs) with
    | .error e => .error e
    | .ok (k, cs) =>
      match eat ':' (ws cs) with
      | .error e => .error e
      | .ok cs =>
        match val fuel cs with
        | .error e => .error e
        | .ok (v, cs) =>
          match ws cs with
          | '}' :: rest => .ok (.obj (put m k v), rest)
          | cs =>
            match eat ',' cs with
            | .error e => .error e
            | .ok cs => members fuel (put m k v) cs

/-- The loop of `arr()`: a value, then `]` or `,` and the next item. -/
def items : Nat → List JValue → List Char → Except JsonError (JValue × List Char)
  | 0, _, _ => .error .fuel
  | fuel + 1, a, cs =>
    match val fuel cs with
    | .error e => .error e
    | .ok (v, cs) =>
      match ws cs with
      | ']' :: rest => .ok (.arr (a ++ [v]), rest)
      | cs =>
        match eat ',' cs with
        | .error e => .error e
        | .ok cs => items fuel (a ++ [v]) cs

end

/-- `MiniJson.parse(s)`, with fuel twice the input's length and one. -/
def parse (s : String) : Except JsonError JValue :=
  match val (2 * s.length + 1) (ws s.data) with
  | .error e => .error e
  | .ok (v, rest) => if ws rest = [] then .ok v else .error .trailing

end OI.MiniJson
