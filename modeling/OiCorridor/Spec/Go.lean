import Mathlib.Data.List.Infix
import Mathlib.Data.List.AList

/-! The pieces of the Go runtime the kernel reads: clock values, the dynamic
values a `map[string]interface{}` holds and their `fmt` `%v` rendering, and the
`strings` helpers. A Go `string` is a Lean `String` (valid UTF-8) except where
the code slices bytes, which works on `Bytes`. The kernel only looks for ASCII
patterns in lowered text, so `unicode.ToLower` maps exactly the runes whose lower
case is ASCII and keeps the rest, whose lower cases are not. -/

set_option autoImplicit false

namespace OI

/-- `t.Unix()` of a `time.Time` held as nanoseconds since the Unix epoch:
whole seconds, rounded down. Clock values and durations are `Int` nanoseconds. -/
def unixSeconds (t : Int) : Int := t / 1000000000

/-- `time.Minute`. -/
def minute : Int := 60 * 1000000000

/-- The byte view `[]byte(s)` of a string. -/
abbrev Bytes := List UInt8

/-- `[]byte(s)`: the UTF-8 encoding of each character in turn. -/
def bytes (s : String) : Bytes := s.data.flatMap String.utf8EncodeChar

/-- A dynamic value stored behind `interface{}`. -/
inductive Value where
  | str (s : String)
  | int (n : Int)
  | bool (b : Bool)
  | strs (l : List String)
  | nil
  deriving DecidableEq, Repr

/-- `%v` of a `[]string`: `[a b c]`. -/
def fmtStrings (l : List String) : String := "[" ++ " ".intercalate l ++ "]"

/-- `%v` of a dynamic value. -/
def Value.fmt : Value → String
  | .str s => s
  | .int n => toString n
  | .bool b => toString b
  | .strs l => fmtStrings l
  | .nil => "<nil>"

/-- A `map[string]interface{}`, as its entries (keys distinct). -/
abbrev GoMap := List (String × Value)

/-- The assignment `m[k] = v`: the key's old entry, if any, is replaced. -/
def GoMap.assign (m : GoMap) (k : String) (v : Value) : GoMap := (k, v) :: m.filter (·.1 != k)

@[simp] theorem GoMap.lookup_assign_self (m : GoMap) (k : String) (v : Value) :
    (GoMap.assign m k v).lookup k = some v :=
  List.lookup_cons_self

/-- `%v` of a map: `map[k1:v1 k2:v2]`, keys in sorted order (the order of
code points, which is the byte order Go sorts by). -/
def fmtMap (m : GoMap) : String :=
  "map[" ++ " ".intercalate ((m.mergeSort fun a b => (String.decLE a.1 b.1).decide).map
    fun e => e.1 ++ ":" ++ e.2.fmt) ++ "]"

/-- `unicode.ToLower(r)` on the runes whose lower case is ASCII: `A`-`Z`, U+0130
to `i` and U+212A (Kelvin sign) to `k`. -/
def unicodeToLower (r : Char) : Char :=
  if r = '\u0130' then 'i' else if r = '\u212A' then 'k' else r.toLower

/-- `strings.ToLower`. -/
def toLower (s : String) : String := ⟨s.data.map unicodeToLower⟩

/-- `strings.Contains`. -/
def contains (s substr : String) : Bool := decide (substr.data <:+: s.data)

/-- The `first` and `acceptRanges` tables of `unicode/utf8`: the length of the
sequence a leading byte starts and the range of its second byte; `none` for an
ASCII byte or one that starts no sequence. -/
def leadRange (b : UInt8) : Option (Nat × UInt8 × UInt8) :=
  if 0xC2 ≤ b ∧ b ≤ 0xDF then some (2, 0x80, 0xBF)
  else if b = 0xE0 then some (3, 0xA0, 0xBF)
  else if b = 0xED then some (3, 0x80, 0x9F)
  else if 0xE1 ≤ b ∧ b ≤ 0xEF then some (3, 0x80, 0xBF)
  else if b = 0xF0 then some (4, 0x90, 0xBF)
  else if b = 0xF4 then some (4, 0x80, 0x8F)
  else if 0xF1 ≤ b ∧ b ≤ 0xF3 then some (4, 0x80, 0xBF)
  else none

/-- A continuation byte. -/
def isCont (b : UInt8) : Bool := 0x80 ≤ b && b ≤ 0xBF

/-- `utf8.DecodeRune(p)` on a non-empty `p`: the first rune and its width; an
invalid or cut-off sequence is `utf8.RuneError` (U+FFFD) of width one. -/
def decodeRune (p : Bytes) : Char × Nat :=
  match p with
  | [] => ('\uFFFD', 0)
  | b0 :: rest =>
    match leadRange b0 with
    | none => (if b0 < 0x80 then Char.ofNat b0.toNat else '\uFFFD', 1)
    | some (size, lo, hi) =>
      let x := b0.toNat
      match rest with
      | b1 :: rest =>
        if ¬ (lo ≤ b1 ∧ b1 ≤ hi) then ('\uFFFD', 1)
        else if size = 2 then (Char.ofNat ((x % 32) * 64 + b1.toNat % 64), 2)
        else match rest with
          | b2 :: rest =>
            if !isCont b2 then ('\uFFFD', 1)
            else if size = 3 then (Char.ofNat ((x % 16) * 4096 + (b1.toNat % 64) * 64 + b2.toNat % 64), 3)
            else match rest with
              | b3 :: _ =>
                if !isCont b3 then ('\uFFFD', 1)
                else (Char.ofNat ((x % 8) * 262144 + (b1.toNat % 64) * 4096 + (b2.toNat % 64) * 64 +
                  b3.toNat % 64), 4)
              | [] => ('\uFFFD', 1)
          | [] => ('\uFFFD', 1)
      | [] => ('\uFFFD', 1)

/-- The loop of `strings.Map(unicode.ToLower, s)`: each rune `range` decodes, an
invalid byte as `RuneError`, lowered and written in UTF-8. Every rune takes at
least one byte, so `fuel` at the length of `s` reads it all. -/
def lowerRunes : Nat → Bytes → Bytes
  | 0, _ => []
  | _ + 1, [] => []
  | fuel + 1, b :: bs =>
    String.utf8EncodeChar (unicodeToLower (decodeRune (b :: bs)).1) ++
      lowerRunes fuel ((b :: bs).drop (decodeRune (b :: bs)).2)

/-- `strings.ToLower` on the bytes of a Go string, which the slicing of
`Egress` may have left invalid. Its ASCII fast path lowers `A`-`Z`, as the
rune loop does. -/
def lowerBytes (b : Bytes) : Bytes := lowerRunes b.length b

/-- `strings.Contains` on a byte string. -/
def containsBytes (b substr : Bytes) : Bool := decide (substr <:+: b)

end OI
