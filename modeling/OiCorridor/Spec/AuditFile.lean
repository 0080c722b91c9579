import Mathlib.Algebra.Group.Int
import OiCorridor.Spec.GatewayAudit
import OiCorridor.Spec.JsonPrint

/-! The gateway's audit file as text. `append` writes each line as
`ts \t kind \t prev \t h \t sanitize(msg) \n`; the constructor reads `head`
back with `readLastHash`, and `/v1/audit/tail` reads records back with `tail`.
Both read the file with `RandomAccessFile`: from byte `max(0, len - window)`,
skipping the partial line there, then `readLine` until `null`, each line
decoded as UTF-8 and cut with `split("\t", 5)`. The file is held as its text.
Its bytes are the UTF-8 of that text, and the line terminators are one-byte
characters no other character's encoding contains, so `readLine` over the
bytes, decoded, cuts the text at `\n`, `\r` and `\r\n`; offsets count bytes
(`Char.utf8Size`). -/

set_option autoImplicit false

namespace OI.Flourish

open MiniJson

/-- The sign `Long.parseLong` and `Integer.parseInt` read: `-`, `+` or none,
with the characters after it. -/
def signPart : List Char → Bool × List Char
  | '-' :: ds => (true, ds)
  | '+' :: ds => (false, ds)
  | ds => (false, ds)

/-- `Long.parseLong(s)` (`bits = 64`) and `Integer.parseInt(s)` (`bits = 32`):
an optional `-` or `+`, then decimal digits, the value in the type's range;
`none` is the `NumberFormatException`. -/
def parseSigned (bits : Nat) (s : String) : Option Int :=
  let (neg, ds) := signPart s.data
  if ds ≠ [] ∧ ds.all Char.isDigit then
    let v : Int := ds.foldl (fun acc d => acc * 10 + (d.toNat - 48)) 0
    let v := if neg then -v else v
    if -2 ^ (bits - 1) ≤ v ∧ v < 2 ^ (bits - 1) then some v else none
  else none

/-- `Long.parseLong(s)`. -/
def Long.parseLong (s : String) : Option Int := parseSigned 64 s

/-- `Integer.parseInt(s)`. -/
def Integer.parseInt (s : String) : Option Int := parseSigned 32 s

/-- The text `append` writes for a line. -/
def AuditLine.render (l : AuditLine) : String :=
  toString l.ts ++ "\t" ++ l.kind ++ "\t" ++ l.prev ++ "\t" ++ l.hash ++ "\t" ++ l.msg ++ "\n"

/-- The text of a file holding `lines`. -/
def fileText (lines : List AuditLine) : String := String.join (lines.map AuditLine.render)

/-- `raf.readLine()` until it returns `null`, over the characters from the file
pointer on: a line ends at `\n`, `\r` or `\r\n`, and a last line without a
terminator counts when it is not empty. `acc` holds the characters of the line
being read, last first. -/
def readLines (acc : List Char) : List Char → List String
  | [] => if acc = [] then [] else [String.mk acc.reverse]
  | '\n' :: cs => String.mk acc.reverse :: readLines [] cs
  | '\r' :: '\n' :: cs => String.mk acc.reverse :: readLines [] cs
  | '\r' :: cs => String.mk acc.reverse :: readLines [] cs
  | c :: cs => readLines (c :: acc) cs

/-- After a `\r`, `readLine` reads one more character and keeps it when it is
the `\n` of a `\r\n`. -/
def dropLF : List Char → List Char
  | '\n' :: cs => cs
  | cs => cs

/-- `raf.seek(pos); raf.readLine()`: the characters after the first line
terminator at byte offset `pos` or later; `pos` counts the bytes still before
the file pointer. -/
def skipLine : Nat → List Char → List Char
  | _, [] => []
  | pos, c :: cs =>
    if pos = 0 ∧ c = '\n' then cs
    else if pos = 0 ∧ c = '\r' then dropLF cs
    else skipLine (pos - c.utf8Size) cs

/-- The lines `RandomAccessFile` reads from the last `window` bytes of the
file: from `pos = max(0, len - window)`, skipping one line first when `pos > 0`. -/
def windowLines (window : Nat) (text : String) : List String :=
  let pos := text.utf8ByteSize - window
  readLines [] (if 0 < pos then skipLine pos text.data else text.data)

/-- `s.split("\t", k + 1)`: cut at the first `k` tabs, the rest whole, empty
parts kept. -/
def splitTab : Nat → List Char → List String
  | 0, cs => [String.mk cs]
  | k + 1, cs =>
    match cs.span (· != '\t') with
    | (a, []) => [String.mk a]
    | (a, _ :: rest) => String.mk a :: splitTab k rest

/-- The gateway's `Audit` over the file's text (`none` while there is no file). -/
structure AuditFile where
  file : Option String
  head : String
  deriving DecidableEq, Repr

namespace AuditFile

variable (sha256Hex : String → String)

/-- `append(kind, msg)` at clock value `ts` seconds: the line's text is added
to the file when the write is done, and `head` moves on either way. -/
def append (a : AuditFile) (kind : String) (msg : Option String) (ts : Int) (written : Bool) :
    String × AuditFile :=
  let prev := a.head
  let h := sha256Hex (Audit.hashInput prev kind (msg.getD "null") ts)
  let line : AuditLine := ⟨ts, kind, prev, h, Audit.sanitize msg⟩
  (h, { file := if written then some (a.file.getD "" ++ line.render) else a.file, head := h })

/-- `readLastHash(f)`: `null` for an empty file, else the fourth field of the
last line read from the last 256000 bytes, `null` when there is none. -/
def readLastHash (text : String) : Option String :=
  if text.utf8ByteSize = 0 then none
  else
    match (windowLines 256000 text).getLast? with
    | none => none
    | some last =>
      match splitTab 4 last.data with
      | _ :: _ :: _ :: h :: _ => some h
      | _ => none

/-- `new Audit(path)`: `head` read back from an existing file (`GENESIS` when
`readLastHash` gives `null`), else a `GENESIS` record appended at `ts`. -/
def new (file : Option String) (ts : Int) (written : Bool) : AuditFile :=
  match file with
  | some text => ⟨some text, (readLastHash text).getD "GENESIS"⟩
  | none => (append sha256Hex ⟨none, "GENESIS"⟩ "GENESIS" (some "start") ts written).2

/-- One event on the file. -/
def step (a : AuditFile) : Audit.Event → AuditFile
  | .append kind msg ts written => (append sha256Hex a kind msg ts written).2
  | .restart ts written => new sha256Hex a.file ts written

/-- A sequence of events. -/
def run (a : AuditFile) (es : List Audit.Event) : AuditFile := es.foldl (step sha256Hex) a

/-- The records `tail` builds from lines, in order: `ts` (through
`Long.parseLong`), `kind`, `prev`, `hash` and `msg` (empty when the line has
four fields); a line with fewer than four fields is skipped, and `none` is the
`NumberFormatException` of a first field that is no `long`. -/
def records : List String → Option (List (List (String × JValue)))
  | [] => some []
  | line :: lines =>
    match splitTab 4 line.data with
    | ts :: kind :: prev :: hash :: msg => do
      let ts ← Long.parseLong ts
      let rest ← records lines
      some ([("ts", .long ts), ("kind", .str kind), ("prev", .str prev), ("hash", .str hash),
        ("msg", .str (msg.headD ""))] :: rest)
    | _ => records lines

/-- `tail(n)`: the records of the last `n` lines (25 when `n ≤ 0`) read from
the last 128000 bytes of the file; no line when there is no file, whose
`IOException` is caught. -/
def tail (file : Option String) (n : Int) : Option (List (List (String × JValue))) :=
  let n := if n ≤ 0 then 25 else n
  let lines := match file with
    | some text => windowLines 128000 text
    | none => []
  records (lines.drop (lines.length - n.toNat))

end AuditFile

/-- The `n` of `auditTail()`: 25, or the value of the last `n=` part of the
raw query that `Integer.parseInt` reads. The query is cut at every `&`; the
empty parts `split("&")` drops at the end start with no `n=`. -/
def tailCount (query : Option String) : Int :=
  ((query.getD "").data.splitOn '&').foldl
    (fun n p => if startsWith (String.mk p) "n=" then (Integer.parseInt (String.mk (p.drop 2))).getD n
      else n) 25

/-- `auditTail()` over the audit file: 429 past the rate limit, else 200 with
the records `tail(n)` gives, as the text `MiniJson.str` prints; `none` when
`tail` throws, and the exchange ends without a reply. -/
def auditTail (rateOk : Bool) (query file : Option String) : Option (Nat × String) :=
  if !rateOk then some (429, str (.obj [("error", .str "rate limited")]))
  else (AuditFile.tail file (tailCount query)).map fun rs => (200, str (.arr (rs.map .obj)))

end OI.Flourish
