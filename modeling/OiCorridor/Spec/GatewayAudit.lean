import Mathlib.Data.List.Chain

/-! The gateway's `Audit`: a hash chain persisted one line per record. The file
is held as its lines, each as the five tab-separated fields `append` writes
(`ts`, `kind`, `prev`, `h`, `sanitize(msg)`); these read back as written, since
the kinds are the handlers' constants, `prev` and `h` are hashes and `sanitize`
takes the line breaks out of the message. SHA-256 is the parameter `sha256Hex`;
the clock is the `ts` each call reads; whether a write reaches the file is the
`written` flag of the call, since the code swallows the `IOException`. -/

set_option autoImplicit false

namespace OI.Flourish

/-- A line of the audit file. -/
structure AuditLine where
  ts : Int
  kind : String
  prev : String
  hash : String
  msg : String
  deriving DecidableEq, Repr

/-- `Audit`: the file's lines (`none` while the file does not exist) and `head`. -/
structure Audit where
  file : Option (List AuditLine)
  head : String
  deriving DecidableEq, Repr

namespace Audit

variable (sha256Hex : String → String)

/-- `sanitize(s)`: `""` for `null`, else line feeds and carriage returns become spaces. -/
def sanitize : Option String → String
  | none => ""
  | some s => ⟨s.data.map fun c => if c = '\n' ∨ c = '\r' then ' ' else c⟩

/-- The text `prev + "|" + kind + "|" + msg + "|" + ts` hashes; a `null` message
reads as `null`. -/
def hashInput (prev kind : String) (msg : String) (ts : Int) : String :=
  prev ++ "|" ++ kind ++ "|" ++ msg ++ "|" ++ toString ts

/-- `append(kind, msg)` at clock value `ts` seconds: the returned hash and the
audit after the call. `head` moves on whether or not the line is written. -/
def append (a : Audit) (kind : String) (msg : Option String) (ts : Int) (written : Bool) :
    String × Audit :=
  let prev := a.head
  let h := sha256Hex (hashInput prev kind (msg.getD "null") ts)
  let line : AuditLine := ⟨ts, kind, prev, h, sanitize msg⟩
  (h, { file := if written then some (a.file.getD [] ++ [line]) else a.file, head := h })

/-- `readLastHash(f)`: the hash field of the last line, `null` for an empty file. -/
def readLastHash (lines : List AuditLine) : Option String := (lines.getLast?).map AuditLine.hash

/-- `new Audit(path)` over the file as it stands: `head` is the last line's hash
when there is a file (`GENESIS` if it is empty), else a `GENESIS` record is
appended at clock value `ts`. -/
def new (file : Option (List AuditLine)) (ts : Int) (written : Bool) : Audit :=
  match file with
  | some lines => ⟨some lines, (readLastHash lines).getD "GENESIS"⟩
  | none => (append sha256Hex ⟨none, "GENESIS"⟩ "GENESIS" (some "start") ts written).2

/-- What happens to the audit: a call of `append`, or a restart of the gateway,
which builds a new `Audit` over the file. -/
inductive Event where
  | append (kind : String) (msg : Option String) (ts : Int) (written : Bool)
  | restart (ts : Int) (written : Bool)
  deriving DecidableEq, Repr

/-- One event. -/
def step (a : Audit) : Event → Audit
  | .append kind msg ts written => (append sha256Hex a kind msg ts written).2
  | .restart ts written => new sha256Hex a.file ts written

/-- A sequence of events. -/
def run (a : Audit) (es : List Event) : Audit := es.foldl (step sha256Hex) a

end Audit

end OI.Flourish
