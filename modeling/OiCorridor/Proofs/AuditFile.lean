import OiCorridor.Spec.AuditFile
import OiCorridor.Proofs.HandlerAudit
import OiCorridor.Proofs.JsonRoundTrip

/-! The audit file reads back as written. A line whose kind, `prev` and hash
have no tab or line terminator and whose message has no line terminator is
read by `readLines` as its text without the line feed and cut by `split("\t", 5)`
into its five fields. So `tail(n)` gives the records of the last `n` lines
among those that start after byte `len - 128000`, which a client's
`MiniJson.parse` reads back from the reply; and `readLastHash` gives the last
line's hash, unless that line alone fills the 256000 bytes read. With lines
that short the record-level `Audit` of `Spec/GatewayAudit`, which reads `head`
back from its last record, is what the gateway does on the file's text over
every run of appends and restarts, and what it appends is what `tail` reads
back. -/

set_option autoImplicit false

namespace OI.Flourish

open MiniJson

/-! ### Reading lines -/

theorem NoBreak.tail {c : Char} {cs : List Char} (h : NoBreak ⟨c :: cs⟩) : NoBreak ⟨cs⟩ :=
  fun d hd => h d (List.mem_cons_of_mem _ hd)

theorem readLines_line (acc : List Char) {line : List Char} (h : NoBreak ⟨line⟩) (rest : List Char) :
    readLines acc (line ++ '\n' :: rest) = String.mk (acc.reverse ++ line) :: readLines [] rest := by
  induction line generalizing acc with
  | nil => simp [readLines]
  | cons c line ih =>
    obtain ⟨h1, h2⟩ := h c (List.mem_cons_self _ _)
    rw [List.cons_append, readLines.eq_5 _ _ _ h1 (fun _ h _ => h2 h) h2, ih _ h.tail]
    simp

/-- The bytes of a list of characters. -/
def charBytes (cs : List Char) : Nat := (cs.map Char.utf8Size).sum

theorem utf8ByteSize_eq (s : String) : s.utf8ByteSize = charBytes s.data := by
  rcases s with ⟨cs⟩
  induction cs with
  | nil => rfl
  | cons c cs ih =>
    simp only [charBytes, List.map_cons, List.sum_cons] at ih ⊢
    rw [← ih]
    exact Nat.add_comm _ _

theorem skipLine_line (pos : Nat) {line : List Char} (h : NoBreak ⟨line⟩) (rest : List Char) :
    skipLine pos (line ++ '\n' :: rest) =
      if pos ≤ charBytes line then rest else skipLine (pos - charBytes line - 1) rest := by
  induction line generalizing pos with
  | nil =>
    rw [List.nil_append, skipLine, show charBytes [] = 0 from rfl, show '\n'.utf8Size = 1 from rfl]
    rcases Nat.eq_zero_or_pos pos with rfl | hp
    · rfl
    · rw [if_neg (fun h => hp.ne' h.1), if_neg (fun h => hp.ne' h.1), if_neg (by omega), Nat.sub_zero]
  | cons c line ih =>
    obtain ⟨h1, h2⟩ := h c (List.mem_cons_self _ _)
    rw [List.cons_append, skipLine, if_neg (fun h => h1 h.2), if_neg (fun h => h2 h.2), ih _ h.tail,
      show charBytes (c :: line) = c.utf8Size + charBytes line from rfl]
    simp only [← Nat.sub_le_iff_le_add', Nat.sub_sub, Nat.add_assoc]

/-! ### Cutting a line into fields -/

theorem span_field {a : List Char} (ha : '\t' ∉ a) (rest : List Char) :
    (a ++ '\t' :: rest).span (· != '\t') = (a, '\t' :: rest) := by
  have hp : ∀ c ∈ a, (c != '\t') = true := fun c hc => bne_iff_ne.mpr fun h => ha (h ▸ hc)
  rw [List.span_eq_take_drop, List.takeWhile_append_of_pos hp, List.dropWhile_append_of_pos hp,
    List.takeWhile_cons_of_neg (by decide), List.dropWhile_cons_of_neg (by decide), List.append_nil]

theorem splitTab_field (k : Nat) {a : List Char} (ha : '\t' ∉ a) (rest : List Char) :
    splitTab (k + 1) (a ++ '\t' :: rest) = String.mk a :: splitTab k rest := by
  rw [splitTab, span_field ha]

/-- A field read back whole: no tab and no line terminator. -/
def PlainField (s : String) : Prop := ∀ c ∈ s.data, c ≠ '\t' ∧ c ≠ '\n' ∧ c ≠ '\r'

instance (s : String) : Decidable (PlainField s) := inferInstanceAs (Decidable (∀ c ∈ s.data, _))

theorem PlainField.noBreak {s : String} (h : PlainField s) : NoBreak s :=
  fun c hc => (h c hc).2

theorem PlainField.no_tab {s : String} (h : PlainField s) : '\t' ∉ s.data :=
  fun hc => (h _ hc).1 rfl

theorem toString_int_plain (i : Int) : PlainField (toString i) := by
  intro c hc
  rw [toString_int_data] at hc
  rcases List.mem_append.mp hc with hc | hc
  · split_ifs at hc <;> simp_all
  · have hd := (toString_nat_decimal i.natAbs).1 c hc
    exact ⟨isDigit_ne hd rfl, isDigit_ne hd rfl, isDigit_ne hd rfl⟩

/-- A line whose fields read back as written: a plain kind, `prev` and hash,
and a message without line terminators. -/
structure AuditLine.Plain (l : AuditLine) : Prop where
  kind : PlainField l.kind
  prev : PlainField l.prev
  hash : PlainField l.hash
  msg : NoBreak l.msg

instance (l : AuditLine) : Decidable l.Plain :=
  decidable_of_iff (PlainField l.kind ∧ PlainField l.prev ∧ PlainField l.hash ∧ NoBreak l.msg)
    ⟨fun ⟨a, b, c, d⟩ => ⟨a, b, c, d⟩, fun h => ⟨h.kind, h.prev, h.hash, h.msg⟩⟩

/-- The characters of a line before its line feed. -/
def AuditLine.body (l : AuditLine) : List Char :=
  (toString l.ts).data ++ '\t' :: (l.kind.data ++ '\t' :: (l.prev.data ++ '\t' ::
    (l.hash.data ++ '\t' :: l.msg.data)))

theorem AuditLine.render_data (l : AuditLine) : l.render.data = l.body ++ ['\n'] := by
  simp [AuditLine.render, AuditLine.body]

theorem AuditLine.Plain.body {l : AuditLine} (h : l.Plain) : NoBreak ⟨l.body⟩ := by
  have htab : NoBreak "\t" := by decide
  exact (toString_int_plain l.ts).noBreak.append (htab.append (h.kind.noBreak.append (htab.append
    (h.prev.noBreak.append (htab.append (h.hash.noBreak.append (htab.append h.msg)))))))

theorem AuditLine.Plain.splitTab {l : AuditLine} (h : l.Plain) :
    splitTab 4 l.body = [toString l.ts, l.kind, l.prev, l.hash, l.msg] := by
  rw [AuditLine.body, splitTab_field 3 (toString_int_plain l.ts).no_tab,
    splitTab_field 2 h.kind.no_tab, splitTab_field 1 h.prev.no_tab, splitTab_field 0 h.hash.no_tab]
  rfl

/-! ### Reading the file -/

theorem foldl_append_data (s : String) (l : List String) :
    (l.foldl (· ++ ·) s).data = s.data ++ l.flatMap String.data := by
  induction l generalizing s with
  | nil => simp
  | cons a l ih => simp [ih]

theorem fileText_data (lines : List AuditLine) :
    (fileText lines).data = lines.flatMap fun l => l.body ++ ['\n'] := by
  simp [fileText, String.join, foldl_append_data, AuditLine.render_data, List.flatMap_map]

theorem AuditLine.render_bytes (l : AuditLine) : l.render.utf8ByteSize = charBytes l.body + 1 := by
  simp [utf8ByteSize_eq, AuditLine.render_data, charBytes, show '\n'.utf8Size = 1 from rfl]

theorem readLines_fileText {lines : List AuditLine} (h : ∀ l ∈ lines, l.Plain) :
    readLines [] (fileText lines).data = lines.map fun l => String.mk l.body := by
  induction lines with
  | nil => rfl
  | cons l ls ih =>
    rw [fileText_data, List.flatMap_cons, List.append_assoc, List.singleton_append,
      readLines_line [] (h l (List.mem_cons_self _ _)).body, ← fileText_data,
      ih fun l' hl' => h l' (List.mem_cons_of_mem _ hl')]
    rfl

/-- The lines of a file holding `lines` that start after byte `pos`. -/
def linesAfter (pos : Nat) : List AuditLine → List AuditLine
  | [] => []
  | l :: ls => if pos < l.render.utf8ByteSize then ls else linesAfter (pos - l.render.utf8ByteSize) ls

theorem linesAfter_suffix (pos : Nat) (lines : List AuditLine) : linesAfter pos lines <:+ lines := by
  induction lines generalizing pos with
  | nil => exact List.suffix_refl _
  | cons l ls ih =>
    rw [linesAfter]
    split_ifs
    · exact List.suffix_cons _ _
    · exact (ih _).trans (List.suffix_cons _ _)

theorem skipLine_fileText (pos : Nat) {lines : List AuditLine} (h : ∀ l ∈ lines, l.Plain) :
    skipLine pos (fileText lines).data = (fileText (linesAfter pos lines)).data := by
  induction lines generalizing pos with
  | nil => rcases pos with _ | _ <;> rfl
  | cons l ls ih =>
    rw [fileText_data, List.flatMap_cons, List.append_assoc, List.singleton_append,
      skipLine_line pos (h l (List.mem_cons_self _ _)).body, ← fileText_data, linesAfter,
      AuditLine.render_bytes, Nat.sub_sub, ih _ fun l' hl' => h l' (List.mem_cons_of_mem _ hl')]
    split_ifs <;> first | rfl | omega

/-- The lines a read of the last `window` bytes sees: all of them when the file
has at most `window` bytes, else those that start after byte `len - window`. -/
def inWindow (window : Nat) (lines : List AuditLine) : List AuditLine :=
  if (fileText lines).utf8ByteSize ≤ window then lines
  else linesAfter ((fileText lines).utf8ByteSize - window) lines

theorem inWindow_suffix (window : Nat) (lines : List AuditLine) : inWindow window lines <:+ lines := by
  unfold inWindow
  split_ifs
  · exact List.suffix_refl _
  · exact linesAfter_suffix _ _

theorem windowLines_fileText (window : Nat) {lines : List AuditLine} (h : ∀ l ∈ lines, l.Plain) :
    windowLines window (fileText lines) = (inWindow window lines).map fun l => String.mk l.body := by
  have hw : ∀ l ∈ inWindow window lines, l.Plain := fun l hl => h l ((inWindow_suffix _ _).subset hl)
  rw [← readLines_fileText hw, windowLines, inWindow]
  split_ifs with h₁ h₂ h₂
  · omega
  · rw [skipLine_fileText _ h]
  · rfl
  · omega

/-! ### Reading records back -/

theorem signPart_digit {c : Char} (hc : c.isDigit = true) (cs : List Char) :
    signPart (c :: cs) = (false, c :: cs) :=
  signPart.eq_3 _ (fun _ h => absurd ((List.cons.inj h).1 ▸ hc) (by decide))
    (fun _ h => absurd ((List.cons.inj h).1 ▸ hc) (by decide))

theorem parseSigned_toString (bits : Nat) {v : Int} (h1 : -2 ^ (bits - 1) ≤ v) (h2 : v < 2 ^ (bits - 1)) :
    parseSigned bits (toString v) = some v := by
  obtain ⟨hd, hne, hfold⟩ := toString_nat_decimal v.natAbs
  have hall : (toString v.natAbs).data.all Char.isDigit = true := List.all_eq_true.mpr hd
  have hsign : signPart (toString v).data = (decide (v < 0), (toString v.natAbs).data) := by
    rw [toString_int_data]
    by_cases hv : v < 0
    · simp only [hv, if_true, List.singleton_append, decide_True]; rfl
    · rcases hcs : (toString v.natAbs).data with _ | ⟨c, cs⟩
      · exact absurd hcs hne
      · simp only [hv, if_false, List.nil_append, decide_False]
        exact signPart_digit (hd c (hcs ▸ List.mem_cons_self _ _)) cs
  have hv : (if decide (v < 0) = true then -(v.natAbs : Int) else v.natAbs) = v := by
    split_ifs with h <;> simp at h <;> omega
  simp only [parseSigned, hsign, hne, hall, hfold, ne_eq, not_false_eq_true, and_self, if_true, hv]
  rw [if_pos ⟨h1, h2⟩]

/-- A clock value Java holds in a `long`. -/
def InLong (v : Int) : Prop := -2 ^ 63 ≤ v ∧ v < 2 ^ 63

instance (v : Int) : Decidable (InLong v) := inferInstanceAs (Decidable (_ ∧ _))

theorem Long.parseLong_toString {v : Int} (h : InLong v) : Long.parseLong (toString v) = some v :=
  parseSigned_toString 64 h.1 h.2

/-- The record `tail` builds for a line. -/
def AuditLine.record (l : AuditLine) : List (String × JValue) :=
  [("ts", .long l.ts), ("kind", .str l.kind), ("prev", .str l.prev), ("hash", .str l.hash),
    ("msg", .str l.msg)]

theorem records_lines {lines : List AuditLine} (h : ∀ l ∈ lines, l.Plain ∧ InLong l.ts) :
    AuditFile.records (lines.map fun l => String.mk l.body) = some (lines.map AuditLine.record) := by
  induction lines with
  | nil => rfl
  | cons l ls ih =>
    obtain ⟨hp, hl⟩ := h l (List.mem_cons_self _ _)
    simp only [List.map_cons, AuditFile.records, hp.splitTab, Long.parseLong_toString hl,
      ih fun l' hl' => h l' (List.mem_cons_of_mem _ hl')]
    rfl

/-- The lines `tail(n)` returns: the last `n` (25 when `n ≤ 0`) of those in the
last 128000 bytes. -/
def tailLines (n : Int) (lines : List AuditLine) : List AuditLine :=
  (inWindow 128000 lines).drop ((inWindow 128000 lines).length - (if n ≤ 0 then 25 else n).toNat)

theorem tail_fileText {lines : List AuditLine} (h : ∀ l ∈ lines, l.Plain ∧ InLong l.ts) (n : Int) :
    AuditFile.tail (some (fileText lines)) n = some ((tailLines n lines).map AuditLine.record) := by
  simp only [AuditFile.tail, windowLines_fileText 128000 fun l hl => (h l hl).1, List.length_map,
    ← List.map_drop]
  exact records_lines fun l hl => h l ((inWindow_suffix _ _).subset (List.mem_of_mem_drop hl))

theorem AuditLine.record_printable {l : AuditLine} (h : InLong l.ts) : Printable (.obj l.record) := by
  refine .obj (by simp [AuditLine.record]) ?_
  simp only [AuditLine.record, List.forall_mem_cons, List.not_mem_nil, false_imp_iff, implies_true,
    and_true]
  exact ⟨.long h.1 h.2, .str _, .str _, .str _, .str _⟩

/-- `/v1/audit/tail`, past the rate limiter, over a file of plain lines with
`long` clock values: the reply is 200, and `MiniJson.parse` reads its body back
as the records of the last `n` lines among those that start after byte
`len - 128000` (all of them when the file has at most 128000 bytes), `n` being
the last `n=` of the query that parses (25 when there is none or it is not
positive). -/
theorem auditTail_reads_back {lines : List AuditLine} (h : ∀ l ∈ lines, l.Plain ∧ InLong l.ts)
    (query : Option String) :
    ∃ body, auditTail true query (some (fileText lines)) = some (200, body) ∧
      parse body = .ok (.arr ((tailLines (tailCount query) lines).map fun l => .obj l.record)) := by
  refine ⟨_, by simp only [auditTail, Bool.not_true, tail_fileText h]; rfl, ?_⟩
  rw [List.map_map]
  refine parse_str (.arr fun v hv => ?_)
  obtain ⟨l, hl, rfl⟩ := List.mem_map.mp hv
  exact AuditLine.record_printable (h l ((inWindow_suffix _ _).subset (List.mem_of_mem_drop hl))).2

theorem auditTail_reads_back_one :
    (∀ l ∈ [AuditLine.mk 1 "ASK_ALLOW" "GENESIS" "0" "ok"], l.Plain ∧ InLong l.ts) ∧
    ∃ body, auditTail true (some "n=5") (some (fileText [⟨1, "ASK_ALLOW", "GENESIS", "0", "ok"⟩])) =
        some (200, body) ∧
      parse body = .ok (.arr ((tailLines (tailCount (some "n=5")) [⟨1, "ASK_ALLOW", "GENESIS", "0", "ok"⟩]).map
        fun l => .obj l.record)) :=
  ⟨by decide, auditTail_reads_back (by decide) _⟩

/-! ### Reading the last hash -/

theorem utf8ByteSize_append (s t : String) : (s ++ t).utf8ByteSize = s.utf8ByteSize + t.utf8ByteSize := by
  simp [utf8ByteSize_eq, charBytes]

theorem fileText_nil : fileText [] = "" := rfl

theorem fileText_append (pre post : List AuditLine) : fileText (pre ++ post) = fileText pre ++ fileText post :=
  String.ext (by simp [fileText_data])

theorem fileText_cons (l : AuditLine) (ls : List AuditLine) : fileText (l :: ls) = l.render ++ fileText ls :=
  String.ext (by simp [fileText_data, AuditLine.render_data])

theorem linesAfter_append (pos : Nat) (pre post : List AuditLine) :
    linesAfter pos (pre ++ post) =
      if pos < (fileText pre).utf8ByteSize then linesAfter pos pre ++ post
      else linesAfter (pos - (fileText pre).utf8ByteSize) post := by
  induction pre generalizing pos with
  | nil => rfl
  | cons p pre ih =>
    rw [List.cons_append, linesAfter, linesAfter, ih, fileText_cons, utf8ByteSize_append]
    by_cases h₁ : pos < p.render.utf8ByteSize
    · simp only [h₁, if_true, show pos < p.render.utf8ByteSize + (fileText pre).utf8ByteSize by omega]
    · have h₂ : pos - p.render.utf8ByteSize < (fileText pre).utf8ByteSize ↔
          pos < p.render.utf8ByteSize + (fileText pre).utf8ByteSize := by omega
      simp only [h₁, if_false, h₂, Nat.sub_sub]

theorem linesAfter_single (pos : Nat) (l : AuditLine) : linesAfter pos [l] = [] := by
  rw [linesAfter, linesAfter, ite_self]

/-- `readLastHash` gives the last line's hash, except when the file has more
than 256000 bytes and its last line alone has 256000 or more: the window then
starts within that line, which the skip reads up, and `null` comes back. -/
theorem readLastHash_fileText {pre : List AuditLine} {l : AuditLine} (h : ∀ l' ∈ pre ++ [l], l'.Plain) :
    AuditFile.readLastHash (fileText (pre ++ [l])) =
      if 256000 ≤ l.render.utf8ByteSize ∧ 256000 < (fileText (pre ++ [l])).utf8ByteSize then none
      else some l.hash := by
  have hlen : (fileText (pre ++ [l])).utf8ByteSize = (fileText pre).utf8ByteSize + l.render.utf8ByteSize := by
    rw [fileText_append, utf8ByteSize_append, fileText_cons, fileText_nil, String.append_empty]
  have hl := l.render_bytes
  have hlast : ∀ ls, (ls ++ [l]).getLast? = some l := fun ls => List.getLast?_concat ls
  unfold AuditFile.readLastHash
  rw [if_neg (by omega), windowLines_fileText _ h, List.getLast?_map, inWindow]
  split_ifs with hw hshort hshort
  · omega
  · rw [hlast]
    simp only [Option.map_some', (h l (by simp)).splitTab]
  · rw [linesAfter_append, if_neg (by omega), linesAfter_single]
    rfl
  · rw [linesAfter_append, if_pos (by omega), hlast]
    simp only [Option.map_some', (h l (by simp)).splitTab]

theorem readLastHash_fileText_one :
    (∀ l' ∈ [] ++ [AuditLine.mk 1 "ASK_ALLOW" "GENESIS" "0" "ok"], l'.Plain) ∧
    AuditFile.readLastHash (fileText ([] ++ [⟨1, "ASK_ALLOW", "GENESIS", "0", "ok"⟩])) =
      if 256000 ≤ (AuditLine.mk 1 "ASK_ALLOW" "GENESIS" "0" "ok").render.utf8ByteSize ∧
          256000 < (fileText ([] ++ [⟨1, "ASK_ALLOW", "GENESIS", "0", "ok"⟩])).utf8ByteSize then none
      else some "0" :=
  ⟨by decide, readLastHash_fileText (by decide)⟩

theorem readLastHash_eq {lines : List AuditLine} (h : ∀ l ∈ lines, l.Plain)
    (hl : ∀ l ∈ lines.getLast?, l.render.utf8ByteSize < 256000) :
    AuditFile.readLastHash (fileText lines) = Audit.readLastHash lines := by
  rcases List.eq_nil_or_concat lines with rfl | ⟨pre, l, rfl⟩
  · rfl
  · rw [List.concat_eq_append] at h hl ⊢
    rw [readLastHash_fileText h, if_neg fun hc => absurd (hl l (List.getLast?_concat pre)) (by omega)]
    simp [Audit.readLastHash]

/-! ### The record-level audit is the file's -/

/-- A hash field: plain and at most 64 bytes, as `GENESIS` and the 64 hex
digits `sha256Hex` returns are. -/
def Digest (s : String) : Prop := PlainField s ∧ s.utf8ByteSize ≤ 64

instance (s : String) : Decidable (Digest s) := inferInstanceAs (Decidable (_ ∧ _))

/-- A line that `readLastHash` reads back: plain, with a digest for its hash,
and shorter than the 256000 bytes read. -/
structure AuditLine.Readable (l : AuditLine) : Prop where
  plain : l.Plain
  hash : Digest l.hash
  short : l.render.utf8ByteSize < 256000

/-- What the file keeps: every line readable, and `head` a digest. -/
structure Audit.Readable (a : Audit) : Prop where
  lines : ∀ lines, a.file = some lines → ∀ l ∈ lines, l.Readable
  head : Digest a.head

/-- An event whose line reads back: a `long` clock value, and for an append a
plain kind with fewer than 255800 bytes together with the sanitized message.
With the clock value's at most 20 bytes, four tabs, the line feed and two hash
fields of at most 64 bytes, the line stays under 256000 bytes. -/
def Audit.Event.Fits : Audit.Event → Prop
  | .append kind msg ts _ =>
    InLong ts ∧ PlainField kind ∧ kind.utf8ByteSize + (Audit.sanitize msg).utf8ByteSize < 255800
  | .restart ts _ => InLong ts

instance : DecidablePred Audit.Event.Fits := fun e =>
  match e with
  | .append .. => inferInstanceAs (Decidable (_ ∧ _ ∧ _))
  | .restart ts _ => inferInstanceAs (Decidable (InLong ts))

/-- The file text and `head` of an audit held as lines. -/
def Audit.toFile (a : Audit) : AuditFile := ⟨a.file.map fileText, a.head⟩

theorem sanitize_noBreak (msg : Option String) : NoBreak (Audit.sanitize msg) := by
  rcases msg with _ | s
  · exact fun _ h => absurd h (List.not_mem_nil _)
  · intro c hc
    obtain ⟨d, -, rfl⟩ := List.mem_map.mp hc
    split_ifs with hd
    · exact ⟨by decide, by decide⟩
    · exact not_or.mp hd

theorem charBytes_digits {cs : List Char} (h : ∀ c ∈ cs, c.isDigit = true) : charBytes cs = cs.length := by
  induction cs with
  | nil => rfl
  | cons c cs ih =>
    have hc : c.utf8Size = 1 := by
      rcases List.mem_cons.mp (isDigit_cases (h c (List.mem_cons_self _ _))) with rfl | hc
      · rfl
      · simp only [List.mem_cons, List.mem_singleton, List.not_mem_nil, or_false] at hc
        rcases hc with rfl | rfl | rfl | rfl | rfl | rfl | rfl | rfl | rfl <;> rfl
    simp only [charBytes, List.map_cons, List.sum_cons, List.length_cons] at ih ⊢
    rw [hc, ih fun d hd => h d (List.mem_cons_of_mem _ hd)]
    omega

theorem charBytes_append (a b : List Char) : charBytes (a ++ b) = charBytes a + charBytes b := by
  simp [charBytes]

theorem toString_bytes_le {v : Int} (h : InLong v) : (toString v).utf8ByteSize ≤ 20 := by
  have hn : v.natAbs < 10 ^ 19 := by
    have := h.1; have := h.2; norm_num at *; omega
  have hlen : (toString v.natAbs).data.length ≤ 19 := Nat.repr_length v.natAbs 19 (by decide) hn
  have hsign : charBytes (if v < 0 then ['-'] else []) ≤ 1 := by split_ifs <;> decide
  rw [utf8ByteSize_eq, toString_int_data, charBytes_append,
    charBytes_digits (toString_nat_decimal v.natAbs).1]
  omega

theorem AuditLine.render_size (l : AuditLine) :
    l.render.utf8ByteSize = (toString l.ts).utf8ByteSize + l.kind.utf8ByteSize + l.prev.utf8ByteSize +
      l.hash.utf8ByteSize + l.msg.utf8ByteSize + 5 := by
  simp only [AuditLine.render, utf8ByteSize_append, show "\t".utf8ByteSize = 1 from rfl,
    show "\n".utf8ByteSize = 1 from rfl]
  omega

theorem digest_genesis : Digest "GENESIS" := ⟨by unfold PlainField; decide, by decide⟩

/-- Every line's clock value is a `long`, which `tail` reads back. -/
def Audit.LongStamps (a : Audit) : Prop := ∀ l ∈ a.file.getD [], InLong l.ts

theorem Audit.LongStamps.append {sha256Hex : String → String} {a : Audit} (hl : a.LongStamps)
    {kind : String} {msg : Option String} {ts : Int} (hts : InLong ts) (written : Bool) :
    (Audit.append sha256Hex a kind msg ts written).2.LongStamps := by
  intro l hl'
  cases written
  · exact hl l hl'
  · rcases List.mem_append.mp hl' with h | h
    · exact hl l h
    · rw [List.mem_singleton.mp h]; exact hts

theorem Audit.LongStamps.step {sha256Hex : String → String} {a : Audit} (hl : a.LongStamps)
    {e : Audit.Event} (he : e.Fits) : (Audit.step sha256Hex a e).LongStamps := by
  cases e with
  | append kind msg ts written => exact hl.append he.1 written
  | restart ts written =>
    rcases hf : a.file with _ | lines
    · simp only [Audit.step, Audit.new, hf]
      exact Audit.LongStamps.append (a := ⟨none, "GENESIS"⟩) (fun _ h => absurd h (List.not_mem_nil _)) he written
    · simpa only [Audit.LongStamps, Audit.step, Audit.new, hf] using hl

theorem Audit.LongStamps.run {sha256Hex : String → String} {a : Audit} (hl : a.LongStamps)
    {es : List Audit.Event} (hes : ∀ e ∈ es, e.Fits) : (Audit.run sha256Hex a es).LongStamps := by
  induction es generalizing a with
  | nil => exact hl
  | cons e es ih => exact ih (hl.step (hes e (List.mem_cons_self _ _))) fun e' he' => hes e' (List.mem_cons_of_mem _ he')

section Refinement

variable {sha256Hex : String → String} (hsha : ∀ s, Digest (sha256Hex s))
include hsha

theorem Audit.Readable.append {a : Audit} (ha : a.Readable) {kind : String} {msg : Option String}
    {ts : Int} (hts : InLong ts) (hk : PlainField kind)
    (hsize : kind.utf8ByteSize + (Audit.sanitize msg).utf8ByteSize < 255800) (written : Bool) :
    (AuditFile.append sha256Hex a.toFile kind msg ts written).2 =
        (Audit.append sha256Hex a kind msg ts written).2.toFile ∧
      (Audit.append sha256Hex a kind msg ts written).2.Readable := by
  set l : AuditLine := ⟨ts, kind, a.head, sha256Hex (Audit.hashInput a.head kind (msg.getD "null") ts),
    Audit.sanitize msg⟩ with hl
  have hread : l.Readable := by
    refine ⟨⟨hk, ha.head.1, (hsha _).1, sanitize_noBreak msg⟩, hsha _, ?_⟩
    have := toString_bytes_le hts; have := ha.head.2; have := (hsha (Audit.hashInput a.head kind
      (msg.getD "null") ts)).2
    rw [AuditLine.render_size, hl]
    dsimp only
    omega
  have hold : ∀ l' ∈ a.file.getD [], l'.Readable := by
    rcases hf : a.file with _ | lines
    · exact fun _ h => absurd h (List.not_mem_nil _)
    · exact ha.lines lines hf
  refine ⟨?_, ⟨fun lines hlines l' hl' => ?_, hsha _⟩⟩
  · rcases written <;> rcases hf : a.file with _ | lines <;>
      simp [Audit.toFile, AuditFile.append, Audit.append, hf, fileText_append, fileText_cons, fileText_nil, ← hl]
  · cases written
    · exact ha.lines lines hlines l' hl'
    · cases hlines
      rcases List.mem_append.mp hl' with hl' | hl'
      exacts [hold l' hl', List.mem_singleton.mp hl' ▸ hread]

theorem Audit.Readable.new {a : Audit} (ha : a.Readable) {ts : Int} (hts : InLong ts) (written : Bool) :
    AuditFile.new sha256Hex a.toFile.file ts written = (Audit.new sha256Hex a.file ts written).toFile ∧
      (Audit.new sha256Hex a.file ts written).Readable := by
  rcases hf : a.file with _ | lines
  · have h₀ : Audit.Readable ⟨none, "GENESIS"⟩ := ⟨(fun _ h => by cases h), digest_genesis⟩
    simp only [Audit.toFile, hf, Option.map_none', AuditFile.new, Audit.new]
    exact h₀.append hsha hts (by unfold PlainField; decide) (by decide) written
  · have hread := ha.lines lines hf
    have hlast : ∀ l ∈ lines.getLast?, l.Readable := fun l hl => hread l (List.mem_of_getLast?_eq_some hl)
    refine ⟨?_, fun lines' h' => ?_, ?_⟩
    · simp only [Audit.toFile, hf, Option.map_some', AuditFile.new, Audit.new,
        readLastHash_eq (fun l hl => (hread l hl).plain) fun l hl => (hlast l hl).short]
    · cases h'; exact hread
    · simp only [Audit.new, Audit.readLastHash]
      rcases hl : lines.getLast? with _ | l
      · exact digest_genesis
      · exact (hlast l hl).hash

theorem Audit.Readable.step {a : Audit} (ha : a.Readable) {e : Audit.Event} (he : e.Fits) :
    AuditFile.step sha256Hex a.toFile e = (Audit.step sha256Hex a e).toFile ∧
      (Audit.step sha256Hex a e).Readable := by
  cases e with
  | append kind msg ts written => exact ha.append hsha he.1 he.2.1 he.2.2 written
  | restart ts written => exact ha.new hsha he written

theorem Audit.Readable.run {a : Audit} (ha : a.Readable) {es : List Audit.Event} (hes : ∀ e ∈ es, e.Fits) :
    AuditFile.run sha256Hex a.toFile es = (Audit.run sha256Hex a es).toFile ∧
      (Audit.run sha256Hex a es).Readable := by
  induction es generalizing a with
  | nil => exact ⟨rfl, ha⟩
  | cons e es ih =>
    obtain ⟨heq, hr⟩ := ha.step hsha (hes e (List.mem_cons_self _ _))
    simp only [AuditFile.run, Audit.run, List.foldl_cons] at ih ⊢
    rw [heq]
    exact ih hr fun e' he' => hes e' (List.mem_cons_of_mem _ he')

/-- The record-level `Audit` is the file's: from any audit whose lines read
back, over every run of appends and restarts whose lines fit, the gateway's
`Audit` on the file's text ends with the text of the record-level run's lines
and the same `head`. So every restart reads back the head the record model
gives it. -/
theorem run_toFile {a : Audit} (ha : a.Readable) {es : List Audit.Event} (hes : ∀ e ∈ es, e.Fits) :
    AuditFile.run sha256Hex a.toFile es = (Audit.run sha256Hex a es).toFile :=
  (ha.run hsha hes).1

/-- From a gateway started without an audit file, every run of appends of
clean messages whose writes are done, and of restarts, whose lines fit, leaves
a file whose text renders a verifiable chain ending at `head`: each restart
reads the last hash back from the file's last 256000 bytes. -/
theorem Audit.new_run_verifiable (ts : Int) (written : Bool) (hts : InLong ts) {es : List Audit.Event}
    (hes : ∀ e ∈ es, e.Clean ∧ e.Fits) :
    ∃ a : Audit, AuditFile.run sha256Hex (AuditFile.new sha256Hex none ts written) es = a.toFile ∧
      Audit.Verifiable sha256Hex a := by
  have h₀ : Audit.Readable ⟨none, "GENESIS"⟩ := ⟨(fun _ h => by cases h), digest_genesis⟩
  have hfits : ∀ e ∈ Audit.Event.restart ts written :: es, e.Fits := fun e he => by
    rcases List.mem_cons.mp he with rfl | he
    exacts [hts, (hes e he).2]
  exact ⟨_, run_toFile hsha h₀ hfits,
    (@Audit.Verifiable.new sha256Hex ⟨none, ""⟩ (fun _ h => by cases h) ts written).run fun e he => (hes e he).1⟩

/-- What the gateway appends is what `tail(n)` reads back: from any audit whose
lines read back with `long` clock values, over every run of appends and
restarts whose lines fit, `tail(n)` on the file's text gives the records of the
last `n` lines (25 when `n ≤ 0`) among those the record-level run holds in the
last 128000 bytes. -/
theorem run_tail {a : Audit} (ha : a.Readable) (hl : a.LongStamps) {es : List Audit.Event}
    (hes : ∀ e ∈ es, e.Fits) {lines : List AuditLine} (hf : (Audit.run sha256Hex a es).file = some lines)
    (n : Int) :
    AuditFile.tail (AuditFile.run sha256Hex a.toFile es).file n =
      some ((tailLines n lines).map AuditLine.record) := by
  obtain ⟨heq, hr⟩ := ha.run hsha hes
  have hlong : ∀ l ∈ lines, InLong l.ts := by
    simpa only [Audit.LongStamps, hf] using (hl.run hes : (Audit.run sha256Hex a es).LongStamps)
  rw [heq, Audit.toFile, hf, Option.map_some']
  exact tail_fileText (fun l h => ⟨(hr.lines lines hf l h).plain, hlong l h⟩) n

end Refinement

theorem run_toFile_restart :
    (∀ s, Digest ((fun _ : String => "0") s)) ∧ Audit.Readable ⟨none, "GENESIS"⟩ ∧
    (∀ e ∈ [Audit.Event.append "ASK_ALLOW" (some "ok") 1 true, .restart 2 true], e.Fits) ∧
    AuditFile.run (fun _ : String => "0") (Audit.toFile ⟨none, "GENESIS"⟩)
        [.append "ASK_ALLOW" (some "ok") 1 true, .restart 2 true] =
      (Audit.run (fun _ : String => "0") ⟨none, "GENESIS"⟩ [.append "ASK_ALLOW" (some "ok") 1 true, .restart 2 true]).toFile :=
  have hsha : ∀ s, Digest ((fun _ : String => "0") s) := fun _ => show Digest "0" by decide
  have ha : Audit.Readable ⟨none, "GENESIS"⟩ := ⟨(fun _ h => by cases h), by decide⟩
  ⟨hsha, ha, by decide, run_toFile hsha ha (by decide)⟩

theorem new_run_verifiable_restart :
    (∀ s, Digest ((fun _ : String => "0") s)) ∧ InLong 0 ∧
      (∀ e ∈ [Audit.Event.append "ASK_ALLOW" (some "ok") 1 true, .restart 2 true], e.Clean ∧ e.Fits) ∧
      ∃ a : Audit, AuditFile.run (fun _ => "0") (AuditFile.new (fun _ => "0") none 0 true)
          [.append "ASK_ALLOW" (some "ok") 1 true, .restart 2 true] = a.toFile ∧
        Audit.Verifiable (fun _ => "0") a :=
  have hsha : ∀ s, Digest ((fun _ : String => "0") s) := fun _ => show Digest "0" by decide
  ⟨hsha, by decide, by decide, Audit.new_run_verifiable hsha 0 true (by decide) (by decide)⟩

theorem run_tail_ask :
    (∀ s, Digest ((fun _ : String => "0") s)) ∧ Audit.Readable ⟨none, "GENESIS"⟩ ∧
    Audit.LongStamps ⟨none, "GENESIS"⟩ ∧ (∀ e ∈ [Audit.Event.append "ASK_ALLOW" (some "ok") 1 true], e.Fits) ∧
    (Audit.run (fun _ : String => "0") ⟨none, "GENESIS"⟩ [.append "ASK_ALLOW" (some "ok") 1 true]).file =
      some [⟨1, "ASK_ALLOW", "GENESIS", "0", "ok"⟩] ∧
    AuditFile.tail (AuditFile.run (fun _ : String => "0") (Audit.toFile ⟨none, "GENESIS"⟩)
        [.append "ASK_ALLOW" (some "ok") 1 true]).file 5 =
      some ((tailLines 5 [⟨1, "ASK_ALLOW", "GENESIS", "0", "ok"⟩]).map AuditLine.record) :=
  have hsha : ∀ s, Digest ((fun _ : String => "0") s) := fun _ => show Digest "0" by decide
  have ha : Audit.Readable ⟨none, "GENESIS"⟩ := ⟨(fun _ h => by cases h), by decide⟩
  have hl : Audit.LongStamps ⟨none, "GENESIS"⟩ := fun _ h => absurd h (List.not_mem_nil _)
  have hf : (Audit.run (fun _ : String => "0") ⟨none, "GENESIS"⟩ [.append "ASK_ALLOW" (some "ok") 1 true]).file =
      some [⟨1, "ASK_ALLOW", "GENESIS", "0", "ok"⟩] := by decide
  ⟨hsha, ha, hl, by decide, hf, run_tail hsha ha hl (by decide) hf 5⟩

end OI.Flourish
