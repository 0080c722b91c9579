import OiCorridor.Spec.GatewayAudit

/-! The gateway's audit chain. `append` hashes the raw message but stores it
sanitized, and moves `head` on before a write that may fail. So a message with
a line break, or a `null` one, gets a line whose hash field is not the hash of
its stored fields; and a failed write leaves `head` off the file, so the next
line written links to a hash no line has. With every write done and every
message one `sanitize` keeps, the file stays a verifiable chain through every
run, restarts included. -/

set_option autoImplicit false

namespace OI.Flourish

namespace Audit

variable (sha256Hex : String → String)

/-- The lines form the chain a verifier checks, ending at `head`. -/
structure Chain (lines : List AuditLine) (head : String) : Prop where
  /-- each line's hash field is the hash of its stored fields -/
  hashes : ∀ l ∈ lines, l.hash = sha256Hex (hashInput l.prev l.kind l.msg l.ts)
  /-- each line's `prev` is the hash of the line before it -/
  linked : lines.Chain' fun l₁ l₂ => l₂.prev = l₁.hash
  /-- `head` is the hash of the last line -/
  last : ∀ l ∈ lines.getLast?, head = l.hash

/-- The audit file, where there is one, is a chain ending at `head`. -/
def Verifiable (a : Audit) : Prop := ∀ lines, a.file = some lines → Chain sha256Hex lines a.head

/-- A message that `sanitize` stores as `append` hashes it. -/
def Clean (msg : Option String) : Prop := sanitize msg = msg.getD "null"

instance (msg : Option String) : Decidable (Clean msg) := inferInstanceAs (Decidable (_ = _))

/-- An event after which the chain still verifies: a restart, or an append of a
clean message whose write is done. -/
def Event.Clean : Event → Prop
  | .append _ msg _ written => Audit.Clean msg ∧ written = true
  | .restart _ _ => True

instance : DecidablePred Event.Clean := fun e => by
  cases e <;> unfold Event.Clean <;> infer_instance

variable {sha256Hex}

theorem Chain.nil (head : String) : Chain sha256Hex [] head :=
  ⟨fun _ h => absurd h (List.not_mem_nil _), List.chain'_nil, fun _ h => by cases h⟩

theorem Chain.snoc {lines : List AuditLine} {head : String} (h : Chain sha256Hex lines head)
    (l : AuditLine) (hl : l.hash = sha256Hex (hashInput l.prev l.kind l.msg l.ts))
    (hp : l.prev = head) : Chain sha256Hex (lines ++ [l]) l.hash where
  hashes l' hl' := by
    rcases List.mem_append.mp hl' with h' | h'
    · exact h.hashes l' h'
    · rw [List.mem_singleton.mp h']; exact hl
  linked := List.chain'_append.mpr ⟨h.linked, List.chain'_singleton l, fun x hx y hy => by
    cases hy
    exact hp.trans (h.last x hx)⟩
  last l' hl' := by
    rw [List.getLast?_concat] at hl'
    cases hl'
    rfl

theorem Verifiable.chain_getD {a : Audit} (h : Verifiable sha256Hex a) :
    Chain sha256Hex (a.file.getD []) a.head := by
  rcases hf : a.file with _ | lines
  · exact Chain.nil _
  · exact h lines hf

theorem Verifiable.append {a : Audit} (h : Verifiable sha256Hex a) (kind : String)
    {msg : Option String} (hm : Clean msg) (ts : Int) {written : Bool}
    (hw : written = true ∨ a.file = none) :
    Verifiable sha256Hex (append sha256Hex a kind msg ts written).2 := by
  intro lines hl
  rcases written
  · simp only [Audit.append, Bool.false_eq_true, if_false] at hl
    simp [hl] at hw
  · simp only [Audit.append, if_true, Option.some.injEq] at hl
    subst hl
    exact h.chain_getD.snoc _ (by rw [show sanitize msg = _ from hm]) rfl

theorem Verifiable.new {a : Audit} (h : Verifiable sha256Hex a) (ts : Int) (written : Bool) :
    Verifiable sha256Hex (new sha256Hex a.file ts written) := by
  unfold Audit.new
  split
  · rename_i lines hf
    intro lines' hl
    cases hl
    obtain ⟨hh, hk, -⟩ := h lines hf
    refine ⟨hh, hk, fun l hl => ?_⟩
    simp [readLastHash, Option.mem_def.mp hl]
  · exact @Verifiable.append sha256Hex ⟨none, "GENESIS"⟩ (fun _ h => by cases h) "GENESIS"
      (some "start") (by decide) ts written (.inr rfl)

theorem Verifiable.step {a : Audit} (h : Verifiable sha256Hex a) {e : Event} (he : e.Clean) :
    Verifiable sha256Hex (step sha256Hex a e) := by
  cases e with
  | append kind msg ts written => exact h.append kind he.1 ts (.inl he.2)
  | restart ts written => exact h.new ts written

theorem Verifiable.run {a : Audit} (h : Verifiable sha256Hex a) {es : List Event}
    (hes : ∀ e ∈ es, e.Clean) : Verifiable sha256Hex (run sha256Hex a es) := by
  induction es generalizing a with
  | nil => exact h
  | cons e es ih =>
    exact ih (h.step (hes e (List.mem_cons_self _ _)))
      fun e' he' => hes e' (List.mem_cons_of_mem _ he')

theorem hashInput_msg_inj {prev kind m m' : String} {ts : Int}
    (h : hashInput prev kind m ts = hashInput prev kind m' ts) : m = m' := by
  simpa [hashInput, String.ext_iff, String.data_append] using h

theorem hashInput_suffix (prev kind m : String) (ts : Int) :
    ("|" ++ kind ++ "|" ++ m ++ "|" ++ toString ts).data <:+ (hashInput prev kind m ts).data := by
  simp only [hashInput, String.data_append, List.append_assoc]
  exact List.suffix_append _ _

/-- With a hash function that never collides: every line `append` writes for a
message that `sanitize` changes fails the hash check, whatever the state, kind
and clock value. And on a gateway started without an audit file, a failed
write leaves `head` off the last line's hash, and the next line written links
to a hash no line has. -/
theorem append_breaks_chain (hinj : Function.Injective sha256Hex) :
    (∀ (a : Audit) (kind : String) (msg : Option String) (ts : Int), ¬ Clean msg →
      ∃ l ∈ (append sha256Hex a kind msg ts true).2.file.getD [],
        l.hash ≠ sha256Hex (hashInput l.prev l.kind l.msg l.ts)) ∧
    let a₁ := run sha256Hex (new sha256Hex none 0 true) [.append "ASK_DENY" (some "x") 1 false]
    (∃ l ∈ (a₁.file.getD []).getLast?, a₁.head ≠ l.hash) ∧
      ¬ ((run sha256Hex a₁ [.append "ASK_ALLOW" (some "ok") 2 true]).file.getD []).Chain'
        fun l₁ l₂ => l₂.prev = l₁.hash := by
  have hne : sha256Hex (hashInput (sha256Hex (hashInput "GENESIS" "GENESIS" "start" 0)) "ASK_DENY" "x" 1)
      ≠ sha256Hex (hashInput "GENESIS" "GENESIS" "start" 0) := fun h => by
    have hs := hashInput_suffix (sha256Hex (hashInput "GENESIS" "GENESIS" "start" 0)) "ASK_DENY" "x" 1
    rw [hinj h] at hs
    exact absurd hs (by decide)
  refine ⟨fun a kind msg ts hm => ⟨⟨ts, kind, a.head,
    sha256Hex (hashInput a.head kind (msg.getD "null") ts), sanitize msg⟩, ?_,
    fun h => hm (hashInput_msg_inj (hinj h)).symm⟩, ⟨_, rfl, hne⟩, fun h => hne ?_⟩
  · simp [Audit.append]
  · simp only [run, List.foldl, step, new, Audit.append, if_true, Bool.false_eq_true, if_false,
      Option.getD_some, Option.getD_none, List.nil_append, List.singleton_append] at h
    exact (List.chain'_pair.mp h :)

theorem append_breaks_chain_id :
    Function.Injective (fun s : String => s) ∧
    (∀ (a : Audit) (kind : String) (msg : Option String) (ts : Int), ¬ Clean msg →
      ∃ l ∈ (append (fun s => s) a kind msg ts true).2.file.getD [],
        l.hash ≠ hashInput l.prev l.kind l.msg l.ts) ∧
    let a₁ := run (fun s => s) (new (fun s => s) none 0 true) [.append "ASK_DENY" (some "x") 1 false]
    (∃ l ∈ (a₁.file.getD []).getLast?, a₁.head ≠ l.hash) ∧
      ¬ ((run (fun s => s) a₁ [.append "ASK_ALLOW" (some "ok") 2 true]).file.getD []).Chain'
        fun l₁ l₂ => l₂.prev = l₁.hash :=
  ⟨fun _ _ h => h, append_breaks_chain fun _ _ h => h⟩

end Audit

end OI.Flourish
