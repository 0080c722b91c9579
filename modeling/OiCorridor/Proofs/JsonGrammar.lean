import OiCorridor.Proofs.JsonRoundTrip

/-! The JSON grammar of RFC 8259, section 2 to 7, and how `MiniJson.parse`
differs from it. The grammar is written from the RFC's ABNF, not from the
parser: `Value` for `value`, `Padded` for a value with the whitespace that the
structural characters around it allow, `Member` for `member`, and `JsonText`
for `JSON-text`. Every value ends with `e`, `l`, a digit, `"`, `]` or `}`, so a
text that ends with any other character that is not whitespace is not JSON.
`parse` both rejects JSON texts (the escapes `\/`, `\b` and `\f`) and accepts
texts that are not JSON (a string without its closing quote). The printer
keeps to the grammar: `str` prints a JSON text for every value `Printable`
covers whose `Double` texts are numbers, since `q` escapes exactly the
characters a JSON string may not hold and `Long.toString` never starts with a
needless `0`. -/

set_option autoImplicit false

namespace OI.Rfc8259

/-- `ws = *( %x20 / %x09 / %x0A / %x0D )`, one character. -/
def IsWs (c : Char) : Prop := c = ' ' ∨ c = '\t' ∨ c = '\n' ∨ c = '\r'

/-- `ws`. -/
def Ws (cs : List Char) : Prop := ∀ c ∈ cs, IsWs c

/-- `1*DIGIT`. -/
def Digits (ds : List Char) : Prop := ds ≠ [] ∧ ∀ d ∈ ds, d.isDigit

/-- `int = zero / ( digit1-9 *DIGIT )`. -/
def IntPart (ds : List Char) : Prop :=
  ds = ['0'] ∨ ∃ d rest, ds = d :: rest ∧ d.isDigit ∧ d ≠ '0' ∧ ∀ x ∈ rest, x.isDigit

/-- `[ frac ]`, with `frac = decimal-point 1*DIGIT`. -/
def FracPart (cs : List Char) : Prop := cs = [] ∨ ∃ ds, cs = '.' :: ds ∧ Digits ds

/-- `[ exp ]`, with `exp = e [ minus / plus ] 1*DIGIT`. -/
def ExpPart (cs : List Char) : Prop :=
  cs = [] ∨ ∃ e sign ds, cs = e :: sign ++ ds ∧ (e = 'e' ∨ e = 'E') ∧
    (sign = [] ∨ sign = ['-'] ∨ sign = ['+']) ∧ Digits ds

/-- `number = [ minus ] int [ frac ] [ exp ]`. -/
def Number (s : List Char) : Prop :=
  ∃ sign i f x, s = sign ++ i ++ f ++ x ∧ (sign = [] ∨ sign = ['-']) ∧ IntPart i ∧ FracPart f ∧ ExpPart x

/-- `unescaped = %x20-21 / %x23-5B / %x5D-10FFFF`. -/
def Unescaped (c : Char) : Prop :=
  c.toNat = 0x20 ∨ c.toNat = 0x21 ∨ (0x23 ≤ c.toNat ∧ c.toNat ≤ 0x5B) ∨ 0x5D ≤ c.toNat

/-- `HEXDIG`. -/
def IsHexDigit (c : Char) : Prop := c.isDigit ∨ ('a' ≤ c ∧ c ≤ 'f') ∨ ('A' ≤ c ∧ c ≤ 'F')

/-- `char`: an unescaped character, or an escape. -/
def StrChar (cs : List Char) : Prop :=
  (∃ c, cs = [c] ∧ Unescaped c) ∨
    (∃ c, cs = ['\\', c] ∧ c ∈ ['"', '\\', '/', 'b', 'f', 'n', 'r', 't']) ∨
    ∃ h₁ h₂ h₃ h₄, cs = ['\\', 'u', h₁, h₂, h₃, h₄] ∧ ∀ h ∈ [h₁, h₂, h₃, h₄], IsHexDigit h

/-- `string = quotation-mark *char quotation-mark`. -/
def Str (s : List Char) : Prop :=
  ∃ parts : List (List Char), (∀ p ∈ parts, StrChar p) ∧ s = '"' :: parts.flatten ++ ['"']

mutual

/-- `value`, without the whitespace of the structural characters around it. -/
inductive Value : List Char → Prop
  | false_ : Value ['f', 'a', 'l', 's', 'e']
  | null : Value ['n', 'u', 'l', 'l']
  | true_ : Value ['t', 'r', 'u', 'e']
  | number {s : List Char} : Number s → Value s
  | string {s : List Char} : Str s → Value s
  | emptyArray {w : List Char} : Ws w → Value ('[' :: w ++ [']'])
  | array {items : List (List Char)} : items ≠ [] → (∀ x ∈ items, Padded x) →
      Value ('[' :: List.intercalate [','] items ++ [']'])
  | emptyObject {w : List Char} : Ws w → Value ('{' :: w ++ ['}'])
  | object {members : List (List Char)} : members ≠ [] → (∀ m ∈ members, Member m) →
      Value ('{' :: List.intercalate [','] members ++ ['}'])

/-- A value with whitespace on both sides. -/
inductive Padded : List Char → Prop
  | mk {w₁ v w₂ : List Char} : Ws w₁ → Value v → Ws w₂ → Padded (w₁ ++ v ++ w₂)

/-- `member = string name-separator value`, with whitespace on both sides. -/
inductive Member : List Char → Prop
  | mk {w₁ k w₂ v : List Char} : Ws w₁ → Str k → Ws w₂ → Padded v → Member (w₁ ++ k ++ w₂ ++ ':' :: v)

end

/-- `JSON-text = ws value ws`. -/
def JsonText (s : List Char) : Prop := Padded s

theorem ws_nil : Ws [] := fun _ h => (List.not_mem_nil _ h).elim

theorem Value.padded {s : List Char} (h : Value s) : Padded s := by
  simpa using @Padded.mk [] s [] ws_nil h ws_nil

/-- The characters a value can end with. -/
def EndsValue (c : Char) : Prop := c = 'e' ∨ c = 'l' ∨ c.isDigit ∨ c = '"' ∨ c = ']' ∨ c = '}'

theorem getLast?_cons_of {a c : Char} {m : List Char} (h : m.getLast? = some c) :
    (a :: m).getLast? = some c := by
  rw [← List.singleton_append, List.getLast?_append, h]
  rfl

theorem digits_getLast {ds : List Char} (h : ∀ d ∈ ds, d.isDigit) (hne : ds ≠ []) :
    ∃ c, ds.getLast? = some c ∧ EndsValue c :=
  ⟨_, List.getLast?_eq_getLast ds hne, .inr (.inr (.inl (h _ (List.getLast_mem hne))))⟩

theorem Number.getLast {s : List Char} (h : Number s) : ∃ c, s.getLast? = some c ∧ EndsValue c := by
  obtain ⟨sign, i, f, x, rfl, -, hi, hf, hx⟩ := h
  rcases hx with rfl | ⟨e, sg, ds, rfl, -, -, hds, hd⟩
  · rcases hf with rfl | ⟨ds, rfl, hds, hd⟩
    · rcases hi with rfl | ⟨d, rest, rfl, hd, -, hr⟩
      · exact ⟨'0', by simp [List.getLast?_append], .inr (.inr (.inl rfl))⟩
      · obtain ⟨c, hc, hdc⟩ := digits_getLast (List.forall_mem_cons.mpr ⟨hd, hr⟩) (List.cons_ne_nil d rest)
        exact ⟨c, by simp [List.getLast?_append, hc], hdc⟩
    · obtain ⟨c, hc, hdc⟩ := digits_getLast hd hds
      exact ⟨c, by simp [List.getLast?_append, getLast?_cons_of hc], hdc⟩
  · obtain ⟨c, hc, hdc⟩ := digits_getLast hd hds
    have : (sg ++ ds).getLast? = some c := by simp [List.getLast?_append, hc]
    exact ⟨c, by simp [List.getLast?_append, getLast?_cons_of this], hdc⟩

theorem Value.getLast {s : List Char} (h : Value s) : ∃ c, s.getLast? = some c ∧ EndsValue c := by
  cases h with
  | false_ => exact ⟨'e', rfl, .inl rfl⟩
  | null => exact ⟨'l', rfl, .inr (.inl rfl)⟩
  | true_ => exact ⟨'e', rfl, .inl rfl⟩
  | number h => exact h.getLast
  | string h =>
    obtain ⟨parts, -, rfl⟩ := h
    exact ⟨'"', getLast?_cons_of (by simp), .inr (.inr (.inr (.inl rfl)))⟩
  | emptyArray => exact ⟨']', getLast?_cons_of (by simp), .inr (.inr (.inr (.inr (.inl rfl))))⟩
  | array => exact ⟨']', getLast?_cons_of (by simp), .inr (.inr (.inr (.inr (.inl rfl))))⟩
  | emptyObject => exact ⟨'}', getLast?_cons_of (by simp), .inr (.inr (.inr (.inr (.inr rfl))))⟩
  | object => exact ⟨'}', getLast?_cons_of (by simp), .inr (.inr (.inr (.inr (.inr rfl))))⟩

theorem JsonText.getLast {s : List Char} (h : JsonText s) :
    ∃ c, s.getLast? = some c ∧ (IsWs c ∨ EndsValue c) := by
  obtain ⟨hw₁, hv, hw₂⟩ := h
  rename_i w₁ v w₂
  obtain ⟨c, hc, hec⟩ := hv.getLast
  cases h₂ : w₂.getLast? with
  | none => exact ⟨c, by simp [List.getLast?_append, h₂, hc], .inr hec⟩
  | some d => exact ⟨d, by simp [List.getLast?_append, h₂], .inl (hw₂ d (List.mem_of_getLast?_eq_some h₂))⟩

end OI.Rfc8259

namespace OI.MiniJson

open Rfc8259

theorem parse_not_rfc8259 :
    (JsonText "\"\\/\"".data ∧ parse "\"\\/\"" = .error .escape) ∧
      (¬ JsonText "\"a".data ∧ parse "\"a" = .ok (.str "a")) := by
  refine ⟨⟨?_, rfl⟩, ⟨fun h => ?_, rfl⟩⟩
  · have hv : Rfc8259.Value ['"', '\\', '/', '"'] := .string ⟨[['\\', '/']], by simp [StrChar], rfl⟩
    simpa using @Padded.mk [] ['"', '\\', '/', '"'] [] (by simp [Ws]) hv (by simp [Ws])
  · obtain ⟨c, hc, hws⟩ := h.getLast
    have : c = 'a' := by simpa using hc.symm
    subst this
    simp [IsWs, EndsValue] at hws

end OI.MiniJson

/-! ### What `str` prints -/

namespace OI.MiniJson

open Rfc8259

mutual

/-- Every `Double` text in a value satisfies `P`. -/
def JValue.DoublesAll (P : String → Prop) : JValue → Prop
  | .double t => P t
  | .obj members => JValue.membersDoublesAll P members
  | .arr items => JValue.itemsDoublesAll P items
  | _ => True

def JValue.membersDoublesAll (P : String → Prop) : List (String × JValue) → Prop
  | [] => True
  | (_, v) :: members => v.DoublesAll P ∧ JValue.membersDoublesAll P members

def JValue.itemsDoublesAll (P : String → Prop) : List JValue → Prop
  | [] => True
  | v :: items => v.DoublesAll P ∧ JValue.itemsDoublesAll P items

end

theorem JValue.membersDoublesAll_mem {P : String → Prop} {m : List (String × JValue)}
    (h : JValue.membersDoublesAll P m) {kv : String × JValue} (hkv : kv ∈ m) : kv.2.DoublesAll P := by
  induction m with
  | nil => cases hkv
  | cons kv' m ih =>
    obtain ⟨k, v⟩ := kv'
    simp only [JValue.membersDoublesAll] at h
    rcases List.mem_cons.mp hkv with rfl | hkv
    exacts [h.1, ih h.2 hkv]

theorem JValue.itemsDoublesAll_mem {P : String → Prop} {a : List JValue}
    (h : JValue.itemsDoublesAll P a) {v : JValue} (hv : v ∈ a) : v.DoublesAll P := by
  induction a with
  | nil => cases hv
  | cons v' a ih =>
    simp only [JValue.itemsDoublesAll] at h
    rcases List.mem_cons.mp hv with rfl | hv
    exacts [h.1, ih h.2 hv]

theorem mem_toDigitsCore {b f n : Nat} {c : Char} (h : c ∈ Nat.toDigitsCore b f n []) :
    ∃ m, c = Nat.digitChar (m % b) := by
  induction f generalizing n with
  | zero => cases h
  | succ f ih =>
    simp only [Nat.toDigitsCore] at h
    split_ifs at h
    · exact ⟨n, List.mem_singleton.mp h⟩
    · rw [toDigitsCore_append] at h
      rcases List.mem_append.mp h with h | h
      exacts [ih h, ⟨n, List.mem_singleton.mp h⟩]

theorem hex4_hexDigit (n : Nat) : ∀ h ∈ hex4 n, IsHexDigit h := by
  have key : ∀ d < 16, IsHexDigit (Nat.digitChar d) := by unfold IsHexDigit; decide
  intro h hh
  rcases List.mem_append.mp hh with hz | hd
  · rw [List.eq_of_mem_replicate hz]
    exact .inl rfl
  · obtain ⟨m, rfl⟩ := mem_toDigitsCore hd
    exact key _ (Nat.mod_lt _ (by decide))

theorem qChar_strChar (c : Char) : StrChar (qChar c) := by
  unfold qChar
  by_cases h1 : c = '"'
  · rw [if_pos h1]; exact .inr (.inl ⟨_, rfl, by decide⟩)
  rw [if_neg h1]
  by_cases h2 : c = '\\'
  · rw [if_pos h2]; exact .inr (.inl ⟨_, rfl, by decide⟩)
  rw [if_neg h2]
  by_cases h3 : c = '\n'
  · rw [if_pos h3]; exact .inr (.inl ⟨_, rfl, by decide⟩)
  rw [if_neg h3]
  by_cases h4 : c = '\r'
  · rw [if_pos h4]; exact .inr (.inl ⟨_, rfl, by decide⟩)
  rw [if_neg h4]
  by_cases h5 : c = '\t'
  · rw [if_pos h5]; exact .inr (.inl ⟨_, rfl, by decide⟩)
  rw [if_neg h5]
  by_cases h6 : c.toNat < 0x20
  · rw [if_pos h6]
    have hlen := (hex4_control _ h6).1
    have hhex := hex4_hexDigit c.toNat
    rcases hq : hex4 c.toNat with _ | ⟨a, _ | ⟨b, _ | ⟨d, _ | ⟨e, _ | ⟨x, l⟩⟩⟩⟩⟩ <;>
      rw [hq] at hlen hhex <;> simp at hlen
    exact .inr (.inr ⟨a, b, d, e, rfl, hhex⟩)
  · rw [if_neg h6]
    have e1 : c.toNat ≠ 34 := fun h => h1 (by rw [← Char.ofNat_toNat c, h])
    have e2 : c.toNat ≠ 92 := fun h => h2 (by rw [← Char.ofNat_toNat c, h])
    exact .inl ⟨c, rfl, by unfold Rfc8259.Unescaped; omega⟩

theorem q_str (s : String) : Str (q s).data :=
  ⟨s.data.map qChar, fun p hp => by obtain ⟨c, -, rfl⟩ := List.mem_map.mp hp; exact qChar_strChar c, rfl⟩

theorem toString_int_number (v : Int) : Number (toString v).data := by
  obtain ⟨hd, -, -⟩ := toString_nat_decimal v.natAbs
  have hi : IntPart (toString v.natAbs).data := by
    rcases Nat.eq_zero_or_pos v.natAbs with h0 | h0
    · exact .inl (by rw [h0]; rfl)
    · obtain ⟨d, rest, he, hd0⟩ := toString_nat_head h0
      rw [he] at hd
      exact .inr ⟨d, rest, he, hd d (.head _), hd0, fun x hx => hd x (.tail _ hx)⟩
  refine ⟨if v < 0 then ['-'] else [], _, [], [], ?_, ?_, hi, .inl rfl, .inl rfl⟩
  · rw [toString_int_data, List.append_nil, List.append_nil]
  · split_ifs
    exacts [.inr rfl, .inl rfl]

theorem strMembers_data (ms : List (String × JValue)) :
    (strMembers true ms).data =
      List.intercalate [','] (ms.map fun kv => (q kv.1).data ++ ':' :: (str kv.2).data) := by
  induction ms with
  | nil => rw [strMembers_nil]; rfl
  | cons kv ms ih =>
    have h := strMembers_true_cons kv.1 kv.2 ms []
    rw [List.append_nil, List.append_nil] at h
    rw [h]
    cases ms with
    | nil => simp [strMembers_nil, List.intercalate]
    | cons kv' ms =>
      rw [strMembers_false_cons, ih]
      simp [List.intercalate, List.intersperse_cons₂]

theorem strItems_data (a : List JValue) :
    (strItems true a).data = List.intercalate [','] (a.map fun v => (str v).data) := by
  induction a with
  | nil => rw [strItems_nil]; rfl
  | cons v a ih =>
    have h := strItems_true_cons v a []
    rw [List.append_nil, List.append_nil] at h
    rw [h]
    cases a with
    | nil => simp [strItems_nil, List.intercalate]
    | cons v' a =>
      rw [strItems_false_cons, ih]
      simp [List.intercalate, List.intersperse_cons₂]

theorem str_jsonText {v : JValue} (h : Printable v) :
    v.DoublesAll (fun t => Number t.data) → JsonText (str v).data := by
  induction h with
  | null => exact fun _ => Rfc8259.Value.null.padded
  | str s => exact fun _ => (Rfc8259.Value.string (q_str s)).padded
  | bool b => cases b <;> exact fun _ => Rfc8259.Value.padded (by first | exact .false_ | exact .true_)
  | long => exact fun _ => (Rfc8259.Value.number (toString_int_number _)).padded
  | double => exact fun hd => (Rfc8259.Value.number hd).padded
  | @obj m _ _ ih =>
    intro hd
    have he := str_obj_data m []
    rw [List.append_nil] at he
    rw [he]
    rcases m with _ | ⟨kv, m⟩
    · exact (@Rfc8259.Value.emptyObject [] ws_nil).padded
    · rw [strMembers_data]
      refine Rfc8259.Value.padded (.object (by simp) fun mt hmt => ?_)
      obtain ⟨kv', hkv', rfl⟩ := List.mem_map.mp hmt
      simpa using @Member.mk [] (q kv'.1).data [] (str kv'.2).data ws_nil (q_str kv'.1) ws_nil
        (ih kv' hkv' (JValue.membersDoublesAll_mem hd hkv'))
  | @arr a _ ih =>
    intro hd
    have he := str_arr_data a []
    rw [List.append_nil] at he
    rw [he]
    rcases a with _ | ⟨v, a⟩
    · exact (@Rfc8259.Value.emptyArray [] ws_nil).padded
    · rw [strItems_data]
      refine Rfc8259.Value.padded (.array (by simp) fun x hx => ?_)
      obtain ⟨v', hv', rfl⟩ := List.mem_map.mp hx
      exact ih v' hv' (JValue.itemsDoublesAll_mem hd hv')

theorem str_jsonText_sample :
    Printable (.arr [.null, .double "1.5"]) ∧
      (JValue.arr [.null, .double "1.5"]).DoublesAll (fun t => Number t.data) ∧
      JsonText (str (.arr [.null, .double "1.5"])).data :=
  have hp : Printable (.arr [.null, .double "1.5"]) := .arr fun v hv => by
    rcases List.mem_cons.mp hv with rfl | hv
    · exact .null
    · rw [List.mem_singleton.mp hv]
      exact .double ⟨[], ['1'], ['5'], [], rfl, .inl rfl, ⟨by simp, by decide⟩, ⟨by simp, by decide⟩, .inl rfl⟩
  have hd : (JValue.arr [.null, .double "1.5"]).DoublesAll (fun t => Number t.data) := by
    simp only [JValue.DoublesAll, JValue.itemsDoublesAll]
    exact ⟨trivial, ⟨[], ['1'], ['.', '5'], [], rfl, .inl rfl, .inr ⟨'1', [], rfl, rfl, by decide, by simp⟩,
      .inr ⟨['5'], rfl, by simp, by decide⟩, .inl rfl⟩, trivial⟩
  ⟨hp, hd, str_jsonText hp hd⟩

end OI.MiniJson
