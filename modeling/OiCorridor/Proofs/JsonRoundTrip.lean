import OiCorridor.Proofs.Decimal
import OiCorridor.Proofs.Json
import OiCorridor.Spec.JsonPrint

/-! `MiniJson.parse` reads back what `MiniJson.str` prints. The values covered
are those a Java program can hand to `str`: strings, booleans, `null`, numbers
in `long` range, finite doubles as `Double.toString` prints them, lists, and
maps with distinct keys, nested to any depth. Each printed piece is read back
from its text followed by any characters that may follow a value (`,`, `}`,
`]` or nothing); the member and item loops then go by induction over the list,
the values by induction over `Printable`, with the fuel the value's size.
So a token minted by `mintConsent` or `devCapMint` verifies, while unexpired,
to the map it signed with its keys sorted. -/

set_option autoImplicit false

namespace OI.MiniJson

/-! ### The values `str` prints -/

/-- A non-empty run of decimal digits. -/
def Digits (ds : List Char) : Prop := ds ≠ [] ∧ ∀ c ∈ ds, c.isDigit = true

/-- No sign, or a minus sign. -/
def Sign (s : List Char) : Prop := s = [] ∨ s = ['-']

/-- The exponent `Double.toString` prints: nothing, or `E-?d+`. -/
def ExpText (exp : List Char) : Prop := exp = [] ∨ ∃ esign eds, exp = 'E' :: esign ++ eds ∧ Sign esign ∧ Digits eds

/-- What `Double.toString` prints for a finite double: `-?d+.d+`, then its exponent. -/
def DoubleText (t : String) : Prop :=
  ∃ sign ints fracs exp, t.data = sign ++ ints ++ '.' :: fracs ++ exp ∧ Sign sign ∧ Digits ints ∧
    Digits fracs ∧ ExpText exp

/-- The values a Java program can hand to `str`: a `long` is in range, a
`Double` is finite and held as its text, and a `Map` has distinct keys. -/
inductive Printable : JValue → Prop
  | null : Printable .null
  | str (s : String) : Printable (.str s)
  | bool (b : Bool) : Printable (.bool b)
  | long {v : Int} : -2 ^ 63 ≤ v → v < 2 ^ 63 → Printable (.long v)
  | double {t : String} : DoubleText t → Printable (.double t)
  | obj {m : List (String × JValue)} : (m.map (·.1)).Nodup → (∀ kv ∈ m, Printable kv.2) → Printable (.obj m)
  | arr {a : List JValue} : (∀ v ∈ a, Printable v) → Printable (.arr a)

mutual

/-- The fuel `val` needs for a value: one for each value and each member or item. -/
def JValue.size : JValue → Nat
  | .obj members => JValue.membersSize members + 1
  | .arr items => JValue.itemsSize items + 1
  | _ => 1

def JValue.membersSize : List (String × JValue) → Nat
  | [] => 0
  | (_, v) :: members => v.size + 1 + JValue.membersSize members

def JValue.itemsSize : List JValue → Nat
  | [] => 0
  | v :: items => v.size + 1 + JValue.itemsSize items

end

/-- What may follow a value that `num` stops before: the end, `,`, `}` or `]`. -/
def Delim (rest : List Char) : Prop := ∀ c ∈ rest.head?, c = ',' ∨ c = '}' ∨ c = ']'

theorem Delim.nil : Delim [] := fun _ h => by cases h

theorem Delim.cons {c : Char} (h : c = ',' ∨ c = '}' ∨ c = ']') (rest : List Char) : Delim (c :: rest) :=
  fun _ hc => by cases hc; exact h

/-! ### Reading the scalars back -/

theorem ws_delim {rest : List Char} (h : Delim rest) : ws rest = rest := by
  rcases rest with _ | ⟨c, rest⟩
  · rfl
  · rcases h c rfl with rfl | rfl | rfl <;> rfl

theorem Delim.head {rest : List Char} (h : Delim rest) :
    ∀ c ∈ rest.head?, c.isDigit = false ∧ c ≠ '.' ∧ c ≠ 'e' ∧ c ≠ 'E' := fun c hc => by
  rcases h c hc with rfl | rfl | rfl <;> decide

theorem hex4_control : ∀ n, n < 32 → (hex4 n).length = 4 ∧ parseHex (hex4 n) = some (n : Int) := by
  decide

theorem strChars_qChar (c : Char) {X b r : List Char} (h : strChars X = .ok (b, r)) :
    strChars (qChar c ++ X) = .ok (c :: b, r) := by
  have hmap : ∀ d, (strChars X).map (fun p => (d :: p.1, p.2)) = .ok (d :: b, r) := fun d => by rw [h]; rfl
  by_cases h1 : c = '"'
  · subst h1; exact hmap _
  by_cases h2 : c = '\\'
  · subst h2; exact hmap _
  by_cases h3 : c = '\n'
  · subst h3; exact hmap _
  by_cases h4 : c = '\r'
  · subst h4; exact hmap _
  by_cases h5 : c = '\t'
  · subst h5; exact hmap _
  rw [qChar, if_neg h1, if_neg h2, if_neg h3, if_neg h4, if_neg h5]
  split_ifs with h6
  · obtain ⟨hl, hp⟩ := hex4_control c.toNat h6
    generalize hex4 c.toNat = ds at hl hp ⊢
    obtain ⟨a₁, t, rfl⟩ := List.exists_cons_of_length_eq_add_one hl
    obtain ⟨a₂, a₃, a₄, rfl⟩ := List.length_eq_three.mp (Nat.succ.inj hl)
    have hc : javaChar c.toNat = c := by
      rw [javaChar, Int.emod_eq_of_lt (by omega) (by omega), Int.toNat_ofNat, Char.ofNat_toNat]
    simp only [List.cons_append, List.nil_append, strChars, hp, hc]
    exact hmap c
  · simp only [List.singleton_append, strChars, h1, h2]
    exact hmap c

theorem strChars_q (s : List Char) (rest : List Char) :
    strChars (s.flatMap qChar ++ '"' :: rest) = .ok (s, rest) := by
  induction s with
  | nil => rfl
  | cons c s ih => rw [List.flatMap_cons, List.append_assoc, strChars_qChar c ih]

theorem q_data_append (s : String) (rest : List Char) :
    (q s).data ++ rest = '"' :: (s.data.flatMap qChar ++ '"' :: rest) := by
  simp [q]

theorem ws_q (s : String) (rest : List Char) : ws ((q s).data ++ rest) = (q s).data ++ rest := by
  rw [q_data_append]
  rfl

theorem val_q (fuel : Nat) (s : String) (rest : List Char) :
    val (fuel + 1) ((q s).data ++ rest) = .ok (.str s, rest) := by
  rw [q_data_append]
  show (strChars _).map _ = _
  rw [strChars_q]
  rfl

theorem strv_q (s : String) (rest : List Char) : strv ((q s).data ++ rest) = .ok (s, rest) := by
  rw [q_data_append]
  simp only [strv, eat, if_true, bind, Except.bind, strChars_q, pure, Except.pure]

/-! ### Reading the numbers back -/

theorem isDigit_cases {c : Char} (h : c.isDigit = true) : c ∈ ['0', '1', '2', '3', '4', '5', '6', '7', '8', '9'] := by
  have key : ∀ n < 58, 48 ≤ n → Char.ofNat n ∈ ['0', '1', '2', '3', '4', '5', '6', '7', '8', '9'] := by decide
  simp only [Char.isDigit, Bool.and_eq_true, decide_eq_true_eq] at h
  rw [← Char.ofNat_toNat c]
  exact key _ (Nat.lt_succ_of_le (UInt32.toNat_le_of_le (by decide) h.2))
    (UInt32.le_toNat_of_le (by decide) h.1)

theorem isDigit_ne {c d : Char} (hc : c.isDigit = true) (hd : d.isDigit = false) : c ≠ d := fun he => by
  rw [he, hd] at hc
  cases hc

theorem Digits.head {ds : List Char} (hd : Digits ds) (rest : List Char) :
    ∀ c ∈ (ds ++ rest).head?, c.isDigit = true := by
  obtain ⟨d, ds', rfl⟩ := List.exists_cons_of_ne_nil hd.1
  intro c hc
  cases hc
  exact hd.2 _ (List.mem_cons_self _ _)

theorem Sign.head {sign ds : List Char} (hs : Sign sign) (hd : Digits ds) (rest : List Char) :
    ∃ c ∈ (sign ++ ds ++ rest).head?, c = '-' ∨ c.isDigit = true := by
  rcases hs with rfl | rfl
  · obtain ⟨d, ds', rfl⟩ := List.exists_cons_of_ne_nil hd.1
    exact ⟨d, rfl, .inr (hd.head rest d rfl)⟩
  · exact ⟨'-', rfl, .inl rfl⟩

theorem val_num (fuel : Nat) {cs : List Char} (hc : ∃ c ∈ cs.head?, c = '-' ∨ c.isDigit = true) :
    val (fuel + 1) cs = num cs := by
  obtain ⟨c, hc, hd⟩ := hc
  rcases cs with _ | ⟨c', cs⟩
  · cases hc
  cases hc
  rcases hd with rfl | hd
  · rfl
  have hne (d : Char) (h : d.isDigit = false) : c ≠ d := isDigit_ne hd h
  rw [val, ws, if_neg (by simp [hne ' ' rfl, hne '\n' rfl, hne '\r' rfl, hne '\t' rfl])]
  split <;> rename_i heq <;> cases heq
  · exact absurd rfl (hne '{' rfl)
  · exact absurd rfl (hne '[' rfl)
  · exact absurd rfl (hne '"' rfl)
  · rw [if_neg (by simp [hne 't' rfl, hne 'f' rfl]), if_neg (hne 'n' rfl), if_pos (.inr hd)]

theorem span_digits {ds rest : List Char} (hd : ∀ c ∈ ds, c.isDigit = true)
    (hr : ∀ c ∈ rest.head?, c.isDigit = false) : (ds ++ rest).span Char.isDigit = (ds, rest) := by
  rw [List.span_eq_take_drop, List.takeWhile_append_of_pos hd, List.dropWhile_append_of_pos hd]
  rcases rest with _ | ⟨c, rest⟩
  · simp
  · simp [hr c rfl]

theorem scanSign_sign {sign cs : List Char} (hs : Sign sign) (hc : ∀ c ∈ cs.head?, c ≠ '-') :
    scanSign (sign ++ cs) = (sign, cs) := by
  rcases hs with rfl | rfl
  · rcases cs with _ | ⟨c, cs⟩
    · rfl
    · simp [scanSign, hc c rfl]
  · rfl

theorem scanFrac_delim {rest : List Char} (h : Delim rest) : scanFrac rest = (([], []), rest) := by
  rcases rest with _ | ⟨c, rest⟩
  · rfl
  · rcases h c rfl with rfl | rfl | rfl <;> rfl

theorem expPart_delim {rest : List Char} (h : Delim rest) : expPart rest = ([], rest) := by
  rcases rest with _ | ⟨c, rest⟩
  · rfl
  · rcases h c rfl with rfl | rfl | rfl <;> rfl

theorem parseLong_toString {v : Int} (h1 : -2 ^ 63 ≤ v) (h2 : v < 2 ^ 63) :
    parseLong (toString v).data = .ok v := by
  obtain ⟨hd, hne, hfold⟩ := toString_nat_decimal v.natAbs
  rw [toString_int_data]
  split_ifs with hv
  · simp only [List.singleton_append, parseLong, hne, if_false, hfold, if_true]
    rw [if_pos (by omega)]
    congr 1
    omega
  · have hd' : ∀ ds, (toString v.natAbs).data ≠ '-' :: ds := fun ds h =>
      absurd (hd '-' (by rw [h]; exact List.mem_cons_self _ _)) (by decide)
    unfold parseLong
    split
    rename_i neg ds heq
    rw [List.nil_append] at heq
    split at heq
    · exact absurd ‹_› (hd' _)
    · cases heq
      simp only [hne, if_false, hfold, Bool.false_eq_true]
      rw [if_pos (by omega)]
      congr 1
      omega

theorem num_toString {v : Int} (h1 : -2 ^ 63 ≤ v) (h2 : v < 2 ^ 63) {rest : List Char} (hr : Delim rest) :
    num ((toString v).data ++ rest) = .ok (.long v, rest) := by
  obtain ⟨hd, hne, -⟩ := toString_nat_decimal v.natAbs
  have hD : Digits (toString v.natAbs).data := ⟨hne, hd⟩
  have hs : Sign (if v < 0 then ['-'] else []) := by split_ifs; exacts [.inr rfl, .inl rfl]
  have hscan : scanNum ((toString v).data ++ rest) =
      (⟨if v < 0 then ['-'] else [], (toString v.natAbs).data, [], [], []⟩, rest) := by
    unfold scanNum
    rw [toString_int_data, List.append_assoc,
      scanSign_sign hs fun c hc => isDigit_ne (hD.head rest c hc) rfl]
    dsimp only
    rw [span_digits hd fun c hc => (hr.head c hc).1, scanFrac_delim hr, expPart_delim hr]
  unfold num
  rw [hscan]
  dsimp only
  rw [if_pos ⟨rfl, rfl⟩]
  simp only [NumText.text, List.append_nil, ← toString_int_data, parseLong_toString h1 h2]
  rfl

theorem val_long (fuel : Nat) {v : Int} (h1 : -2 ^ 63 ≤ v) (h2 : v < 2 ^ 63) {rest : List Char}
    (hr : Delim rest) : val (fuel + 1) ((toString v).data ++ rest) = .ok (.long v, rest) := by
  obtain ⟨hd, hne, -⟩ := toString_nat_decimal v.natAbs
  have hs : Sign (if v < 0 then ['-'] else []) := by split_ifs; exacts [.inr rfl, .inl rfl]
  rw [val_num fuel (by rw [toString_int_data]; exact hs.head ⟨hne, hd⟩ rest), num_toString h1 h2 hr]

theorem ExpText.head {exp rest : List Char} (he : ExpText exp) (hr : Delim rest) :
    ∀ c ∈ (exp ++ rest).head?, c.isDigit = false := by
  rcases he with rfl | ⟨esign, eds, rfl, -, -⟩
  · exact fun c hc => (hr.head c hc).1
  · intro c hc; cases hc; rfl

theorem scanExpSign_sign {esign cs : List Char} (hs : Sign esign) (hc : ∀ c ∈ cs.head?, c.isDigit = true) :
    expPart.scanExpSign (esign ++ cs) = (esign, cs) := by
  rcases hs with rfl | rfl
  · rcases cs with _ | ⟨c, cs⟩
    · rfl
    · simp [expPart.scanExpSign, isDigit_ne (hc c rfl) (rfl : '+'.isDigit = false),
        isDigit_ne (hc c rfl) (rfl : '-'.isDigit = false)]
  · rfl

theorem expPart_exp {exp rest : List Char} (he : ExpText exp) (hr : Delim rest) :
    expPart (exp ++ rest) = (exp, rest) := by
  rcases he with rfl | ⟨esign, eds, rfl, hs, hd⟩
  · exact expPart_delim hr
  · simp only [List.cons_append, List.append_assoc, expPart, scanExpSign_sign hs (hd.head rest),
      span_digits hd.2 fun c hc => (hr.head c hc).1, or_true, if_true]

theorem num_double {t : String} (ht : DoubleText t) {rest : List Char} (hr : Delim rest) :
    num (t.data ++ rest) = .ok (.double t, rest) := by
  obtain ⟨sign, ints, fracs, exp, hdata, hs, hi, hf, he⟩ := ht
  have hdot : ∀ c ∈ ('.' :: (fracs ++ (exp ++ rest))).head?, c.isDigit = false := fun c hc => by
    cases hc; rfl
  have hscan : scanNum (t.data ++ rest) = (⟨sign, ints, '.' :: fracs, fracs, exp⟩, rest) := by
    unfold scanNum
    simp only [hdata, List.append_assoc, List.cons_append,
      scanSign_sign hs fun c hc => isDigit_ne (hi.head _ c hc) rfl, span_digits hi.2 hdot, scanFrac,
      span_digits hf.2 (he.head hr), expPart_exp he hr]
  have hexp : exp = [] ∨ (exp.drop 1).any Char.isDigit := by
    rcases he with rfl | ⟨esign, eds, rfl, -, hd⟩
    · exact .inl rfl
    · obtain ⟨d, eds', rfl⟩ := List.exists_cons_of_ne_nil hd.1
      exact .inr (List.any_eq_true.mpr ⟨d, by simp, hd.2 d (List.mem_cons_self _ _)⟩)
  unfold num
  rw [hscan]
  dsimp only
  rw [if_neg fun h => List.cons_ne_nil _ _ h.1, if_pos ⟨fun h => hi.1 (List.append_eq_nil.mp h).1, hexp⟩]
  simp only [NumText.text, ← hdata]

theorem val_double (fuel : Nat) {t : String} (ht : DoubleText t) {rest : List Char} (hr : Delim rest) :
    val (fuel + 1) (t.data ++ rest) = .ok (.double t, rest) := by
  obtain ⟨sign, ints, fracs, exp, hdata, hs, hi, -⟩ := id ht
  rw [val_num fuel (by rw [hdata]; simpa only [List.append_assoc] using hs.head hi ('.' :: fracs ++ exp ++ rest)),
    num_double ht hr]

theorem val_bool (fuel : Nat) (b : Bool) (rest : List Char) :
    val (fuel + 1) ((toString b).data ++ rest) = .ok (.bool b, rest) := by
  cases b <;> simp [val, ws, bool, List.isPrefixOf, toString]

theorem val_null (fuel : Nat) (rest : List Char) : val (fuel + 1) ("null".data ++ rest) = .ok (.null, rest) := by
  simp [val, ws, nul, List.isPrefixOf]

/-! ### The member and item loops -/

theorem eat_ws_colon (X : List Char) : eat ':' (ws (':' :: X)) = .ok X := rfl

theorem members_last {fuel : Nat} {X rest : List Char} {v : JValue} (hv : val fuel X = .ok (v, '}' :: rest))
    (m : List (String × JValue)) (k : String) :
    members (fuel + 1) m ((q k).data ++ ':' :: X) = .ok (.obj (put m k v), rest) := by
  simp only [members, ws_q, strv_q, eat_ws_colon, hv, ws_delim (Delim.cons (.inr (.inl rfl)) rest)]

theorem members_next {fuel : Nat} {X Y : List Char} {v : JValue} (hv : val fuel X = .ok (v, ',' :: Y))
    (m : List (String × JValue)) (k : String) :
    members (fuel + 1) m ((q k).data ++ ':' :: X) = members fuel (put m k v) Y := by
  simp only [members, ws_q, strv_q, eat_ws_colon, hv, ws_delim (Delim.cons (.inl rfl) Y)]
  rfl

theorem items_last {fuel : Nat} {X rest : List Char} {v : JValue} (hv : val fuel X = .ok (v, ']' :: rest))
    (a : List JValue) : items (fuel + 1) a X = .ok (.arr (a ++ [v]), rest) := by
  simp only [items, hv, ws_delim (Delim.cons (.inr (.inr rfl)) rest)]

theorem items_next {fuel : Nat} {X Y : List Char} {v : JValue} (hv : val fuel X = .ok (v, ',' :: Y))
    (a : List JValue) : items (fuel + 1) a X = items fuel (a ++ [v]) Y := by
  simp only [items, hv, ws_delim (Delim.cons (.inl rfl) Y)]
  rfl

theorem put_fresh {m : List (String × JValue)} {k : String} (h : k ∉ m.map (·.1)) (v : JValue) :
    put m k v = m ++ [(k, v)] := by
  rw [put, if_neg]
  rw [List.any_eq_true]
  rintro ⟨p, hp, he⟩
  exact h (List.mem_map.mpr ⟨p, hp, beq_iff_eq.mp he⟩)

theorem strMembers_true_cons (k : String) (v : JValue) (ms : List (String × JValue)) (rest : List Char) :
    (strMembers true ((k, v) :: ms)).data ++ rest =
      (q k).data ++ ':' :: ((str v).data ++ ((strMembers false ms).data ++ rest)) := by
  simp [strMembers]

theorem strMembers_nil (first : Bool) : (strMembers first []).data = [] := by
  simp [strMembers]

theorem strItems_nil (first : Bool) : (strItems first []).data = [] := by
  simp [strItems]

theorem strMembers_false_cons (kv : String × JValue) (ms : List (String × JValue)) :
    (strMembers false (kv :: ms)).data = ',' :: (strMembers true (kv :: ms)).data := by
  simp [strMembers]

theorem strItems_true_cons (v : JValue) (a : List JValue) (rest : List Char) :
    (strItems true (v :: a)).data ++ rest = (str v).data ++ ((strItems false a).data ++ rest) := by
  simp [strItems]

theorem strItems_false_cons (v : JValue) (a : List JValue) :
    (strItems false (v :: a)).data = ',' :: (strItems true (v :: a)).data := by
  simp [strItems]

/-- `val`, given the value's size in fuel, reads `v` back from its text
followed by what may follow a value. -/
def ReadsBack (v : JValue) : Prop :=
  ∀ fuel, v.size ≤ fuel → ∀ rest, Delim rest → val fuel ((str v).data ++ rest) = .ok (v, rest)

theorem members_str {ms : List (String × JValue)} (hv : ∀ kv ∈ ms, ReadsBack kv.2) (hne : ms ≠ [])
    (m : List (String × JValue)) (hkeys : (m.map (·.1) ++ ms.map (·.1)).Nodup) {fuel : Nat}
    (hf : JValue.membersSize ms ≤ fuel) (rest : List Char) :
    members fuel m ((strMembers true ms).data ++ '}' :: rest) = .ok (.obj (m ++ ms), rest) := by
  induction ms generalizing m fuel with
  | nil => exact absurd rfl hne
  | cons kv ms ih =>
    obtain ⟨k, v⟩ := kv
    change v.size + 1 + JValue.membersSize ms ≤ fuel at hf
    obtain ⟨fuel, rfl⟩ : ∃ f, fuel = f + 1 := ⟨fuel - 1, by omega⟩
    have hk : k ∉ m.map (·.1) := fun hk =>
      List.disjoint_of_nodup_append hkeys hk (List.mem_cons_self k _)
    have hread := hv (k, v) (List.mem_cons_self _ _)
    dsimp only [ReadsBack] at hread
    replace hread := hread fuel (by omega)
    rw [strMembers_true_cons]
    rcases ms with _ | ⟨kv', ms⟩
    · rw [strMembers_nil, List.nil_append, members_last (hread _ (Delim.cons (.inr (.inl rfl)) rest)), put_fresh hk]
    · rw [strMembers_false_cons, List.cons_append,
        members_next (hread _ (Delim.cons (.inl rfl) _)), put_fresh hk,
        ih (fun kv h => hv kv (List.mem_cons_of_mem _ h)) (List.cons_ne_nil _ _) _
          (by rwa [List.map_append, List.append_assoc]) (by change _ + 1 + _ ≤ _ at hf; omega),
        List.append_assoc, List.singleton_append]

theorem items_str {a : List JValue} (hv : ∀ v ∈ a, ReadsBack v) (hne : a ≠ []) (acc : List JValue)
    {fuel : Nat} (hf : JValue.itemsSize a ≤ fuel) (rest : List Char) :
    items fuel acc ((strItems true a).data ++ ']' :: rest) = .ok (.arr (acc ++ a), rest) := by
  induction a generalizing acc fuel with
  | nil => exact absurd rfl hne
  | cons v a ih =>
    change v.size + 1 + JValue.itemsSize a ≤ fuel at hf
    obtain ⟨fuel, rfl⟩ : ∃ f, fuel = f + 1 := ⟨fuel - 1, by omega⟩
    have hread := hv v (List.mem_cons_self _ _) fuel (by omega)
    rw [strItems_true_cons]
    rcases a with _ | ⟨v', a⟩
    · rw [strItems_nil, List.nil_append, items_last (hread _ (Delim.cons (.inr (.inr rfl)) rest))]
    · rw [strItems_false_cons, List.cons_append, items_next (hread _ (Delim.cons (.inl rfl) _)),
        ih (fun v h => hv v (List.mem_cons_of_mem _ h)) (List.cons_ne_nil _ _) _
          (by change _ + 1 + _ ≤ _ at hf; omega),
        List.append_assoc, List.singleton_append]

/-! ### Values -/

/-- The characters a printed value starts with. -/
def opensChars : List Char := ['{', '[', '"', 't', 'f', 'n', '-', '0', '1', '2', '3', '4', '5', '6', '7', '8', '9']

theorem opensChars_spec : ∀ c ∈ opensChars, ¬(c = ' ' ∨ c = '\n' ∨ c = '\r' ∨ c = '\t') ∧ c ≠ ']' := by
  decide

theorem ws_opens {c : Char} (hc : c ∈ opensChars) (Y : List Char) : ws (c :: Y) = c :: Y := by
  rw [ws, if_neg (opensChars_spec c hc).1]

theorem opens_of_num_head {cs : List Char} (h : ∃ c ∈ cs.head?, c = '-' ∨ c.isDigit = true) :
    ∃ c ∈ opensChars, ∃ tail, cs = c :: tail := by
  obtain ⟨c, hc, hd⟩ := h
  rcases cs with _ | ⟨c', tail⟩
  · cases hc
  cases hc
  refine ⟨c, ?_, tail, rfl⟩
  rcases hd with rfl | hd
  · decide
  · exact List.mem_of_mem_tail (List.mem_of_mem_tail (List.mem_of_mem_tail (List.mem_of_mem_tail
      (List.mem_of_mem_tail (List.mem_of_mem_tail (List.mem_of_mem_tail (isDigit_cases hd)))))))

theorem str_obj_data (m : List (String × JValue)) (rest : List Char) :
    (str (.obj m)).data ++ rest = '{' :: ((strMembers true m).data ++ '}' :: rest) := by
  simp [str]

theorem str_arr_data (a : List JValue) (rest : List Char) :
    (str (.arr a)).data ++ rest = '[' :: ((strItems true a).data ++ ']' :: rest) := by
  simp [str]

theorem Printable.opens {v : JValue} (h : Printable v) (rest : List Char) :
    ∃ c ∈ opensChars, ∃ tail, (MiniJson.str v).data ++ rest = c :: tail := by
  cases h with
  | null => exact ⟨'n', by decide, ['u', 'l', 'l'] ++ rest, by simp [MiniJson.str]⟩
  | str s => exact ⟨'"', by decide, _, q_data_append s rest⟩
  | bool b =>
    cases b
    · exact ⟨'f', by decide, ['a', 'l', 's', 'e'] ++ rest, by simp [MiniJson.str, toString]⟩
    · exact ⟨'t', by decide, ['r', 'u', 'e'] ++ rest, by simp [MiniJson.str, toString]⟩
  | @long w _ _ =>
    obtain ⟨hd, hne, -⟩ := toString_nat_decimal w.natAbs
    have hs : Sign (if w < 0 then ['-'] else []) := by split_ifs; exacts [.inr rfl, .inl rfl]
    exact opens_of_num_head (by rw [MiniJson.str, toString_int_data]; exact hs.head ⟨hne, hd⟩ rest)
  | double ht =>
    obtain ⟨sign, ints, fracs, exp, hdata, hs, hi, -⟩ := ht
    have h := hs.head hi ('.' :: fracs ++ exp ++ rest)
    simp only [List.append_assoc] at h
    exact opens_of_num_head (by rw [MiniJson.str, hdata]; simpa only [List.append_assoc] using h)
  | obj _ _ => exact ⟨'{', by decide, _, str_obj_data _ rest⟩
  | arr _ => exact ⟨'[', by decide, _, str_arr_data _ rest⟩

theorem val_obj_open (fuel : Nat) (k : String) (X : List Char) :
    val (fuel + 1) ('{' :: ((q k).data ++ X)) = members fuel [] ((q k).data ++ X) := by
  rw [q_data_append]
  rfl

theorem val_arr_open (fuel : Nat) {c : Char} (hc : c ∈ opensChars) (Y : List Char) :
    val (fuel + 1) ('[' :: c :: Y) = items fuel [] (c :: Y) := by
  show (match ws (c :: Y) with | ']' :: rest => Except.ok (JValue.arr [], rest) | rest => items fuel [] rest) = _
  rw [ws_opens hc]
  split
  · rename_i h; cases h; exact absurd rfl (opensChars_spec _ hc).2
  · rfl

theorem JValue.size_pos (v : JValue) : 0 < v.size := by
  cases v <;> exact Nat.succ_pos _

theorem ReadsBack.of_succ {v : JValue}
    (h : ∀ fuel, v.size ≤ fuel + 1 → ∀ rest, Delim rest →
      val (fuel + 1) ((str v).data ++ rest) = .ok (v, rest)) :
    ReadsBack v := fun fuel hf => by
  obtain ⟨fuel, rfl⟩ : ∃ f, fuel = f + 1 := ⟨fuel - 1, by have := v.size_pos; omega⟩
  exact h fuel hf

theorem Printable.readsBack {v : JValue} (h : Printable v) : ReadsBack v := by
  induction h with
  | null => exact .of_succ fun fuel _ rest _ => val_null fuel rest
  | str s => exact .of_succ fun fuel _ rest _ => val_q fuel s rest
  | bool b => exact .of_succ fun fuel _ rest _ => val_bool fuel b rest
  | long h1 h2 => exact .of_succ fun fuel _ _ hr => val_long fuel h1 h2 hr
  | double ht => exact .of_succ fun fuel _ _ hr => val_double fuel ht hr
  | @obj m hkeys _ ih =>
    refine .of_succ fun fuel hf rest _ => ?_
    change JValue.membersSize m + 1 ≤ fuel + 1 at hf
    rw [str_obj_data]
    rcases m with _ | ⟨⟨k, v⟩, m⟩
    · rw [strMembers_nil, List.nil_append]
      rfl
    · rw [strMembers_true_cons, val_obj_open, ← strMembers_true_cons,
        members_str ih (List.cons_ne_nil _ _) [] hkeys (by omega), List.nil_append]
  | @arr a ha ih =>
    refine .of_succ fun fuel hf rest _ => ?_
    change JValue.itemsSize a + 1 ≤ fuel + 1 at hf
    rw [str_arr_data]
    rcases a with _ | ⟨v, a⟩
    · rw [strItems_nil, List.nil_append]
      rfl
    · obtain ⟨c, hc, tail, ht⟩ := (ha v (List.mem_cons_self _ _)).opens ((strItems false a).data ++ ']' :: rest)
      rw [strItems_true_cons, ht, val_arr_open fuel hc, ← ht, ← strItems_true_cons,
        items_str ih (List.cons_ne_nil _ _) [] (by omega), List.nil_append]

/-! ### Enough fuel -/

theorem q_length (s : String) : 2 ≤ (q s).data.length := by
  have h := congrArg List.length (q_data_append s [])
  rw [List.append_nil] at h
  simp only [h, List.length_cons, List.length_append]
  omega

theorem str_obj_length (m : List (String × JValue)) :
    (str (.obj m)).data.length = (strMembers true m).data.length + 2 := by
  have h := congrArg List.length (str_obj_data m [])
  simpa only [List.append_nil, List.length_cons, List.length_append] using h

theorem str_arr_length (a : List JValue) : (str (.arr a)).data.length = (strItems true a).data.length + 2 := by
  have h := congrArg List.length (str_arr_data a [])
  simpa only [List.append_nil, List.length_cons, List.length_append] using h

theorem strMembers_false_cons_length (k : String) (v : JValue) (ms : List (String × JValue)) :
    (strMembers false ((k, v) :: ms)).data.length =
      (q k).data.length + (str v).data.length + (strMembers false ms).data.length + 2 := by
  have h := congrArg List.length (strMembers_true_cons k v ms [])
  simp only [List.append_nil, List.length_cons, List.length_append] at h
  rw [strMembers_false_cons, List.length_cons, h]
  omega

theorem strItems_false_cons_length (v : JValue) (a : List JValue) :
    (strItems false (v :: a)).data.length = (str v).data.length + (strItems false a).data.length + 1 := by
  have h := congrArg List.length (strItems_true_cons v a [])
  simp only [List.append_nil, List.length_append] at h
  rw [strItems_false_cons, List.length_cons, h]

theorem strMembers_false_length (ms : List (String × JValue)) :
    (strMembers false ms).data.length ≤ (strMembers true ms).data.length + 1 := by
  rcases ms with _ | ⟨kv, ms⟩
  · simp only [strMembers_nil, List.length_nil]
    omega
  · rw [strMembers_false_cons, List.length_cons]

theorem strItems_false_length (a : List JValue) :
    (strItems false a).data.length ≤ (strItems true a).data.length + 1 := by
  rcases a with _ | ⟨v, a⟩
  · simp only [strItems_nil, List.length_nil]
    omega
  · rw [strItems_false_cons, List.length_cons]

mutual

theorem JValue.size_le_length : (v : JValue) → v.size ≤ 2 * (MiniJson.str v).data.length + 1
  | .obj m => by
    have := JValue.membersSize_le_length m
    have := strMembers_false_length m
    change JValue.membersSize m + 1 ≤ _
    rw [str_obj_length]
    omega
  | .arr a => by
    have := JValue.itemsSize_le_length a
    have := strItems_false_length a
    change JValue.itemsSize a + 1 ≤ _
    rw [str_arr_length]
    omega
  | .str _ | .bool _ | .null | .long _ | .double _ => Nat.le_add_left _ _

theorem JValue.membersSize_le_length : (ms : List (String × JValue)) →
    JValue.membersSize ms ≤ 2 * (strMembers false ms).data.length
  | [] => Nat.zero_le _
  | (k, v) :: ms => by
    have := JValue.size_le_length v
    have := JValue.membersSize_le_length ms
    have := q_length k
    change v.size + 1 + JValue.membersSize ms ≤ _
    rw [strMembers_false_cons_length]
    omega

theorem JValue.itemsSize_le_length : (a : List JValue) → JValue.itemsSize a ≤ 2 * (strItems false a).data.length
  | [] => Nat.zero_le _
  | v :: a => by
    have := JValue.size_le_length v
    have := JValue.itemsSize_le_length a
    change v.size + 1 + JValue.itemsSize a ≤ _
    rw [strItems_false_cons_length]
    omega

end

theorem parse_str {v : JValue} (h : Printable v) : parse (str v) = .ok v := by
  obtain ⟨c, hc, tail, ht⟩ := h.opens []
  have hws : ws (str v).data = (str v).data := by
    rw [← List.append_nil (str v).data, ht, ws_opens hc]
  unfold parse
  rw [hws, ← List.append_nil (str v).data,
    h.readsBack (2 * (str v).length + 1) (JValue.size_le_length v) [] Delim.nil]
  rfl

/-! ### Lookups in a map with distinct keys -/

theorem lookup_of_mem {l : List (String × JValue)} (h : (l.map (·.1)).Nodup) {kv : String × JValue}
    (hkv : kv ∈ l) : l.lookup kv.1 = some kv.2 := by
  induction l with
  | nil => cases hkv
  | cons p l ih =>
    obtain ⟨k, v⟩ := p
    rw [List.map_cons, List.nodup_cons] at h
    dsimp only at h
    rcases List.mem_cons.mp hkv with rfl | hmem
    · exact List.lookup_cons_self
    · have hk : kv.1 ≠ k := by
        rintro rfl
        exact h.1 (List.mem_map_of_mem _ hmem)
      rw [List.lookup_cons, beq_false_of_ne hk]
      exact ih h.2 hmem

end OI.MiniJson

namespace OI.Flourish

open MiniJson

/-! ### Signed token payloads -/

theorem foldl_put_fresh (g : String → JValue) (ks : List String) (acc : List (String × JValue))
    (h : (acc.map (·.1) ++ ks).Nodup) :
    ks.foldl (fun out k => put out k (g k)) acc = acc ++ ks.map fun k => (k, g k) := by
  induction ks generalizing acc with
  | nil => simp
  | cons k ks ih =>
    have hk : k ∉ acc.map (·.1) := fun hk => List.disjoint_of_nodup_append h hk (List.mem_cons_self k ks)
    rw [List.foldl_cons, put_fresh hk, ih _ (by rwa [List.map_append, List.append_assoc]), List.map_cons,
      List.append_assoc, List.singleton_append]

theorem sortedPayload_eq {payload : List (String × JValue)} (h : (payload.map (·.1)).Nodup) :
    sortedPayload payload =
      ((payload.map (·.1)).insertionSort compareToLE).map fun k => (k, (payload.lookup k).getD .null) :=
  foldl_put_fresh _ _ [] ((List.perm_insertionSort _ _).nodup_iff.mpr h)

theorem sortedPayload_perm {payload : List (String × JValue)} (h : (payload.map (·.1)).Nodup) :
    (sortedPayload payload).Perm payload := by
  have hmap : (payload.map (·.1)).map (fun k => (k, (payload.lookup k).getD .null)) = payload := by
    rw [List.map_map]
    conv_rhs => rw [← List.map_id payload]
    exact List.map_congr_left fun kv hkv => by simp [lookup_of_mem h hkv]
  rw [sortedPayload_eq h]
  exact ((List.perm_insertionSort _ _).map _).trans (by rw [hmap])

theorem sortedPayload_nodup {payload : List (String × JValue)} (h : (payload.map (·.1)).Nodup) :
    ((sortedPayload payload).map (·.1)).Nodup :=
  ((sortedPayload_perm h).map _).nodup_iff.mpr h

theorem parse_canonicalJsonSorted {payload : List (String × JValue)} (h : (payload.map (·.1)).Nodup)
    (hv : ∀ kv ∈ payload, Printable kv.2) :
    parse (canonicalJsonSorted payload) = .ok (.obj (sortedPayload payload)) :=
  parse_str (.obj (sortedPayload_nodup h) fun kv hkv => hv kv ((sortedPayload_perm h).subset hkv))

theorem verifySignedTokenJson_canonical (doubleLong : String → Int) {signed : List String}
    {payload : List (String × JValue)} {exp now : Int} (h : (payload.map (·.1)).Nodup)
    (hv : ∀ kv ∈ payload, Printable kv.2) (hexp : ("exp", JValue.long exp) ∈ payload)
    (hs : canonicalJsonSorted payload ∈ signed) (hnow : now ≤ exp) :
    verifySignedTokenJson doubleLong signed (some (canonicalJsonSorted payload)) now =
      .ok (sortedPayload payload) := by
  have hlook : (sortedPayload payload).lookup "exp" = some (.long exp) :=
    lookup_of_mem (sortedPayload_nodup h) ((sortedPayload_perm h).symm.subset hexp)
  simp only [verifySignedTokenJson, hs, not_true_eq_false, if_false, parse_canonicalJsonSorted h hv, hlook,
    Option.some_bind, longValue]
  rw [if_neg (not_lt.mpr hnow)]

theorem mintConsentMap_eq (kid aud : String) (exp : Int) (nonce actHash : String) :
    mintConsentMap kid aud exp nonce actHash =
      [("v", .long 1), ("kid", .str kid), ("aud", .str aud), ("exp", .long exp), ("nonce", .str nonce),
        ("act_hash", .str actHash)] :=
  rfl

theorem devCapMintMap_eq (kid aud : String) (exp : Int) (scopes : List String) :
    devCapMintMap kid aud exp scopes =
      [("v", .long 1), ("kid", .str kid), ("aud", .str aud), ("exp", .long exp),
        ("scopes", .arr (scopes.map .str))] :=
  rfl

theorem mintConsentMap_printable (kid aud : String) {exp : Int} (h1 : -2 ^ 63 ≤ exp) (h2 : exp < 2 ^ 63)
    (nonce actHash : String) :
    ((mintConsentMap kid aud exp nonce actHash).map (·.1)).Nodup ∧
      (∀ kv ∈ mintConsentMap kid aud exp nonce actHash, Printable kv.2) ∧
      ("exp", JValue.long exp) ∈ mintConsentMap kid aud exp nonce actHash := by
  rw [mintConsentMap_eq]
  refine ⟨by simp only [List.map_cons, List.map_nil]; decide, ?_, by simp⟩
  simp only [List.forall_mem_cons]
  exact ⟨.long (by decide) (by decide), .str _, .str _, .long h1 h2, .str _, .str _,
    fun _ h => absurd h (List.not_mem_nil _)⟩

theorem devCapMintMap_printable (kid aud : String) {exp : Int} (h1 : -2 ^ 63 ≤ exp) (h2 : exp < 2 ^ 63)
    (scopes : List String) :
    ((devCapMintMap kid aud exp scopes).map (·.1)).Nodup ∧
      (∀ kv ∈ devCapMintMap kid aud exp scopes, Printable kv.2) ∧
      ("exp", JValue.long exp) ∈ devCapMintMap kid aud exp scopes := by
  rw [devCapMintMap_eq]
  refine ⟨by simp only [List.map_cons, List.map_nil]; decide, ?_, by simp⟩
  simp only [List.forall_mem_cons]
  refine ⟨.long (by decide) (by decide), .str _, .str _, .long h1 h2, .arr fun v hv => ?_,
    fun _ h => absurd h (List.not_mem_nil _)⟩
  obtain ⟨s, -, rfl⟩ := List.mem_map.mp hv
  exact .str s

/-- `parse` reads back what `str` prints, for every value a Java program can
print: so a token that `mintConsent` or `devCapMint` signed verifies, until its
`exp`, to the map it signed, its keys reordered. -/
theorem parse_str_round_trip :
    (∀ v : JValue, Printable v → parse (str v) = .ok v) ∧
    (∀ (doubleLong : String → Int) (signed : List String) (kid aud nonce actHash : String) (exp now : Int),
      -2 ^ 63 ≤ exp → exp < 2 ^ 63 → canonicalJsonSorted (mintConsentMap kid aud exp nonce actHash) ∈ signed →
      now ≤ exp → ∃ m, verifySignedTokenJson doubleLong signed
        (some (canonicalJsonSorted (mintConsentMap kid aud exp nonce actHash))) now = .ok m ∧
        m.Perm (mintConsentMap kid aud exp nonce actHash)) ∧
    (∀ (doubleLong : String → Int) (signed : List String) (kid aud : String) (exp now : Int)
      (scopes : List String),
      -2 ^ 63 ≤ exp → exp < 2 ^ 63 → canonicalJsonSorted (devCapMintMap kid aud exp scopes) ∈ signed →
      now ≤ exp → ∃ m, verifySignedTokenJson doubleLong signed
        (some (canonicalJsonSorted (devCapMintMap kid aud exp scopes))) now = .ok m ∧
        m.Perm (devCapMintMap kid aud exp scopes)) := by
  refine ⟨fun v h => parse_str h, fun doubleLong signed kid aud nonce actHash exp now h1 h2 hs hnow => ?_,
    fun doubleLong signed kid aud exp now scopes h1 h2 hs hnow => ?_⟩
  · obtain ⟨hk, hv, he⟩ := mintConsentMap_printable kid aud h1 h2 nonce actHash
    exact ⟨_, verifySignedTokenJson_canonical doubleLong hk hv he hs hnow, sortedPayload_perm hk⟩
  · obtain ⟨hk, hv, he⟩ := devCapMintMap_printable kid aud h1 h2 scopes
    exact ⟨_, verifySignedTokenJson_canonical doubleLong hk hv he hs hnow, sortedPayload_perm hk⟩

theorem parse_str_round_trip_mint :
    parse (str (.obj [("n", .long 1), ("s", .str "a\"\n")])) = .ok (.obj [("n", .long 1), ("s", .str "a\"\n")]) ∧
    (∃ m, verifySignedTokenJson (fun _ => 0) [canonicalJsonSorted (mintConsentMap "k" "consent" 100 "n" "h")]
        (some (canonicalJsonSorted (mintConsentMap "k" "consent" 100 "n" "h"))) 50 = .ok m ∧
        m.Perm (mintConsentMap "k" "consent" 100 "n" "h")) ∧
    (∃ m, verifySignedTokenJson (fun _ => 0) [canonicalJsonSorted (devCapMintMap "k" "cap" 100 ["t"])]
        (some (canonicalJsonSorted (devCapMintMap "k" "cap" 100 ["t"]))) 50 = .ok m ∧
        m.Perm (devCapMintMap "k" "cap" 100 ["t"])) :=
  ⟨parse_str_round_trip.1 _ (.obj (by decide) (by simp only [List.forall_mem_cons]; exact
      ⟨.long (by decide) (by decide), .str _, fun _ h => absurd h (List.not_mem_nil _)⟩)),
    parse_str_round_trip.2.1 _ _ "k" "consent" "n" "h" 100 50 (by decide) (by decide)
      (List.mem_singleton_self _) (by decide),
    parse_str_round_trip.2.2 _ _ "k" "cap" 100 50 ["t"] (by decide) (by decide)
      (List.mem_singleton_self _) (by decide)⟩

/-! ### What the canonical text determines -/

/-- Two maps with distinct keys and printable values that print to one
canonical text hold the same entries: `canonicalJsonSorted` tells apart maps
that differ in a key or a value. -/
theorem canonicalJsonSorted_determines {m₁ m₂ : List (String × JValue)} (h₁ : (m₁.map (·.1)).Nodup)
    (hv₁ : ∀ kv ∈ m₁, Printable kv.2) (h₂ : (m₂.map (·.1)).Nodup) (hv₂ : ∀ kv ∈ m₂, Printable kv.2)
    (h : canonicalJsonSorted m₁ = canonicalJsonSorted m₂) : m₁.Perm m₂ := by
  have hp := parse_canonicalJsonSorted h₁ hv₁
  rw [h, parse_canonicalJsonSorted h₂ hv₂] at hp
  injection hp with hp
  injection hp with hp
  exact (sortedPayload_perm h₁).symm.trans (hp ▸ sortedPayload_perm h₂)

theorem canonicalJsonSorted_determines_swap :
    ([("a", JValue.str "1"), ("b", .long 2)].map (·.1)).Nodup ∧
      ([("b", JValue.long 2), ("a", .str "1")].map (·.1)).Nodup ∧
      canonicalJsonSorted [("a", .str "1"), ("b", .long 2)] = canonicalJsonSorted [("b", .long 2), ("a", .str "1")] ∧
      [("a", JValue.str "1"), ("b", .long 2)].Perm [("b", .long 2), ("a", .str "1")] :=
  have hv₁ : ∀ kv ∈ [("a", JValue.str "1"), ("b", .long 2)], Printable kv.2 := by
    simp only [List.forall_mem_cons]
    exact ⟨.str _, .long (by decide) (by decide), fun _ h => absurd h (List.not_mem_nil _)⟩
  have hv₂ : ∀ kv ∈ [("b", JValue.long 2), ("a", .str "1")], Printable kv.2 := by
    simp only [List.forall_mem_cons]
    exact ⟨.long (by decide) (by decide), .str _, fun _ h => absurd h (List.not_mem_nil _)⟩
  ⟨by decide, by decide, by decide,
    canonicalJsonSorted_determines (by decide) hv₁ (by decide) hv₂ (by decide)⟩

/-! ### Nested objects keep their order -/

theorem toolAction_eq (tool : String) (args : List (String × String)) :
    toolAction tool args =
      [("op", .str "tool/run"), ("tool", .str tool), ("args", .obj (args.map fun a => (a.1, .str a.2)))] :=
  rfl

theorem toolAction_printable (tool : String) {args : List (String × String)} (h : (args.map (·.1)).Nodup) :
    Printable (.obj (toolAction tool args)) := by
  rw [toolAction_eq]
  refine .obj (by simp only [List.map_cons, List.map_nil]; decide) ?_
  simp only [List.forall_mem_cons]
  refine ⟨.str _, .str _, .obj (by simpa [Function.comp_def] using h) fun kv hkv => ?_,
    fun _ h => absurd h (List.not_mem_nil _)⟩
  obtain ⟨a, -, rfl⟩ := List.mem_map.mp hkv
  exact .str _

/-- Two `/v1/tool/run` actions whose `args` hold the same entries in another
order are read by `parse` from their texts and are equal as Java maps, yet
`canonicalJsonSorted` prints them apart: it sorts only the top-level keys. -/
theorem canonical_depends_on_nested_order :
    parse (str (.obj (toolAction "echo" [("a", "1"), ("b", "2")]))) =
        .ok (.obj (toolAction "echo" [("a", "1"), ("b", "2")])) ∧
      parse (str (.obj (toolAction "echo" [("b", "2"), ("a", "1")]))) =
        .ok (.obj (toolAction "echo" [("b", "2"), ("a", "1")])) ∧
      [("a", "1"), ("b", "2")].Perm [("b", "2"), ("a", "1")] ∧
      canonicalJsonSorted (toolAction "echo" [("a", "1"), ("b", "2")]) ≠
        canonicalJsonSorted (toolAction "echo" [("b", "2"), ("a", "1")]) :=
  ⟨parse_str (toolAction_printable _ (by decide)), parse_str (toolAction_printable _ (by decide)),
    .swap _ _ _, by decide⟩

end OI.Flourish
