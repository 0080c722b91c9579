import OiCorridor.Spec.Json

/-! How `MiniJson.parse` consumes its input. Every sub-parser returns a suffix of
its input, and fuel above twice the input's length never runs out, so `parse`
fails exactly where the Java parser throws. -/

set_option autoImplicit false

namespace OI.MiniJson

theorem ws_suffix (cs : List Char) : ws cs <:+ cs := by
  induction cs with
  | nil => exact List.suffix_refl _
  | cons c cs ih =>
    unfold ws
    split_ifs
    · exact ih.trans (List.suffix_cons c cs)
    · exact List.suffix_refl _

theorem eat_eq {c : Char} {cs r : List Char} (h : eat c cs = .ok r) : cs = c :: r := by
  cases cs with
  | nil => cases h
  | cons d cs =>
    simp only [eat] at h
    split_ifs at h with hd
    cases h
    rw [hd]

theorem eat_suffix {c : Char} {cs r : List Char} (h : eat c cs = .ok r) : r <:+ cs := by
  rw [eat_eq h]
  exact List.suffix_cons c r

theorem strChars_suffix_step (pre : List Char) {rest r : List Char} {c : Char} {b : List Char}
    (ih : ∀ {b r}, strChars rest = .ok (b, r) → r <:+ rest)
    (h : (strChars rest).map (fun p => (c :: p.1, p.2)) = .ok (b, r)) : r <:+ pre ++ rest := by
  rcases hs : strChars rest with e | ⟨b', r'⟩ <;> rw [hs] at h <;> cases h
  exact (ih hs).trans (List.suffix_append pre rest)

theorem strChars_suffix {cs b r : List Char} (h : strChars cs = .ok (b, r)) : r <:+ cs := by
  induction cs using strChars.induct generalizing b r with
  | case1 => cases h; exact List.suffix_refl _
  | case2 rest => cases h; exact List.suffix_cons _ _
  | case3 => cases h
  | case4 rest ih => exact strChars_suffix_step ['\\', '"'] ih h
  | case5 rest ih => exact strChars_suffix_step ['\\', '\\'] ih h
  | case6 rest ih => exact strChars_suffix_step ['\\', 'n'] ih h
  | case7 rest ih => exact strChars_suffix_step ['\\', 'r'] ih h
  | case8 rest ih => exact strChars_suffix_step ['\\', 't'] ih h
  | case9 x₁ x₂ x₃ x₄ rest hv => simp [strChars, hv] at h
  | case10 x₁ x₂ x₃ x₄ rest v hv ih =>
    simp only [strChars, hv] at h
    exact strChars_suffix_step ['\\', 'u', x₁, x₂, x₃, x₄] ih h
  | case11 tail hne =>
    rcases tail with _ | ⟨x₁, _ | ⟨x₂, _ | ⟨x₃, _ | ⟨x₄, rest⟩⟩⟩⟩
    all_goals simp [strChars] at h
    exact (hne _ _ _ _ _ rfl).elim
  | case12 head tail h1 h2 h3 h4 h5 h6 h7 =>
    simp only [strChars] at h
    cases h
  | case13 c rest h1 h2 ih =>
    simp only [strChars] at h
    exact strChars_suffix_step [c] ih h

theorem bool_suffix {cs r : List Char} {v : JValue} (h : bool cs = .ok (v, r)) : r <:+ cs := by
  unfold bool at h
  split_ifs at h <;> cases h <;> exact List.drop_suffix _ _

theorem nul_suffix {cs r : List Char} {v : JValue} (h : nul cs = .ok (v, r)) : r <:+ cs := by
  unfold nul at h
  split_ifs at h
  cases h
  exact List.drop_suffix _ _

theorem span_snd_suffix (p : Char → Bool) (l : List Char) : (l.span p).2 <:+ l := by
  rw [List.span_eq_take_drop]
  exact List.dropWhile_suffix p

theorem scanSign_suffix (cs : List Char) : (scanSign cs).2 <:+ cs := by
  unfold scanSign
  split
  · exact List.suffix_cons _ _
  · exact List.suffix_refl _

theorem scanFrac_suffix (cs : List Char) : (scanFrac cs).2 <:+ cs := by
  unfold scanFrac
  split
  · exact (span_snd_suffix _ _).trans (List.suffix_cons _ _)
  · exact List.suffix_refl _

theorem expPart_suffix (cs : List Char) : (expPart cs).2 <:+ cs := by
  rcases cs with _ | ⟨c, cs⟩
  · exact List.suffix_refl _
  dsimp only [expPart]
  split_ifs
  · refine (span_snd_suffix _ _).trans ?_
    unfold expPart.scanExpSign
    split
    · split_ifs
      · exact (List.suffix_cons _ _).trans (List.suffix_cons _ _)
      · exact List.suffix_cons _ _
    · exact List.suffix_cons _ _
  · exact List.suffix_refl _

theorem scanNum_suffix (cs : List Char) : (scanNum cs).2 <:+ cs :=
  (expPart_suffix _).trans ((scanFrac_suffix _).trans ((span_snd_suffix _ _).trans (scanSign_suffix cs)))

theorem num_suffix {cs r : List Char} {v : JValue} (h : num cs = .ok (v, r)) : r <:+ cs := by
  have hr := scanNum_suffix cs
  unfold num at h
  rcases hs : scanNum cs with ⟨t, rest⟩
  rw [hs] at h hr
  dsimp only at h
  split_ifs at h
  · rcases hl : parseLong t.text with e | n <;> rw [hl] at h <;> cases h
    exact hr
  · cases h
    exact hr

theorem strv_suffix {cs r : List Char} {k : String} (h : strv cs = .ok (k, r)) : r <:+ cs := by
  unfold strv at h
  rcases he : eat '"' cs with e | cs'
  · simp only [he, bind, Except.bind] at h; cases h
  rcases hs : strChars cs' with e | ⟨b, r'⟩ <;>
    simp only [he, hs, bind, Except.bind, pure, Except.pure] at h <;> cases h
  rw [eat_eq he]
  exact (strChars_suffix hs).trans (List.suffix_cons _ _)

theorem parsers_suffix (fuel : Nat) :
    (∀ cs v r, val fuel cs = .ok (v, r) → r <:+ cs) ∧
    (∀ m cs v r, members fuel m cs = .ok (v, r) → r <:+ cs) ∧
    (∀ a cs v r, items fuel a cs = .ok (v, r) → r <:+ cs) := by
  induction fuel with
  | zero => exact ⟨fun _ _ _ h => (by cases h), fun _ _ _ _ h => (by cases h),
      fun _ _ _ _ h => (by cases h)⟩
  | succ n ih =>
    obtain ⟨hv, hm, hi⟩ := ih
    refine ⟨fun cs v r h => ?_, fun m cs v r h => ?_, fun a cs v r h => ?_⟩
    · refine List.IsSuffix.trans ?_ (ws_suffix cs)
      simp only [val] at h
      split at h <;> rename_i heq <;> rw [heq]
      · cases h
      · refine List.IsSuffix.trans ?_ ((ws_suffix _).trans (List.suffix_cons _ _))
        split at h <;> rename_i heq'
        · cases h; rw [heq']; exact List.suffix_cons _ _
        · exact hm _ _ _ _ h
      · refine List.IsSuffix.trans ?_ ((ws_suffix _).trans (List.suffix_cons _ _))
        split at h <;> rename_i heq'
        · cases h; rw [heq']; exact List.suffix_cons _ _
        · exact hi _ _ _ _ h
      · rcases hs : strChars _ with e | ⟨b, r'⟩ <;> rw [hs] at h <;> cases h
        exact (strChars_suffix hs).trans (List.suffix_cons _ _)
      · split_ifs at h
        · exact bool_suffix h
        · exact nul_suffix h
        · exact num_suffix h
    · simp only [members] at h
      split at h; · cases h
      rename_i k cs₁ h₁
      split at h; · cases h
      rename_i cs₂ h₂
      split at h; · cases h
      rename_i v' cs₃ h₃
      have hs₃ : cs₃ <:+ cs := (hv _ _ _ h₃).trans ((eat_suffix h₂).trans ((ws_suffix _).trans
        ((strv_suffix h₁).trans (ws_suffix _))))
      have hw₃ := ws_suffix cs₃
      split at h
      · rename_i heq
        cases h
        rw [heq] at hw₃
        exact (List.suffix_cons _ _).trans (hw₃.trans hs₃)
      · split at h; · cases h
        rename_i cs₄ h₄
        exact (hm _ _ _ _ h).trans ((eat_suffix h₄).trans (hw₃.trans hs₃))
    · simp only [items] at h
      split at h; · cases h
      rename_i v' cs₁ h₁
      have hw₁ := ws_suffix cs₁
      split at h
      · rename_i heq
        cases h
        rw [heq] at hw₁
        exact (List.suffix_cons _ _).trans (hw₁.trans (hv _ _ _ h₁))
      · split at h; · cases h
        rename_i cs₂ h₂
        exact (hi _ _ _ _ h).trans ((eat_suffix h₂).trans (hw₁.trans (hv _ _ _ h₁)))

/-! ### Enough fuel -/

theorem map_ne_fuel {α β : Type} {x : Except JsonError α} (f : α → β) (h : x ≠ .error .fuel) :
    x.map f ≠ .error .fuel := by
  rcases x with e | a
  · exact fun he => h (by injection he with he; rw [he])
  · exact fun he => by injection he

theorem strChars_ne_fuel (cs : List Char) : strChars cs ≠ .error .fuel := by
  induction cs using strChars.induct <;> simp only [strChars, *] <;>
    first | exact map_ne_fuel _ ‹_› | exact fun h => by cases h

theorem eat_ne_fuel (c : Char) (cs : List Char) : eat c cs ≠ .error .fuel := by
  rcases cs with _ | ⟨d, cs⟩
  · exact fun h => by cases h
  · simp only [eat]; split_ifs <;> exact fun h => by cases h

theorem strv_ne_fuel (cs : List Char) : strv cs ≠ .error .fuel := by
  unfold strv
  rcases he : eat '"' cs with e | cs' <;> simp only [bind, Except.bind]
  · intro h; cases h; exact eat_ne_fuel '"' cs he
  · rcases hs : strChars cs' with e | ⟨b, r⟩ <;> simp only [pure, Except.pure]
    · intro h; cases h; exact strChars_ne_fuel cs' hs
    · exact fun h => by cases h

theorem strv_length_lt {cs r : List Char} {k : String} (h : strv cs = .ok (k, r)) :
    r.length < cs.length := by
  unfold strv at h
  rcases he : eat '"' cs with e | cs'
  · simp only [he, bind, Except.bind] at h; cases h
  rcases hs : strChars cs' with e | ⟨b, r'⟩ <;>
    simp only [he, hs, bind, Except.bind, pure, Except.pure] at h <;> cases h
  have := (strChars_suffix hs).length_le
  rw [eat_eq he, List.length_cons]
  omega

theorem bool_ne_fuel (cs : List Char) : bool cs ≠ .error .fuel := by
  unfold bool; split_ifs <;> exact fun h => by cases h

theorem nul_ne_fuel (cs : List Char) : nul cs ≠ .error .fuel := by
  unfold nul; split_ifs <;> exact fun h => by cases h

theorem parseLong_ne_fuel (n : List Char) : parseLong n ≠ .error .fuel := by
  unfold parseLong; dsimp only; split_ifs <;> exact fun h => by cases h

theorem num_ne_fuel (cs : List Char) : num cs ≠ .error .fuel := by
  unfold num; dsimp only
  split_ifs
  · exact map_ne_fuel _ (parseLong_ne_fuel _)
  all_goals exact fun h => by cases h

theorem parsers_ne_fuel (fuel : Nat) :
    (∀ cs, 2 * cs.length < fuel → val fuel cs ≠ .error .fuel) ∧
    (∀ m cs, 2 * cs.length + 1 < fuel → members fuel m cs ≠ .error .fuel) ∧
    (∀ a cs, 2 * cs.length + 1 < fuel → items fuel a cs ≠ .error .fuel) := by
  induction fuel with
  | zero => exact ⟨fun _ h => absurd h (Nat.not_lt_zero _), fun _ _ h => absurd h (Nat.not_lt_zero _),
      fun _ _ h => absurd h (Nat.not_lt_zero _)⟩
  | succ n ih =>
    obtain ⟨hv, hm, hi⟩ := ih
    refine ⟨fun cs hl h => ?_, fun m cs hl h => ?_, fun a cs hl h => ?_⟩
    · have hw := (ws_suffix cs).length_le
      simp only [val] at h
      split at h <;> rename_i rest heq <;> simp only [heq, List.length_cons] at hw
      · cases h
      · have := (ws_suffix rest).length_le
        split at h
        · cases h
        · exact hm _ _ (by omega) h
      · have := (ws_suffix rest).length_le
        split at h
        · cases h
        · exact hi _ _ (by omega) h
      · exact map_ne_fuel _ (strChars_ne_fuel _) h
      · split_ifs at h
        · exact bool_ne_fuel _ h
        · exact nul_ne_fuel _ h
        · exact num_ne_fuel _ h
        · cases h
    · have l₀ := (ws_suffix cs).length_le
      simp only [members] at h
      split at h
      · rename_i e he; cases h; exact strv_ne_fuel _ he
      rename_i k cs₁ h₁
      have l₁ := strv_length_lt h₁
      split at h
      · rename_i e he; cases h; exact eat_ne_fuel _ _ he
      rename_i cs₂ h₂
      have l₂ := (ws_suffix cs₁).length_le
      rw [eat_eq h₂, List.length_cons] at l₂
      split at h
      · rename_i e he; cases h; exact hv _ (by omega) he
      rename_i v cs₃ h₃
      have l₃ := ((parsers_suffix n).1 _ _ _ h₃).length_le
      have l₄ := (ws_suffix cs₃).length_le
      split at h
      · cases h
      · split at h
        · rename_i e he; cases h; exact eat_ne_fuel _ _ he
        · rename_i cs₄ h₄
          rw [eat_eq h₄, List.length_cons] at l₄
          exact hm _ _ (by omega) h
    · simp only [items] at h
      split at h
      · rename_i e he; cases h; exact hv _ (by omega) he
      rename_i v cs₁ h₁
      have l₁ := ((parsers_suffix n).1 _ _ _ h₁).length_le
      have l₂ := (ws_suffix cs₁).length_le
      split at h
      · cases h
      · split at h
        · rename_i e he; cases h; exact eat_ne_fuel _ _ he
        · rename_i cs₂ h₂
          rw [eat_eq h₂, List.length_cons] at l₂
          exact hi _ _ (by omega) h

theorem parse_ne_fuel (s : String) : parse s ≠ .error .fuel := by
  unfold parse
  have hl := (ws_suffix s.data).length_le
  split
  · rename_i e he
    intro h; cases h
    exact (parsers_ne_fuel _).1 _ (by change _ < 2 * s.data.length + 1; omega) he
  · split_ifs <;> exact fun h => by cases h

/-! ### What `parse` throws -/

/-- The exceptions the parsers can throw on the characters `cs`: `json exp`
only for the `"` that starts a key or a string, the `:` after a key, and the
`,` between members and between items; a `NumberFormatException` only on a
number's text, which has no line break, or on the four characters after a `\u`
in `cs`. -/
def JsonError.Thrown (cs : List Char) : JsonError → Prop
  | .exp c => c = '"' ∨ c = ':' ∨ c = ','
  | .numberFormat input => (∀ c ∈ input.data, c ≠ '\n' ∧ c ≠ '\r') ∨
      ('\\' :: 'u' :: input.data) <:+: cs ∧ input.length = 4
  | _ => True

theorem JsonError.Thrown.mono {cs cs' : List Char} {e : JsonError} (h : e.Thrown cs)
    (hs : cs <:+: cs') : e.Thrown cs' := by
  cases e
  case numberFormat => exact h.imp_right fun ⟨hi, hl⟩ => ⟨hi.trans hs, hl⟩
  all_goals exact h

theorem JsonError.Thrown.cons {cs : List Char} {e : JsonError} (c : Char) (h : e.Thrown cs) :
    e.Thrown (c :: cs) :=
  h.mono (List.suffix_cons c cs).isInfix

theorem error_of_map_error {α β : Type} {x : Except JsonError α} {f : α → β} {e : JsonError}
    (h : x.map f = .error e) : x = .error e := by
  rcases x with e' | a
  · injection h with h; rw [h]
  · cases h

theorem thrown_of_map {α β : Type} {cs cs' : List Char} {x : Except JsonError α} (f : α → β)
    (h : ∀ e, x = .error e → e.Thrown cs) (hs : cs <:+ cs') : ∀ e, x.map f = .error e → e.Thrown cs' :=
  fun e he => (h e (error_of_map_error he)).mono hs.isInfix

theorem strChars_thrown (cs : List Char) : ∀ e, strChars cs = .error e → e.Thrown cs := by
  induction cs using strChars.induct <;> simp only [strChars, *] <;>
    first
    | exact thrown_of_map _ ‹_› (List.suffix_cons _ _)
    | exact thrown_of_map _ ‹_› (List.suffix_append [_, _] _)
    | exact thrown_of_map _ ‹_› (List.suffix_append [_, _, _, _, _, _] _)
    | exact fun e h => by
        cases h <;> first | trivial | exact .inr ⟨(List.prefix_append _ _).isInfix, rfl⟩

theorem eat_error {c : Char} {cs : List Char} {e : JsonError} (h : eat c cs = .error e) :
    e = .exp c := by
  rcases cs with _ | ⟨d, cs⟩
  · cases h; rfl
  · simp only [eat] at h; split_ifs at h; cases h; rfl

theorem strv_thrown {cs : List Char} {e : JsonError} (h : strv cs = .error e) : e.Thrown cs := by
  unfold strv at h
  rcases he : eat '"' cs with e' | cs' <;> simp only [he, bind, Except.bind] at h
  · cases h; rw [eat_error he]; exact .inl rfl
  · rcases hs : strChars cs' with e' | ⟨b, r⟩ <;> simp only [hs, pure, Except.pure] at h
    · cases h; rw [eat_eq he]; exact (strChars_thrown cs' _ hs).cons _
    · cases h

theorem span_fst_isDigit (l : List Char) : ∀ c ∈ (l.span Char.isDigit).1, c.isDigit := fun c hc => by
  rw [List.span_eq_take_drop] at hc
  exact List.mem_takeWhile_imp hc

theorem scanNum_text_chars (cs : List Char) :
    ∀ c ∈ (scanNum cs).1.text, c.isDigit ∨ c ∈ ['-', '+', '.', 'e', 'E'] := by
  intro c hc
  simp only [scanNum, NumText.text, List.mem_append] at hc
  rcases hc with ((hc | hc) | hc) | hc
  · unfold scanSign at hc; split at hc <;> simp_all
  · exact .inl (span_fst_isDigit _ c hc)
  · unfold scanFrac at hc; split at hc
    · rcases List.mem_cons.mp hc with rfl | hc
      · simp
      · exact .inl (span_fst_isDigit _ c hc)
    · simp at hc
  · unfold expPart at hc; split at hc
    · split_ifs at hc with he
      · rcases List.mem_cons.mp hc with rfl | hc
        · rcases he with rfl | rfl <;> simp
        rcases List.mem_append.mp hc with hc | hc
        · unfold expPart.scanExpSign at hc; split at hc
          · split_ifs at hc with hs
            · rcases List.mem_singleton.mp hc with rfl; rcases hs with rfl | rfl <;> simp
            · simp at hc
          · simp at hc
        · exact .inl (span_fst_isDigit _ c hc)
      · simp at hc
    · simp at hc

theorem scanNum_text_plain (cs : List Char) : ∀ c ∈ (scanNum cs).1.text, c ≠ '\n' ∧ c ≠ '\r' := by
  intro c hc
  rcases scanNum_text_chars cs c hc with h | h
  · exact ⟨fun e => absurd (e ▸ h) (by decide), fun e => absurd (e ▸ h) (by decide)⟩
  · simp only [List.mem_cons, List.not_mem_nil, or_false] at h
    rcases h with rfl | rfl | rfl | rfl | rfl <;> decide

theorem scalar_thrown {cs : List Char} {e : JsonError}
    (h : bool cs = .error e ∨ nul cs = .error e ∨ num cs = .error e) : e.Thrown cs := by
  rcases h with h | h | h
  · unfold bool at h; split_ifs at h; cases h; trivial
  · unfold nul at h; split_ifs at h; cases h; trivial
  · have hplain := scanNum_text_plain cs
    unfold num at h
    rcases hn : scanNum cs with ⟨t, rest⟩
    rw [hn] at h hplain
    dsimp only at h
    split_ifs at h
    · have h := error_of_map_error h
      unfold parseLong at h
      dsimp only at h
      split_ifs at h <;> cases h <;> exact .inl hplain
    · cases h; exact .inl hplain

theorem parsers_thrown (fuel : Nat) :
    (∀ cs e, val fuel cs = .error e → e.Thrown cs) ∧
    (∀ m cs e, members fuel m cs = .error e → e.Thrown cs) ∧
    (∀ a cs e, items fuel a cs = .error e → e.Thrown cs) := by
  induction fuel with
  | zero => exact ⟨fun _ _ h => by cases h; trivial, fun _ _ _ h => by cases h; trivial,
      fun _ _ _ h => by cases h; trivial⟩
  | succ n ih =>
    obtain ⟨hv, hm, hi⟩ := ih
    refine ⟨fun cs e h => ?_, fun m cs e h => ?_, fun a cs e h => ?_⟩
    · refine JsonError.Thrown.mono ?_ (ws_suffix cs).isInfix
      simp only [val] at h
      split at h <;> rename_i heq <;> rw [heq]
      · cases h; trivial
      · split at h
        · cases h
        · exact ((hm _ _ _ h).mono (ws_suffix _).isInfix).cons _
      · split at h
        · cases h
        · exact ((hi _ _ _ h).mono (ws_suffix _).isInfix).cons _
      · exact (strChars_thrown _ _ (error_of_map_error h)).cons _
      · split_ifs at h
        · exact scalar_thrown (.inl h)
        · exact scalar_thrown (.inr (.inl h))
        · exact scalar_thrown (.inr (.inr h))
        · cases h; trivial
    · simp only [members] at h
      split at h
      · rename_i e' he; cases h; exact (strv_thrown he).mono (ws_suffix _).isInfix
      rename_i k cs₁ h₁
      have hs₁ : cs₁ <:+ cs := (strv_suffix h₁).trans (ws_suffix _)
      split at h
      · rename_i e' he; cases h; rw [eat_error he]; exact .inr (.inl rfl)
      rename_i cs₂ h₂
      have hs₂ : cs₂ <:+ cs := (eat_suffix h₂).trans ((ws_suffix _).trans hs₁)
      split at h
      · rename_i e' he; cases h; exact (hv _ _ he).mono hs₂.isInfix
      rename_i v cs₃ h₃
      split at h
      · cases h
      · split at h
        · rename_i e' he; cases h; rw [eat_error he]; exact .inr (.inr rfl)
        · rename_i cs₄ h₄
          exact (hm _ _ _ h).mono ((eat_suffix h₄).trans ((ws_suffix _).trans
            (((parsers_suffix n).1 _ _ _ h₃).trans hs₂))).isInfix
    · simp only [items] at h
      split at h
      · rename_i e' he; cases h; exact hv _ _ he
      rename_i v cs₁ h₁
      split at h
      · cases h
      · split at h
        · rename_i e' he; cases h; rw [eat_error he]; exact .inr (.inr rfl)
        · rename_i cs₂ h₂
          exact (hi _ _ _ h).mono ((eat_suffix h₂).trans ((ws_suffix _).trans
            ((parsers_suffix n).1 _ _ _ h₁))).isInfix

theorem parse_thrown {s : String} {e : JsonError} (h : parse s = .error e) : e.Thrown s.data := by
  unfold parse at h
  split at h
  · rename_i e' he; cases h; exact ((parsers_thrown _).1 _ _ he).mono (ws_suffix _).isInfix
  · split_ifs at h; cases h; trivial

end OI.MiniJson
