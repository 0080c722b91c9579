import Mathlib.Data.Nat.Digits
import OiCorridor.Spec.Go

/-! The decimal text of a number. The model prints Go's `%d` and Java's
`Integer.toString` and `Long.toString` with Lean's `toString`: the digits of
`Nat.toDigits 10`, after a `-` for a negative `Int`. Read back with the digit
fold of `Long.parseLong`, the digits give the number again, so the printed text
determines the number. -/

set_option autoImplicit false

namespace OI

theorem toDigitsCore_append (b f n : Nat) (ds : List Char) :
    Nat.toDigitsCore b f n ds = Nat.toDigitsCore b f n [] ++ ds := by
  induction f generalizing n ds with
  | zero => rfl
  | succ f ih =>
    simp only [Nat.toDigitsCore]
    split_ifs
    · rfl
    · rw [ih, ih _ [_], List.append_assoc, List.singleton_append]

theorem digitChar_decimal {d : Nat} (h : d < 10) :
    (Nat.digitChar d).isDigit = true ∧ ((Nat.digitChar d).toNat : Int) - 48 = d := by
  revert d
  decide

theorem toDigitsCore_decimal (f n : Nat) (hn : n < f) :
    (∀ c ∈ Nat.toDigitsCore 10 f n [], c.isDigit = true) ∧
      (Nat.toDigitsCore 10 f n []).foldl (fun acc d => acc * 10 + ((d.toNat : Int) - 48)) 0 = n := by
  induction f generalizing n with
  | zero => omega
  | succ f ih =>
    have hd := digitChar_decimal (Nat.mod_lt n (by decide : 10 > 0))
    simp only [Nat.toDigitsCore]
    split_ifs with h0
    · refine ⟨by simpa using hd.1, ?_⟩
      simp only [List.foldl_cons, List.foldl_nil, hd.2]
      omega
    · obtain ⟨hall, hval⟩ := ih (n / 10) (by omega)
      rw [toDigitsCore_append, List.foldl_append, hval]
      refine ⟨fun c hc => ?_, ?_⟩
      · rcases List.mem_append.mp hc with hc | hc
        · exact hall c hc
        · rw [List.mem_singleton.mp hc]; exact hd.1
      · simp only [List.foldl_cons, List.foldl_nil, hd.2]
        omega

theorem toString_nat_decimal (n : Nat) :
    (∀ c ∈ (toString n).data, c.isDigit = true) ∧ (toString n).data ≠ [] ∧
      (toString n).data.foldl (fun acc d => acc * 10 + ((d.toNat : Int) - 48)) 0 = n := by
  obtain ⟨hall, hval⟩ := toDigitsCore_decimal (n + 1) n (Nat.lt_succ_self n)
  refine ⟨hall, ?_, hval⟩
  show Nat.toDigitsCore 10 (n + 1) n [] ≠ []
  simp only [Nat.toDigitsCore]
  split_ifs
  · exact List.cons_ne_nil _ _
  · rw [toDigitsCore_append]; exact List.append_ne_nil_of_right_ne_nil _ (List.cons_ne_nil _ _)

theorem toDigitsCore_head (f n : Nat) (hn : n < f) (h0 : 0 < n) (ds : List Char) :
    ∃ d rest, Nat.toDigitsCore 10 f n ds = d :: rest ∧ d ≠ '0' := by
  induction f generalizing n ds with
  | zero => omega
  | succ f ih =>
    simp only [Nat.toDigitsCore]
    split_ifs with h
    · have key : ∀ m < 10, 0 < m → Nat.digitChar m ≠ '0' := by decide
      exact ⟨_, ds, rfl, by rw [Nat.mod_eq_of_lt (by omega)]; exact key n (by omega) h0⟩
    · exact ih (n / 10) (by omega) (by omega) _

theorem toString_nat_head {n : Nat} (h0 : 0 < n) :
    ∃ d rest, (toString n).data = d :: rest ∧ d ≠ '0' :=
  toDigitsCore_head (n + 1) n (Nat.lt_succ_self n) h0 []

theorem toString_nat_injective : Function.Injective fun n : Nat => toString n := fun a b h => by
  have ha := (toString_nat_decimal a).2.2
  have hb := (toString_nat_decimal b).2.2
  rw [show toString a = toString b from h] at ha
  exact_mod_cast ha.symm.trans hb

theorem toString_int_data (i : Int) :
    (toString i).data = (if i < 0 then ['-'] else []) ++ (toString i.natAbs).data := by
  cases i with
  | ofNat m => rfl
  | negSucc m =>
    simp only [Int.negSucc_lt_zero, if_true, Int.natAbs_negSucc]
    rfl

theorem toString_int_injective : Function.Injective fun i : Int => toString i := fun a b h => by
  have hd := congrArg String.data (show toString a = toString b from h)
  simp only [toString_int_data] at hd
  have hdigit : ∀ i : Int, ∀ c ∈ (toString i.natAbs).data.head?, c ≠ '-' := fun i c hc heq => by
    have := (toString_nat_decimal i.natAbs).1 c (List.mem_of_mem_head? hc)
    rw [heq] at this
    exact absurd this (by decide)
  have habs : a.natAbs = b.natAbs → (a < 0 ↔ b < 0) → a = b := fun h1 h2 => by omega
  by_cases ha : a < 0 <;> by_cases hb : b < 0 <;>
    simp only [ha, hb, if_true, if_false, List.singleton_append, List.nil_append] at hd
  · exact habs (toString_nat_injective (String.ext (List.cons.inj hd).2)) (iff_of_true ha hb)
  · exact absurd rfl (hdigit b '-' (by rw [← hd]; rfl))
  · exact absurd rfl (hdigit a '-' (by rw [hd]; rfl))
  · exact habs (toString_nat_injective (String.ext hd)) (iff_of_false ha hb)

end OI
