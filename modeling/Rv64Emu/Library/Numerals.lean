import Mathlib.Data.Int.Order.Basic

/-! Decimal numerals: the characters they consist of, and the numbers that they
determine. -/
namespace Numerals

theorem repr_injective : Function.Injective Nat.repr := by
  intro n n' h
  have hdigits : Nat.toDigits 10 n = Nat.toDigits 10 n' := by
    rw [← Nat.toList_repr, ← Nat.toList_repr, h]
  calc
    n = Nat.ofDigitChars 10 (Nat.toDigits 10 n) 0 := Nat.ofDigitChars_ten_toDigits.symm
    _ = Nat.ofDigitChars 10 (Nat.toDigits 10 n') 0 := by rw [hdigits]
    _ = n' := Nat.ofDigitChars_ten_toDigits

theorem isDigit_of_mem_repr {n : Nat} {c : Char} (h : c ∈ n.repr.toList) : c.isDigit = true := by
  rw [Nat.toList_repr] at h
  exact Nat.isDigit_of_mem_toDigits (by decide) (by decide) h

/-- The sign of a negative number comes first. -/
theorem toList_repr_of_neg {a : Int} (h : a < 0) :
    a.repr.toList = '-' :: (-a).toNat.repr.toList := by
  rw [Int.repr_eq_if, if_neg (by omega), String.toList_append]
  rfl

theorem repr_of_nonneg {a : Int} (h : 0 ≤ a) : a.repr = a.toNat.repr := by
  rw [Int.repr_eq_if, if_pos h]

theorem mem_repr_int {a : Int} {c : Char} (h : c ∈ a.repr.toList) : c = '-' ∨ c.isDigit = true := by
  obtain hneg | hnonneg := Int.lt_or_le a 0
  · rw [toList_repr_of_neg hneg] at h
    obtain rfl | h := List.mem_cons.mp h
    · exact .inl rfl
    · exact .inr (isDigit_of_mem_repr h)
  · rw [repr_of_nonneg hnonneg] at h
    exact .inr (isDigit_of_mem_repr h)

theorem repr_int_ne {a b : Int} (ha : a < 0) (hb : 0 ≤ b) : a.repr ≠ b.repr := by
  intro h
  have hsign : '-' ∈ b.toNat.repr.toList := by
    rw [← repr_of_nonneg hb, ← h, toList_repr_of_neg ha]
    exact List.mem_cons_self
  exact absurd (isDigit_of_mem_repr hsign) (by decide)

theorem repr_int_injective : Function.Injective Int.repr := by
  intro a b h
  obtain ha | ha := Int.lt_or_le a 0
  · obtain hb | hb := Int.lt_or_le b 0
    · have htail : (-a).toNat.repr.toList = (-b).toNat.repr.toList := by
        have hlist := congrArg String.toList h
        rw [toList_repr_of_neg ha, toList_repr_of_neg hb] at hlist
        exact (List.cons.inj hlist).2
      have hnat := repr_injective (String.toList_inj.mp htail)
      omega
    · exact absurd h (repr_int_ne ha hb)
  · obtain hb | hb := Int.lt_or_le b 0
    · exact absurd h.symm (repr_int_ne hb ha)
    · rw [repr_of_nonneg ha, repr_of_nonneg hb] at h
      have hnat := repr_injective h
      omega

end Numerals
