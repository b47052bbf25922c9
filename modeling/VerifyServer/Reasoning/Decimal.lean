import VerifyServer.Reasoning.JavaString

/-!
# Decimal — the digits of a number, from the last one on
-/

namespace VerifyServer.Reasoning

theorem digits_of_lt {n : Nat} (h : n < 10) : digits n = [UInt16.ofNat (0x30 + n)] := by
  rw [digits, Nat.toDigits_of_lt_base h, List.map_singleton, Nat.toNat_digitChar_of_lt_ten h]

theorem digits_of_le {n : Nat} (h : 10 ≤ n) :
    digits n = digits (n / 10) ++ [UInt16.ofNat (0x30 + n % 10)] := by
  rw [digits, Nat.toDigits_of_base_le (by decide) h, List.map_append, List.map_singleton,
    Nat.toNat_digitChar_of_lt_ten (Nat.mod_lt n (by decide)), digits]

theorem length_digits_le {n k : Nat} (hk : 0 < k) (h : n < 10 ^ k) : (digits n).length ≤ k := by
  rw [digits, List.length_map]
  exact (Nat.length_toDigits_le_iff (by decide) hk).mpr h

/-- No digits but those of null begin with a null. -/
theorem digits_head {n : Nat} (h : 0 < n) :
    ∃ c ds, digits n = c :: ds ∧ 0x31 ≤ c.toNat ∧ c.toNat ≤ 0x39 := by
  induction n using Nat.strongRecOn with
  | _ n ih =>
    by_cases hn : n < 10
    · refine ⟨_, [], digits_of_lt hn, ?_⟩
      rw [UInt16.toNat_ofNat']
      omega
    · have ⟨c, ds, hc, hle⟩ := ih (n / 10) (by omega) (by omega)
      rw [digits_of_le (by omega), hc]
      exact ⟨c, _, rfl, hle⟩

end VerifyServer.Reasoning
