import QueryTree.Literal.Encoding
import QueryTree.Proofs.Number.Numeral

/-!
# Floating point literals

The texts of finite floating point literals denote their bit patterns, and as shortly as a decimal
can (`decimals_exact`). The letter behind a double is not part of its numeral.
-/

namespace QueryTree.Literal

open QueryTree.Number

/-- **Floating point literals denote their values**: the text of every finite pattern is a numeral
that is rounded to the pattern, zero with its sign; no decimal that is rounded to the pattern has
fewer significant digits, and none with as few is nearer to the value. -/
theorem decimals_exact :
    (∀ bits : UInt32, Format.single.IsFinite bits.toNat →
      ∃ n : Numeral, (float bits).encode = String.ofList n.chars ∧
        n.Denotes .single bits.toNat) ∧
    (∀ bits : UInt64, Format.double.IsFinite bits.toNat →
      ∃ n : Numeral, (double bits).encode = String.ofList (n.chars ++ ['d']) ∧
        n.Denotes .double bits.toNat) := by
  constructor
  · intro bits hfinite
    obtain ⟨n, hchars, hdenotes⟩ :=
      Layout.exists_numeral Format.isShort_single bits.toNat_lt hfinite
    exact ⟨n, by rw [encode, chars, hchars], hdenotes⟩
  · intro bits hfinite
    obtain ⟨n, hchars, hdenotes⟩ :=
      Layout.exists_numeral Format.isShort_double bits.toNat_lt hfinite
    exact ⟨n, by rw [encode, chars, hchars], hdenotes⟩

/-- The negative zero, and the double before one. -/
theorem decimals_exact_of_edges :
    (∃ n : Numeral, (float 0x80000000).encode = "-0.0" ∧ n.chars = "-0.0".toList ∧
      n.Denotes .single 0x80000000) ∧
    ∃ n : Numeral, (double 0x3FEFFFFFFFFFFFFF).encode = "0.9999999999999999d" ∧
      n.chars = "0.9999999999999999".toList ∧ n.Denotes .double 0x3FEFFFFFFFFFFFFF := by
  obtain ⟨n, hzero, hdenotes⟩ := decimals_exact.1 0x80000000 (by decide)
  obtain ⟨m, hone, hdenotes'⟩ := decimals_exact.2 0x3FEFFFFFFFFFFFFF (by decide)
  have hzero' : (float 0x80000000).encode = String.ofList "-0.0".toList := by decide +kernel
  have hone' : (double 0x3FEFFFFFFFFFFFFF).encode =
      String.ofList ("0.9999999999999999".toList ++ ['d']) := by decide +kernel
  refine ⟨⟨n, hzero', ?_, hdenotes⟩, m, hone', ?_, hdenotes'⟩
  · rwa [hzero, String.ofList_inj] at hzero'
  · rw [hone, String.ofList_inj] at hone'
    exact List.append_cancel_right hone'

end QueryTree.Literal
