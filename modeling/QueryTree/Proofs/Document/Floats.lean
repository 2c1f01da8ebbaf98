import QueryTree.Proofs.Document.ByArgument
import QueryTree.Proofs.Number.Twice

/-!
# Floats in documents

What becomes of a number under `float`: it is rounded to 64 bits and then to 32 bits. A number with
64 bits is rounded once, and from `2 ^ 128 - 2 ^ 103` on it becomes an infinity; an integer is
rounded twice, which gives a finite value, but not the nearest one if the first rounding ends on a
midpoint of the format with 32 bits (`floats_rounded`).
-/

namespace QueryTree

open QueryTree.Yaml (Value)
open QueryTree.Number (Format)

/-! ### Bounds -/

namespace Number.Format

/-- The bound from which on numbers become infinite in the format with 32 bits. -/
theorem single_lowEnd_infinity :
    (single.lowEnd single.infinity : ℚ) = (2 ^ 128 - 2 ^ 103) * 2 ^ (single.scale + 2) := by
  have hend : single.lowEnd single.infinity = (2 ^ 25 - 1) * 2 ^ 254 := by decide +kernel
  have hscale : single.scale + 2 = 151 := by decide
  rw [hend, hscale]
  norm_num

/-- A format whose exponents go far enough has the bound of the integers of 64 bits. -/
theorem exists_value_two_pow (f : Format) (h : 1 + (64 + f.scale) * f.hidden < f.infinity)
    (hf : 1 < 2 * f.hidden) : ∃ n < f.infinity, f.value n = 2 ^ 64 := by
  obtain ⟨n, hn, hle⟩ := exists_value hf (64 + f.scale)
  refine ⟨n, hle.trans_lt h, ?_⟩
  rw [hn, pow_add, Nat.cast_one, one_mul, mul_div_cancel_right₀ _ (by positivity)]

/-- The bits of a sign and a magnitude of the format with 32 bits. -/
theorem exists_single_bits (negative : Bool) {m : Nat} (hm : m ≤ single.infinity) :
    ∃ bits : UInt32, UInt32.ofNat (single.signed negative m) = bits ∧
      bits.toNat = single.signed negative m := by
  refine ⟨_, rfl, UInt32.toNat_ofNat_of_lt' ?_⟩
  have hinfinity : single.infinity < 2 ^ 31 := by decide
  have hsign : single.signBit = 2 ^ 31 := by decide
  show _ < 2 ^ 32
  unfold signed
  split <;> omega

theorem double_bits (negative : Bool) {m : Nat} (hm : m < double.infinity) :
    (UInt64.ofNat (double.signed negative m)).toNat = double.signed negative m := by
  apply UInt64.toNat_ofNat_of_lt'
  have hinfinity : double.infinity < 2 ^ 63 := by decide
  have hsign : double.signBit = 2 ^ 63 := by decide
  show _ < 2 ^ 64
  unfold signed
  split <;> omega

/-- From 64 to 32 bits a value is rounded to the nearest one, below the bound, and otherwise it
becomes an infinity. -/
theorem convert_double_single (negative : Bool) {d : Nat} (hd : d < double.infinity) :
    ∃ m ≤ single.infinity,
      double.convert single (double.signed negative d) = single.signed negative m ∧
        if double.value d < 2 ^ 128 - 2 ^ 103 then
          m < single.infinity ∧ single.RoundsTo m (double.value d)
        else m = single.infinity := by
  obtain ⟨n, hn, hconvert⟩ := convert_spec (g := single) (by decide) negative hd
  have hbound : n < single.infinity ↔ double.value d < 2 ^ 128 - 2 ^ 103 := by
    rw [hn.lt_iff (by decide), single_lowEnd_infinity, mul_lt_mul_iff_left₀ (by positivity)]
  refine ⟨min single.infinity n, min_le_left _ _, hconvert, ?_⟩
  split
  case isTrue hsmall =>
    have hlt := hbound.mpr hsmall
    rw [min_eq_right hlt.le]
    exact ⟨hlt, hn⟩
  case isFalse hlarge => exact min_eq_left (not_lt.mp (mt hbound.mp hlarge))

/-- An integer of 64 bits has a nearest value in the format with 64 bits, which lies below the bound
too. -/
theorem ofInt_double {n : Int} (hn : n.natAbs ≤ 2 ^ 64) :
    ∃ d < double.infinity, double.RoundsTo d n.natAbs ∧
      double.ofInt n = double.signed (n < 0) d ∧ double.value d < 2 ^ 128 - 2 ^ 103 := by
  obtain ⟨d, hd, hofInt⟩ := ofInt_spec (f := double) (by decide) n
  obtain ⟨top, htop, hvalue⟩ := exists_value_two_pow double (by decide) (by decide)
  have hle : (n.natAbs : ℚ) ≤ double.value top := by
    rw [hvalue]
    exact_mod_cast hn
  have hlt : d < double.infinity := (hd.le_of_le (double.roundsTo_value top) hle).trans_lt htop
  refine ⟨d, hlt, hd, by rw [hofInt, min_eq_right hlt.le], ?_⟩
  calc double.value d ≤ double.value top := hd.value_le hle
    _ = 2 ^ 64 := hvalue
    _ < 2 ^ 128 - 2 ^ 103 := by norm_num

/-- The format with 64 bits has the integers that fit its significand. -/
theorem exists_value_natAbs {n : Int} (hn : n.natAbs < 2 ^ 53) :
    ∃ d, double.value d = n.natAbs := by
  obtain ⟨d, hd, -⟩ := exists_value (f := double) (s := n.natAbs) hn double.scale
  exact ⟨d, by rw [hd, mul_div_cancel_right₀ _ (by positivity)]⟩

end Number.Format

/-! ### Constraints with floats -/

namespace Yaml.Value

/-- The value is accepted as the constraint with the float of a sign and a magnitude. -/
def AcceptedWithFloat (v : Value) (selector : String) (comparison : Comparison) (negative : Bool)
    (m : Nat) : Prop :=
  ∃ bits : UInt32, bits.toNat = Format.single.signed negative m ∧
    Tree.ofValue v = .ok (.constraint selector comparison (.float bits))

namespace HasArgument

variable {v key w : Value} {selector : String} {comparison : Comparison}

/-- What a number under `float` is taken for. -/
theorem float_accepted (h : v.HasArgument selector comparison (.mapping [(key, w)]))
    (hkey : key.untagged = .text "float") {bits : UInt64} (hw : w.double? = some bits) :
    Tree.ofValue v = .ok (.constraint selector comparison
      (.float (UInt32.ofNat (Format.convert .double .single bits.toNat)))) := by
  have hnumber : (∃ n, w.untagged = .int n) ∨ ∃ bits, w.untagged = .float bits := by
    unfold double? at hw
    split at hw
    case h_1 n hn => exact .inl ⟨n, hn⟩
    case h_2 b hb => exact .inr ⟨b, hb⟩
    case h_3 => cases hw
  obtain ⟨key', w', hreread, hsame⟩ := exists_reread_typed hkey hnumber
  exact h.accepted hreread (hsame.trans (Literal.ofTyped_eq_ok_iff.mpr (.float hw)))

/-- A finite number with 64 bits is rounded once. -/
theorem float_of_double (h : v.HasArgument selector comparison (.mapping [(key, w)]))
    (hkey : key.untagged = .text "float") {bits : UInt64} (hw : w.untagged = .float bits)
    {negative : Bool} {d : Nat} (hbits : bits.toNat = Format.double.signed negative d)
    (hd : d < Format.double.infinity) :
    ∃ m, v.AcceptedWithFloat selector comparison negative m ∧
      if Format.double.value d < 2 ^ 128 - 2 ^ 103 then
        m < Format.single.infinity ∧ Format.single.IsNearest m (Format.double.value d)
      else m = Format.single.infinity := by
  obtain ⟨m, hm, hconvert, hrounds⟩ := Format.convert_double_single negative hd
  obtain ⟨rounded, hrounded, htoNat⟩ := Format.exists_single_bits negative hm
  refine ⟨m, ⟨rounded, htoNat, ?_⟩, ?_⟩
  · rw [h.float_accepted hkey (by rw [double?, hw]), hbits, hconvert, hrounded]
  · rwa [Format.isNearest_iff_roundsTo (Format.value_nonneg _ _)]

/-- An integer of 64 bits is rounded to 64 bits and then to 32 bits. -/
theorem float_of_int (h : v.HasArgument selector comparison (.mapping [(key, w)]))
    (hkey : key.untagged = .text "float") {n : Int} (hw : w.untagged = .int n)
    (hn : n.natAbs ≤ 2 ^ 64) :
    ∃ d m, v.AcceptedWithFloat selector comparison (n < 0) m ∧ m < Format.single.infinity ∧
      Format.double.RoundsTo d n.natAbs ∧ Format.single.RoundsTo m (Format.double.value d) := by
  obtain ⟨d, hd, hnearest, hofInt, hbound⟩ := Format.ofInt_double hn
  obtain ⟨m, hm, hconvert, hrounds⟩ := Format.convert_double_single (n < 0) hd
  obtain ⟨rounded, hrounded, htoNat⟩ := Format.exists_single_bits (n < 0) hm
  rw [if_pos hbound] at hrounds
  refine ⟨d, m, ⟨rounded, htoNat, ?_⟩, hrounds.1, hnearest, hrounds.2⟩
  rw [h.float_accepted hkey (by rw [double?, hw]), hofInt, Format.double_bits _ hd, hconvert,
    hrounded]

end HasArgument

end Yaml.Value

/-! ### The result -/


/-- **Floats are rounded**: a finite number with 64 bits becomes the nearest value with 32 bits, or
an infinity from the bound on. An integer of 64 bits is rounded by way of 64 bits: the result is
finite, and it is the nearest value to the integer unless the integer lies just beyond a midpoint on
which the first rounding ends. An integer below `2 ^ 53` does not. -/
theorem floats_rounded {v key w : Value} {selector : String} {comparison : Comparison}
    (h : v.HasArgument selector comparison (.mapping [(key, w)]))
    (hkey : key.untagged = .text "float") :
    (∀ (bits : UInt64) (negative : Bool) (d : Nat), w.untagged = .float bits →
      bits.toNat = Format.double.signed negative d → d < Format.double.infinity →
        ∃ m, v.AcceptedWithFloat selector comparison negative m ∧
          if Format.double.value d < 2 ^ 128 - 2 ^ 103 then
            m < Format.single.infinity ∧ Format.single.IsNearest m (Format.double.value d)
          else m = Format.single.infinity) ∧
      ∀ n : Int, w.untagged = .int n → -2 ^ 63 ≤ n → n < 2 ^ 64 →
        ∃ d m, v.AcceptedWithFloat selector comparison (n < 0) m ∧ m < Format.single.infinity ∧
          Format.double.IsNearest d n.natAbs ∧ Format.single.IsNearest m (Format.double.value d) ∧
            (Format.single.IsNearest m n.natAbs ↔
              ¬Format.single.IsMissed m (Format.double.value d) n.natAbs) ∧
                (n.natAbs < 2 ^ 53 → Format.single.IsNearest m n.natAbs) := by
  refine ⟨fun bits negative d hw hbits hd => h.float_of_double hkey hw hbits hd,
    fun n hw hlow hhigh => ?_⟩
  obtain ⟨d, m, haccepted, hm, hd, hrounds⟩ := h.float_of_int hkey hw (by omega)
  have hpos : (0 : ℚ) ≤ n.natAbs := Nat.cast_nonneg _
  rw [← Format.isNearest_iff_roundsTo hpos] at hd
  refine ⟨d, m, haccepted, hm, hd, ?_, ?_, fun hsmall => ?_⟩
  · exact (Format.isNearest_iff_roundsTo (Format.value_nonneg _ _)).mpr hrounds
  · rw [Format.isNearest_iff_roundsTo hpos] at hd ⊢
    exact hd.twice_iff Format.exists_value_eq_midpoint hpos hrounds
  · obtain ⟨e, he⟩ := Format.exists_value_natAbs hsmall
    rw [Format.isNearest_iff_roundsTo hpos] at hd ⊢
    rw [← he] at hd ⊢
    exact hd.of_exact hrounds

/-- The finite `1e39` becomes infinite. -/
theorem floats_rounded_to_infinity :
    (Value.mapping [(.text "selector", .text "x"), (.text "comparison", .text "eq"),
      (.text "argument", .mapping [(.text "float", .float 0x48078287f49c4a1d)])]).AcceptedWithFloat
        "x" .equals false Format.single.infinity := by
  have hlarge : ¬Format.double.value 0x48078287f49c4a1d < 2 ^ 128 - 2 ^ 103 := by
    have hsig : Format.double.significand 0x48078287f49c4a1d = 6617444900424221 := by
      decide +kernel
    have horder : Format.double.order 0x48078287f49c4a1d = 1151 := by decide +kernel
    have hscale : Format.double.scale = 1074 := by decide
    rw [Format.value, hsig, horder, hscale]
    norm_num
  have heq : Comparison.read "eq" = .ok .equals := by decide
  have hargument := Value.hasArgument_mapping
    (.mapping [(.text "float", .float 0x48078287f49c4a1d)]) (by decide : "x" ≠ "") heq
  obtain ⟨m, haccepted, hm⟩ :=
    (floats_rounded hargument rfl).1 _ false 0x48078287f49c4a1d rfl rfl (by decide)
  rw [if_neg hlarge] at hm
  rwa [hm] at haccepted

/-- The integer `2 ^ 60 + 2 ^ 36 + 1` becomes `2 ^ 60`, although `2 ^ 60 + 2 ^ 37` is nearest to
it. -/
theorem float_of_beyond_midpoint :
    Tree.ofValue (.mapping [(.text "selector", .text "x"), (.text "comparison", .text "eq"),
        (.text "argument", .mapping [(.text "float", .int 1152921573326323713)])]) =
          .ok (.constraint "x" .equals (.float 0x5d800000)) ∧
      Format.single.IsNearest 0x5d800001 1152921573326323713 ∧
        ¬Format.single.IsNearest 0x5d800000 1152921573326323713 := by
  have hbits : UInt32.ofNat (Format.convert .double .single
      (UInt64.toNat 0x43b0000010000000)) = 0x5d800000 := by decide +kernel
  have hnearest : Format.single.RoundsTo 0x5d800001 1152921573326323713 := by
    have hlow : Format.single.lowEnd 0x5d800001 = (2 ^ 25 + 2) * 2 ^ 186 := by decide +kernel
    have hhigh : Format.single.highEnd 0x5d800001 = (2 ^ 25 + 6) * 2 ^ 186 := by decide +kernel
    have hscale : Format.single.scale + 2 = 151 := by decide
    rw [Format.RoundsTo, if_neg (by decide), hlow, hhigh, hscale]
    norm_num
  rw [Format.isNearest_iff_roundsTo (by norm_num), Format.isNearest_iff_roundsTo (by norm_num)]
  refine ⟨?_, hnearest, fun h => absurd (h.unique hnearest) (by decide)⟩
  have hdouble : (Value.int 1152921573326323713).double? = some 0x43b0000010000000 := by
    decide +kernel
  have heq : Comparison.read "eq" = .ok .equals := by decide
  rw [(Value.hasArgument_mapping _ (by decide) heq).float_accepted rfl hdouble, hbits]

end QueryTree
