import Mathlib.Tactic.Linarith
import Mathlib.Tactic.NormNum
import MellivorKernel.Python.Number

/-!
# Rounding under a power of two

Which numbers a double holds is decided at the top of its range: one that is
nearer to the next power of two than to the largest double rounds out of it.
-/

namespace Python

/-- Under an even bound, a number is rounded to one under the bound if it is
more than a half away from it. -/
theorem abs_roundHalfEven_lt {q : Rat} {m : Int} (h : m % 2 = 0) :
    |roundHalfEven q| < m ↔ |q| < m - 1 / 2 := by
  have hle := Int.floor_le q
  have hlt := Int.lt_floor_add_one q
  have hcast (a b : Int) : a < b ↔ (a : Rat) + 1 ≤ b := by
    rw [← Int.add_one_le_iff]
    exact_mod_cast Iff.rfl
  rw [abs_lt, abs_lt]
  unfold roundHalfEven
  generalize ⌊q⌋ = n at hle hlt ⊢
  dsimp only
  split
  · rename_i hdown
    constructor
    · rintro ⟨hlow, hhigh⟩
      have hlow := (hcast _ _).mp hlow
      push_cast at hlow
      refine ⟨by linarith, ?_⟩
      rcases hdown with hdown | ⟨hdown, heven⟩
      · have hhigh := (hcast _ _).mp hhigh
        linarith
      · have hhigh := (hcast _ _).mp (show n + 1 < m by omega)
        push_cast at hhigh
        linarith
    · rintro ⟨hlow, hhigh⟩
      have hdown : q - n ≤ 1 / 2 := hdown.elim le_of_lt fun h => h.1.le
      constructor
      · have : (-m : Rat) < n := by linarith
        exact_mod_cast this
      · have : (n : Rat) < m := by linarith
        exact_mod_cast this
  · rename_i hup
    obtain ⟨hhalf, hodd⟩ := not_or.mp hup
    constructor
    · rintro ⟨hlow, hhigh⟩
      have hhigh := (hcast _ _).mp hhigh
      push_cast at hhigh
      refine ⟨?_, by linarith⟩
      rcases (not_lt.mp hhalf).lt_or_eq with hhalf | hhalf
      · have hlow := (hcast _ _).mp hlow
        push_cast at hlow
        linarith
      · have hlow := (hcast (-m) n).mp (by
          have := mt (And.intro hhalf.symm) hodd
          omega)
        push_cast at hlow
        linarith
    · rintro ⟨hlow, hhigh⟩
      constructor
      · have : (-m : Rat) < n + 1 := by linarith
        exact_mod_cast this
      · have : (n : Rat) + 1 < m := by linarith
        exact_mod_cast this

/-- Rounding to a multiple of a power of two, under an even multiple of it. -/
theorem abs_rounded_lt {q : Rat} (e : Int) {m : Int} (h : m % 2 = 0) :
    |(roundHalfEven (q / 2 ^ e) : Rat) * 2 ^ e| < m * 2 ^ e ↔ |q| < (m - 1 / 2) * 2 ^ e := by
  have hpos : (0 : Rat) < 2 ^ e := zpow_pos two_pos e
  have hround : |(roundHalfEven (q / 2 ^ e) : Rat)| < m ↔ |q / 2 ^ e| < m - 1 / 2 := by
    rw [← abs_roundHalfEven_lt h]
    exact_mod_cast Iff.rfl
  rw [abs_mul, abs_of_pos hpos, mul_lt_mul_iff_left₀ hpos, hround, abs_div, abs_of_pos hpos,
    div_lt_iff₀ hpos]

theorem abs_rounded_lt_pow {q : Rat} {k : Nat} (hlow : 2 ^ k ≤ |q|) (hhigh : |q| < 2 ^ (k + 1))
    (top : Nat) : |(roundHalfEven (q / 2 ^ ((k : Int) - 52)) : Rat) * 2 ^ ((k : Int) - 52)| <
      2 ^ (top + 54) ↔ |q| + 2 ^ top < 2 ^ (top + 54) := by
  have hscale : (2 : Rat) ^ k = 2 ^ 52 * 2 ^ ((k : Int) - 52) := by
    rw [← zpow_natCast, ← zpow_natCast, ← zpow_add₀ two_ne_zero]
    congr 1
    push_cast
    ring
  have hpos : (0 : Rat) < 2 ^ ((k : Int) - 52) := zpow_pos two_pos _
  have htop : (2 : Rat) ^ (top + 54) = 2 ^ 54 * 2 ^ top := by rw [pow_add, mul_comm]
  have hround (m : Int) := abs_rounded_lt (q := q) ((k : Int) - 52) (m := m)
  rw [pow_succ'] at hhigh
  rw [htop]
  generalize |(roundHalfEven (q / 2 ^ ((k : Int) - 52)) : Rat) * 2 ^ ((k : Int) - 52)| = rounded
    at hround ⊢
  rcases lt_trichotomy k (top + 53) with hk | hk | hk
  · have hsmall : (2 : Rat) ^ k ≤ 2 ^ 52 * 2 ^ top := by
      rw [← pow_add]
      exact pow_le_pow_right₀ one_le_two (by omega)
    have hrounded := (hround (2 ^ 53 + 2) (by norm_num)).mpr (by push_cast; linarith)
    push_cast at hrounded
    exact iff_of_true (by linarith) (by linarith)
  · have hequal : (2 : Rat) ^ k = 2 ^ 53 * 2 ^ top := by rw [hk, pow_add, mul_comm]
    have hrounded := hround (2 ^ 53) (by norm_num)
    push_cast at hrounded
    constructor
    · intro h
      have := hrounded.mp (by linarith)
      linarith
    · intro h
      have := hrounded.mpr (by linarith)
      linarith
  · have hlarge : (2 : Rat) ^ 54 * 2 ^ top ≤ 2 ^ k := by
      rw [← pow_add]
      exact pow_le_pow_right₀ one_le_two (by omega)
    have hrounded := (hround (2 ^ 52) (by norm_num)).not.mpr (by push_cast; linarith)
    push_cast at hrounded
    have hpositive : (0 : Rat) < 2 ^ top := pow_pos two_pos _
    exact iff_of_false (by linarith) (by linarith)

theorem abs_rounded_int_lt_pow (n : Int) (top : Nat) :
    |(roundHalfEven (n / 2 ^ ((Nat.log 2 n.natAbs : Int) - 52)) : Rat) *
        2 ^ ((Nat.log 2 n.natAbs : Int) - 52)| < 2 ^ (top + 54) ↔
      n.natAbs + 2 ^ top < 2 ^ (top + 54) := by
  rcases eq_or_ne n 0 with rfl | hn
  · have htop : 2 ^ top < 2 ^ (top + 54) := Nat.pow_lt_pow_right one_lt_two (by omega)
    exact iff_of_true (by simp [roundHalfEven]) (by simpa using htop)
  have habs : |(n : Rat)| = n.natAbs := by rw [Nat.cast_natAbs, Int.cast_abs]
  have hlow : (2 : Rat) ^ Nat.log 2 n.natAbs ≤ |(n : Rat)| := by
    rw [habs]
    exact_mod_cast Nat.pow_log_le_self 2 (Int.natAbs_ne_zero.mpr hn)
  have hhigh : |(n : Rat)| < 2 ^ (Nat.log 2 n.natAbs + 1) := by
    rw [habs]
    exact_mod_cast Nat.lt_pow_succ_log_self one_lt_two n.natAbs
  rw [abs_rounded_lt_pow hlow hhigh, habs]
  exact_mod_cast Iff.rfl

/-- Half way from the largest double to the power of two after it. -/
def floatLimit : Nat := 2 ^ 1024 - 2 ^ 970

theorem lt_floatLimit {n : Nat} : n < floatLimit ↔ n + 2 ^ 970 < 2 ^ (970 + 54) := by
  unfold floatLimit
  rw [Nat.lt_sub_iff_add_lt]

theorem roundDouble_int {n : Int} :
    (∃ q, roundDouble n = .finite q) ↔ n.natAbs < floatLimit := by
  have hulp : max (Int.log 2 |(n : Rat)|) (-1022) - 52 = (Nat.log 2 n.natAbs : Int) - 52 := by
    rw [show |(n : Rat)| = n.natAbs by rw [Nat.cast_natAbs, Int.cast_abs], Int.log_natCast]
    omega
  rw [lt_floatLimit, ← abs_rounded_int_lt_pow n 970]
  unfold roundDouble
  rw [hulp]
  dsimp only
  split
  · rename_i h
    exact iff_of_true ⟨_, rfl⟩ h
  · rename_i h
    refine iff_of_false ?_ h
    rintro ⟨q, hq⟩
    cases hq

end Python
