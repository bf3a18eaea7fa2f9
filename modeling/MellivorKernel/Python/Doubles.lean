import Mathlib.Data.Nat.Prime.Basic
import Mathlib.Tactic.FieldSimp
import MellivorKernel.Python.Printing
import MellivorKernel.Python.Rounding

/-!
# Doubles

What rounding a number to a double gives is rounded to itself. A text of a
float is faithful if `float` makes of it the float again; a number written in
full is (`plainPrinting_faithful`).
-/

namespace Python

-- ---------------------------------------------------------------------------
-- Rounding again
-- ---------------------------------------------------------------------------

@[simp] theorem roundHalfEven_intCast (n : Int) : roundHalfEven (n : Rat) = n := by
  simp [roundHalfEven]

theorem abs_roundHalfEven_sub_le (q : Rat) : |(roundHalfEven q : Rat) - q| ≤ 1 / 2 := by
  have hle := Int.floor_le q
  have hlt := Int.lt_floor_add_one q
  unfold roundHalfEven
  generalize ⌊q⌋ = n at hle hlt ⊢
  dsimp only
  rw [abs_le]
  split
  · rename_i hdown
    have hdown : q - n ≤ 1 / 2 := hdown.elim le_of_lt fun h => h.1.le
    constructor <;> linarith
  · rename_i hup
    have hup : 1 / 2 ≤ q - n := not_lt.mp (not_or.mp hup).1
    push_cast
    constructor <;> linarith

/-- The exponent of the last of the 53 bits. -/
def lastBit (q : Rat) : Int := max (Int.log 2 |q|) (-1022) - 52

theorem roundDouble_eq (q : Rat) : roundDouble q =
    if |(roundHalfEven (q / 2 ^ lastBit q) : Rat) * 2 ^ lastBit q| < 2 ^ 1024 then
      .finite (roundHalfEven (q / 2 ^ lastBit q) * 2 ^ lastBit q)
    else .inf (q < 0) := rfl

theorem abs_bits_le (q : Rat) : |roundHalfEven (q / 2 ^ lastBit q)| ≤ 2 ^ 53 := by
  have hpos : (0 : Rat) < 2 ^ lastBit q := zpow_pos two_pos _
  have hsmall : |q / 2 ^ lastBit q| < 2 ^ 53 := by
    rw [abs_div, abs_of_pos hpos, div_lt_iff₀ hpos, ← zpow_natCast, ← zpow_add₀ two_ne_zero]
    refine (Int.lt_zpow_succ_log_self one_lt_two |q|).trans_le ?_
    push_cast
    refine zpow_le_zpow_right₀ one_le_two ?_
    unfold lastBit
    omega
  have hnear := abs_roundHalfEven_sub_le (q / 2 ^ lastBit q)
  have hclose : |(roundHalfEven (q / 2 ^ lastBit q) : Rat)| < 2 ^ 53 + 1 := by
    have htriangle := abs_sub_abs_le_abs_sub (roundHalfEven (q / 2 ^ lastBit q) : Rat)
      (q / 2 ^ lastBit q)
    linarith
  have hcast : |roundHalfEven (q / 2 ^ lastBit q)| < 2 ^ 53 + 1 := by exact_mod_cast hclose
  omega

theorem whole_bits {n e : Int} (hn : |n| ≤ 2 ^ 53) (he : -1074 ≤ e) :
    ∃ m : Int, (n : Rat) * 2 ^ e / 2 ^ lastBit (n * 2 ^ e) = m := by
  have hpos : (0 : Rat) < 2 ^ e := zpow_pos two_pos e
  rcases eq_or_ne n 0 with rfl | hne
  · exact ⟨0, by simp⟩
  rcases hn.lt_or_eq with hlt | heq
  · have hmagnitude : |(n : Rat) * 2 ^ e| < 2 ^ (53 + e) := by
      rw [abs_mul, abs_of_pos hpos, zpow_add₀ two_ne_zero]
      refine mul_lt_mul_of_pos_right ?_ hpos
      exact_mod_cast hlt
    have hlog : lastBit (n * 2 ^ e) ≤ e := by
      have habs : 0 < |(n : Rat) * 2 ^ e| := abs_pos.mpr (by positivity)
      have := (Int.lt_zpow_iff_log_lt one_lt_two habs).mp hmagnitude
      unfold lastBit
      omega
    obtain ⟨k, hk⟩ := Int.eq_ofNat_of_zero_le (sub_nonneg.mpr hlog)
    refine ⟨n * 2 ^ k, ?_⟩
    rw [mul_div_assoc, ← zpow_sub₀ two_ne_zero, hk]
    push_cast
    norm_num
  · have hmagnitude : |(n : Rat) * 2 ^ e| = 2 ^ (53 + e) := by
      rw [abs_mul, abs_of_pos hpos, zpow_add₀ two_ne_zero]
      congr 1
      exact_mod_cast heq
    have hlog : lastBit (n * 2 ^ e) = e + 1 := by
      unfold lastBit
      rw [hmagnitude]
      have hpow : Int.log 2 ((2 : Rat) ^ (53 + e)) = 53 + e := Int.log_zpow one_lt_two (53 + e)
      omega
    have hhalf : n = 2 * (n / 2) := by
      rcases abs_eq (by norm_num : (0 : Int) ≤ 2 ^ 53) |>.mp heq with rfl | rfl <;> norm_num
    refine ⟨n / 2, ?_⟩
    rw [hlog, zpow_add₀ two_ne_zero, zpow_one]
    have hcast : (n : Rat) = 2 * ((n / 2 : Int) : Rat) := by exact_mod_cast hhalf
    field_simp
    linarith

theorem roundDouble_idem {q r : Rat} (h : roundDouble q = .finite r) :
    roundDouble r = .finite r := by
  rw [roundDouble_eq] at h
  split at h
  · rename_i hrange
    cases h
    have hleast : -1074 ≤ lastBit q := by
      unfold lastBit
      omega
    obtain ⟨m, hm⟩ := whole_bits (abs_bits_le q) hleast
    have hpos : (0 : Rat) < 2 ^ lastBit (roundHalfEven (q / 2 ^ lastBit q) * 2 ^ lastBit q) :=
      zpow_pos two_pos _
    have hback := (div_eq_iff hpos.ne').mp hm
    rw [roundDouble_eq, hm, roundHalfEven_intCast, ← hback, if_pos hrange]
  · cases h

/-- A double is a whole number over a power of two. -/
theorem roundDouble_dyadic {q r : Rat} (h : roundDouble q = .finite r) :
    ∃ (a : Int) (k : Nat), r = a / 2 ^ k := by
  rw [roundDouble_eq] at h
  split at h
  · cases h
    generalize roundHalfEven (q / 2 ^ lastBit q) = n
    generalize lastBit q = e
    rcases le_total 0 e with he | he
    · obtain ⟨k, rfl⟩ := Int.eq_ofNat_of_zero_le he
      exact ⟨n * 2 ^ k, 0, by push_cast; simp⟩
    · obtain ⟨k, hk⟩ := Int.eq_ofNat_of_zero_le (neg_nonneg.mpr he)
      obtain rfl : e = -k := by omega
      exact ⟨n, k, by rw [zpow_neg, zpow_natCast]; rfl⟩
  · cases h

-- ---------------------------------------------------------------------------
-- Texts of floats
-- ---------------------------------------------------------------------------

/-- `float(repr(x))` is `x`, for every finite float. -/
def Printing.Faithful [Printing] : Prop :=
  ∀ q r, roundDouble q = .finite r → (Printing.floatText r).toFloat = .finite r

theorem firstDecimal {x : Rat} (hx : 0 ≤ x) (hlt : x < 1) :
    ((((x * 10).floor.toNat % 10 : Nat) : Int) = ⌊x * 10⌋) ∧ 0 ≤ x * 10 - ⌊x * 10⌋ ∧
      x * 10 - ⌊x * 10⌋ < 1 := by
  have hlow : 0 ≤ ⌊x * 10⌋ := Int.floor_nonneg.mpr (by linarith)
  have hhigh : ⌊x * 10⌋ < 10 := Int.floor_lt.mpr (by push_cast; linarith)
  have hfloor : (x * 10).floor = ⌊x * 10⌋ := rfl
  refine ⟨by rw [hfloor]; omega, ?_, ?_⟩
  · linarith [Int.floor_le (x * 10)]
  · linarith [Int.lt_floor_add_one (x * 10)]

theorem foldl_decimals (n : Nat) {x : Rat} (hx : 0 ≤ x) (hlt : x < 1) (whole : Int) :
    (decimals n x).foldl (fun (m : Int) (d : Fin 10) => 10 * m + (d.val : Int)) whole =
      whole * 10 ^ (n + 1) + ⌊x * 10 ^ (n + 1)⌋ := by
  induction n generalizing x whole with
  | zero =>
    obtain ⟨hdigit, -, -⟩ := firstDecimal hx hlt
    simp only [decimals, List.foldl_cons, List.foldl_nil, hdigit, zero_add, pow_one]
    ring
  | succ n ih =>
    obtain ⟨hdigit, hrest, hrestlt⟩ := firstDecimal hx hlt
    have hfloor : ((x * 10).floor : Rat) = (⌊x * 10⌋ : Int) := rfl
    have hsplit : x * 10 ^ (n + 1 + 1) =
        (x * 10 - ⌊x * 10⌋) * 10 ^ (n + 1) + ((⌊x * 10⌋ * 10 ^ (n + 1) : Int) : Rat) := by
      push_cast
      ring
    rw [decimals, List.foldl_cons, hfloor, ih hrest hrestlt]
    simp only [hdigit]
    rw [hsplit, Int.floor_add_intCast]
    ring

theorem length_decimals (n : Nat) (q : Rat) : (decimals n q).length = n + 1 := by
  induction n generalizing q with
  | zero => rfl
  | succ n ih => rw [decimals, List.length_cons, ih]

theorem whole_decimals (a : Int) (k : Nat) :
    ∃ m : Int, |(a / 2 ^ k : Rat)| * 10 ^ ((a / 2 ^ k : Rat).den.log2 - 1 + 1) = m := by
  generalize hq : (a / 2 ^ k : Rat) = q
  have hdvd : (q.den : Int) ∣ 2 ^ k := by
    have := Rat.den_dvd a (2 ^ k)
    rwa [← Rat.intCast_div_eq_divInt, Int.cast_pow, Int.cast_ofNat, hq] at this
  obtain ⟨j, -, hj⟩ := (Nat.dvd_prime_pow Nat.prime_two).mp (by exact_mod_cast hdvd)
  have hbits : 2 ^ j ∣ 10 ^ (q.den.log2 - 1 + 1) := by
    rw [hj, Nat.log2_two_pow]
    exact (pow_dvd_pow 2 (by omega)).trans (pow_dvd_pow_of_dvd (by norm_num) _)
  obtain ⟨c, hc⟩ := hbits
  have hnum : |q| * (2 : Rat) ^ j = |q.num| := by
    have hden : (q.den : Rat) = 2 ^ j := by exact_mod_cast hj
    have hpos : (0 : Rat) < 2 ^ j := pow_pos two_pos j
    rw [← hden] at hpos ⊢
    rw [← abs_of_pos hpos, ← abs_mul, Rat.mul_den_eq_num, Int.cast_abs]
  refine ⟨|q.num| * c, ?_⟩
  rw [show (10 : Rat) ^ (q.den.log2 - 1 + 1) = 2 ^ j * c by exact_mod_cast hc, ← mul_assoc, hnum]
  push_cast
  rfl

theorem value_without_exponent {t : NumberText} {m : Int} (h : t.exponent = none)
    (hfold : t.fraction.foldl (fun (n : Int) (d : Fin 10) => 10 * n + (d.val : Int)) t.whole = m) :
    t.value = (if t.negative then -m else m : Int) * 10 ^ (0 - (t.fraction.length : Int)) := by
  rw [← hfold, NumberText.value, h]
  rfl

theorem plainPrinting_value (a : Int) (k : Nat) :
    (@Printing.floatText plainPrinting (a / 2 ^ k)).value = a / 2 ^ k := by
  obtain ⟨m, hm⟩ := whole_decimals a k
  generalize (a / 2 ^ k : Rat) = q at hm ⊢
  have hfloor : |q|.floor = ⌊|q|⌋ := rfl
  have hwhole : ((|q|.floor.toNat : Nat) : Int) = ⌊|q|⌋ :=
    hfloor ▸ Int.toNat_of_nonneg (Int.floor_nonneg.mpr (abs_nonneg q))
  have hdigits := foldl_decimals (q.den.log2 - 1) (sub_nonneg.mpr (Int.floor_le |q|))
    (by linarith [Int.lt_floor_add_one |q|]) ⌊|q|⌋
  have hrest : (|q| - ⌊|q|⌋) * 10 ^ (q.den.log2 - 1 + 1) =
      ((m - ⌊|q|⌋ * 10 ^ (q.den.log2 - 1 + 1) : Int) : Rat) := by
    push_cast
    rw [sub_mul, hm]
  rw [hrest, Int.floor_intCast, add_sub_cancel] at hdigits
  have hpos : (0 : Rat) < 10 ^ (q.den.log2 - 1 + 1) := by positivity
  have hscale : (m : Rat) * 10 ^ (0 - ((q.den.log2 - 1 + 1 : Nat) : Int)) = |q| := by
    rw [← hm, zero_sub, zpow_neg, zpow_natCast, mul_assoc, mul_inv_cancel₀ hpos.ne', mul_one]
  have hvalue : (@Printing.floatText plainPrinting q).value =
      (if q < 0 then -m else m : Int) * 10 ^ (0 - ((q.den.log2 - 1 + 1 : Nat) : Int)) := by
    have hfold : (decimals (q.den.log2 - 1) (|q| - |q|.floor)).foldl
        (fun (n : Int) (d : Fin 10) => 10 * n + (d.val : Int)) (|q|.floor.toNat : Int) = m := by
      rw [hwhole]
      exact hdigits
    refine (value_without_exponent (by rfl) hfold).trans ?_
    have hlength : (@Printing.floatText plainPrinting q).fraction.length = q.den.log2 - 1 + 1 :=
      length_decimals _ _
    have hsign : (@Printing.floatText plainPrinting q).negative = decide (q < 0) := rfl
    simp only [hlength, hsign, decide_eq_true_eq]
  rw [hvalue]
  split
  · rename_i hneg
    push_cast at hscale ⊢
    rw [neg_mul, hscale, abs_of_neg hneg, neg_neg]
  · rename_i hneg
    push_cast at hscale ⊢
    rw [hscale, abs_of_nonneg (not_lt.mp hneg)]

theorem plainPrinting_faithful : @Printing.Faithful plainPrinting := by
  intro q r h
  obtain ⟨a, k, rfl⟩ := roundDouble_dyadic h
  rw [NumberText.toFloat, plainPrinting_value]
  exact roundDouble_idem h

end Python
