import Abacus.Expr.Source
import Mathlib

/-!
# Numbers and their digits

A number that digits can stand for is written with digits, and those digits are read as the same
number.

1. Double `n` is the double nearest to its own value (`Binary64.nearest_units`), and it is found by
   its bits (`Binary64.number_ofNumber`).
2. What digits stand for is a double, and unless it is infinite its value is whole
   (`Numeral.read?_of_digits`, `Binary64.exists_units_nearest`).
3. On the grid of the whole numbers a whole double is its own neighbour, so the search for its
   shortest decimal ends there or on a coarser grid (`Decimal.shortest_of_whole`).
4. So its digits have no point among them, and reading them leads back (`Expr.standsFor_digits`).
-/

namespace Abacus

namespace Binary64

/-! ## Doubles by number -/

theorem infinity_eq : infinity = 2047 * 2 ^ 52 := rfl

theorem two_eq (k : Nat) : two k = 2 ^ k := rfl

/-- The power of two that makes one stays a power, so that it is never computed. -/
theorem exists_one_eq : ∃ k, k = 1074 ∧ one = 2 ^ k := ⟨_, rfl, two_eq 1074⟩

theorem one_pos : 0 < one := by
  obtain ⟨k, _, hone⟩ := exists_one_eq
  rw [hone]
  exact Nat.two_pow_pos k

theorem step_le (n : Nat) : step n * 2 ^ 52 ≤ n := by
  have htwo : two 52 = 2 ^ 52 := rfl
  rw [step, htwo]
  omega

/-- A double is its step and its mantissa, of 53 binary digits unless the step is the first. -/
theorem step_mantissa (n : Nat) :
    step n * 2 ^ 52 + mantissa n = n ∧ mantissa n < 2 ^ 53 ∧
      (step n ≠ 0 → 2 ^ 52 ≤ mantissa n) := by
  have htwo : two 52 = 2 ^ 52 := rfl
  have hle := step_le n
  have hstep : step n = n / 2 ^ 52 - 1 := by rw [step, htwo]
  have hmantissa : mantissa n = n - step n * 2 ^ 52 := by rw [mantissa, htwo]
  refine ⟨by omega, by omega, by omega⟩

/-- The only step and mantissa of a double. -/
theorem step_mantissa_unique {n s m : Nat} (hn : n = s * 2 ^ 52 + m) (hm : m < 2 ^ 53)
    (hs : s ≠ 0 → 2 ^ 52 ≤ m) : step n = s ∧ mantissa n = m := by
  obtain ⟨hsum, hlt, hge⟩ := step_mantissa n
  have hstep : step n = s := by
    by_cases hzero : s = 0
    · by_cases hzero' : step n = 0
      · omega
      · have := hge hzero'
        omega
    · have := hs hzero
      by_cases hzero' : step n = 0
      · omega
      · have := hge hzero'
        omega
  refine ⟨hstep, ?_⟩
  rw [hstep] at hsum
  omega

theorem units_eq (n : Nat) : units n = mantissa n * 2 ^ step n := rfl

theorem log2_mul_two_pow {m k : Nat} (hlow : 2 ^ k ≤ m) (hhigh : m < 2 ^ (k + 1)) (s : Nat) :
    (m * 2 ^ s).log2 = k + s := by
  have hpos : 0 < 2 ^ s := Nat.two_pow_pos s
  have hm : m ≠ 0 := by
    rintro rfl
    exact absurd hlow (Nat.not_le.mpr (Nat.two_pow_pos k))
  rw [Nat.log2_eq_iff (Nat.mul_ne_zero hm hpos.ne')]
  constructor
  · rw [Nat.pow_add]
    exact Nat.mul_le_mul_right _ hlow
  · rw [Nat.add_right_comm, Nat.pow_add]
    exact Nat.mul_lt_mul_of_pos_right hhigh hpos

/-- How many binary digits the value of a double has beyond 53 is its step. -/
theorem log2_units (n : Nat) : (units n).log2 - 52 = step n := by
  obtain ⟨_, hlt, hge⟩ := step_mantissa n
  rw [units_eq]
  by_cases hzero : step n = 0
  · have hlog : (mantissa n).log2 ≤ 52 := by
      rw [Nat.log2_eq_log_two]
      exact Nat.lt_succ_iff.mp (Nat.log_lt_of_lt_pow' (by simp) hlt)
    rw [hzero, Nat.pow_zero, Nat.mul_one]
    omega
  · have hlog := log2_mul_two_pow (hge hzero) hlt (step n)
    omega

/-! ## Rounding -/

theorem roundHalfEven_mul {den : Nat} (hden : 0 < den) (q : Nat) :
    roundHalfEven (q * den) den = q := by
  have hquotient : q * den / den = q := Nat.mul_div_cancel q hden
  have hrest : q * den % den = 0 := Nat.mul_mod_left q den
  rw [roundHalfEven, hquotient, hrest]
  simp [hden]

theorem nearest_eq {num den s : Nat} (hs : (num / den).log2 - 52 = s) :
    nearest num den = min (s * 2 ^ 52 + roundHalfEven num (den * 2 ^ s)) infinity := by
  subst hs
  rfl

/-- Double `n` is the double nearest to its own value. -/
theorem nearest_units {n k : Nat} (hn : n ≤ infinity) (hk : 0 < k) :
    nearest (units n * k) k = n := by
  obtain ⟨hsum, _, _⟩ := step_mantissa n
  have hvalue : units n * k = mantissa n * (k * 2 ^ step n) := by
    rw [units_eq]
    ring
  have hden : 0 < k * 2 ^ step n := by positivity
  have hlog : (units n * k / k).log2 - 52 = step n := by
    rw [Nat.mul_div_cancel _ hk, log2_units]
  rw [nearest_eq hlog, hvalue, roundHalfEven_mul hden, hsum]
  exact Nat.min_eq_left hn

theorem nearest_le_infinity (num den : Nat) : nearest num den ≤ infinity := Nat.min_le_right _ _

/-! ## Whole numbers -/

/-- Rounding may carry into one more binary digit, which is the next step. -/
theorem units_of_rounded {s r : Nat} (hlow : 2 ^ 52 ≤ r) (hhigh : r ≤ 2 ^ 53) :
    units (s * 2 ^ 52 + r) = r * 2 ^ s := by
  rcases Nat.lt_or_eq_of_le hhigh with hlt | rfl
  · obtain ⟨hstep, hmantissa⟩ := step_mantissa_unique rfl hlt (fun _ => hlow)
    rw [units_eq, hstep, hmantissa]
  · have hcarry : s * 2 ^ 52 + 2 ^ 53 = (s + 1) * 2 ^ 52 + 2 ^ 52 := by ring
    obtain ⟨hstep, hmantissa⟩ := step_mantissa_unique hcarry (by simp) (fun _ => Nat.le_refl _)
    rw [units_eq, hstep, hmantissa]
    ring

theorem roundHalfEven_bounds (num den : Nat) :
    num / den ≤ roundHalfEven num den ∧ roundHalfEven num den ≤ num / den + 1 := by
  unfold roundHalfEven
  simp only
  split
  · omega
  · split
    · omega
    · omega

/-- The double nearest to a whole number has a whole value, unless it is infinite: if it has fewer
binary digits than a mantissa it is exact, and otherwise a step is whole. -/
theorem exists_units_nearest {v : Nat} (hv : v ≠ 0) (hfinite : nearest (v * one) 1 < infinity) :
    ∃ w, units (nearest (v * one) 1) = w * one := by
  obtain ⟨k, hk, hone⟩ := exists_one_eq
  -- the step that leaves 53 binary digits for the mantissa
  obtain ⟨s, hs⟩ : ∃ s, v.log2 + k = 52 + s := ⟨v.log2 + k - 52, by omega⟩
  have hlog : (v * one).log2 = 52 + s := by
    rw [hone, log2_mul_two_pow (Nat.log2_self_le hv) Nat.lt_log2_self, hs]
  have hquotient : 2 ^ 52 ≤ v * one / 2 ^ s ∧ v * one / 2 ^ s < 2 ^ 53 := by
    have hpos : v * one ≠ 0 := Nat.mul_ne_zero hv one_pos.ne'
    obtain ⟨hlow, hhigh⟩ := (Nat.log2_eq_iff hpos).mp hlog
    constructor
    · rwa [Nat.le_div_iff_mul_le (Nat.two_pow_pos s), ← Nat.pow_add]
    · rwa [Nat.div_lt_iff_lt_mul (Nat.two_pow_pos s), ← Nat.pow_add, Nat.add_right_comm 52 1 s]
  have hnearest : nearest (v * one) 1 = s * 2 ^ 52 + roundHalfEven (v * one) (2 ^ s) := by
    have hs' : (v * one / 1).log2 - 52 = s := by
      rw [Nat.div_one]
      omega
    rw [nearest_eq hs', Nat.one_mul] at hfinite ⊢
    omega
  obtain ⟨hlow, hhigh⟩ := roundHalfEven_bounds (v * one) (2 ^ s)
  rw [hnearest, units_of_rounded (by omega) (by omega)]
  by_cases hsmall : s < k
  · -- the step is smaller than one, so nothing is rounded
    have hexact : v * one = v * 2 ^ (k - s) * 2 ^ s := by
      rw [hone, Nat.mul_assoc, ← Nat.pow_add, Nat.sub_add_cancel (Nat.le_of_lt hsmall)]
    refine ⟨v, ?_⟩
    rw [hexact, roundHalfEven_mul (Nat.two_pow_pos s)]
  · -- the step is a whole number, so every multiple of it is
    refine ⟨roundHalfEven (v * one) (2 ^ s) * 2 ^ (s - k), ?_⟩
    rw [hone, Nat.mul_assoc, ← Nat.pow_add, Nat.sub_add_cancel (Nat.le_of_not_lt hsmall)]

/-- A finite double is too small for a power of ten beyond 400. -/
theorem exponent_le_of_units {n m e : Nat} (hn : n < infinity) (hm : m ≠ 0)
    (hunits : units n = m * 10 ^ e * one) : e ≤ 400 := by
  obtain ⟨k, hk, hone⟩ := exists_one_eq
  obtain ⟨_, hlt, _⟩ := step_mantissa n
  have hstep : step n ≤ 2045 := by
    have hle := step_le n
    rw [infinity_eq] at hn
    omega
  have hhigh : units n < 2 ^ (53 + step n) := by
    rw [units_eq, Nat.pow_add]
    exact Nat.mul_lt_mul_of_pos_right hlt (Nat.two_pow_pos _)
  have hlow : 2 ^ (3 * e + k) ≤ units n := by
    calc 2 ^ (3 * e + k) = 8 ^ e * 2 ^ k := by rw [Nat.pow_add, Nat.pow_mul]
      _ ≤ 10 ^ e * 2 ^ k := Nat.mul_le_mul_right _ (Nat.pow_le_pow_left (by omega) e)
      _ ≤ m * 10 ^ e * 2 ^ k :=
        Nat.mul_le_mul_right _ (Nat.le_mul_of_pos_left _ (Nat.pos_of_ne_zero hm))
      _ = units n := by rw [hunits, hone]
  -- the powers of two are compared by their exponents, 3 * e + 1074 < 53 + 2045
  have hpow := (Nat.pow_lt_pow_iff_right (by omega)).mp (Nat.lt_of_le_of_lt hlow hhigh)
  omega

/-! ## Bits -/

theorem valid_of_le_infinity {b : UInt64} (h : b.toNat ≤ infinity) :
    Float.Model.Format.binary64.Valid b.toBitVec := by
  constructor
  intro hexponent hmantissa
  have hexp : b.toNat / 2 ^ 52 % 2 ^ 11 = 2047 := by
    have hbits := congrArg BitVec.toNat hexponent
    simpa [Float.Model.UnpackedFloat.unpackExponent, Nat.shiftRight_eq_div_pow] using hbits
  have hman : b.toNat % 2 ^ 52 ≠ 0 := by
    intro hzero
    apply hmantissa
    apply BitVec.eq_of_toNat_eq
    simpa [Float.Model.UnpackedFloat.unpackMantissa] using hzero
  -- all exponent bits are set only from infinity on, and infinity has no other bits
  rw [infinity_eq] at h
  omega

theorem toBits_ofBits {b : UInt64} (h : b.toNat ≤ infinity) : (Float.ofBits b).toBits = b :=
  congrArg UInt64.ofBitVec
    (Float.Model.UnpackedFloat.pack_unpack_of_valid (valid_of_le_infinity h))

theorem toNat_toBits_ofNumber {n : Nat} (h : n ≤ infinity) :
    (ofNumber false n).toBits.toNat = n := by
  have hlt : n < 2 ^ 64 := Nat.lt_of_le_of_lt h (by decide)
  have hbits : (UInt64.ofNat n).toNat = n := UInt64.toNat_ofNat_of_lt' hlt
  show (Float.ofBits (UInt64.ofNat (n + 0))).toBits.toNat = n
  rw [Nat.add_zero, toBits_ofBits (by rw [hbits]; exact h), hbits]

theorem number_ofNumber {n : Nat} (h : n ≤ infinity) : number (ofNumber false n) = n := by
  rw [number, toNat_toBits_ofNumber h]
  exact Nat.mod_eq_of_lt (Nat.lt_of_le_of_lt h (by decide))

theorem isNegative_ofNumber {n : Nat} (h : n ≤ infinity) :
    isNegative (ofNumber false n) = false := by
  rw [isNegative, toNat_toBits_ofNumber h, decide_eq_false_iff_not]
  exact Nat.not_le.mpr (Nat.lt_of_le_of_lt h (by decide))

end Binary64

namespace Decimal

/-! ## Decimals of whole numbers -/

theorem nearest_le_infinity (d : Decimal) : d.nearest ≤ Binary64.infinity := by
  unfold nearest
  split
  · exact Nat.zero_le _
  split
  · exact Nat.le_refl _
  split
  · exact Nat.zero_le _
  · exact Binary64.nearest_le_infinity _ _

/-- How a whole decimal is read, apart from those that are far too large. -/
theorem nearest_of_whole {m e : Nat} (hm : m ≠ 0) (he : e ≤ 400) :
    nearest ⟨m, e⟩ = Binary64.nearest (m * 10 ^ e * Binary64.one) 1 := by
  have hlarge : ¬ (400 : Int) < e := by omega
  have hsmall : ¬ ((e : Int) + m.log2 + 1 < -400) := by omega
  have hden : ten (-(e : Int)).toNat = 1 := by
    rw [Int.toNat_eq_zero.mpr (by omega)]
    rfl
  unfold nearest
  simp only
  rw [if_neg hm, if_neg hlarge, if_neg hsmall, hden, Int.toNat_natCast]
  rfl

/-- A whole decimal is still whole without its zeros, and the same number. -/
theorem trim_whole (m e : Nat) :
    ∃ m' e', trim ⟨m, e⟩ = ⟨m', (e' : Nat)⟩ ∧ e ≤ e' ∧ m' * 10 ^ e' = m * 10 ^ e := by
  induction m using Nat.strongRecOn generalizing e with
  | ind m ih =>
    rw [trim]
    by_cases hzeros : m ≠ 0 ∧ m % 10 = 0
    · obtain ⟨m', e', htrim, hle, hvalue⟩ := ih (m / 10) (by omega) (e + 1)
      refine ⟨m', e', ?_, by omega, ?_⟩
      · rw [if_pos hzeros]
        exact htrim
      · rw [hvalue, Nat.pow_succ, Nat.mul_comm (10 ^ e), ← Nat.mul_assoc]
        rw [Nat.div_mul_cancel (Nat.dvd_of_mod_eq_zero hzeros.2)]
    · exact ⟨m, e, if_neg hzeros, Nat.le_refl e, rfl⟩

/-- What a neighbour is: a whole decimal on a whole grid, and read as the double. -/
theorem neighbour?_eq_some {n e : Nat} {d : Decimal} (h : neighbour? n e = some d) :
    d.nearest = n ∧ ∃ m' e', d = ⟨m', (e' : Nat)⟩ := by
  unfold neighbour? at h
  simp only at h
  split at h
  · next hbelow =>
    obtain rfl := Option.some.inj h
    obtain ⟨m', e', htrim, _, _⟩ := trim_whole _ e
    exact ⟨hbelow.1, m', e', htrim⟩
  · split at h
    · next habove =>
      obtain rfl := Option.some.inj h
      obtain ⟨m', e', htrim, _, _⟩ := trim_whole _ e
      exact ⟨habove, m', e', htrim⟩
    · exact absurd h (by simp)

section Whole

variable {n w : Nat}

/-- The digits of a whole double are read as that double. -/
theorem nearest_of_units (hn : n < Binary64.infinity) (hw : w ≠ 0)
    (hunits : Binary64.units n = w * Binary64.one) : (trim ⟨w, (0 : Nat)⟩).nearest = n := by
  obtain ⟨m, e, htrim, _, hvalue⟩ := trim_whole w 0
  rw [Nat.pow_zero, Nat.mul_one] at hvalue
  have hm : m ≠ 0 := by
    rintro rfl
    rw [Nat.zero_mul] at hvalue
    exact hw hvalue.symm
  have he : e ≤ 400 := Binary64.exponent_le_of_units hn hm (by rw [hvalue, hunits])
  rw [htrim, nearest_of_whole hm he, hvalue, ← hunits, ← Nat.mul_one (Binary64.units n)]
  exact Binary64.nearest_units (Nat.le_of_lt hn) Nat.one_pos

/-- On the grid of the whole numbers a whole double has a neighbour, which is the double itself. -/
theorem neighbour?_zero (hn : n < Binary64.infinity) (hw : w ≠ 0)
    (hunits : Binary64.units n = w * Binary64.one) : ∃ d, neighbour? n (0 : Nat) = some d := by
  have hone := Binary64.one_pos
  have hnum : Binary64.units n * ten (-((0 : Nat) : Int)).toNat = w * Binary64.one := by
    have hten : ten (-((0 : Nat) : Int)).toNat = 1 := rfl
    rw [hunits, hten, Nat.mul_one]
  have hden : Binary64.one * ten ((0 : Nat) : Int).toNat = Binary64.one := by
    have hten : ten ((0 : Nat) : Int).toNat = 1 := rfl
    rw [hten, Nat.mul_one]
  have hquotient : w * Binary64.one / Binary64.one = w := Nat.mul_div_cancel w hone
  have hrest : 2 * (w * Binary64.one % Binary64.one) < Binary64.one := by
    rw [Nat.mul_mod_left]
    exact hone
  refine ⟨trim ⟨w, (0 : Nat)⟩, ?_⟩
  unfold neighbour?
  simp only [hnum, hden, hquotient]
  rw [if_pos ⟨nearest_of_units hn hw hunits, .inl hrest⟩]

/-- By induction on the grids that are left: the search finds something on the grid of the whole
numbers, if it has not done so before. -/
theorem exists_firstOnGrids {onGrid : Int → Option Decimal} (hzero : ∃ d, onGrid (0 : Nat) = some d)
    {grids e : Nat} (hgrids : e < grids) :
    ∃ (e' : Nat) (d : Decimal), onGrid e' = some d ∧ firstOnGrids onGrid grids e = some d := by
  induction grids generalizing e with
  | zero => exact absurd hgrids (Nat.not_lt_zero e)
  | succ grids ih =>
    rw [firstOnGrids]
    cases hgrid : onGrid e with
    | some d => exact ⟨e, d, hgrid, rfl⟩
    | none =>
      rcases e with _ | e
      · rcases hzero with ⟨d, hd⟩
        rw [hgrid] at hd
        exact absurd hd (by simp)
      · have hfiner : ((e + 1 : Nat) : Int) - 1 = (e : Nat) := by omega
        simp only
        rw [hfiner]
        exact ih (by omega)

/-- The shortest decimal of a whole double is whole, and it is read as that double. -/
theorem shortest_of_whole (hn : n < Binary64.infinity) (hw : w ≠ 0)
    (hunits : Binary64.units n = w * Binary64.one) :
    (shortest n).nearest = n ∧ ∃ m e, shortest n = ⟨m, (e : Nat)⟩ := by
  have hone := Binary64.one_pos
  have hlarge : Binary64.one ≤ Binary64.units n := by
    rw [hunits]
    exact Nat.le_mul_of_pos_left _ (Nat.pos_of_ne_zero hw)
  obtain ⟨k, hk⟩ : ∃ k : Nat, magnitude (Binary64.units n) Binary64.one = (k + 1 : Nat) := by
    have hpos : 0 < digitCount (Binary64.units n / Binary64.one) := Nat.length_toDigits_pos
    refine ⟨digitCount (Binary64.units n / Binary64.one) - 1, ?_⟩
    rw [magnitude, if_pos hlarge, Nat.sub_add_cancel hpos]
  have hgrids : (((k + 1 : Nat) : Int) + 1073).toNat = k + 1074 := by omega
  have hexponent : ((k + 1 : Nat) : Int) - 1 = (k : Nat) := by omega
  obtain ⟨e, d, hgrid, hfirst⟩ := exists_firstOnGrids (neighbour?_zero hn hw hunits)
    (show k < k + 1074 by omega)
  have hshortest : shortest n = d := by
    unfold shortest
    simp only
    rw [hk, hgrids, hexponent, hfirst, Option.getD_some]
  rw [hshortest]
  exact neighbour?_eq_some hgrid

end Whole

/-! ## Digits -/

/-- The digits of a whole decimal: those of its digits, and a zero for each power of ten. -/
theorem positional_of_whole (m e : Nat) :
    positional "" ⟨m, e⟩ = Nat.toDigits 10 m ++ zeros e := by
  have hwhole : (0 : Int) ≤ (e : Int) := by omega
  unfold positional
  simp only
  rw [if_pos hwhole, Int.toNat_natCast]
  simp

/-- The power of ten may be multiplied out. -/
theorem nearest_whole {m e : Nat} (hm : m ≠ 0) (he : e ≤ 400) :
    nearest ⟨m * 10 ^ e, (0 : Nat)⟩ = nearest ⟨m, e⟩ := by
  have hpos : m * 10 ^ e ≠ 0 := Nat.mul_ne_zero hm (by positivity)
  rw [nearest_of_whole hpos (Nat.zero_le _), nearest_of_whole hm he, Nat.pow_zero, Nat.mul_one]

end Decimal

namespace Numeral

/-! ## Reading digits -/

theorem valueOf_toDigits (m e : Nat) :
    valueOf (Nat.toDigits 10 m ++ Decimal.zeros e) = m * 10 ^ e := by
  show Nat.ofDigitChars 10 (Nat.toDigits 10 m ++ List.replicate e '0') 0 = m * 10 ^ e
  rw [Nat.ofDigitChars_append, Nat.ofDigitChars_ten_toDigits, Nat.ofDigitChars_replicate_zero,
    Nat.mul_comm]

section Digits

variable {ds : List Char}

theorem sign_of_digits (h : ∀ c ∈ ds, c.isDigit = true) : sign ds = (false, ds) := by
  unfold sign
  split
  · exact absurd (h '-' (by simp)) (by decide)
  · exact absurd (h '+' (by simp)) (by decide)
  · rfl

theorem toLower_of_isDigit {c : Char} (h : c.isDigit = true) : c.toLower = c := by
  unfold Char.toLower
  rw [dif_neg]
  simp only [Char.isDigit, Bool.and_eq_true, decide_eq_true_eq] at h
  intro hupper
  exact absurd (UInt32.le_trans hupper.1 h.2) (by decide)

theorem decimal?_of_digits (hne : ds ≠ []) (h : ∀ c ∈ ds, c.isDigit = true) :
    decimal? ds = some ⟨valueOf ds, 0⟩ := by
  have hall : ds.takeWhile Char.isDigit = ds := List.takeWhile_eq_self_iff.mpr h
  have hrest : ds.dropWhile Char.isDigit = [] := List.dropWhile_eq_nil_iff.mpr h
  unfold decimal?
  simp [hall, hrest, hne, fraction, exponent?]

/-- Digits are no word with a letter in it. -/
theorem ne_of_digits (h : ∀ c ∈ ds, c.isDigit = true) {word : List Char}
    (hword : word.all Char.isDigit = false) : ds ≠ word := by
  rintro rfl
  rw [List.all_eq_true.mpr h] at hword
  exact absurd hword (by simp)

theorem magnitude?_of_digits (hne : ds ≠ []) (h : ∀ c ∈ ds, c.isDigit = true) :
    magnitude? ds = some (Decimal.nearest ⟨valueOf ds, 0⟩) := by
  have hlower : ds.map Char.toLower = ds := by
    refine (List.map_congr_left ?_).trans (List.map_id ds)
    intro c hc
    exact toLower_of_isDigit (h c hc)
  have hinf : ds ≠ "inf".toList := ne_of_digits h (by decide)
  have hinfinity : ds ≠ "infinity".toList := ne_of_digits h (by decide)
  have hnan : ds ≠ "nan".toList := ne_of_digits h (by decide)
  unfold magnitude?
  simp only [hlower, hinf, hinfinity, hnan, or_self, if_false, decimal?_of_digits hne h,
    Option.map_some]

/-- Digits are read as the double nearest to what they stand for. -/
theorem read?_of_digits (hne : ds ≠ []) (h : ∀ c ∈ ds, c.isDigit = true) :
    read? (String.ofList ds) =
      some (Binary64.ofNumber false (Decimal.nearest ⟨valueOf ds, (0 : Nat)⟩)) := by
  have hle := Decimal.nearest_le_infinity ⟨valueOf ds, (0 : Nat)⟩
  unfold read?
  simp only [String.toList_ofList, sign_of_digits h, magnitude?_of_digits hne h, Option.map_some]
  exact congrArg some (if_neg (Nat.not_lt.mpr hle))

end Digits

/-- A row of digits that is read as `x`. -/
def StandsFor (ds : List Char) (x : Float) : Prop :=
  ds ≠ [] ∧ (∀ c ∈ ds, c.isDigit = true) ∧ read? (String.ofList ds) = some x

theorem standsFor_toDigits (m e : Nat) :
    StandsFor (Nat.toDigits 10 m ++ Decimal.zeros e)
      (Binary64.ofNumber false (Decimal.nearest ⟨m * 10 ^ e, (0 : Nat)⟩)) := by
  have hne : Nat.toDigits 10 m ++ Decimal.zeros e ≠ [] := by simp
  have hdigits : ∀ c ∈ Nat.toDigits 10 m ++ Decimal.zeros e, c.isDigit = true := by
    intro c hc
    rcases List.mem_append.mp hc with hvalue | hzero
    · exact Nat.isDigit_of_mem_toDigits (by decide) (by decide) hvalue
    · rw [List.eq_of_mem_replicate hzero]
      decide
  refine ⟨hne, hdigits, ?_⟩
  rw [read?_of_digits hne hdigits, valueOf_toDigits]

/-! ## Writing digits -/

/-- The shortest decimal of a double that is nearest to a whole number is whole. -/
theorem shortest_nearest {v n : Nat} (hv : Decimal.nearest ⟨v, (0 : Nat)⟩ = n) (hzero : n ≠ 0)
    (hfinite : n < Binary64.infinity) :
    ∃ m e : Nat, Decimal.shortest n = ⟨m, e⟩ ∧ Decimal.nearest ⟨m * 10 ^ e, (0 : Nat)⟩ = n := by
  have hpos : v ≠ 0 := by
    rintro rfl
    exact hzero hv.symm
  rw [Decimal.nearest_of_whole hpos (Nat.zero_le _), Nat.pow_zero, Nat.mul_one] at hv
  obtain ⟨w, hunits⟩ := Binary64.exists_units_nearest hpos (by rw [hv]; exact hfinite)
  rw [hv] at hunits
  have hw : w ≠ 0 := by
    rintro rfl
    have hself := Binary64.nearest_units (Nat.le_of_lt hfinite) Nat.one_pos
    rw [hunits, Nat.zero_mul] at hself
    exact hzero hself.symm
  obtain ⟨hnearest, m, e, hshortest⟩ := Decimal.shortest_of_whole hfinite hw hunits
  rw [hshortest] at hnearest
  have hm : m ≠ 0 := by
    rintro rfl
    exact hzero hnearest.symm
  have he : e ≤ 400 := by
    by_contra hlarge
    have hinfinite : Decimal.nearest ⟨m, e⟩ = Binary64.infinity := by
      unfold Decimal.nearest
      simp only
      rw [if_neg hm, if_pos (by omega)]
    omega
  exact ⟨m, e, hshortest, by rw [Decimal.nearest_whole hm he, hnearest]⟩

end Numeral

namespace Expr

/-- A number that digits stand for is written with digits, and they stand for it again. -/
theorem standsFor_digits {ds : List Char} {x : Float} (h : Numeral.StandsFor ds x) :
    Numeral.StandsFor (digits x).toList x := by
  obtain ⟨hne, hdigits, hread⟩ := h
  rw [Numeral.read?_of_digits hne hdigits] at hread
  obtain ⟨n, hn⟩ : ∃ n, Decimal.nearest ⟨Numeral.valueOf ds, (0 : Nat)⟩ = n := ⟨_, rfl⟩
  have hle := Decimal.nearest_le_infinity ⟨Numeral.valueOf ds, (0 : Nat)⟩
  rw [hn] at hread hle
  obtain rfl := Option.some.inj hread
  have hnumber := Binary64.number_ofNumber hle
  have hsign := Binary64.isNegative_ofNumber hle
  unfold digits
  rw [hnumber]
  by_cases hinfinite : n = Binary64.infinity
  · -- any number that is too large for a double will do
    have hlarge : Decimal.nearest ⟨1 * 10 ^ 309, (0 : Nat)⟩ = Binary64.infinity := by
      decide +kernel
    rw [if_pos hinfinite, hinfinite, ← hlarge, String.toList_ofList]
    exact Numeral.standsFor_toDigits 1 309
  rw [if_neg hinfinite]
  have hnumeric : ¬ Binary64.infinity < n := Nat.not_lt.mpr hle
  unfold Decimal.Style.write
  simp only [hnumber, hsign]
  rw [if_neg hnumeric, if_neg hinfinite]
  by_cases hzero : n = 0
  · rw [if_pos hzero, hzero]
    exact Numeral.standsFor_toDigits 0 0
  · have hfinite : n < Binary64.infinity := Nat.lt_of_le_of_ne hle hinfinite
    obtain ⟨m, e, hshortest, hnearest⟩ := Numeral.shortest_nearest hn hzero hfinite
    have hlayout : Decimal.Style.plain.layout ⟨m, e⟩ = Nat.toDigits 10 m ++ Decimal.zeros e :=
      (if_neg (by simp [Decimal.Style.plain])).trans (Decimal.positional_of_whole m e)
    rw [if_neg hzero, hshortest, hlayout, ← hnearest]
    simpa using Numeral.standsFor_toDigits m e

/-- A number that can be written in a source is one that digits stand for. -/
theorem exists_standsFor {x : Float} (h : (number x).HasWritableParts) :
    ∃ ds, Numeral.StandsFor ds x := by
  rcases h with ⟨ds, hne, hdigits, hread⟩
  refine ⟨ds.toList, by simpa using hne, List.all_eq_true.mp hdigits, ?_⟩
  rw [String.ofList_toList]
  exact hread

end Expr

end Abacus
