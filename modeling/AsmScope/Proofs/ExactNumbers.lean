import AsmScope.Number.Basic
import Mathlib
/-! # Numbers without rounding

A value of the binary format is rounded to itself (`toRat?_ofRat`): the exponent that is chosen for
it is at most its own, so that its significand comes out as a whole number. Hence the distance of
two numbers is exact if the format has it (`sub?_of_held`), which is the case for all ticks of a
clock as long as the format can count them. -/

namespace AsmScope

namespace Binary64

/-- The format has this value. -/
def Held (value : Rat) : Prop :=
  ∃ (significand exponent : Int), value = significand * 2 ^ exponent ∧
    significand.natAbs < 2 ^ 53 ∧ -1074 ≤ exponent ∧ exponent ≤ 971

/-! ### Scaling by powers of two -/

/-- Scaling a fraction by a power of two keeps its denominator positive. -/
theorem scale_snd_pos {d : Nat} (pos : 0 < d) (n : Nat) (e : Int) : 0 < (scale n d e).2 :=
  Nat.mul_pos pos (Nat.pow_pos (by decide))

/-- A scaled quotient is the quotient by a power of two. -/
theorem scale_quotient (n d : Nat) (e : Int) :
    ((scale n d e).1 : Rat) / (scale n d e).2 = n / d / 2 ^ e := by
  obtain ⟨k, rfl | rfl⟩ := e.eq_nat_or_neg
  · simp [scale, div_div]
  · simp [scale, mul_div_right_comm]

/-- The value of a finite number is its significand times the power of two, with its sign. -/
theorem toRat?_finite (negative : Bool) (significand : Nat) (exponent : Int) :
    (finite negative significand exponent).toRat? =
      some ((if negative then -1 else 1) * ((significand : Rat) * 2 ^ exponent)) := by
  have hscale := scale_quotient significand 1 (-exponent)
  rw [Nat.cast_one, div_one, zpow_neg, div_inv_eq_mul] at hscale
  rw [toRat?, ← hscale]
  dsimp only
  rw [Rat.mkRat_eq_div]
  cases negative <;> simp [neg_div]

/-! ### Rounding what is held -/

/-- The power of two with the binary logarithm of a fraction is at most the fraction. -/
theorem zpow_floorLog2_le {n d : Nat} (hn : 0 < n) (hd : 0 < d) :
    (2 : Rat) ^ floorLog2 n d ≤ n / d := by
  have hd' : (0 : Rat) < d := Nat.cast_pos.2 hd
  rw [floorLog2]
  dsimp only
  split
  · next h =>
    -- the guess is right
    have hpos := scale_snd_pos hd n ((n.log2 : Int) - d.log2)
    have hone : (1 : Rat) ≤ n / d / 2 ^ ((n.log2 : Int) - d.log2) := by
      rw [← scale_quotient, one_le_div (Nat.cast_pos.2 hpos)]
      exact Nat.cast_le.2 h
    rwa [one_le_div (by positivity)] at hone
  · -- the numerator is at least its power of two, and the denominator less than twice its own
    have hnum : (2 : Rat) ^ n.log2 ≤ n := by
      exact_mod_cast Nat.log2_self_le hn.ne'
    have hden : (d : Rat) < 2 ^ (d.log2 + 1) := by
      exact_mod_cast Nat.lt_log2_self
    have hexponent : (n.log2 : Int) - d.log2 - 1 = n.log2 - (d.log2 + 1 : Nat) := by
      push_cast
      ring
    rw [hexponent, zpow_sub₀ two_ne_zero, zpow_natCast, zpow_natCast]
    exact div_le_div₀ (by positivity) hnum hd' hden.le

/-- A quotient that is a whole number is not rounded. -/
theorem roundQuotient_mul {d : Nat} (hd : 0 < d) (k : Nat) : roundQuotient (k * d) d = k := by
  rw [roundQuotient]
  simp [Nat.mul_div_cancel k hd, hd]

/-- A quotient with a significand that is small enough is not rounded. -/
theorem toRat?_ofQuotient {n d m : Nat} {e : Int} (hn : 0 < n) (hd : 0 < d)
    (value : (n : Rat) / d = m * 2 ^ e) (small : m < 2 ^ 53) (least : -1074 ≤ e)
    (greatest : e ≤ 971) (negative : Bool) :
    (ofQuotient negative n d).toRat? = some ((if negative then -1 else 1) * ((n : Rat) / d)) := by
  generalize hx : max (floorLog2 n d - 52) (-1074) = x
  -- the exponent that is chosen is not greater
  have hle : x ≤ e := by
    have hlt : (2 : Rat) ^ floorLog2 n d < 2 ^ (53 + e) := by
      calc (2 : Rat) ^ floorLog2 n d ≤ m * 2 ^ e := value ▸ zpow_floorLog2_le hn hd
        _ < 2 ^ 53 * 2 ^ e := by
            have hm : (m : Rat) < 2 ^ 53 := by exact_mod_cast small
            exact mul_lt_mul_of_pos_right hm (by positivity)
        _ = 2 ^ (53 + e) := by rw [zpow_add₀ two_ne_zero]; norm_num
    have := (zpow_lt_zpow_iff_right₀ one_lt_two).1 hlt
    omega
  obtain ⟨j, rfl⟩ := Int.exists_add_of_le hle
  -- so the significand is a whole number
  have hwhole : (scale n d x).1 = m * 2 ^ j * (scale n d x).2 := by
    have hpos := scale_snd_pos hd n x
    have hquotient := scale_quotient n d x
    rw [value, zpow_add₀ two_ne_zero, zpow_natCast, mul_left_comm, mul_div_cancel_left₀ _
      (by positivity), div_eq_iff (by positivity)] at hquotient
    exact_mod_cast hquotient
  have hvalue : (n : Rat) / d = (m * 2 ^ j : Nat) * 2 ^ x := by
    rw [value, zpow_add₀ two_ne_zero, zpow_natCast]
    push_cast
    ring
  have hm : m ≠ 0 := by
    rintro rfl
    have hquotient : 0 < (n : Rat) / d := by positivity
    simp [value] at hquotient
  rw [ofQuotient, if_neg (by omega), hx]
  dsimp only
  rw [hwhole, roundQuotient_mul (scale_snd_pos hd n x), hvalue]
  by_cases hfull : m * 2 ^ j = Nat.pow 2 53
  · -- then the exponent that is chosen is less
    have hj : j ≠ 0 := by
      rintro rfl
      rw [pow_zero, mul_one] at hfull
      exact small.ne hfull
    rw [if_pos hfull]
    dsimp only
    have hsame : ((Nat.pow 2 52 : Nat) : Rat) * 2 ^ (x + 1) = (Nat.pow 2 53 : Nat) * 2 ^ x := by
      rw [zpow_add_one₀ two_ne_zero, Nat.pow_eq, Nat.pow_eq]
      push_cast
      ring
    rw [if_neg (by decide), if_neg (by omega), toRat?_finite, hfull, hsame]
  · rw [if_neg hfull]
    dsimp only
    rw [if_neg (mul_ne_zero hm (pow_ne_zero _ two_ne_zero)), if_neg (by omega), toRat?_finite]

/-- **A value of the format is rounded to itself.** -/
theorem toRat?_ofRat {q : Rat} (held : Held q) : (ofRat q).toRat? = some q := by
  obtain ⟨m, e, hq, hsmall, hleast, hgreatest⟩ := held
  have habs : (q.num.natAbs : Rat) / q.den = |q| := by
    conv_rhs => rw [← Rat.num_div_den q]
    rw [abs_div, Nat.abs_cast, Nat.cast_natAbs, Int.cast_abs]
  rcases eq_or_ne q 0 with rfl | hne
  · rfl
  · have hnum : 0 < q.num.natAbs := Int.natAbs_pos.2 (Rat.num_ne_zero.2 hne)
    have hvalue : (q.num.natAbs : Rat) / q.den = m.natAbs * 2 ^ e := by
      have hpow : (0 : Rat) < 2 ^ e := zpow_pos two_pos e
      rw [habs, hq, abs_mul, abs_of_pos hpow, Nat.cast_natAbs, Int.cast_abs]
    rw [ofRat, toRat?_ofQuotient hnum q.den_pos hvalue hsmall hleast hgreatest, habs]
    rcases lt_or_ge q 0 with hneg | hnonneg
    · simp [hneg, abs_of_neg hneg]
    · simp [hnonneg.not_gt, abs_of_nonneg hnonneg]

/-- Both zeros have the value zero. -/
theorem toRat?_zero (negative : Bool) : (zero negative).toRat? = some 0 := by
  rw [zero, toRat?_finite]
  simp

/-- A difference that the format has is not rounded. -/
theorem toRat?_sub {x y : Binary64} {a b : Rat} (hx : x.toRat? = some a) (hy : y.toRat? = some b)
    (held : Held (a - b)) : (x.sub y).toRat? = some (a - b) := by
  cases x with
  | nan => cases hx
  | infinity => cases hx
  | finite s m e =>
    cases y with
    | nan => cases hy
    | infinity => cases hy
    | finite t n f =>
      rw [sub, hx, hy]
      dsimp only
      split
      · next heq =>
        rw [heq, sub_self, toRat?_zero]
      · exact toRat?_ofRat held

end Binary64

namespace Number

/-- The exact value of a number; zero if it has none. -/
def value (x : Number) : Rat :=
  match x.place? with
  | some (.at v) => v
  | _ => 0

/-- The number has a value. -/
def IsExact (x : Number) : Prop := x.place? = some (.at x.value)

/-- The distance from a number to a later one is not rounded. -/
def Apart (earlier later : Number) : Prop :=
  ∃ distance, later.sub? earlier = some distance ∧ distance.IsExact ∧
    distance.value = later.value - earlier.value

/-- A number stands at a place exactly if it has a value, which is then the place. -/
theorem isExact_iff {x : Number} {v : Rat} :
    x.place? = some (.at v) ↔ x.IsExact ∧ x.value = v := by
  constructor
  · intro h
    have hv : x.value = v := by rw [value, h]
    exact ⟨by rw [IsExact, h, hv], hv⟩
  · rintro ⟨h, rfl⟩
    exact h

/-- An integer has a value, however large it is. -/
theorem isExact_integer (n : Int) : (integer n).IsExact := rfl

/-- The value of an integer is the integer itself. -/
@[simp] theorem value_integer (n : Int) : (integer n).value = n := rfl

/-- Numbers are compared by their values. -/
theorem le_iff {x y : Number} (hx : x.IsExact) (hy : y.IsExact) :
    x.le y = true ↔ x.value ≤ y.value := by
  rw [le, hx, hy]
  dsimp only
  rw [Place.le, decide_eq_true_iff]

/-- A binary number stands at the place of its value. -/
theorem place?_binary_iff {x : Binary64} {v : Rat} :
    (binary x).place? = some (.at v) ↔ x.toRat? = some v := by
  cases x with
  | nan => exact ⟨nofun, nofun⟩
  | infinity negative => cases negative <;> exact ⟨nofun, nofun⟩
  | finite negative significand exponent =>
    have hplace : (binary (.finite negative significand exponent)).place? =
        (Binary64.finite negative significand exponent).toRat?.map .at := rfl
    rw [hplace, Binary64.toRat?_finite]
    simp

/-- The value of both zeros is zero. -/
theorem value_zero (negative : Bool) : (binary (.zero negative)).value = 0 :=
  (isExact_iff.1 (place?_binary_iff.2 (Binary64.toRat?_zero negative))).2

/-- A value of the format goes there without rounding. -/
theorem exists_toBinary? {x : Number} (hx : x.IsExact) (held : Binary64.Held x.value) :
    ∃ y, x.toBinary? = some y ∧ y.toRat? = some x.value := by
  cases x with
  | integer n =>
    have hround := Binary64.toRat?_ofRat held
    rw [value_integer] at hround
    refine ⟨Binary64.ofRat n, ?_, hround⟩
    rw [toBinary?]
    split
    · next h =>
      rw [h] at hround
      cases hround
    · rfl
  | binary y => exact ⟨y, rfl, place?_binary_iff.1 hx⟩

/-- **Distances without rounding**: if the format has two values and their distance. -/
theorem apart_of_held {earlier later : Number} (hearlier : earlier.IsExact)
    (hlater : later.IsExact) (held : Binary64.Held earlier.value)
    (held' : Binary64.Held later.value)
    (distance : Binary64.Held (later.value - earlier.value)) : earlier.Apart later := by
  obtain ⟨x, hx, hxvalue⟩ := exists_toBinary? hearlier held
  obtain ⟨y, hy, hyvalue⟩ := exists_toBinary? hlater held'
  have hvalue := Binary64.toRat?_sub hyvalue hxvalue distance
  have hbinary : later.sub? earlier = some (.binary (y.sub x)) → earlier.Apart later :=
    fun hsub => ⟨_, hsub, isExact_iff.1 (place?_binary_iff.2 hvalue)⟩
  -- two integers are not taken to the format
  cases earlier with
  | integer a =>
    cases later with
    | integer b =>
      have hvalue : (integer (b - a)).value = b - a := by rw [value_integer, Int.cast_sub]
      exact ⟨.integer (b - a), rfl, isExact_integer _, hvalue⟩
    | binary b => exact hbinary (by simp [sub?, combine?, hx, hy])
  | binary a => exact hbinary (by simp [sub?, combine?, hx, hy])

/-- A number of ticks of a clock whose unit is a power of two. -/
def IsTicks (unit : Int) (x : Number) (ticks : Nat) : Prop :=
  x.IsExact ∧ x.value = ticks * 2 ^ unit

/-- Zero is the time of no ticks, whatever their unit. -/
theorem isTicks_zero (unit : Int) (negative : Bool) :
    (binary (.zero negative)).IsTicks unit 0 := by
  refine ⟨(isExact_iff.1 (place?_binary_iff.2 (Binary64.toRat?_zero negative))).1, ?_⟩
  rw [value_zero, Nat.cast_zero, zero_mul]

/-- A clock can tick in full seconds. -/
theorem isTicks_integer (n : Nat) : (integer n).IsTicks 0 n := by
  refine ⟨isExact_integer n, ?_⟩
  rw [value_integer, zpow_zero, mul_one, Int.cast_natCast]

/-- **Clocks are read without rounding**: two readings of one clock are apart without rounding, as
long as the format can count their ticks. -/
theorem apart_of_ticks {unit : Int} (least : -1074 ≤ unit) (greatest : unit ≤ 971)
    {earlier later : Number} {m n : Nat} (hearlier : earlier.IsTicks unit m)
    (hlater : later.IsTicks unit n) (hm : m < 2 ^ 53) (hn : n < 2 ^ 53) : earlier.Apart later := by
  have hheld : ∀ k : Int, k.natAbs < 2 ^ 53 → Binary64.Held (k * 2 ^ unit) :=
    fun k hk => ⟨k, unit, rfl, hk, least, greatest⟩
  obtain ⟨hexact, hvalue⟩ := hearlier
  obtain ⟨hexact', hvalue'⟩ := hlater
  refine apart_of_held hexact hexact' ?_ ?_ ?_
  · rw [hvalue]
    exact hheld m hm
  · rw [hvalue']
    exact hheld n hn
  · rw [hvalue, hvalue', ← sub_mul]
    exact_mod_cast hheld (n - m) (by omega)

end Number

end AsmScope
