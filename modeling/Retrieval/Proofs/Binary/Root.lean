/-
# Retrieval.Proofs.Binary.Root -- square roots and the squares of them

`Format.RoundsRoot` says that a code is nearest to the square root of a magnitude: the
magnitude lies between the squares of the midpoints before and behind the code.
`Format.roundSqrt` finds such a code (`roundSqrt_rounds`).

The square of a rounded root is rounded again, and need not be what the root was taken of.
It is exactly where that is the rounded square of anything (`Binary.sqrt_mul_sqrt_iff`): of
the floats whose squares round to a number, the rounded root is one.  The argument compares
the room that a number has around it with the step from one root to the next.  Both are
powers of two, so the room is not merely large enough for one root and the point halfway to
the next, but for both roots (`room_of_half`).
-/
import Retrieval.Proofs.Binary.Comparison
import Retrieval.Proofs.Binary.Unsigned

namespace Retrieval

set_option autoImplicit false

namespace Format

variable {F : Format} {q r s : ℚ} {n code c e g : Nat}

/-! ## The nearest root -/

variable (F) in
/-- The code is nearest to the square root of a magnitude. -/
structure RoundsRoot (q : ℚ) (code : Nat) : Prop where
  before : ∀ b, code = b + 1 → F.middle b ^ 2 ≤ q
  behind : q ≤ F.middle code ^ 2

/-- A root that is rounded down to a step lies in the binade of the steps. -/
theorem sqrt_inBinade (n : Nat) :
    let k := Nat.log2 (Nat.sqrt n) - F.fractionBits
    let m := Nat.sqrt n / 2 ^ k
    F.InBinade (k * F.hidden + m) m k ∧ (m * 2 ^ k) ^ 2 ≤ n ∧ n < ((m + 1) * 2 ^ k) ^ 2 := by
  intro k m
  obtain ⟨below, above⟩ := binade_spec (F := F) Nat.one_pos (Nat.sqrt n)
  rw [Nat.div_one] at below above
  change Nat.sqrt n < 2 * F.hidden * (1 * 2 ^ k) at below
  change 0 < k → F.hidden * (1 * 2 ^ k) ≤ Nat.sqrt n at above
  rw [Nat.one_mul] at below above
  have step : 0 < 2 ^ k := Nat.two_pow_pos k
  refine ⟨⟨rfl, (Nat.div_lt_iff_lt_mul step).2 below, ?_⟩, ?_, ?_⟩
  · rcases Nat.eq_zero_or_pos k with first | later
    · exact .inl first
    · exact .inr ((Nat.le_div_iff_mul_le step).2 (above later))
  · exact le_trans (Nat.pow_le_pow_left (Nat.div_mul_le_self _ _) 2) (Nat.sqrt_le' n)
  · have next : Nat.sqrt n + 1 ≤ (m + 1) * 2 ^ k := by
      have inside := Nat.lt_mul_div_succ (Nat.sqrt n) step
      rw [Nat.mul_comm] at inside
      exact inside
    exact lt_of_lt_of_le (Nat.lt_succ_sqrt' n) (Nat.pow_le_pow_left next 2)

/-- **Rounding a root finds the nearest code,** counted in half units. -/
theorem roundSqrt_spec (n : Nat) :
    (∀ b, F.roundSqrt n = b + 1 → F.upperEnd b ^ 2 ≤ 4 * n) ∧
      4 * n ≤ F.upperEnd (F.roundSqrt n) ^ 2 := by
  obtain ⟨here, low, high⟩ := sqrt_inBinade (F := F) n
  generalize isStep : Nat.log2 (Nat.sqrt n) - F.fractionBits = k at here low high
  generalize isCount : Nat.sqrt n / 2 ^ k = m at here low high
  have middle := here.upperEnd_eq
  have found : F.roundSqrt n = k * F.hidden +
      (if 4 * n < F.upperEnd (k * F.hidden + m) * F.upperEnd (k * F.hidden + m) then m
      else if F.upperEnd (k * F.hidden + m) * F.upperEnd (k * F.hidden + m) < 4 * n then m + 1
      else m + m % 2) := by
    rw [roundSqrt, isStep, Nat.shiftRight_eq_div_pow, isCount, Nat.shiftLeft_eq, ← middle]
  -- below and above the count of steps, by the ends of the two intervals
  have down : (∀ b, k * F.hidden + m = b + 1 → F.upperEnd b ^ 2 ≤ 4 * n) := by
    intro b same
    have units : F.upperEnd b ≤ 2 * F.units (k * F.hidden + m) := by
      have less : F.units b < F.units (b + 1) := F.units_strictMono (Nat.lt_succ_self b)
      rw [upperEnd, same]
      omega
    rw [here.units_eq] at units
    calc F.upperEnd b ^ 2 ≤ (2 * (m * 2 ^ k)) ^ 2 := Nat.pow_le_pow_left units 2
      _ = 4 * (m * 2 ^ k) ^ 2 := by ring
      _ ≤ 4 * n := Nat.mul_le_mul_left 4 low
  have up : 4 * n ≤ F.upperEnd (k * F.hidden + (m + 1)) ^ 2 := by
    have units : 2 * ((m + 1) * 2 ^ k) ≤ F.upperEnd (k * F.hidden + (m + 1)) := by
      rw [← Nat.add_assoc, upperEnd_eq', units_succ, here.units_eq, here.gap_eq]
      have same : (m + 1) * 2 ^ k = m * 2 ^ k + 2 ^ k := by ring
      omega
    calc 4 * n ≤ 4 * ((m + 1) * 2 ^ k) ^ 2 := Nat.mul_le_mul_left 4 (Nat.le_of_lt high)
      _ = (2 * ((m + 1) * 2 ^ k)) ^ 2 := by ring
      _ ≤ _ := Nat.pow_le_pow_left units 2
  rw [found]
  simp only [← pow_two]
  split
  · rename_i less
    exact ⟨down, Nat.le_of_lt less⟩
  · rename_i notLess
    have next (b : Nat) (same : k * F.hidden + (m + 1) = b + 1) : F.upperEnd b ^ 2 ≤ 4 * n := by
      obtain rfl : b = k * F.hidden + m := by omega
      exact not_lt.1 notLess
    split
    · exact ⟨next, up⟩
    · rename_i notMore
      rcases Nat.mod_two_eq_zero_or_one m with even | odd
      · rw [even]
        exact ⟨down, not_lt.1 notMore⟩
      · rw [odd]
        exact ⟨next, up⟩

/-- **Rounding the root of a count of squared units.** -/
theorem roundSqrt_rounds (code : Nat) :
    F.RoundsRoot (F.value code) (F.roundSqrt (F.units code <<< F.scale)) := by
  obtain ⟨before, behind⟩ := F.roundSqrt_spec (F.units code <<< F.scale)
  have square (c : Nat) : F.middle c ^ 2 = (F.upperEnd c ^ 2 : Nat) / (4 * (2 ^ F.scale) ^ 2) := by
    rw [middle, div_pow, pow_succ]
    push_cast
    ring
  have whole : F.value code =
      (4 * (F.units code <<< F.scale) : Nat) / (4 * (2 ^ F.scale) ^ 2) := by
    rw [value, Nat.shiftLeft_eq]
    push_cast
    field_simp
  have positive : (0 : ℚ) < 4 * (2 ^ F.scale) ^ 2 := by positivity
  constructor
  · intro b same
    rw [square, whole, div_le_div_iff_of_pos_right positive]
    exact_mod_cast before b same
  · rw [square, whole, div_le_div_iff_of_pos_right positive]
    exact_mod_cast behind

/-! ## The square of a root -/

/-- A code is the nearest to what lies between two magnitudes that it is nearest to. -/
theorem Rounds.between (low : F.Rounds q code) (high : F.Rounds r code) (above : q ≤ s)
    (below : s ≤ r) : F.Rounds s code := by
  constructor
  · intro b same
    obtain ⟨least, even⟩ := low.before b same
    refine ⟨le_trans least above, fun touch => even ?_⟩
    exact le_antisymm (touch ▸ above) least
  · obtain ⟨most, even⟩ := high.behind
    refine ⟨le_trans below most, fun touch => even ?_⟩
    exact le_antisymm most (touch ▸ below)

/-- A code is the nearest to what lies between the midpoints beside it. -/
theorem rounds_of_lt (before : ∀ b, code = b + 1 → F.middle b < q) (behind : q < F.middle code) :
    F.Rounds q code :=
  ⟨fun b same => ⟨le_of_lt (before b same), fun touch => absurd touch (ne_of_gt (before b same))⟩,
    le_of_lt behind, fun touch => absurd touch (ne_of_lt behind)⟩

/-- **Powers of two leave no room for a half.**  A room with place for `M` squares of a step
and a quarter more has place for `M + 1` of them, twice counted. -/
theorem room_of_half {i j M : Nat} (wide : 3 * 2 ^ i ≤ 2 * 2 ^ j)
    (half : (4 * M + 1) * 2 ^ i ≤ 2 * 2 ^ j) : (2 * M + 2) * 2 ^ i ≤ 2 ^ j := by
  have later : i + 1 ≤ j := by
    by_contra early
    have least : 2 ^ j ≤ 2 ^ i := Nat.pow_le_pow_right (by decide) (by omega)
    have positive : 0 < 2 ^ i := Nat.two_pow_pos i
    omega
  obtain ⟨t, rfl⟩ : ∃ t, j = i + (t + 1) := ⟨j - i - 1, by omega⟩
  have split : 2 ^ (i + (t + 1)) = 2 * 2 ^ t * 2 ^ i := by ring
  rw [split, ← Nat.mul_assoc] at half
  have count : 4 * M + 1 ≤ 2 * (2 * 2 ^ t) := Nat.le_of_mul_le_mul_right half (Nat.two_pow_pos i)
  rw [split]
  exact Nat.mul_le_mul_right _ (by omega)

/-- The room behind a number is large enough for one more root if it is for half of one. -/
theorem room (c e : Nat) {M : Nat} (wide : 3 * F.step e ^ 2 ≤ 2 * F.step c)
    (half : (4 * M + 1) * F.step e ^ 2 ≤ 2 * F.step c) :
    (2 * M + 2) * F.step e ^ 2 ≤ F.step c := by
  have scale : (0 : ℚ) < (2 ^ F.scale) ^ 2 := by positivity
  have squares (n : Nat) : n * F.step e ^ 2 =
      (n * 2 ^ (2 * (e / F.hidden - 1)) : Nat) / (2 ^ F.scale) ^ 2 := by
    rw [step, gap, div_pow, pow_mul']
    push_cast
    ring
  have rooms (n : Nat) : n * F.step c =
      (n * 2 ^ (c / F.hidden - 1 + F.scale) : Nat) / (2 ^ F.scale) ^ 2 := by
    rw [step, gap, pow_add]
    push_cast
    field_simp
  have counts (n m : Nat) : n * F.step e ^ 2 ≤ m * F.step c ↔
      n * 2 ^ (2 * (e / F.hidden - 1)) ≤ m * 2 ^ (c / F.hidden - 1 + F.scale) := by
    rw [squares, rooms, div_le_div_iff_of_pos_right scale, Nat.cast_le]
  have grown := room_of_half ((counts 3 2).1 (by exact_mod_cast wide))
    ((counts (4 * M + 1) 2).1 (by exact_mod_cast half))
  have done := (counts (2 * M + 2) 1).2 (by rw [Nat.one_mul]; exact grown)
  rw [Nat.cast_one, one_mul] at done
  exact_mod_cast done

/-- **The rounded root is among the roots that round to a number,** if there are any: from a
root below, the number is reached by the rounded root, which may lie above it. -/
theorem rounds_square_of_below (root : F.RoundsRoot (F.value c) (e + 1))
    (square : F.Rounds (F.value e ^ 2) c) (above : F.value c < F.value (e + 1) ^ 2) :
    F.Rounds (F.value (e + 1) ^ 2) c := by
  obtain ⟨M, -, steps⟩ := F.exists_steps e
  have γ := F.step_pos e
  have half := root.before e rfl
  rw [middle_eq_step, steps] at half
  -- the number is no zero, so there is a midpoint before it, and the smaller square is behind
  obtain ⟨b, rfl⟩ : ∃ b, c = b + 1 := by
    refine ⟨c - 1, (Nat.succ_pred_eq_of_pos (Nat.pos_of_ne_zero ?_)).symm⟩
    rintro rfl
    rw [value_zero] at half
    have positive : 0 < (M * F.step e + F.step e / 2) ^ 2 := by positivity
    linarith
  have reached := (square.before b rfl).1
  rw [middle_eq_step, steps] at reached
  have value := F.value_succ b
  have least : (4 * M + 1) * F.step e ^ 2 ≤ 2 * F.step b := by nlinarith
  have some : 1 ≤ M := by
    by_contra none
    obtain rfl : M = 0 := by omega
    have nothing : F.middle b ≤ 0 := by
      rw [middle_eq_step]
      simpa using reached
    exact absurd (F.middle_pos b) (not_lt.2 nothing)
  have wide : 3 * F.step e ^ 2 ≤ 2 * F.step b := by
    have count : (3 : ℚ) ≤ 4 * M + 1 := by
      have : (1 : ℚ) ≤ M := by exact_mod_cast some
      linarith
    nlinarith [sq_nonneg (F.step e)]
  have grown := F.room b e wide least
  refine rounds_of_lt (fun b' same => ?_) ?_
  · obtain rfl : b = b' := by omega
    linarith [F.middle_lt_value b]
  · rw [middle_eq_step, value_succ e, steps]
    have kept := F.step_mono (Nat.le_succ b)
    nlinarith [sq_nonneg (F.step e)]

/-- From a root above, the number is reached by the rounded root, which may lie below it. -/
theorem rounds_square_of_above (root : F.RoundsRoot (F.value c) e)
    (square : F.Rounds (F.value (e + 1) ^ 2) c) (below : F.value e ^ 2 < F.value c) :
    F.Rounds (F.value e ^ 2) c := by
  obtain ⟨M, short, steps⟩ := F.exists_steps e
  have γ := F.step_pos e
  have half := root.behind
  rw [middle_eq_step, steps] at half
  have reached := square.behind.1
  rw [middle_eq_step, value_succ e, steps] at reached
  have nonneg : (0 : ℚ) ≤ M := Nat.cast_nonneg M
  have grown := F.room (M := M) c e (by nlinarith [sq_nonneg (F.step e)])
    (by nlinarith [sq_nonneg (F.step e)])
  refine rounds_of_lt (fun b same => ?_) (lt_trans below (F.value_lt_middle c))
  subst same
  have value := F.value_succ b
  rw [middle_eq_step, steps]
  rcases F.step_succ_cases b with same | ⟨-, first⟩
  · rw [same] at grown
    nlinarith [sq_nonneg (F.step e)]
  · -- at the beginning of a binade the number would be too large for the root
    exfalso
    rw [first] at half
    have count : (M : ℚ) + 1 ≤ 2 * F.hidden := by exact_mod_cast short
    have hidden : (0 : ℚ) < F.hidden := by exact_mod_cast F.hidden_pos
    have large : F.hidden * ((2 * M + 2) * F.step e ^ 2) ≤ F.hidden * F.step (b + 1) :=
      mul_le_mul_of_nonneg_left grown hidden.le
    have square : 0 < F.step e ^ 2 := by positivity
    nlinarith

/-- **The square of the rounded root rounds to a number if any square does.** -/
theorem rounds_square_of_root (root : F.RoundsRoot (F.value c) e)
    (square : F.Rounds (F.value g ^ 2) c) : F.Rounds (F.value e ^ 2) c := by
  have itself := F.rounds_value c
  have squares {a b : Nat} (le : a ≤ b) : F.value a ^ 2 ≤ F.value b ^ 2 :=
    pow_le_pow_left₀ (F.value_nonneg a) (F.value_strictMono.monotone le) 2
  rcases lt_trichotomy g e with less | rfl | more
  · obtain ⟨e, rfl⟩ : ∃ b, e = b + 1 := ⟨e - 1, by omega⟩
    have low : F.value e ^ 2 ≤ F.value c :=
      le_trans (pow_le_pow_left₀ (F.value_nonneg e) (F.value_lt_middle e).le 2) (root.before e rfl)
    have near := square.between itself (squares (Nat.le_of_lt_succ less)) low
    rcases le_or_gt (F.value (e + 1) ^ 2) (F.value c) with below | above
    · exact near.between itself (squares (Nat.le_succ e)) below
    · exact rounds_square_of_below root near above
  · exact square
  · have high : F.value c ≤ F.value (e + 1) ^ 2 :=
      le_trans root.behind (pow_le_pow_left₀ (F.middle_pos e).le (F.middle_lt_value e).le 2)
    have near := itself.between square high (squares more)
    rcases le_or_gt (F.value c) (F.value e ^ 2) with above | below
    · exact itself.between near above (squares (Nat.le_succ e))
    · exact rounds_square_of_above root near below

/-- The code of the root of infinity, as if that were a power of two. -/
def rootOfInfinity : Nat := 0x5f800000

theorem value_infinity_single :
    single.value single.infinity = single.value rootOfInfinity ^ 2 := by
  have counts : single.units single.infinity * 2 ^ single.scale =
      single.units rootOfInfinity ^ 2 := by decide +kernel
  have counts : (single.units single.infinity * 2 ^ single.scale : ℚ) =
      single.units rootOfInfinity ^ 2 := by exact_mod_cast counts
  rw [value, value, div_pow, ← counts, sq]
  field_simp

/-- The root of a finite 32-bit float is finite. -/
theorem RoundsRoot.lt_infinity (root : single.RoundsRoot (single.value c) e)
    (finite : c < single.infinity) : e < single.infinity := by
  have small : rootOfInfinity < single.infinity := by decide
  refine lt_of_le_of_lt ?_ small
  by_contra large
  obtain ⟨b, rfl⟩ : ∃ b, e = b + 1 := ⟨e - 1, by omega⟩
  have behind : single.value rootOfInfinity ≤ single.middle b :=
    le_trans (single.value_strictMono.monotone (by omega)) (single.value_lt_middle b).le
  have squares : single.value rootOfInfinity ^ 2 ≤ single.middle b ^ 2 :=
    pow_le_pow_left₀ (single.value_nonneg _) behind 2
  have less := single.value_strictMono finite
  rw [value_infinity_single] at less
  linarith [root.before b rfl]

end Format

namespace Binary

variable {c : Nat} {bounded : c ≤ Format.single.infinity}

/-- The root of a finite number, as a code. -/
theorem exists_sqrt (bounded : c ≤ Format.single.infinity) (some : 0 < c)
    (finite : c < Format.single.infinity) : ∃ e, (sqrt (.number false c bounded)).HasCode false e ∧
      Format.single.RoundsRoot (Format.single.value c) e := by
  have root := Format.single.roundSqrt_rounds c
  refine ⟨_, ?_, root⟩
  rw [sqrt, if_neg (Nat.ne_of_gt some), if_neg Bool.false_ne_true, if_neg (Nat.ne_of_lt finite)]
  exact ofCode_hasCode false (root.lt_infinity finite)

/-- A square that is finite is rounded from the square of a code. -/
theorem mul_self_eq_iff {r : Binary32} {s : Bool} {g : Nat} (has : r.HasCode s g)
    (finite : c < Format.single.infinity) :
    r * r = .number false c bounded ↔ Format.single.Rounds (Format.single.value g ^ 2) c := by
  obtain ⟨code, same, rounds⟩ := exists_mul_eq_ofCode (by decide) has has
  rw [← pow_two] at rounds
  rw [same, bne_self_eq_false, ofCode, number.injEq, and_iff_right rfl]
  constructor
  · intro reached
    obtain rfl : code = c := by omega
    exact rounds
  · intro found
    rw [rounds.unique found]
    omega

/-- The square of what is not finite is not finite either. -/
theorem mul_self_of_infinite {s : Bool} {bounded : Format.single.infinity ≤ _} :
    (.number s Format.single.infinity bounded * .number s Format.single.infinity bounded :
      Binary32) = infinite false := by
  show mul _ _ = _
  rw [mul, if_pos (.inl rfl), if_neg (by decide), bne_self_eq_false]

/-- **A square root squared is what it was taken of exactly when that is a square of
something,** each time as it is rounded. -/
theorem sqrt_mul_sqrt_iff (x : Binary32) : x.sqrt * x.sqrt = x ↔ ∃ r, r * r = x := by
  refine ⟨fun same => ⟨x.sqrt, same⟩, ?_⟩
  rintro ⟨r, rfl⟩
  cases r with
  | nan => rfl
  | number s g bounded =>
      obtain ⟨c, bounded', square⟩ :=
        mul_self_isUnsigned (x := .number s g bounded) (by decide) nofun
      rw [square]
      rcases Nat.eq_zero_or_pos c with rfl | some
      · exact (by decide +kernel : (zero false : Binary32).sqrt * (zero false).sqrt = zero false)
      · rcases Nat.lt_or_eq_of_le bounded' with finite | rfl
        · have below : g < Format.single.infinity := by
            refine lt_of_le_of_ne bounded ?_
            rintro rfl
            rw [mul_self_of_infinite, infinite, number.injEq] at square
            omega
          obtain ⟨e, has, root⟩ := exists_sqrt bounded' some finite
          refine (mul_self_eq_iff has finite).2 (Format.rounds_square_of_root (g := g) root ?_)
          exact (mul_self_eq_iff ⟨below, bounded, rfl⟩ finite).1 square
        · exact (by decide +kernel : (infinite false : Binary32).sqrt * (infinite false).sqrt =
            infinite false)

end Binary

end Retrieval
