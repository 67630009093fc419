import LigamentApps.Text.Binary64
import LigamentApps.WebSocketService.Connection

/-!
# The delays of the reconnects

`nextDelay` of `ReconnectBackoff`, in the wrapping integers and the doubles of its source: which attempts get
a delay between four fifths of the documented one and the limit. -/

namespace LigamentApps.WebSocketService

/-- An integer in the 64 bits of a Dart `int`. -/
def wrap (n : ℤ) : ℤ := n.bmod (2 ^ 64)

/-- The delay of an attempt in milliseconds, before its jitter. -/
def ReconnectBackoff.delayMs (b : ReconnectBackoff) : ℤ :=
  let delayMs := wrap (b.baseMs * wrap (2 ^ b.attempt))
  if delayMs > b.maxMs then b.maxMs else delayMs

/-- The jitter of a random number in `[0, 1)`. -/
def jitter (nextDouble : ℚ) : ℚ := double (double (double (nextDouble * 2) - 1) * double (1 / 5))

/-- The delay that `nextDelay` gives, in milliseconds. -/
def ReconnectBackoff.nextDelay (b : ReconnectBackoff) (nextDouble : ℚ) : ℤ :=
  max 0 (min (roundAway (double (double b.delayMs * double (1 + jitter nextDouble)))) b.maxMs)

/-- The attempt with the limits of the service. -/
def backoffAt (n : ℕ) : ReconnectBackoff := { attempt := n }

/-- A delay is no less than four fifths of `base * 2^n` under the limit, and no more than the limit. -/
def InBounds (n : ℕ) (delay : ℤ) : Prop := 4 * min (1000 * 2 ^ n) 30000 ≤ 5 * delay ∧ delay ≤ 30000

theorem jitter_factor {r : ℚ} (h0 : 0 ≤ r) (h1 : r < 1) :
    4 / 5 - 1 / 2 ^ 33 ≤ double (1 + jitter r) ∧ double (1 + jitter r) ≤ 2 := by
  unfold jitter
  have htwice := abs_le.mp (double_near (q := r * 2) (abs_lt.mpr ⟨by linarith, by linarith⟩))
  have hunit := abs_le.mp (double_near (q := double (r * 2) - 1) (abs_lt.mpr ⟨by linarith, by linarith⟩))
  have hfifth := abs_le.mp (double_near (q := 1 / 5) (by norm_num [abs_of_pos]))
  generalize double (double (r * 2) - 1) = u at *
  generalize double (1 / 5) = c at *
  have hlo : -(1 / 5 + 1 / 2 ^ 35) ≤ u * c := by nlinarith
  have hhi : u * c ≤ 1 / 5 + 1 / 2 ^ 35 := by nlinarith
  have hproduct := abs_le.mp (double_near (q := u * c) (abs_lt.mpr ⟨by linarith, by linarith⟩))
  generalize double (u * c) = j at *
  have hsum := abs_le.mp (double_near (q := 1 + j) (abs_lt.mpr ⟨by linarith, by linarith⟩))
  exact ⟨by linarith, by linarith⟩

/-- A delay under the limit is kept up to its fifth. -/
theorem nextDelay_kept {n : ℕ} {e : ℤ} {r : ℚ} (h0 : 0 ≤ r) (h1 : r < 1) (hdelay : (backoffAt n).delayMs = 5 * e)
    (he : 0 < e) (hmax : 5 * e ≤ 30000) : 4 * e ≤ (backoffAt n).nextDelay r := by
  have hexact : double ((backoffAt n).delayMs : ℚ) = 5 * e := by
    unfold double
    rw [hdelay, binary64_intCast (abs_lt.mpr ⟨by omega, by omega⟩)]
    push_cast
    rfl
  obtain ⟨hlo, hhi⟩ := jitter_factor h0 h1
  have hpos : (0 : ℚ) < e := by exact_mod_cast he
  have hlimit : (5 : ℚ) * e ≤ 30000 := by exact_mod_cast hmax
  unfold ReconnectBackoff.nextDelay
  rw [hexact]
  generalize double (1 + jitter r) = f at *
  have hmore := mul_le_mul_of_nonneg_left hlo (show (0 : ℚ) ≤ 5 * e by linarith)
  have hless := mul_le_mul_of_nonneg_left hhi (show (0 : ℚ) ≤ 5 * e by linarith)
  have hproduct := abs_le.mp (double_near (q := 5 * e * f) (abs_lt.mpr ⟨by linarith, by linarith⟩))
  have hone : (1 : ℚ) ≤ e := by exact_mod_cast he
  have hround : 4 * e ≤ roundAway (double (5 * e * f)) := le_roundAway (by linarith) (by push_cast; linarith)
  exact le_max_of_le_right (le_min hround (show 4 * e ≤ 30000 by omega))

/-- Where the product has wrapped to nothing or below, there is no delay. -/
theorem nextDelay_zero {n : ℕ} {r : ℚ} (h0 : 0 ≤ r) (h1 : r < 1) (hdelay : (backoffAt n).delayMs ≤ 0) :
    (backoffAt n).nextDelay r = 0 := by
  have hfactor : 0 ≤ double (1 + jitter r) := le_trans (by norm_num) (jitter_factor h0 h1).1
  have hsmall : double (double (backoffAt n).delayMs * double (1 + jitter r)) ≤ 0 :=
    double_nonpos (mul_nonpos_of_nonpos_of_nonneg (double_nonpos (by exact_mod_cast hdelay)) hfactor)
  have hround := roundAway_mono hsmall
  rw [← Int.cast_zero, roundAway_intCast] at hround
  exact max_eq_left (min_le_of_left_le hround)

theorem delayMs_wrapped {n : ℕ} (hn : 61 ≤ n) : (backoffAt n).delayMs = 0 := by
  have hdvd : ((2 ^ 64 : ℕ) : ℤ) ∣ 1000 * 2 ^ n := by
    obtain ⟨k, rfl⟩ := Nat.exists_eq_add_of_le hn
    exact ⟨125 * 2 ^ k, by push_cast; ring⟩
  have hwrap : wrap (1000 * wrap (2 ^ n)) = 0 := by
    unfold wrap
    rw [Int.mul_bmod_bmod]
    exact Int.dvd_iff_bmod_eq_zero.mp hdvd
  show (if wrap (1000 * wrap (2 ^ n)) > 30000 then (30000 : ℤ) else wrap (1000 * wrap (2 ^ n))) = 0
  rw [hwrap]
  rfl

/-- Every attempt up to the 60th is right or gets no delay. -/
theorem delayMs_below : ∀ n < 61, if n ≤ 53 ∨ n = 59 then (backoffAt n).delayMs = min (1000 * 2 ^ n) 30000
    else (backoffAt n).delayMs ≤ 0 := by
  decide +kernel

/-- The delay of an attempt is in its bounds, whatever the random number, exactly where the product does not
wrap, and by chance at one attempt where it does. -/
theorem nextDelay_inBounds_iff (n : ℕ) :
    (∀ r : ℚ, 0 ≤ r → r < 1 → InBounds n ((backoffAt n).nextDelay r)) ↔ n ≤ 53 ∨ n = 59 := by
  have hpow : (1 : ℤ) ≤ 2 ^ n := one_le_pow₀ (by norm_num)
  constructor
  · intro h
    by_contra hnot
    have hdelay : (backoffAt n).delayMs ≤ 0 := by
      rcases Nat.lt_or_ge n 61 with hlt | hge
      · have hbelow := delayMs_below n hlt
        rwa [if_neg hnot] at hbelow
      · exact (delayMs_wrapped hge).le
    obtain ⟨hle, -⟩ := h 0 le_rfl one_pos
    rw [nextDelay_zero le_rfl one_pos hdelay] at hle
    omega
  · intro hn r h0 h1
    have hdelay := delayMs_below n (by omega)
    rw [if_pos hn] at hdelay
    obtain ⟨e, he⟩ : ∃ e : ℤ, min (1000 * 2 ^ n) 30000 = 5 * e := ⟨min (200 * 2 ^ n) 6000, by omega⟩
    have hkept := nextDelay_kept h0 h1 (hdelay.trans he) (by omega) (by omega)
    refine ⟨by rw [he]; omega, max_le (by norm_num) (min_le_right _ _)⟩

/-- After 61 attempts in a row a reconnect follows at once. -/
theorem offline_reconnects_at_once : ¬∀ (n : ℕ) (r : ℚ), 0 ≤ r → r < 1 →
    InBounds n ((backoffAt n).nextDelay r) := by
  intro h
  obtain ⟨hle, -⟩ := h 61 0 le_rfl one_pos
  rw [nextDelay_zero le_rfl one_pos (delayMs_wrapped le_rfl).le] at hle
  exact absurd hle (by norm_num)

end LigamentApps.WebSocketService
