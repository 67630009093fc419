import LigamentApps.InputInjector.Injection
import LigamentApps.Text.Binary64

/-!
# The mapping of the pointer

`mapNormToRect` and `normalizeVirtualDeskAxis`: from the coordinates of the operator to a pixel of a monitor,
and from a pixel of the virtual desktop to the coordinates of the system. Coordinates that are finite are
rationals. -/

namespace LigamentApps.InputInjector

/-- A coordinate of the operator, a `double`. -/
inductive Norm
  | finite (value : ℚ)
  | infinity
  | negInfinity
  | nan

/-- The order of doubles. -/
def Norm.Le : Norm → Norm → Prop
  | .nan, _ | _, .nan => False
  | .negInfinity, _ | _, .infinity => True
  | .finite p, .finite q => p ≤ q
  | _, _ => False

/-- A `ScreenRect` with its origin. -/
structure PlacedRect extends ScreenRect where
  x : ℤ
  y : ℤ

/-- The point is a pixel of the rectangle. -/
def PlacedRect.HasPixel (r : PlacedRect) (point : ℤ × ℤ) : Prop :=
  (r.x ≤ point.1 ∧ point.1 < r.x + r.width) ∧ r.y ≤ point.2 ∧ point.2 < r.y + r.height

/-- Every pixel of the second rectangle is one of the first. -/
def PlacedRect.Contains (virt r : PlacedRect) : Prop := ∀ point, r.HasPixel point → virt.HasPixel point

/-- The part of a coordinate that is used. -/
def Norm.used : Norm → ℚ
  | .finite value => max 0 (min value 1)
  | _ => 0

/-- One coordinate of `mapNormToRect`. -/
def mapNorm (norm : Norm) (origin size : ℤ) : ℤ :=
  max origin (min (roundAway (origin + norm.used * (size - 1))) (origin + size - 1))

def mapNormToRect (normX normY : Norm) (r : PlacedRect) : ℤ × ℤ :=
  (mapNorm normX r.x r.width, mapNorm normY r.y r.height)

def normalizeVirtualDeskAxis (pos virtMin virtSize : ℤ) : ℤ :=
  if virtSize ≤ 1 then 0 else max 0 (min (((pos - virtMin) * 65535).tdiv (virtSize - 1)) 65535)

/-- What `moveMouse` gives the system for a pixel of the virtual desktop. -/
def normalized (virt : PlacedRect) (point : ℤ × ℤ) : ℤ × ℤ :=
  (normalizeVirtualDeskAxis point.1 virt.x virt.width, normalizeVirtualDeskAxis point.2 virt.y virt.height)

/-- One coordinate is mapped from edge to edge, in order but for infinity. -/
structure AxisMapped (map : Norm → ℤ) (origin size : ℤ) : Prop where
  first : map (.finite 0) = origin
  last : map (.finite 1) = origin + size - 1
  mono : ∀ a b, a.Le b → b ≠ .infinity → map a ≤ map b

variable {origin size : ℤ}

theorem mapNorm_mapped (hsize : 0 < size) : AxisMapped (mapNorm · origin size) origin size := by
  have hwidth : (0 : ℚ) ≤ size - 1 := by
    have hone : (1 : ℚ) ≤ size := by exact_mod_cast hsize
    linarith
  refine ⟨?_, ?_, fun a b hle hb => ?_⟩
  · have hround : roundAway (origin + (Norm.finite 0).used * (size - 1)) = origin := by
      norm_num [Norm.used, roundAway_intCast]
    simp only [mapNorm, hround]
    omega
  · have hround : roundAway (origin + (Norm.finite 1).used * (size - 1)) = origin + size - 1 := by
      rw [show (origin + (Norm.finite 1).used * (size - 1) : ℚ) = (origin + size - 1 : ℤ) by
        norm_num [Norm.used, add_sub_assoc], roundAway_intCast]
    simp only [mapNorm, hround]
    omega
  · have hused : a.used ≤ b.used := by
      cases b with
      | infinity => contradiction
      | nan => cases a <;> cases hle
      | negInfinity =>
        cases a with
        | negInfinity => exact le_rfl
        | _ => cases hle
      | finite q =>
        cases a with
        | finite p => exact max_le_max_left 0 (min_le_min_right 1 hle)
        | _ => exact le_max_left 0 _
    have hround : roundAway (origin + a.used * (size - 1)) ≤ roundAway (origin + b.used * (size - 1)) :=
      roundAway_mono (by linarith [mul_le_mul_of_nonneg_right hused hwidth])
    exact max_le_max_left _ (min_le_min_right _ hround)

theorem mapNormToRect_hasPixel {r : PlacedRect} (hw : 0 < r.width) (hh : 0 < r.height) (normX normY : Norm) :
    r.HasPixel (mapNormToRect normX normY r) := by
  unfold PlacedRect.HasPixel mapNormToRect mapNorm
  omega

theorem normalize_mono (virtMin virtSize : ℤ) {p q : ℤ} (h : p ≤ q) :
    normalizeVirtualDeskAxis p virtMin virtSize ≤ normalizeVirtualDeskAxis q virtMin virtSize := by
  unfold normalizeVirtualDeskAxis
  split
  · exact le_rfl
  · have hdiv := Int.tdiv_le_tdiv (c := virtSize - 1) (by omega)
      (show (p - virtMin) * 65535 ≤ (q - virtMin) * 65535 by omega)
    omega

theorem normalize_range (pos virtMin virtSize : ℤ) : 0 ≤ normalizeVirtualDeskAxis pos virtMin virtSize ∧
    normalizeVirtualDeskAxis pos virtMin virtSize ≤ 65535 := by
  unfold normalizeVirtualDeskAxis
  omega

/-- A pixel is found again: no two of at most 65536 have the same quotient. -/
theorem normalize_lt {p q virtMin virtSize : ℤ} (hsize : virtSize ≤ 65536) (hp : virtMin ≤ p) (hlt : p < q)
    (hq : q < virtMin + virtSize) :
    normalizeVirtualDeskAxis p virtMin virtSize < normalizeVirtualDeskAxis q virtMin virtSize := by
  unfold normalizeVirtualDeskAxis
  rw [if_neg (by omega), if_neg (by omega), Int.tdiv_eq_ediv_of_nonneg (by omega),
    Int.tdiv_eq_ediv_of_nonneg (by omega)]
  have hlow : 0 ≤ (p - virtMin) * 65535 / (virtSize - 1) := Int.ediv_nonneg (by omega) (by omega)
  have hhigh : (q - virtMin) * 65535 / (virtSize - 1) ≤ 65535 := by
    calc (q - virtMin) * 65535 / (virtSize - 1) ≤ 65535 * (virtSize - 1) / (virtSize - 1) :=
          Int.ediv_le_ediv (by omega) (by omega)
      _ = 65535 := Int.mul_ediv_cancel _ (by omega)
  have hstep : (p - virtMin) * 65535 / (virtSize - 1) + 1 ≤ (q - virtMin) * 65535 / (virtSize - 1) := by
    calc (p - virtMin) * 65535 / (virtSize - 1) + 1
        = ((p - virtMin) * 65535 + 1 * (virtSize - 1)) / (virtSize - 1) :=
          (Int.add_mul_ediv_right _ _ (by omega)).symm
      _ ≤ (q - virtMin) * 65535 / (virtSize - 1) := Int.ediv_le_ediv (by omega) (by omega)
  omega

theorem normalized_injective {virt : PlacedRect} (hw : virt.width ≤ 65536) (hh : virt.height ≤ 65536) {p q : ℤ × ℤ}
    (hp : virt.HasPixel p) (hq : virt.HasPixel q) (h : normalized virt p = normalized virt q) : p = q := by
  have haxis : ∀ {a b virtMin virtSize : ℤ}, virtSize ≤ 65536 → virtMin ≤ a ∧ a < virtMin + virtSize →
      virtMin ≤ b ∧ b < virtMin + virtSize →
      normalizeVirtualDeskAxis a virtMin virtSize = normalizeVirtualDeskAxis b virtMin virtSize → a = b := by
    intro a b virtMin virtSize hsize ha hb hsame
    rcases lt_trichotomy a b with hlt | heq | hgt
    · exact absurd hsame (normalize_lt hsize ha.1 hlt hb.2).ne
    · exact heq
    · exact absurd hsame (normalize_lt hsize hb.1 hgt ha.2).ne'
  exact Prod.ext (haxis hw hp.1 hq.1 (congrArg Prod.fst h)) (haxis hh hp.2 hq.2 (congrArg Prod.snd h))

/-- The pointer is mapped to a pixel of the monitor, from edge to edge and in order but for infinity, and the
system is given coordinates in its range, in the order of the pixels, no two pixels the same. -/
theorem pointer_mapping {r virt : PlacedRect} (hw : 0 < r.width) (hh : 0 < r.height) (hin : virt.Contains r)
    (hvw : virt.width ≤ 65536) (hvh : virt.height ≤ 65536) :
    (∀ x y, r.HasPixel (mapNormToRect x y r)) ∧
    (∀ y, AxisMapped (fun x => (mapNormToRect x y r).1) r.x r.width) ∧
    (∀ x, AxisMapped (fun y => (mapNormToRect x y r).2) r.y r.height) ∧
    (∀ virtMin virtSize p q, p ≤ q →
      normalizeVirtualDeskAxis p virtMin virtSize ≤ normalizeVirtualDeskAxis q virtMin virtSize) ∧
    (∀ virtMin virtSize p, 0 ≤ normalizeVirtualDeskAxis p virtMin virtSize ∧
      normalizeVirtualDeskAxis p virtMin virtSize ≤ 65535) ∧
    (∀ p q, virt.HasPixel p → virt.HasPixel q → normalized virt p = normalized virt q → p = q) ∧
    ∀ p q, r.HasPixel p → r.HasPixel q → normalized virt p = normalized virt q → p = q :=
  ⟨mapNormToRect_hasPixel hw hh, fun _ => mapNorm_mapped hw, fun _ => mapNorm_mapped hh,
    fun _ _ _ _ => normalize_mono _ _, fun _ _ _ => normalize_range _ _ _,
    fun _ _ => normalized_injective hvw hvh,
    fun p q hp hq => normalized_injective hvw hvh (hin p hp) (hin q hq)⟩

/-- A monitor to the left of the first one of a desktop. -/
def leftMonitor : PlacedRect := { width := 1920, height := 1080, x := -1920, y := 0 }

theorem pointer_mapping_sample : leftMonitor.HasPixel (mapNormToRect .nan (.finite (7 / 3)) leftMonitor) ∧
    (mapNormToRect (.finite 1) .infinity leftMonitor).1 = -1 := by
  have hin : PlacedRect.Contains { width := 3840, height := 1080, x := -1920, y := 0 } leftMonitor := by
    intro point
    simp only [PlacedRect.HasPixel, leftMonitor]
    omega
  obtain ⟨hpixel, hmapped, -⟩ := pointer_mapping (by decide) (by decide) hin (by decide) (by decide)
  exact ⟨hpixel _ _, (hmapped _).last⟩

/-- Infinity is mapped to the first pixel, and one to the last. -/
theorem infinity_first : ¬∀ (r : PlacedRect) a b y, 0 < r.width → 0 < r.height → a.Le b →
    (mapNormToRect a y r).1 ≤ (mapNormToRect b y r).1 := by
  intro h
  have hle := h leftMonitor (.finite 1) .infinity (.finite 0) (by decide) (by decide) trivial
  revert hle
  decide +kernel

end LigamentApps.InputInjector
