import Mathlib.Data.List.Basic

/-!
# Searching in lists

The searches of a string library over lists of any type: the first or last element with a
property, and the first occurrence of a sublist, each as the parts before and after what was
found. `cutFirst_eq_some_iff` and `cutFirst_eq_none_iff` say what a search found, and are what
the proofs use instead of the recursion. -/

namespace LigamentApps.Text

open List Option

universe u

variable {α : Type u}

/-- The parts of a list before and after its first element with the property `p`. -/
def cutFirst (p : α → Bool) : List α → Option (List α × List α)
  | [] => none
  | x :: xs =>
    if p x then some ([], xs)
    else (cutFirst p xs).map fun r => (x :: r.1, r.2)

/-- The parts of a list before and after its last element with the property `p`. -/
def cutLast (p : α → Bool) : List α → Option (List α × List α)
  | [] => none
  | x :: xs =>
    match cutLast p xs with
    | some r => some (x :: r.1, r.2)
    | none => if p x then some ([], xs) else none

/-- The position of the first element with the property `p`. -/
def findFirst (p : α → Bool) (xs : List α) : Option ℕ :=
  (cutFirst p xs).map fun r => r.1.length

/-- The parts of a list before and after the first occurrence of `needle` in it. -/
def cutSub [DecidableEq α] (needle : List α) : List α → Option (List α × List α)
  | [] => if needle = [] then some ([], []) else none
  | x :: xs =>
    if needle.isPrefixOf (x :: xs) then some ([], (x :: xs).drop needle.length)
    else (cutSub needle xs).map fun r => (x :: r.1, r.2)

/-- The position of the first occurrence of `needle`. -/
def findSub [DecidableEq α] (needle xs : List α) : Option ℕ :=
  (cutSub needle xs).map fun r => r.1.length

/-- A list is cut at its first element with the property exactly when it is the part before,
free of the property, then an element with it, then the part after. -/
theorem cutFirst_eq_some_iff (p : α → Bool) (xs as bs : List α) : cutFirst p xs = some (as, bs) ↔
      ∃ x, p x = true ∧ xs = as ++ x :: bs ∧ ∀ a ∈ as, p a = false := by
  induction xs generalizing as with
  | nil => simp [cutFirst]
  | cons y _ ih =>
    by_cases hy : p y = true
    · simp only [cutFirst, hy, if_true, Option.some.injEq, Prod.mk.injEq]
      constructor
      · rintro ⟨rfl, rfl⟩
        exact ⟨y, hy, rfl, by simp⟩
      · rintro ⟨x, hx, heq, has⟩
        cases as with
        | nil => exact ⟨rfl, (List.cons.inj heq).2⟩
        | cons =>
          cases heq
          exact absurd (has y (by simp)) (by simp [hy])
    · rw [cutFirst, if_neg hy]
      constructor
      · intro h
        obtain ⟨r, hr, hpair⟩ := map_eq_some_iff.mp h
        obtain ⟨as', bs'⟩ := r
        cases hpair
        obtain ⟨x, hx, rfl, has⟩ := (ih as').mp hr
        refine ⟨x, hx, rfl, ?_⟩
        intro a ha
        rcases mem_cons.mp ha with rfl | ha
        · simpa using hy
        · exact has a ha
      · rintro ⟨x, hx, heq, has⟩
        cases as with
        | nil =>
          cases heq
          exact absurd hx hy
        | cons _ as =>
          simp only [cons_append, List.cons.injEq] at heq
          obtain ⟨rfl, rfl⟩ := heq
          have htail := (ih as).mpr ⟨x, hx, rfl, fun b hb => has b (mem_cons_of_mem _ hb)⟩
          simp [htail]

theorem cutFirst_eq_none_iff (p : α → Bool) (xs : List α) : cutFirst p xs = none ↔ ∀ x ∈ xs, p x = false := by
  induction xs with
  | nil => simp [cutFirst]
  | cons y _ ih =>
    by_cases hy : p y = true
    · simp [cutFirst, hy]
    · simp [cutFirst, hy, ih]

theorem cutSub_eq_some [DecidableEq α] {needle xs as bs : List α} (h : cutSub needle xs = some (as, bs)) :
    xs = as ++ (needle ++ bs) ∧ ∀ as' bs', xs = as' ++ (needle ++ bs') → as.length ≤ as'.length := by
  induction xs generalizing as with
  | nil =>
    by_cases hn : needle = []
    · simp only [cutSub, hn, if_true, Option.some.injEq, Prod.mk.injEq] at h
      obtain ⟨rfl, rfl⟩ := h
      simp [hn]
    · simp [cutSub, hn] at h
  | cons x xs ih =>
    by_cases hp : needle.isPrefixOf (x :: xs) = true
    · simp only [cutSub, hp, if_true, Option.some.injEq, Prod.mk.injEq] at h
      obtain ⟨rfl, rfl⟩ := h
      obtain ⟨rest, hrest⟩ := isPrefixOf_iff_prefix.mp hp
      refine ⟨?_, fun _ _ _ => by simp⟩
      rw [← hrest, drop_left, nil_append]
    · rw [cutSub, if_neg hp] at h
      obtain ⟨r, hr, hpair⟩ := map_eq_some_iff.mp h
      obtain ⟨as₁, bs₁⟩ := r
      cases hpair
      obtain ⟨rfl, hfirst⟩ := ih hr
      refine ⟨rfl, fun as' bs' heq => ?_⟩
      cases as' with
      | nil =>
        have hpre : needle <+: x :: (as₁ ++ (needle ++ bs₁)) := ⟨bs', by simpa using heq.symm⟩
        exact absurd ( isPrefixOf_iff_prefix.mpr hpre) hp
      | cons _ as' =>
        have hle := hfirst as' bs' (List.cons.inj heq).2
        simpa using hle

theorem cutSub_ne_none [DecidableEq α] {needle as bs : List α} : cutSub needle (as ++ (needle ++ bs)) ≠ none := by
  induction as with
  | nil =>
    cases hcat : needle ++ bs with
    | nil =>
      have hn : needle = [] := (append_eq_nil_iff.mp hcat).1
      simp [cutSub, hn]
    | cons x xs =>
      have hp : needle.isPrefixOf (x :: xs) = true := isPrefixOf_iff_prefix.mpr ⟨bs, hcat⟩
      simp [cutSub, hp]
  | cons a as ih =>
    by_cases hp : needle.isPrefixOf (a :: (as ++ (needle ++ bs))) = true
    · simp [cutSub, hp]
    · simpa [cutSub, hp] using ih

end LigamentApps.Text
