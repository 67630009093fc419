import Mathlib.Algebra.BigOperators.Group.List.Basic
import Mathlib.Algebra.Order.BigOperators.Group.List
import Mathlib.Algebra.Order.Ring.Int

/-!
# Pruning down to a limit

A list whose elements have weights is walked from its head, and the elements of one kind are dropped for as
long as the total is above a limit. The dropped elements are the first of their kind, no more of them than
needed, and either the rest fits or none of the kind is left. -/

namespace LigamentApps

open List

universe u

variable {α : Type u}

/-- The elements that stay and those that are dropped; `total` is the weight before the first of them. -/
def prune (p : α → Bool) (weight : α → ℤ) (limit : ℤ) : ℤ → List α → List α × List α
  | _, [] => ([], [])
  | total, x :: xs =>
    if total ≤ limit then (x :: xs, [])
    else if p x then
      let r := prune p weight limit (total - weight x) xs
      (r.1, x :: r.2)
    else
      let r := prune p weight limit total xs
      (x :: r.1, r.2)

section Prune

variable (p : α → Bool) (weight : α → ℤ) (limit total : ℤ) {xs : List α}

theorem prune_of_le (h : total ≤ limit) : prune p weight limit total xs = (xs, []) := by
  cases xs with
  | nil => rfl
  | cons => rw [prune, if_pos h]

theorem prune_cons_drop {x : α} (h : limit < total) (hx : p x = true) : prune p weight limit total (x :: xs) =
      ((prune p weight limit (total - weight x) xs).1, x :: (prune p weight limit (total - weight x) xs).2) := by
  rw [prune, if_neg (not_le.mpr h), if_pos hx]

theorem prune_cons_keep {x : α} (h : limit < total) (hx : p x = false) : prune p weight limit total (x :: xs) =
      (x :: (prune p weight limit total xs).1, (prune p weight limit total xs).2) := by
  rw [prune, if_neg (not_le.mpr h), if_neg (by simp [hx])]

theorem prune_induction {P : ℤ → List α → Prop} (hnil : ∀ total, P total [])
    (hmet : ∀ total x xs, total ≤ limit → P total (x :: xs))
    (hdrop : ∀ total x xs, limit < total → p x = true → P (total - weight x) xs → P total (x :: xs))
    (hkeep : ∀ total x xs, limit < total → p x = false → P total xs → P total (x :: xs)) :
    ∀ (total : ℤ) (xs : List α), P total xs
  | total, [] => hnil total
  | total, x :: xs => by
    rcases le_or_gt total limit with h | h
    · exact hmet total x xs h
    · cases hx : p x with
      | true => exact hdrop total x xs h hx (prune_induction hnil hmet hdrop hkeep _ xs)
      | false => exact hkeep total x xs h hx (prune_induction hnil hmet hdrop hkeep _ xs)

theorem prune_dropped_prefix (xs : List α) : (prune p weight limit total xs).2 <+: xs.filter p := by
  induction total, xs using prune_induction p weight limit with
  | hnil => exact nil_prefix
  | hmet total _ _ h =>
    rw [prune_of_le p weight limit total h]
    exact nil_prefix
  | hdrop total _ _ h hx ih =>
    rw [prune_cons_drop p weight limit total h hx, filter_cons_of_pos hx]
    exact cons_prefix_cons.mpr ⟨rfl, ih⟩
  | hkeep total _ _ h hx ih =>
    rw [prune_cons_keep p weight limit total h hx, filter_cons_of_neg (by simp [hx])]
    exact ih

theorem prune_kept_sublist (xs : List α) : (prune p weight limit total xs).1.Sublist xs := by
  induction total, xs using prune_induction p weight limit with
  | hnil => exact List.Sublist.refl _
  | hmet total _ _ h => rw [prune_of_le p weight limit total h]
  | hdrop total x _ h hx ih =>
    rw [prune_cons_drop p weight limit total h hx]
    exact ih.cons x
  | hkeep total x _ h hx ih =>
    rw [prune_cons_keep p weight limit total h hx]
    exact ih.cons_cons x

/-- What is not of the kind stays. -/
theorem prune_kept_filter_not (xs : List α) :
    (prune p weight limit total xs).1.filter (fun x => !p x) = xs.filter fun x => !p x := by
  induction total, xs using prune_induction p weight limit with
  | hnil => rfl
  | hmet total _ _ h => rw [prune_of_le p weight limit total h]
  | hdrop total _ _ h hx ih =>
    rw [prune_cons_drop p weight limit total h hx, filter_cons_of_neg (by simp [hx])]
    exact ih
  | hkeep total _ _ h hx ih =>
    rw [prune_cons_keep p weight limit total h hx, filter_cons_of_pos (by simp [hx]),
      filter_cons_of_pos (by simp [hx]), ih]

theorem prune_length (xs : List α) :
    (prune p weight limit total xs).1.length + (prune p weight limit total xs).2.length = xs.length := by
  induction total, xs using prune_induction p weight limit with
  | hnil => rfl
  | hmet total _ _ h => rw [prune_of_le p weight limit total h, length_nil, Nat.add_zero]
  | hdrop total _ _ h hx ih =>
    rw [prune_cons_drop p weight limit total h hx]
    simp only [length_cons]
    omega
  | hkeep total _ _ h hx ih =>
    rw [prune_cons_keep p weight limit total h hx]
    simp only [length_cons]
    omega

theorem prune_fits (xs : List α) : total - ((prune p weight limit total xs).2.map weight).sum ≤ limit ∨
      (prune p weight limit total xs).2 = xs.filter p ∧
        (prune p weight limit total xs).1 = xs.filter fun x => !p x := by
  induction total, xs using prune_induction p weight limit with
  | hnil => exact .inr ⟨rfl, rfl⟩
  | hmet total _ _ h =>
    rw [prune_of_le p weight limit total h]
    exact .inl (by simpa using h)
  | hdrop total x _ h hx ih =>
    rw [prune_cons_drop p weight limit total h hx, filter_cons_of_pos hx,
      filter_cons_of_neg (by simp [hx]), map_cons, sum_cons]
    refine ih.imp (fun hfits => ?_) fun hall => ⟨congrArg (x :: ·) hall.1, hall.2⟩
    omega
  | hkeep total x _ h hx ih =>
    rw [prune_cons_keep p weight limit total h hx, filter_cons_of_neg (by simp [hx]),
      filter_cons_of_pos (by simp [hx])]
    exact ih.imp_right fun hall => ⟨hall.1, congrArg (x :: ·) hall.2⟩

theorem prune_needed (xs : List α) {before after : List α} {x : α}
    (hsplit : (prune p weight limit total xs).2 = before ++ x :: after) :
    limit < total - (before.map weight).sum := by
  induction total, xs using prune_induction p weight limit generalizing before with
  | hnil => simp [prune] at hsplit
  | hmet total _ _ h =>
    rw [prune_of_le p weight limit total h] at hsplit
    simp at hsplit
  | hdrop total _ _ h hy ih =>
    rw [prune_cons_drop p weight limit total h hy] at hsplit
    cases before with
    | nil => simpa using h
    | cons =>
      obtain ⟨rfl, hrest⟩ := cons_eq_cons.mp hsplit
      have hlater := ih hrest
      rw [map_cons, sum_cons]
      omega
  | hkeep total _ _ h hy ih =>
    rw [prune_cons_keep p weight limit total h hy] at hsplit
    exact ih hsplit

/-- Where all are of the kind, those dropped have none with a property exactly if what comes before the first
with the property is enough. -/
theorem prune_spares_iff (q : α → Bool) (xs : List α) (hkind : ∀ x ∈ xs, p x = true)
    (hweight : ∀ x ∈ xs, 0 ≤ weight x) (hq : ∃ x ∈ xs, q x = true) :
    (∀ x ∈ (prune p weight limit total xs).2, q x = false) ↔
      total - ((xs.takeWhile fun x => !q x).map weight).sum ≤ limit := by
  induction total, xs using prune_induction p weight limit with
  | hnil => exact absurd hq (by simp)
  | hmet total x xs h =>
    have hsum : 0 ≤ (((x :: xs).takeWhile fun x => !q x).map weight).sum := by
      refine sum_nonneg fun w hw => ?_
      obtain ⟨y, hy, rfl⟩ := mem_map.mp hw
      exact hweight y (( takeWhile_prefix _).subset hy)
    rw [prune_of_le p weight limit total h]
    exact ⟨fun _ => by omega, fun _ y hy => absurd hy not_mem_nil⟩
  | hdrop total x xs h hx ih =>
    rw [prune_cons_drop p weight limit total h hx, forall_mem_cons]
    cases hqx : q x with
    | true =>
      have hnone : ((x :: xs).takeWhile fun x => !q x) = [] := by rw [takeWhile_cons, hqx]; rfl
      rw [hnone]
      exact ⟨fun hno => absurd hno.1 (by simp), fun hle => absurd hle (by simpa using h)⟩
    | false =>
      have hfirst : ((x :: xs).takeWhile fun x => !q x) = x :: xs.takeWhile fun x => !q x := by
        rw [takeWhile_cons, hqx]
        rfl
      have hlater : ∃ y ∈ xs, q y = true := by simpa [hqx] using hq
      have hrest := ih (fun y hy => hkind y (mem_cons_of_mem x hy))
        (fun y hy => hweight y (mem_cons_of_mem x hy)) hlater
      rw [hfirst, map_cons, sum_cons, show total - (weight x + ((xs.takeWhile fun x => !q x).map weight).sum) =
        total - weight x - ((xs.takeWhile fun x => !q x).map weight).sum by omega]
      exact (and_iff_right rfl).trans hrest
  | hkeep total x xs h hx ih =>
    have hall := hkind x (mem_cons_self ..)
    rw [hx] at hall
    cases hall

end Prune

end LigamentApps
