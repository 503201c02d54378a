/-
  SheetFormula.Proofs.Library.Extremes

  The least and the greatest of a list.  Both keep the better of two numbers
  while they go through the list, and differ in what is better.  What is kept in
  the end is one of the numbers and at least as good as all of them (`IsBest`),
  so neither the order of the list nor taking it in parts matters, but for the
  sign of a zero (`Picks`).  "Not a number" is looked for before any comparison.
-/
import SheetFormula.Proofs.Functions.Shipped
import SheetFormula.Proofs.Numbers.Ranks

namespace SheetFormula

namespace Library

open Binary64

/-! ## Keeping the better one -/

/-- Of numbers the one with the smaller key is better, and the neutral one has the greatest key of
    all. -/
structure Prefers (better : Float → Float → Bool) (neutral : Float) (key : Float → ℤ) : Prop where
  better_iff : ∀ x y, x.isNaN = false → y.isNaN = false → (better x y = true ↔ key x < key y)
  le_neutral : ∀ x, x.isNaN = false → key x ≤ key neutral
  isNaN_neutral : neutral.isNaN = false
  neutral_ne_zero : magnitudeWord neutral ≠ 0
  rank_eq : ∀ x y, key x = key y → rank x = rank y

/-- The number is in the list, and its key is the smallest there. -/
def IsBest (key : Float → ℤ) (xs : List Float) (best : Float) : Prop :=
  best ∈ xs ∧ ∀ x ∈ xs, key best ≤ key x

variable {better : Float → Float → Bool} {neutral : Float} {key : Float → ℤ}

section Keeping

variable (h : Prefers better neutral key)

include h

theorem isBest_foldl {first : Float} (hfirst : first.isNaN = false) {xs : List Float}
    (hxs : ∀ x ∈ xs, x.isNaN = false) :
    IsBest key (first :: xs) (xs.foldl (fun best x => if better x best then x else best) first) := by
  induction xs generalizing first with
  | nil => exact ⟨List.mem_singleton_self _, fun x hx => by rw [List.mem_singleton.mp hx]; rfl⟩
  | cons x xs ih =>
      obtain ⟨hx, hxs⟩ := List.forall_mem_cons.mp hxs
      have hbetter := h.better_iff x first hx hfirst
      rw [List.foldl_cons]
      by_cases hlt : better x first = true
      · obtain ⟨hmem, hle⟩ := ih hx hxs
        rw [if_pos hlt]
        refine ⟨List.mem_cons_of_mem _ hmem, List.forall_mem_cons.mpr ⟨?_, hle⟩⟩
        exact le_trans (hle x List.mem_cons_self) (le_of_lt (hbetter.mp hlt))
      · obtain ⟨hmem, hle⟩ := ih hfirst hxs
        obtain ⟨hlefirst, hlexs⟩ := List.forall_mem_cons.mp hle
        rw [if_neg hlt]
        refine ⟨?_, List.forall_mem_cons.mpr ⟨hlefirst, List.forall_mem_cons.mpr ⟨?_, hlexs⟩⟩⟩
        · rcases List.mem_cons.mp hmem with heq | hin
          · rw [heq]
            exact List.mem_cons_self
          · exact List.mem_cons_of_mem _ (List.mem_cons_of_mem _ hin)
        · exact le_trans hlefirst (not_lt.mp (mt hbetter.mpr hlt))

/-- Numbers have a best one, or there are none and the neutral one stands in. -/
theorem isBest_extreme {xs : List Float} (hxs : ∀ x ∈ xs, x.isNaN = false) :
    IsBest key (neutral :: xs) (extreme better neutral xs) := by
  have hnone : ¬ xs.any Float.isNaN = true := by
    rw [List.any_eq_true]
    rintro ⟨x, hx, hnan⟩
    rw [hxs x hx] at hnan
    cases hnan
  rw [extreme, if_neg hnone]
  exact isBest_foldl h h.isNaN_neutral hxs

/-- The neutral one is the best of numbers only if it is one of them. -/
theorem IsBest.of_ne_nil {xs : List Float} {best : Float} (hbest : IsBest key (neutral :: xs) best)
    (hne : xs ≠ []) (hxs : ∀ x ∈ xs, x.isNaN = false) : IsBest key xs best := by
  obtain ⟨hmem, hle⟩ := hbest
  refine ⟨?_, fun x hx => hle x (List.mem_cons_of_mem _ hx)⟩
  rcases List.mem_cons.mp hmem with rfl | hin
  · obtain ⟨x, hx⟩ := List.exists_mem_of_ne_nil xs hne
    have hkey := le_antisymm (hle x (List.mem_cons_of_mem _ hx)) (h.le_neutral x (hxs x hx))
    rcases eq_or_zeros_of_rank (h.rank_eq _ _ hkey) with rfl | ⟨hzero, -⟩
    · exact hx
    · exact absurd hzero h.neutral_ne_zero
  · exact hin

end Keeping

theorem extreme_of_isNaN {xs : List Float} (h : ∃ x ∈ xs, x.isNaN = true) :
    extreme better neutral xs = nan := by
  rw [extreme, if_pos (List.any_eq_true.mpr h)]

theorem isNaN_or_numbers (xs : List Float) :
    (∃ x ∈ xs, x.isNaN = true) ∨ ∀ x ∈ xs, x.isNaN = false := by
  by_cases h : ∃ x ∈ xs, x.isNaN = true
  · exact .inl h
  · exact .inr fun x hx => Bool.eq_false_iff.mpr fun hnan => h ⟨x, hx, hnan⟩

/-! ## Lists taken in another way -/

/-- The doubles are the same, or both are zeros. -/
def SameButForZeros (x y : Float) : Prop := x = y ∨ magnitudeWord x = 0 ∧ magnitudeWord y = 0

section Same

variable (h : Prefers better neutral key) {xs ys : List Float}

include h

/-- Lists whose numbers are no better than some of the other list have the same best number. -/
theorem IsBest.same {x y : Float} (hx : IsBest key xs x) (hy : IsBest key ys y)
    (hle : ∀ a ∈ xs, ∃ b ∈ ys, key b ≤ key a) (hge : ∀ b ∈ ys, ∃ a ∈ xs, key a ≤ key b) :
    SameButForZeros x y := by
  obtain ⟨b, hb, hbx⟩ := hle x hx.1
  obtain ⟨a, ha, hay⟩ := hge y hy.1
  have hkey := le_antisymm (le_trans (hx.2 a ha) hay) (le_trans (hy.2 b hb) hbx)
  exact eq_or_zeros_of_rank (h.rank_eq _ _ hkey)

theorem IsBest.isNaN_eq_false {best : Float} (hbest : IsBest key (neutral :: xs) best)
    (hxs : ∀ x ∈ xs, x.isNaN = false) : best.isNaN = false := by
  rcases List.mem_cons.mp hbest.1 with rfl | hin
  · exact h.isNaN_neutral
  · exact hxs best hin

theorem extreme_perm (hperm : xs.Perm ys) :
    SameButForZeros (extreme better neutral xs) (extreme better neutral ys) := by
  rcases isNaN_or_numbers xs with ⟨x, hx, hnan⟩ | hxs
  · rw [extreme_of_isNaN ⟨x, hx, hnan⟩, extreme_of_isNaN ⟨x, hperm.mem_iff.mp hx, hnan⟩]
    exact .inl rfl
  · have hys : ∀ y ∈ ys, y.isNaN = false := fun y hy => hxs y (hperm.mem_iff.mpr hy)
    refine (isBest_extreme h hxs).same h (isBest_extreme h hys) ?_ ?_
    · exact fun a ha => ⟨a, (hperm.cons neutral).mem_iff.mp ha, le_rfl⟩
    · exact fun b hb => ⟨b, (hperm.cons neutral).mem_iff.mpr hb, le_rfl⟩

/-- The extreme of a list is that of the extremes of its parts. -/
theorem extreme_append (xs ys : List Float) :
    SameButForZeros (extreme better neutral (xs ++ ys))
      (extreme better neutral [extreme better neutral xs, extreme better neutral ys]) := by
  have hnan : nan.isNaN = true := by decide +kernel
  rcases isNaN_or_numbers xs with ⟨x, hx, hxnan⟩ | hxs
  · rw [extreme_of_isNaN ⟨x, List.mem_append_left _ hx, hxnan⟩,
      extreme_of_isNaN ⟨x, hx, hxnan⟩, extreme_of_isNaN ⟨nan, List.mem_cons_self, hnan⟩]
    exact .inl rfl
  rcases isNaN_or_numbers ys with ⟨y, hy, hynan⟩ | hys
  · rw [extreme_of_isNaN ⟨y, List.mem_append_right _ hy, hynan⟩,
      extreme_of_isNaN ⟨y, hy, hynan⟩, extreme_of_isNaN ⟨nan, by simp, hnan⟩]
    exact .inl rfl
  have hx := isBest_extreme h hxs
  have hy := isBest_extreme h hys
  have hparts : ∀ e ∈ [extreme better neutral xs, extreme better neutral ys], e.isNaN = false := by
    simp only [List.forall_mem_cons]
    exact ⟨hx.isNaN_eq_false h hxs, hy.isNaN_eq_false h hys, fun _ hmem => absurd hmem List.not_mem_nil⟩
  have hwhole : ∀ e ∈ xs ++ ys, e.isNaN = false := List.forall_mem_append.mpr ⟨hxs, hys⟩
  refine (isBest_extreme h hwhole).same h (isBest_extreme h hparts) ?_ ?_
  · intro a ha
    rw [List.mem_cons, List.mem_append] at ha
    rcases ha with rfl | ha | ha
    · exact ⟨a, List.mem_cons_self, le_rfl⟩
    · exact ⟨_, by simp, hx.2 a (List.mem_cons_of_mem _ ha)⟩
    · exact ⟨_, by simp, hy.2 a (List.mem_cons_of_mem _ ha)⟩
  · intro b hb
    simp only [List.mem_cons, List.not_mem_nil, or_false] at hb
    rcases hb with rfl | rfl | rfl
    · exact ⟨b, List.mem_cons_self, le_rfl⟩
    · exact ⟨_, List.cons_subset_cons _ (List.subset_append_left xs ys) hx.1, le_rfl⟩
    · exact ⟨_, List.cons_subset_cons _ (List.subset_append_right xs ys) hy.1, le_rfl⟩

end Same

/-! ## The least and the greatest -/

theorem rank_infinity : rank (infinity false) = infinityWord ∧ rank (infinity true) = -infinityWord := by
  decide +kernel

/-- Every number ranks between the infinities. -/
theorem rank_bounds {x : Float} (h : x.isNaN = false) :
    -(infinityWord : ℤ) ≤ rank x ∧ rank x ≤ infinityWord := by
  have hle := isNaN_eq_false_iff.mp h
  rw [rank]
  cases isNegative x
  · rw [signed_false]
    omega
  · rw [signed_true]
    omega

theorem prefers_least :
    Prefers (fun x best => x < best) (infinity false) rank where
  better_iff x y hx hy := by
    rw [decide_eq_true_eq, lt_iff]
    simp only [hx, hy, true_and]
  le_neutral x hx := by
    rw [rank_infinity.1]
    exact (rank_bounds hx).2
  isNaN_neutral := by decide +kernel
  neutral_ne_zero := by decide +kernel
  rank_eq _ _ := id

theorem prefers_greatest :
    Prefers (fun x best => best < x) (infinity true) fun x => -rank x where
  better_iff x y hx hy := by
    rw [decide_eq_true_eq, lt_iff, neg_lt_neg_iff]
    simp only [hx, hy, true_and]
  le_neutral x hx := by
    rw [rank_infinity.2, neg_neg]
    have := (rank_bounds hx).1
    omega
  isNaN_neutral := by decide +kernel
  neutral_ne_zero := by decide +kernel
  rank_eq _ _ := neg_inj.mp

/-- What a function that picks one of its arguments as a number answers. -/
structure Picks (f : List Value → Float) (neutral : Float) (better : Float → Float → Prop) : Prop where
  notANumber : ∀ args, (∃ v ∈ args, v.toNumber.isNaN = true) → (f args).isNaN = true
  nothing : f [] = neutral
  best : ∀ args, args ≠ [] → (∀ v ∈ args, v.toNumber.isNaN = false) →
    (f args).isNaN = false ∧ (∀ v ∈ args, better (f args) v.toNumber) ∧
      ∃ v ∈ args, f args = v.toNumber
  perm : ∀ args args', args.Perm args' → SameButForZeros (f args) (f args')
  append : ∀ args args',
    SameButForZeros (f (args ++ args')) (f [.number (f args), .number (f args')])

theorem picks_extreme (h : Prefers better neutral key) {atLeastAsGood : Float → Float → Prop}
    (hiff : ∀ x y, x.isNaN = false → y.isNaN = false → (atLeastAsGood x y ↔ key x ≤ key y)) :
    Picks (fun args => extreme better neutral (numbers args)) neutral atLeastAsGood where
  notANumber args hargs := by
    obtain ⟨v, hv, hnan⟩ := hargs
    show (extreme better neutral (numbers args)).isNaN = true
    have hmem : v.toNumber ∈ numbers args := List.mem_map_of_mem hv
    rw [extreme_of_isNaN ⟨_, hmem, hnan⟩]
    decide +kernel
  nothing := rfl
  best args hne hargs := by
    have hnumbers : ∀ x ∈ numbers args, x.isNaN = false := List.forall_mem_map.mpr hargs
    have hbest := isBest_extreme h hnumbers
    have hnan := hbest.isNaN_eq_false h hnumbers
    obtain ⟨hmem, hle⟩ := hbest.of_ne_nil h (mt List.map_eq_nil_iff.mp hne) hnumbers
    obtain ⟨v, hv, heq⟩ := List.mem_map.mp hmem
    refine ⟨hnan, fun w hw => ?_, v, hv, heq.symm⟩
    exact (hiff _ _ hnan (hargs w hw)).mpr (hle _ (List.mem_map_of_mem hw))
  perm _ _ hperm := extreme_perm h (hperm.map Value.toNumber)
  append args args' := by
    have happend : numbers (args ++ args') = numbers args ++ numbers args' := List.map_append
    show SameButForZeros (extreme better neutral (numbers (args ++ args'))) _
    rw [happend]
    exact extreme_append h (numbers args) (numbers args')

/-- The functions `min` and `max` pick the least and the greatest of their arguments. -/
theorem extremes_picked :
    (Computes "min" (fun args => .number (least (numbers args))) ∧
        Picks (fun args => least (numbers args)) (infinity false) (· ≤ ·)) ∧
      Computes "max" (fun args => .number (greatest (numbers args))) ∧
        Picks (fun args => greatest (numbers args)) (infinity true) (· ≥ ·) := by
  have hmin : ∀ σ : Type, variadic "min" (fun args => .number (least (numbers args))) ∈
      (standard : List (SheetFunction σ)) := by
    simp [standard, numberFunctions]
  have hmax : ∀ σ : Type, variadic "max" (fun args => .number (greatest (numbers args))) ∈
      (standard : List (SheetFunction σ)) := by
    simp [standard, numberFunctions]
  refine ⟨⟨computes_of_mem hmin, ?_⟩, computes_of_mem hmax, ?_⟩
  · exact picks_extreme prefers_least fun x y hx hy => by simp only [le_iff, hx, hy, true_and]
  · refine picks_extreme prefers_greatest fun x y hx hy => ?_
    rw [ge_iff_le, le_iff, neg_le_neg_iff]
    simp only [hx, hy, true_and]

end Library

end SheetFormula
