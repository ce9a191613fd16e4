import Mathlib.Algebra.BigOperators.Fin
import Mathlib.Algebra.BigOperators.Intervals
import Mathlib.Data.Char
import Mathlib.Data.Fin.Tuple.Sort
import Mathlib.Data.Fintype.BigOperators
import Mathlib.Data.Fintype.Perm
import VaultChat.Password.Choices

/-!
# Where the shuffle takes characters from

The shuffle moves characters without looking at them: position `i` gets what was at position `order partner i`
(`getElem_shuffle`).  A step settles its position for good, so the partner of every step can be told from the order.
There are as many orders as choices of partners, hence each order belongs to exactly one choice (`order_bijective`),
and every rearrangement of what was picked is the outcome of some shuffle (`exists_shuffle_eq`).
-/

namespace VaultChat.Password

/-- The swap partners of a shuffle of `extra + 3` characters. -/
abbrev Partners (extra : Nat) := (k : Fin (extra + 2)) → Fin (k.val + 2)

namespace Partners

variable {extra : Nat}

/-- The position that the step for position `k + 1` swaps it with. -/
def place (partner : Partners extra) (k : Fin (extra + 2)) : Fin (extra + 3) := ⟨partner k, by omega⟩

/-- Where the steps that settle the positions `k, …, 1` take the character of a position from. -/
def orderFrom (partner : Partners extra) : (k : Nat) → k ≤ extra + 2 → Equiv.Perm (Fin (extra + 3))
  | 0, _ => 1
  | k + 1, h => Equiv.swap (Fin.succ ⟨k, h⟩) (partner.place ⟨k, h⟩) * partner.orderFrom k (Nat.le_of_succ_le h)

/-- Where the shuffle takes the character of a position from. -/
def order (partner : Partners extra) : Equiv.Perm (Fin (extra + 3)) := partner.orderFrom (extra + 2) (Nat.le_refl _)

theorem orderFrom_succ (partner : Partners extra) {k : Nat} (h : k + 1 ≤ extra + 2) : partner.orderFrom (k + 1) h =
    Equiv.swap (Fin.succ ⟨k, h⟩) (partner.place ⟨k, h⟩) * partner.orderFrom k (Nat.le_of_succ_le h) := rfl

/-- The later positions are settled already. -/
theorem orderFrom_apply_of_lt (partner : Partners extra) {k : Nat} (h : k ≤ extra + 2) {i : Fin (extra + 3)}
    (hi : k < i.val) : partner.orderFrom k h i = i := by
  induction k with
  | zero => rfl
  | succ k ih =>
    rw [orderFrom_succ, Equiv.Perm.mul_apply, ih (Nat.le_of_succ_le h) (Nat.lt_of_succ_lt hi)]
    apply Equiv.swap_apply_of_ne_of_ne
    · exact Fin.ne_of_val_ne (Nat.ne_of_gt hi)
    · have hplace : (partner.place ⟨k, h⟩).val < k + 2 := (partner ⟨k, h⟩).isLt
      exact Fin.ne_of_val_ne (by omega)

theorem orderFrom_succ_apply (partner : Partners extra) {k : Nat} (h : k + 1 ≤ extra + 2) :
    partner.orderFrom (k + 1) h (Fin.succ ⟨k, h⟩) = partner.place ⟨k, h⟩ := by
  rw [orderFrom_succ, Equiv.Perm.mul_apply, partner.orderFrom_apply_of_lt _ (Nat.lt_succ_self k),
    Equiv.swap_apply_left]

private theorem eq_of_orderFrom_eq {p q : Partners extra} {k : Nat} (h : k ≤ extra + 2)
    (heq : p.orderFrom k h = q.orderFrom k h) (i : Fin (extra + 2)) (hi : i.val < k) : p i = q i := by
  induction k with
  | zero => cases hi
  | succ k ih =>
    have hplace : p.place ⟨k, h⟩ = q.place ⟨k, h⟩ := by
      rw [← p.orderFrom_succ_apply h, heq, q.orderFrom_succ_apply h]
    rcases Nat.lt_succ_iff_lt_or_eq.1 hi with hlt | rfl
    · rw [orderFrom_succ, orderFrom_succ, hplace] at heq
      exact ih _ (mul_left_cancel heq) hlt
    · have hval := Fin.val_eq_of_eq hplace
      exact Fin.ext hval

theorem order_injective : Function.Injective (order : Partners extra → Equiv.Perm (Fin (extra + 3))) :=
  fun _ _ heq => funext fun i => eq_of_orderFrom_eq _ heq i i.isLt

theorem card_partners : Fintype.card (Partners extra) = Nat.factorial (extra + 3) := by
  have hprod (m : Nat) : ∏ k : Fin m, (k.val + 2) = Nat.factorial (m + 1) := by
    induction m with
    | zero => rfl
    | succ m ih =>
      rw [Fin.prod_univ_castSucc, Nat.factorial_succ (m + 1), mul_comm]
      exact congrArg (_ * ·) ih
  rw [Fintype.card_pi, ← hprod]
  exact Finset.prod_congr rfl fun k _ => Fintype.card_fin _

/-- Every order is that of exactly one choice of swap partners. -/
theorem order_bijective : Function.Bijective (order : Partners extra → Equiv.Perm (Fin (extra + 3))) := by
  refine (Fintype.bijective_iff_injective_and_card _).2 ⟨order_injective, ?_⟩
  rw [card_partners, Fintype.card_perm, Fintype.card_fin]

end Partners

namespace Choices

variable {extra : Nat}

private theorem getElem_swap (v : Vector Char (extra + 3)) (a b i : Fin (extra + 3)) :
    (v.swap a b)[i] = v[Equiv.swap a b i] := by
  simp only [Fin.getElem_fin, Vector.getElem_swap, Equiv.swap_apply_def, Fin.ext_iff]
  split_ifs <;> rfl

private theorem getElem_shuffleFrom (c : Choices extra) {k : Nat} (h : k < extra + 3) (v : Vector Char (extra + 3))
    (i : Fin (extra + 3)) :
    (c.shuffleFrom k h v)[i] = v[Partners.orderFrom c.partner k (Nat.le_of_lt_succ h) i] := by
  induction k generalizing v with
  | zero => rfl
  | succ k ih =>
    rw [shuffleFrom, ih]
    exact getElem_swap v ⟨k + 1, h⟩ (Partners.place c.partner ⟨k, Nat.le_of_lt_succ h⟩) _

theorem getElem_shuffle (c : Choices extra) (v : Vector Char (extra + 3)) (i : Fin (extra + 3)) :
    (c.shuffle v)[i] = v[Partners.order c.partner i] :=
  c.getElem_shuffleFrom _ v i

end Choices

/-- Two rows with the same entries differ by a permutation of the positions. -/
theorem exists_comp_eq_of_perm {α : Type} [LinearOrder α] {n : Nat} {f g : Fin n → α}
    (h : (List.ofFn g).Perm (List.ofFn f)) : ∃ σ : Equiv.Perm (Fin n), ∀ i, g i = f (σ i) := by
  -- Sorted, the two rows are the same.
  have hsort : f ∘ Tuple.sort f = g ∘ Tuple.sort g := by
    apply List.ofFn_injective
    refine List.Perm.eq_of_sortedLE (Tuple.monotone_sort f).sortedLE_ofFn (Tuple.monotone_sort g).sortedLE_ofFn ?_
    exact ((Tuple.sort f).ofFn_comp_perm f).trans (h.symm.trans ((Tuple.sort g).ofFn_comp_perm g).symm)
  refine ⟨(Tuple.sort g).symm.trans (Tuple.sort f), fun i => ?_⟩
  have hi := congrFun hsort ((Tuple.sort g).symm i)
  rw [Function.comp_apply, Function.comp_apply, Equiv.apply_symm_apply] at hi
  exact hi.symm

theorem toList_eq_ofFn {n : Nat} (v : Vector Char n) : v.toList = List.ofFn fun i : Fin n => v[i] := by
  rw [← Vector.toList_ofFn]
  exact congrArg Vector.toList Vector.ofFn_getElem.symm

/-- Some swap partners turn what is shuffled into any rearrangement of it. -/
theorem Choices.exists_shuffle_eq {extra : Nat} {v w : Vector Char (extra + 3)} (h : w.toList.Perm v.toList) :
    ∃ partner : Partners extra, ∀ c : Choices extra, c.partner = partner → c.shuffle v = w := by
  rw [toList_eq_ofFn v, toList_eq_ofFn w] at h
  obtain ⟨σ, hσ⟩ := exists_comp_eq_of_perm h
  obtain ⟨partner, rfl⟩ := Partners.order_bijective.2 σ
  refine ⟨partner, ?_⟩
  rintro c rfl
  apply Vector.ext
  intro i hi
  exact (c.getElem_shuffle v ⟨i, hi⟩).trans (hσ ⟨i, hi⟩).symm

end VaultChat.Password
