import Mathlib.Data.Fintype.Perm
import Mathlib.Data.Fintype.Pi
import Mathlib.Data.Fintype.Prod
import VaultChat.Proofs.Shuffle

/-!
# Positions of a password

Choices can be counted, and no position of a password is told from another by the count.  If an order of the
characters is rearranged by a permutation of the positions, so is the password (`spells_rearranged`), and to rearrange
the orders is a bijection of the choices.  Hence a text and its rearrangements are passwords of equally many choices,
and each of the picked characters comes to each position equally often (`positions_exchangeable`).
-/

namespace VaultChat.Password

variable {extra : Nat}

/-- Each order is the order of one choice of swap partners. -/
noncomputable def Partners.orderEquiv : Partners extra ≃ Equiv.Perm (Fin (extra + 3)) :=
  Equiv.ofBijective Partners.order Partners.order_bijective

theorem Partners.order_orderEquiv_symm (σ : Equiv.Perm (Fin (extra + 3))) :
    Partners.order (Partners.orderEquiv.symm σ) = σ :=
  Equiv.apply_symm_apply Partners.orderEquiv σ

theorem Partners.orderEquiv_symm_order (partner : Partners extra) :
    Partners.orderEquiv.symm (Partners.order partner) = partner :=
  Equiv.symm_apply_apply Partners.orderEquiv partner

namespace Choices

/-! ### Counting -/

/-- The choices are independent of each other. -/
def parts : Choices extra ≃ Fin letters.length × Fin digits.length × Fin symbols.length ×
    (Fin extra → Fin alphabet.length) × Partners extra where
  toFun c := (c.letter, c.digit, c.symbol, c.others, c.partner)
  invFun p := ⟨p.1, p.2.1, p.2.2.1, p.2.2.2.1, p.2.2.2.2⟩
  left_inv _ := rfl
  right_inv _ := rfl

instance : Fintype (Choices extra) := Fintype.ofEquiv _ parts.symm

/-! ### What a password consists of -/

/-- The text with these characters, from the first position to the last. -/
def spelled (row : Fin (extra + 3) → Char) : String := String.ofList (List.ofFn row)

theorem spelled_injective {row row' : Fin (extra + 3) → Char} (h : spelled row = spelled row') : row = row' :=
  List.ofFn_injective (String.ofList_injective h)

theorem get_shuffle (c : Choices extra) (v : Vector Char (extra + 3)) (i : Fin (extra + 3)) :
    (c.shuffle v).get i = v.get (Partners.order c.partner i) :=
  c.getElem_shuffle v i

/-- Each position has the character that was picked at the place from which the shuffle takes it. -/
theorem password_eq_spelled (c : Choices extra) :
    c.password = spelled fun i => c.picked.get (Partners.order c.partner i) := by
  have hrow : (c.shuffle c.picked).toList = List.ofFn (c.shuffle c.picked).get := toList_eq_ofFn _
  simp only [password, hrow, spelled, ← get_shuffle]

theorem password_eq_spelled_iff {c : Choices extra} {row : Fin (extra + 3) → Char} :
    c.password = spelled row ↔ ∀ i, c.picked.get (Partners.order c.partner i) = row i := by
  rw [password_eq_spelled]
  constructor
  · intro h
    exact congrFun (spelled_injective h)
  · intro h
    exact congrArg spelled (funext h)

/-- The shuffle brings what was picked at `place` to position `i`, whatever the characters are. -/
def Brings (c : Choices extra) (place i : Fin (extra + 3)) : Prop :=
  ∀ v : Vector Char (extra + 3), (c.shuffle v).get i = v.get place

theorem brings_iff {c : Choices extra} {place i : Fin (extra + 3)} :
    c.Brings place i ↔ Partners.order c.partner i = place := by
  constructor
  · intro h
    -- One character that differs from all others shows where it comes from.
    let mark (j : Fin (extra + 3)) : Char := if j = place then 'x' else 'y'
    have hget (j : Fin (extra + 3)) : (Vector.ofFn mark).get j = mark j := Vector.getElem_ofFn j.isLt
    have hplace : mark (Partners.order c.partner i) = mark place := by
      rw [← hget, ← get_shuffle, h, hget]
    by_contra hne
    simp [mark, hne] at hplace
  · rintro rfl v
    exact c.get_shuffle v i

instance (c : Choices extra) (place i : Fin (extra + 3)) : Decidable (c.Brings place i) :=
  decidable_of_iff _ brings_iff.symm

/-! ### Rearranging -/

/-- The same characters, in an order that is rearranged by `σ`. -/
noncomputable def rearranged (σ : Equiv.Perm (Fin (extra + 3))) : Choices extra ≃ Choices extra where
  toFun c := { c with partner := Partners.orderEquiv.symm (Partners.order c.partner * σ) }
  invFun c := { c with partner := Partners.orderEquiv.symm (Partners.order c.partner * σ⁻¹) }
  left_inv c := by
    simp only [Partners.order_orderEquiv_symm, mul_inv_cancel_right, Partners.orderEquiv_symm_order]
  right_inv c := by
    simp only [Partners.order_orderEquiv_symm, inv_mul_cancel_right, Partners.orderEquiv_symm_order]

theorem order_rearranged (σ : Equiv.Perm (Fin (extra + 3))) (c : Choices extra) :
    Partners.order (rearranged σ c).partner = Partners.order c.partner * σ :=
  Partners.order_orderEquiv_symm _

theorem spells_rearranged (σ : Equiv.Perm (Fin (extra + 3))) (c : Choices extra) (row : Fin (extra + 3) → Char) :
    (rearranged σ c).password = spelled (row ∘ σ) ↔ c.password = spelled row := by
  rw [password_eq_spelled_iff, password_eq_spelled_iff]
  simp only [order_rearranged, Equiv.Perm.mul_apply, Function.comp_apply]
  constructor
  · intro h i
    obtain ⟨j, rfl⟩ := σ.surjective i
    exact h j
  · intro h i
    exact h (σ i)

theorem brings_rearranged (σ : Equiv.Perm (Fin (extra + 3))) (c : Choices extra) (place i : Fin (extra + 3)) :
    (rearranged σ c).Brings place i ↔ c.Brings place (σ i) := by
  rw [brings_iff, brings_iff, order_rearranged, Equiv.Perm.mul_apply]

/-- What was picked at one place comes to any two positions equally often. -/
theorem card_brings (place i j : Fin (extra + 3)) :
    Fintype.card { c : Choices extra // c.Brings place i } =
      Fintype.card { c : Choices extra // c.Brings place j } := by
  refine Fintype.card_congr ((rearranged (Equiv.swap i j)).subtypeEquiv fun c => ?_)
  rw [brings_rearranged, Equiv.swap_apply_right]

/-- All choices are counted by where they bring what was picked at one place. -/
theorem card_eq_sum_brings (place : Fin (extra + 3)) :
    Fintype.card (Choices extra) = ∑ i, Fintype.card { c : Choices extra // c.Brings place i } := by
  have hbrings (c : Choices extra) (i : Fin (extra + 3)) :
      (Partners.order c.partner).symm place = i ↔ c.Brings place i := by
    rw [brings_iff, Equiv.symm_apply_eq]
    exact eq_comm
  rw [← Fintype.card_sigma]
  refine Fintype.card_congr ((Equiv.sigmaFiberEquiv fun c => (Partners.order c.partner).symm place).symm.trans ?_)
  exact Equiv.sigmaCongrRight fun i => Equiv.subtypeEquivRight fun c => hbrings c i

end Choices

/-- Equally many choices lead to a text and to any rearrangement of its positions.  What is picked at one place comes
to each of the positions under the same share of the choices, also at the first three places, where the letter, the
digit and the symbol are picked that must be there. -/
theorem positions_exchangeable (row : Fin (extra + 3) → Char) (σ : Equiv.Perm (Fin (extra + 3))) :
    Fintype.card { c : Choices extra // c.password = Choices.spelled row } =
        Fintype.card { c : Choices extra // c.password = Choices.spelled (row ∘ σ) } ∧
      ∀ place i : Fin (extra + 3),
        (extra + 3) * Fintype.card { c : Choices extra // c.Brings place i } = Fintype.card (Choices extra) := by
  constructor
  · refine Fintype.card_congr ((Choices.rearranged σ).subtypeEquiv fun c => ?_)
    exact (Choices.spells_rearranged σ c row).symm
  · intro place i
    symm
    calc Fintype.card (Choices extra)
        = ∑ j, Fintype.card { c : Choices extra // c.Brings place j } := Choices.card_eq_sum_brings place
      _ = ∑ _j : Fin (extra + 3), Fintype.card { c : Choices extra // c.Brings place i } :=
          Finset.sum_congr rfl fun j _ => Choices.card_brings place j i
      _ = (extra + 3) * Fintype.card { c : Choices extra // c.Brings place i } := by
          rw [Finset.sum_const, Finset.card_univ, Fintype.card_fin, smul_eq_mul]

end VaultChat.Password
