import VaultChat.Password.Alphabet

/-!
# Passwords from choices

A password is settled by choices: one character of each class, `extra` characters of the whole alphabet, and one swap
partner for each step of a shuffle that runs from the last position down to the second.  The shuffle rearranges what
was picked (`shuffle_perm`), so the password holds a character of each class, whatever was chosen.
-/

namespace VaultChat.Password

/-- The choices for a password of `extra + 3` characters.  The step of the shuffle that settles position `k + 1` swaps
it with a position of at most `k + 1`. -/
structure Choices (extra : Nat) where
  letter : Fin letters.length
  digit : Fin digits.length
  symbol : Fin symbols.length
  others : Fin extra → Fin alphabet.length
  partner : (k : Fin (extra + 2)) → Fin (k.val + 2)

namespace Choices

variable {extra : Nat}

/-- The chosen characters in the order of choice. -/
def picked (c : Choices extra) : Vector Char (extra + 3) :=
  ⟨(letters.get c.letter :: digits.get c.digit :: symbols.get c.symbol ::
    List.ofFn fun i => alphabet.get (c.others i)).toArray, by simp⟩

/-- The steps of the shuffle that settle the positions `k, …, 1`. -/
def shuffleFrom (c : Choices extra) : (k : Nat) → k < extra + 3 → Vector Char (extra + 3) → Vector Char (extra + 3)
  | 0, _, v => v
  | k + 1, h, v =>
    let j := c.partner ⟨k, by omega⟩
    c.shuffleFrom k (by omega) (v.swap (k + 1) j (by omega) (Nat.lt_of_lt_of_le j.isLt (by simp; omega)))

def shuffle (c : Choices extra) (v : Vector Char (extra + 3)) : Vector Char (extra + 3) :=
  c.shuffleFrom (extra + 2) (by omega) v

def password (c : Choices extra) : String := String.ofList (c.shuffle c.picked).toList

theorem shuffleFrom_perm (c : Choices extra) (k : Nat) (h : k < extra + 3) (v : Vector Char (extra + 3)) :
    (c.shuffleFrom k h v).toList.Perm v.toList := by
  induction k generalizing v with
  | zero => exact List.Perm.refl _
  | succ k ih =>
    unfold shuffleFrom
    refine (ih (by omega) _).trans ?_
    exact (Vector.perm_iff_toList_perm.mp (Vector.swap_perm _ _))

theorem shuffle_perm (c : Choices extra) (v : Vector Char (extra + 3)) : (c.shuffle v).toList.Perm v.toList :=
  c.shuffleFrom_perm _ _ v

theorem length_password (c : Choices extra) : c.password.toList.length = extra + 3 := by
  rw [password, String.toList_ofList, Vector.length_toList]

/-- The choices that pick the first character everywhere and leave everything in place. -/
def trivial (extra : Nat) : Choices extra where
  letter := ⟨0, by decide⟩
  digit := ⟨0, by decide⟩
  symbol := ⟨0, by decide⟩
  others _ := ⟨0, by decide⟩
  partner k := ⟨k.val + 1, by omega⟩

end Choices

end VaultChat.Password
