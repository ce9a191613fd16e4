import VaultChat.Text.CodeRange

/-!
# Blank characters

Blank characters are those with the property `White_Space`.  A text is trimmed of them at either end, cut into words
at them, or cut in two at the first of them.  Trimming takes away nothing else (`countP_trim`).  A cut loses the one
character at which it is made (`cut_eq_some_iff`, `cut_beq_iff`) and is refused only where no such character occurs
(`cut_eq_none_iff`).
-/

namespace VaultChat.Text

/-- The property `White_Space`. -/
def blankRanges : List (Nat × Nat) :=
  [(0x9, 0xD), (0x20, 0x20), (0x85, 0x85), (0xA0, 0xA0), (0x1680, 0x1680), (0x2000, 0x200A), (0x2028, 0x2029),
   (0x202F, 0x202F), (0x205F, 0x205F), (0x3000, 0x3000)]

def isBlank (c : Char) : Bool := inRanges blankRanges c

/-! ### Trimming -/

def trimStart (cs : List Char) : List Char := cs.dropWhile isBlank

def trimEnd (cs : List Char) : List Char := (cs.reverse.dropWhile isBlank).reverse

def trim (cs : List Char) : List Char := trimEnd (trimStart cs)

theorem trim_append_of_blank {as : List Char} (h : ∀ c ∈ as, isBlank c = true) (bs : List Char) :
    trim (as ++ bs) = trim bs := by
  rw [trim, trim, trimStart, List.dropWhile_append_of_pos h, trimStart]

/-- Trimming takes away blanks only. -/
theorem countP_trim (cs : List Char) : (trim cs).countP (!isBlank ·) = cs.countP (!isBlank ·) := by
  have hdrop (as : List Char) : (as.dropWhile isBlank).countP (!isBlank ·) = as.countP (!isBlank ·) := by
    induction as with
    | nil => rfl
    | cons a as ih =>
      by_cases ha : isBlank a = true
      · rw [List.dropWhile_cons_of_pos ha, ih, List.countP_cons_of_neg (by simpa using ha)]
      · rw [List.dropWhile_cons_of_neg ha]
  rw [trim, trimEnd, List.countP_reverse, hdrop, List.countP_reverse, trimStart, hdrop]

/-! ### Cutting -/

/-- The part before the first character that satisfies `p`, and the part after it if there is one. -/
def cut (p : Char → Bool) (cs : List Char) : List Char × Option (List Char) :=
  (cs.takeWhile fun c => !p c, (cs.dropWhile fun c => !p c).tail?)

/-- The maximal runs of characters that are not blank. -/
def words : List Char → List (List Char)
  | [] => []
  | c :: cs =>
    if isBlank c then words cs
    else
      match cs, words cs with
      | d :: _, w :: ws => if isBlank d then [c] :: w :: ws else (c :: w) :: ws
      | _, ws => [c] :: ws

theorem cut_cons_of_pos {p : Char → Bool} {c : Char} (h : p c = true) (cs : List Char) :
    cut p (c :: cs) = ([], some cs) := by
  simp [cut, h]

theorem cut_cons_of_neg {p : Char → Bool} {c : Char} (h : p c = false) (cs : List Char) :
    cut p (c :: cs) = (c :: (cut p cs).1, (cut p cs).2) := by
  simp [cut, h]

/-- A cut goes past what does not satisfy `p`. -/
theorem cut_append {p : Char → Bool} {as : List Char} (h : ∀ c ∈ as, p c = false) (bs : List Char) :
    cut p (as ++ bs) = (as ++ (cut p bs).1, (cut p bs).2) := by
  induction as with
  | nil => rfl
  | cons a as ih =>
    obtain ⟨ha, has⟩ := List.forall_mem_cons.1 h
    rw [List.cons_append, cut_cons_of_neg ha, ih has]
    rfl

theorem cut_eq_none_iff {p : Char → Bool} {cs head : List Char} :
    cut p cs = (head, none) ↔ head = cs ∧ ∀ c ∈ cs, p c = false := by
  constructor
  · intro h
    induction cs generalizing head with
    | nil => exact ⟨((Prod.mk.inj h).1).symm, nofun⟩
    | cons a cs ih =>
      by_cases ha : p a = true
      · rw [cut_cons_of_pos ha] at h
        cases h
      · have ha : p a = false := eq_false_of_ne_true ha
        rw [cut_cons_of_neg ha] at h
        obtain ⟨h1, h2⟩ := Prod.mk.inj h
        obtain ⟨hcs, hall⟩ := ih (Prod.ext rfl h2)
        exact ⟨h1.symm.trans (congrArg (a :: ·) hcs), List.forall_mem_cons.2 ⟨ha, hall⟩⟩
  · rintro ⟨rfl, h⟩
    have hcut := cut_append h []
    rw [List.append_nil] at hcut
    rw [hcut]
    exact Prod.ext (List.append_nil _) rfl

theorem cut_eq_some_iff {p : Char → Bool} {cs head tail : List Char} :
    cut p cs = (head, some tail) ↔ (∀ c ∈ head, p c = false) ∧ ∃ c, p c = true ∧ cs = head ++ c :: tail := by
  constructor
  · intro h
    induction cs generalizing head with
    | nil => cases (Prod.mk.inj h).2
    | cons a cs ih =>
      by_cases ha : p a = true
      · rw [cut_cons_of_pos ha] at h
        cases h
        exact ⟨nofun, a, ha, rfl⟩
      · have ha : p a = false := eq_false_of_ne_true ha
        rw [cut_cons_of_neg ha] at h
        obtain ⟨h1, h2⟩ := Prod.mk.inj h
        obtain ⟨hall, c, hc, hcs⟩ := ih (Prod.ext rfl h2)
        refine ⟨?_, c, hc, ?_⟩
        · rw [← h1]
          exact List.forall_mem_cons.2 ⟨ha, hall⟩
        · rw [← h1, List.cons_append, ← hcs]
  · rintro ⟨hall, c, hc, rfl⟩
    rw [cut_append hall, cut_cons_of_pos hc]
    exact Prod.ext (List.append_nil _) rfl

/-- What a cut at a character takes away: the character and what follows it, if it occurs. -/
def rejoin (c : Char) : Option (List Char) → List Char
  | some cs => c :: cs
  | none => []

/-- A cut at a character. -/
theorem cut_beq_iff {c : Char} {cs head : List Char} {tail : Option (List Char)} :
    cut (· == c) cs = (head, tail) ↔ c ∉ head ∧ cs = head ++ rejoin c tail := by
  have hfree (as : List Char) : (∀ d ∈ as, (d == c) = false) ↔ c ∉ as := by
    simp only [beq_eq_false_iff_ne]
    exact ⟨fun h hc => h c hc rfl, fun h d hd hdc => h (hdc ▸ hd)⟩
  cases tail with
  | none =>
    rw [cut_eq_none_iff, hfree, rejoin, List.append_nil]
    constructor
    · rintro ⟨rfl, h⟩
      exact ⟨h, rfl⟩
    · rintro ⟨h, rfl⟩
      exact ⟨rfl, h⟩
  | some tail =>
    rw [cut_eq_some_iff, hfree]
    simp only [beq_iff_eq, exists_eq_left, rejoin]

end VaultChat.Text
