import VaultChat.Text.Lowercase

/-!
# Lower case and ASCII

Lower-casing leaves ASCII to ASCII and the rest to the rest, with one exception: the Kelvin sign becomes a `k`
(`lowerChar_outside`).  So a text whose lower case is a word of ASCII without a `k` is that word up to the case of the
ASCII letters (`lowercase_eq_iff`).
-/

namespace VaultChat.Text

/-- What is checked of a text, character by character, holds of each. -/
theorem forall_mem_of_all {cs : List Char} {p : Char → Prop} [DecidablePred p]
    (h : (cs.all fun c => decide (p c)) = true) : ∀ c ∈ cs, p c := fun c hc =>
  of_decide_eq_true (List.all_eq_true.1 h c hc)

/-- The character is one of ASCII. -/
def IsAscii (c : Char) : Prop := c.toNat < 0x80

instance : DecidablePred IsAscii := fun c => inferInstanceAs (Decidable (c.toNat < 0x80))

/-- A run that reaches beyond ASCII is the Kelvin sign or leads beyond ASCII, and to characters. -/
private theorem lowerRuns_outside : ∀ r ∈ lowerRuns, 0x80 ≤ r.last →
    (r.first = 0x212A ∧ r.last = 0x212A) ∨
      (0x80 ≤ (r.first : Int) + r.shift ∧
        ((r.last : Int) + r.shift < 0xD800 ∨
          0xDFFF < (r.first : Int) + r.shift ∧ (r.last : Int) + r.shift < 0x110000)) := by
  decide +kernel

/-- The lower case of a character outside of ASCII is not all in ASCII, but for the Kelvin sign. -/
theorem lowerChar_outside {c : Char} (h : ¬ IsAscii c) : c = '\u212A' ∨ ∃ d ∈ lowerChar c, ¬ IsAscii d := by
  have hc : 0x80 ≤ c.toNat := Nat.not_lt.1 h
  unfold lowerChar
  rw [if_neg (Nat.not_lt.2 hc)]
  by_cases hdot : c.toNat = 0x130
  · rw [if_pos hdot]
    exact .inr ⟨'\u0307', by simp, by decide⟩
  rw [if_neg hdot]
  cases hfind : lowerRuns.find? (·.covers c.toNat) with
  | none => exact .inr ⟨c, List.mem_singleton_self c, h⟩
  | some r =>
    have hcovers := List.find?_some hfind
    simp only [CaseRun.covers, Bool.and_eq_true, decide_eq_true_eq] at hcovers
    obtain ⟨⟨hfirst, hlast⟩, -⟩ := hcovers
    rcases lowerRuns_outside r (List.mem_of_find?_eq_some hfind) (by omega) with ⟨hkelvin, hkelvin'⟩ | ⟨hout, hscalar⟩
    · left
      apply Char.toNat_inj.1
      show c.toNat = 0x212A
      omega
    · right
      refine ⟨_, List.mem_singleton_self _, ?_⟩
      have hvalid : ((c.toNat : Int) + r.shift).toNat.isValidChar := by
        unfold Nat.isValidChar
        omega
      have htarget : Char.ofNat ((c.toNat : Int) + r.shift).toNat = Char.ofNatAux _ hvalid := dif_pos hvalid
      rw [htarget]
      show ¬ ((c.toNat : Int) + r.shift).toNat < 0x80
      omega

private theorem toLower_outside {c : Char} (h : ¬ IsAscii c) : c.toLower = c := by
  unfold IsAscii at h
  rcases toLower_cases c with ⟨hrange, -⟩ | ⟨-, hsame⟩
  · omega
  · exact hsame

/-- Outside of ASCII, a character leaves something in the lower case that is no letter but `k` of ASCII. -/
private theorem lowerAfter_outside {before after : List Char} {c : Char} (h : ¬ IsAscii c) :
    ∃ d ∈ lowerAfter before (c :: after), ¬ (IsAscii d ∧ d ≠ 'k') := by
  unfold lowerAfter
  by_cases hsigma : c = 'Σ'
  · rw [if_pos hsigma]
    have hfinal : ¬ IsAscii 'ς' := by decide
    have hinner : ¬ IsAscii 'σ' := by decide
    refine ⟨_, List.mem_append_left _ (List.mem_singleton_self _), fun hd => ?_⟩
    split at hd
    · exact hfinal hd.1
    · exact hinner hd.1
  · rw [if_neg hsigma]
    rcases lowerChar_outside h with rfl | ⟨d, hd, hout⟩
    · exact ⟨'k', List.mem_append_left _ (by decide), fun hk => hk.2 rfl⟩
    · exact ⟨d, List.mem_append_left _ hd, fun hk => hout hk.1⟩

private theorem lowerAfter_cons_of_isAscii {before after : List Char} {c : Char} (h : IsAscii c) :
    lowerAfter before (c :: after) = c.toLower :: lowerAfter (c :: before) after := by
  have hsigma : c ≠ 'Σ' := by
    rintro rfl
    exact absurd h (by decide)
  have hlower : lowerChar c = [c.toLower] := if_pos h
  rw [lowerAfter, if_neg hsigma, hlower]
  rfl

private theorem lowerAfter_eq_iff {before cs name : List Char} (hname : ∀ c ∈ name, IsAscii c ∧ c ≠ 'k') :
    lowerAfter before cs = name ↔ cs.map Char.toLower = name := by
  induction cs generalizing before name with
  | nil => exact Iff.rfl
  | cons c cs ih =>
    by_cases hc : IsAscii c
    · rw [lowerAfter_cons_of_isAscii hc, List.map_cons]
      cases name with
      | nil => exact ⟨nofun, nofun⟩
      | cons d name =>
        rw [List.cons.injEq, List.cons.injEq, ih fun x hx => hname x (List.mem_cons_of_mem d hx)]
    · constructor
      · intro h
        have houtside : ∃ d ∈ lowerAfter before (c :: cs), ¬ (IsAscii d ∧ d ≠ 'k') := lowerAfter_outside hc
        obtain ⟨d, hd, hout⟩ := houtside
        exact absurd (hname d (h ▸ hd)) hout
      · intro h
        have hmem : c ∈ name := by
          rw [← h, List.map_cons, toLower_outside hc]
          exact List.mem_cons_self
        exact absurd (hname c hmem).1 hc

/-- Lower-casing gives a name of ASCII without a `k` only from the same letters, small or capital. -/
theorem lowercase_eq_iff {cs name : List Char} (hname : ∀ c ∈ name, IsAscii c ∧ c ≠ 'k') :
    lowercase cs = name ↔ cs.map Char.toLower = name :=
  lowerAfter_eq_iff hname

/-- A name with a `k` would also be given by the Kelvin sign. -/
example : lowercase ['\u212A'] = ['k'] := by decide +kernel

end VaultChat.Text
