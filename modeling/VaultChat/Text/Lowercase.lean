import VaultChat.Text.CaseData
import VaultChat.Text.CodeRange

/-!
# Lower case

Full lower-casing of a text.  Every character is mapped by the case data, the capital I with a dot becomes two
characters, and a capital sigma that ends a word becomes a final sigma.  `eqIgnoringCase` compares without regard to
the case of the ASCII letters alone.
-/

namespace VaultChat.Text

/-- The code point belongs to the run. -/
def CaseRun.covers (r : CaseRun) (n : Nat) : Bool :=
  r.first ≤ n && n ≤ r.last && (n - r.first) % r.stride == 0

/-- The lower case of a character outside of any context. -/
def lowerChar (c : Char) : List Char :=
  if c.toNat < 0x80 then [c.toLower]
  else if c.toNat = 0x130 then ['i', '\u0307']
  else
    match lowerRuns.find? (·.covers c.toNat) with
    | some r => [Char.ofNat ((c.toNat : Int) + r.shift).toNat]
    | none => [c]

/-- After skipping characters that case does not look at, the next one has a case. -/
def metByCased (cs : List Char) : Bool :=
  match cs.dropWhile (inRanges caseIgnorableRanges) with
  | c :: _ => inRanges casedRanges c
  | [] => false

/-- Lower-cases the second list, which follows the reversed first one. -/
def lowerAfter (before : List Char) : List Char → List Char
  | [] => []
  | c :: after =>
    (if c = 'Σ' then [if metByCased before && !metByCased after then 'ς' else 'σ'] else lowerChar c) ++
      lowerAfter (c :: before) after

/-- The lower case of a text. -/
def lowercase (cs : List Char) : List Char := lowerAfter [] cs

/-- Equality up to the case of ASCII letters. -/
def eqIgnoringCase (as bs : List Char) : Bool := as.map Char.toLower == bs.map Char.toLower

/-- The lower case of an ASCII capital comes 32 code points after it, and other characters are their own. -/
theorem toLower_cases (c : Char) :
    (65 ≤ c.toNat ∧ c.toNat ≤ 90) ∧ c.toLower.toNat = c.toNat + 32 ∨
      ¬ (65 ≤ c.toNat ∧ c.toNat ≤ 90) ∧ c.toLower = c := by
  by_cases h : c.val ≥ 'A'.val ∧ c.val ≤ 'Z'.val
  · have hrange : 65 ≤ c.toNat ∧ c.toNat ≤ 90 := h
    have hlower : c.toLower = _ := dif_pos h
    refine .inl ⟨hrange, ?_⟩
    rw [hlower]
    show (c.toNat + 32) % 4294967296 = _
    omega
  · exact .inr ⟨h, dif_neg h⟩

end VaultChat.Text
