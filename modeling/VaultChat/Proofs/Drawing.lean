import Mathlib.Algebra.Order.Ring.Nat
import VaultChat.Password.Draw

/-!
# What can be drawn from random words

A draw passes over the words that it rejects and takes its number from the first one that it accepts.  `Gives` says
what a draw comes to with enough patience; a draw that has succeeded succeeds alike with more (`lasting_draw`).  All
draws for a password succeed, unless one of them finds no word that it accepts (`exists_gives_draw`).  Every number
below the bound has a word that gives it (`exists_hits`), so any choices are drawn from some stream
(`exists_gives_choices`).
-/

namespace VaultChat.Password

/-! ### Patience -/

section Patience

variable {α β : Type} {f : Nat → Option α} {g : α → Nat → Option β} {a a' : α} {b : β}

/-- With enough patience the draw gives this result. -/
def Gives (f : Nat → Option α) (a : α) : Prop := ∃ enough, ∀ patience, enough ≤ patience → f patience = some a

/-- A draw that has succeeded succeeds alike with more patience. -/
def Lasting (f : Nat → Option α) : Prop :=
  ∀ ⦃patience more a⦄, patience ≤ more → f patience = some a → f more = some a

theorem lasting_pure (a : α) : Lasting fun _ => pure a := fun _ _ _ _ h => h

theorem Lasting.bind (hf : Lasting f) (hg : ∀ a, Lasting (g a)) : Lasting fun p => f p >>= fun a => g a p := by
  intro p more b hle h
  obtain ⟨a, ha, hb⟩ := Option.bind_eq_some_iff.1 h
  exact Option.bind_eq_some_iff.2 ⟨a, hf hle ha, hg a hle hb⟩

theorem Lasting.gives {patience : Nat} (hf : Lasting f) (h : f patience = some a) : Gives f a :=
  ⟨patience, fun _ hle => hf hle h⟩

theorem gives_pure (a : α) : Gives (fun _ => pure a) a := ⟨0, fun _ _ => rfl⟩

theorem gives_pure_of_eq (h : a = a') : Gives (fun _ => pure a) a' := h ▸ gives_pure a

theorem Gives.bind (ha : Gives f a) (hb : Gives (g a) b) : Gives (fun p => f p >>= fun a => g a p) b := by
  obtain ⟨p, hp⟩ := ha
  obtain ⟨q, hq⟩ := hb
  refine ⟨max p q, fun patience hle => Option.bind_eq_some_iff.2 ⟨a, ?_, ?_⟩⟩
  · exact hp patience (Nat.le_trans (Nat.le_max_left p q) hle)
  · exact hq patience (Nat.le_trans (Nat.le_max_right p q) hle)

theorem exists_gives_bind (ha : ∃ a, Gives f a) (hb : ∀ a, ∃ b, Gives (g a) b) :
    ∃ b, Gives (fun p => f p >>= fun a => g a p) b := by
  obtain ⟨a, ha⟩ := ha
  obtain ⟨b, hb⟩ := hb a
  exact ⟨b, ha.bind hb⟩

theorem Gives.unique (ha : Gives f a) (ha' : Gives f a') : a = a' := by
  obtain ⟨p, hp⟩ := ha
  obtain ⟨q, hq⟩ := ha'
  have hmax := hp (max p q) (Nat.le_max_left p q)
  rw [hq (max p q) (Nat.le_max_right p q)] at hmax
  exact (Option.some.inj hmax).symm

end Patience

/-! ### A single draw -/

section DrawBelow

variable {bits n : Nat} {words : Words} {word : UInt64} {pos : Nat}

/-- The word is passed over by a draw of a number below `n`. -/
def Rejected (bits n : Nat) (word : UInt64) : Prop :=
  zone bits n < word.toNat % (1 <<< bits) * n % (1 <<< bits)

/-- The word is accepted, and this is the number that it gives. -/
def Hits (bits : Nat) (word : UInt64) (j : Fin n) : Prop :=
  ¬ Rejected bits n word ∧ word.toNat % (1 <<< bits) * n / (1 <<< bits) = j

theorem drawBelow_of_rejected (h : Rejected bits n (words pos)) (patience : Nat) :
    drawBelow bits n words (patience + 1) pos = drawBelow bits n words patience (pos + 1) :=
  if_neg (Nat.not_le.2 h)

theorem drawBelow_of_hits {j : Fin n} (h : Hits bits (words pos) j) (patience : Nat) :
    drawBelow bits n words (patience + 1) pos = some (j, pos + 1) := by
  obtain ⟨haccept, hnumber⟩ := h
  have hlt : (words pos).toNat % (1 <<< bits) * n / (1 <<< bits) < n := hnumber ▸ j.isLt
  refine (if_pos (Nat.not_lt.1 haccept)).trans ((dif_pos hlt).trans ?_)
  exact congrArg some (Prod.ext (Fin.ext hnumber) rfl)

/-- Every word is passed over or gives a number. -/
theorem rejected_or_hits (hn : 0 < n) (word : UInt64) : Rejected bits n word ∨ ∃ j : Fin n, Hits bits word j := by
  by_cases h : Rejected bits n word
  · exact .inl h
  · have hsize : 0 < 1 <<< bits := by
      rw [Nat.one_shiftLeft]
      exact Nat.two_pow_pos bits
    have hlt : word.toNat % (1 <<< bits) * n / (1 <<< bits) < n := by
      rw [Nat.div_lt_iff_lt_mul hsize, Nat.mul_comm n]
      exact Nat.mul_lt_mul_of_pos_right (Nat.mod_lt _ hsize) hn
    exact .inr ⟨⟨_, hlt⟩, h, rfl⟩

/-- Every number below `n` is given by some word, the first one whose product with `n` reaches far enough. -/
theorem exists_hits (hbits : bits ≤ 64) (hn : n ≤ 2 ^ bits) (j : Fin n) : ∃ word, Hits bits word j := by
  have hj := j.isLt
  have hdiv := Nat.div_add_mod (j.val * 2 ^ bits + (n - 1)) n
  have hmod := Nat.mod_lt (j.val * 2 ^ bits + (n - 1)) (Nat.zero_lt_of_lt hj)
  obtain ⟨w, hw⟩ : ∃ w, w = (j.val * 2 ^ bits + (n - 1)) / n := ⟨_, rfl⟩
  rw [← hw] at hdiv
  -- The product overshoots by less than `n`.
  obtain ⟨t, ht, hproduct⟩ : ∃ t < n, w * n = t + j.val * 2 ^ bits := by
    refine ⟨w * n - j.val * 2 ^ bits, ?_, ?_⟩ <;> rw [Nat.mul_comm w n] <;> omega
  have hlt : w < 2 ^ bits := by
    refine Nat.lt_of_mul_lt_mul_right (a := n) ?_
    calc w * n = t + j.val * 2 ^ bits := hproduct
      _ < 2 ^ bits + j.val * 2 ^ bits := by omega
      _ = (j.val + 1) * 2 ^ bits := by rw [Nat.add_mul, Nat.one_mul, Nat.add_comm]
      _ ≤ 2 ^ bits * n := by rw [Nat.mul_comm _ n]; exact Nat.mul_le_mul_right _ hj
  have hword : (UInt64.ofNat w).toNat = w :=
    UInt64.toNat_ofNat_of_lt (Nat.lt_of_lt_of_le hlt (Nat.pow_le_pow_right (by decide) hbits))
  have hzone : n - 1 ≤ zone bits n := by
    rw [zone, Nat.shiftLeft_eq]
    exact Nat.sub_le_sub_right (Nat.le_mul_of_pos_right n (Nat.two_pow_pos _)) 1
  refine ⟨UInt64.ofNat w, ?_, ?_⟩
  · rw [Rejected, Nat.one_shiftLeft, hword, Nat.mod_eq_of_lt hlt, hproduct, Nat.add_mul_mod_self_right,
      Nat.mod_eq_of_lt (Nat.lt_of_lt_of_le ht hn)]
    omega
  · rw [Nat.one_shiftLeft, hword, Nat.mod_eq_of_lt hlt, hproduct, Nat.add_mul_div_right _ _ (Nat.two_pow_pos bits),
      Nat.div_eq_of_lt (Nat.lt_of_lt_of_le ht hn), Nat.zero_add]

theorem lasting_drawBelow (hn : 0 < n) (pos : Nat) : Lasting fun p => drawBelow bits n words p pos := by
  intro p more r hle h
  induction p generalizing pos more with
  | zero => cases h
  | succ p ih =>
    obtain ⟨more, rfl⟩ := Nat.exists_eq_add_of_le' (Nat.le_trans (Nat.le_add_left 1 p) hle)
    dsimp only at h ⊢
    rcases rejected_or_hits hn (words pos) with hrejected | ⟨j, hhits⟩
    · rw [drawBelow_of_rejected hrejected] at h ⊢
      exact ih _ (Nat.le_of_succ_le_succ hle) h
    · rw [drawBelow_of_hits hhits] at h ⊢
      exact h

theorem gives_drawBelow_of_hits {j : Fin n} (h : Hits bits (words pos) j) :
    Gives (fun p => drawBelow bits n words p pos) (j, pos + 1) := by
  refine ⟨1, fun patience hle => ?_⟩
  obtain ⟨p, rfl⟩ := Nat.exists_eq_add_of_le' hle
  exact drawBelow_of_hits h p

/-- A draw comes to an end unless all words from its position on are rejected. -/
theorem exists_gives_drawBelow (hn : 0 < n) (pos : Nat) (h : ∃ i, ¬ Rejected bits n (words (pos + i))) :
    ∃ r, Gives (fun p => drawBelow bits n words p pos) r := by
  obtain ⟨i, hi⟩ := h
  induction i generalizing pos with
  | zero =>
    obtain ⟨j, hhits⟩ := (rejected_or_hits hn (words pos)).resolve_left hi
    exact ⟨_, gives_drawBelow_of_hits hhits⟩
  | succ i ih =>
    rcases rejected_or_hits hn (words pos) with hrejected | ⟨j, hhits⟩
    · obtain ⟨r, enough, hr⟩ := ih (pos + 1) (by rwa [Nat.add_right_comm, Nat.add_assoc])
      refine ⟨r, enough + 1, fun patience hle => ?_⟩
      obtain ⟨p, rfl⟩ := Nat.exists_eq_add_of_le' (Nat.le_trans (Nat.le_add_left 1 enough) hle)
      exact (drawBelow_of_rejected hrejected p).trans (hr p (Nat.le_of_succ_le_succ hle))
    · exact ⟨_, gives_drawBelow_of_hits hhits⟩

end DrawBelow

/-! ### Several draws -/

/-- How many characters there are to pick one from. -/
def classSizes : List Nat := [letters.length, digits.length, symbols.length, alphabet.length]

private theorem letters_mem : letters.length ∈ classSizes := .head _

private theorem digits_mem : digits.length ∈ classSizes := .tail _ (.head _)

private theorem symbols_mem : symbols.length ∈ classSizes := .tail _ (.tail _ (.head _))

private theorem alphabet_mem : alphabet.length ∈ classSizes := .tail _ (.tail _ (.tail _ (.head _)))

private theorem bounds_of_classSizes : ∀ n ∈ classSizes, 0 < n ∧ n ≤ 2 ^ 64 := by decide +kernel

private theorem pos_of_classSizes {n : Nat} (h : n ∈ classSizes) : 0 < n := (bounds_of_classSizes n h).1

section Draws

variable {n m extra : Nat} {words : Words}

theorem lasting_drawMany (hn : 0 < n) (m pos : Nat) : Lasting fun p => drawMany n words p m pos := by
  induction m generalizing pos with
  | zero => exact lasting_pure _
  | succ m ih =>
    refine (lasting_drawBelow hn pos).bind fun first => ?_
    exact (ih first.2).bind fun others => lasting_pure _

theorem lasting_drawPartners (m pos : Nat) : Lasting fun p => drawPartners words p m pos := by
  induction m generalizing pos with
  | zero => exact lasting_pure _
  | succ m ih =>
    refine (lasting_drawBelow (Nat.succ_pos _) pos).bind fun last => ?_
    exact (ih last.2).bind fun others => lasting_pure _

theorem lasting_draw (extra : Nat) (words : Words) : Lasting (draw extra words) := by
  refine (lasting_drawBelow (pos_of_classSizes letters_mem) 0).bind fun letter => ?_
  refine (lasting_drawBelow (pos_of_classSizes digits_mem) letter.2).bind fun digit => ?_
  refine (lasting_drawBelow (pos_of_classSizes symbols_mem) digit.2).bind fun symbol => ?_
  refine (lasting_drawMany (pos_of_classSizes alphabet_mem) extra symbol.2).bind fun others => ?_
  exact (lasting_drawPartners (extra + 2) others.2).bind fun partner => lasting_pure _

/-- The draws for a password: the number of bits that a word is cut to, and the bound of the number. -/
def IsDraw (length bits n : Nat) : Prop :=
  bits = 64 ∧ n ∈ classSizes ∨ bits = 32 ∧ 2 ≤ n ∧ n ≤ length

/-- From some position on, the stream has no word that one of the draws accepts. -/
def Starves (length : Nat) (words : Words) : Prop :=
  ∃ bits n pos, IsDraw length bits n ∧ ∀ i, Rejected bits n (words (pos + i))

theorem exists_gives_drawMany (hn : 0 < n) (h : ∀ pos, ∃ i, ¬ Rejected 64 n (words (pos + i))) (m pos : Nat) :
    ∃ r, Gives (fun p => drawMany n words p m pos) r := by
  induction m generalizing pos with
  | zero => exact ⟨_, gives_pure _⟩
  | succ m ih =>
    refine exists_gives_bind (exists_gives_drawBelow hn pos (h pos)) fun first => ?_
    exact exists_gives_bind (ih first.2) fun others => ⟨_, gives_pure _⟩

theorem exists_gives_drawPartners {m : Nat}
    (h : ∀ n, 2 ≤ n → n ≤ m + 1 → ∀ pos, ∃ i, ¬ Rejected 32 n (words (pos + i))) (pos : Nat) :
    ∃ r, Gives (fun p => drawPartners words p m pos) r := by
  induction m generalizing pos with
  | zero => exact ⟨_, gives_pure _⟩
  | succ m ih =>
    have hlast := h (m + 2) (Nat.le_add_left 2 m) (Nat.le_refl _) pos
    refine exists_gives_bind (exists_gives_drawBelow (Nat.succ_pos (m + 1)) pos hlast) fun last => ?_
    have hothers := ih (fun n hlow hhigh => h n hlow (Nat.le_succ_of_le hhigh)) last.2
    exact exists_gives_bind hothers fun others => ⟨_, gives_pure _⟩

/-- All draws succeed, unless one of them finds no word that it accepts. -/
theorem exists_gives_draw (h : ¬ Starves (extra + 3) words) : ∃ d, Gives (draw extra words) d := by
  have hoffers {bits n : Nat} (hdraw : IsDraw (extra + 3) bits n) (pos : Nat) :
      ∃ i, ¬ Rejected bits n (words (pos + i)) := not_forall.1 fun hall => h ⟨bits, n, pos, hdraw, hall⟩
  have hpick {n : Nat} (hn : n ∈ classSizes) (pos : Nat) : ∃ r, Gives (fun p => drawBelow 64 n words p pos) r :=
    exists_gives_drawBelow (pos_of_classSizes hn) pos (hoffers (.inl ⟨rfl, hn⟩) pos)
  refine exists_gives_bind (hpick letters_mem 0) fun letter => ?_
  refine exists_gives_bind (hpick digits_mem letter.2) fun digit => ?_
  refine exists_gives_bind (hpick symbols_mem digit.2) fun symbol => ?_
  have hothers := hoffers (.inl ⟨rfl, alphabet_mem⟩)
  refine exists_gives_bind (exists_gives_drawMany (pos_of_classSizes alphabet_mem) hothers _ _) fun others => ?_
  refine exists_gives_bind (exists_gives_drawPartners ?_ others.2) fun partner => ⟨_, gives_pure _⟩
  exact fun n hlow hhigh => hoffers (.inr ⟨rfl, hlow, hhigh⟩)

end Draws

/-! ### Words for given choices -/

section Reads

variable {n m extra : Nat} {words : Words} {pos : Nat}

/-- From this position on, the stream holds the given words. -/
def Reads (words : Words) (pos : Nat) (given : List UInt64) : Prop :=
  ∀ i (h : i < given.length), words (pos + i) = given[i]

theorem reads_append_iff {given more : List UInt64} :
    Reads words pos (given ++ more) ↔ Reads words pos given ∧ Reads words (pos + given.length) more := by
  constructor
  · intro h
    constructor
    · intro i hi
      rw [h i (by rw [List.length_append]; omega), List.getElem_append_left]
    · intro i hi
      rw [Nat.add_assoc, h (given.length + i) (by rw [List.length_append]; omega),
        List.getElem_append_right (by omega)]
      simp only [Nat.add_sub_cancel_left]
  · rintro ⟨hgiven, hmore⟩ i hi
    rcases Nat.lt_or_ge i given.length with hlt | hge
    · rw [hgiven i hlt, List.getElem_append_left]
    · have hi' := hmore (i - given.length) (by rw [List.length_append] at hi; omega)
      rw [List.getElem_append_right hge, ← hi']
      congr 1
      omega

theorem exists_reads (given : List UInt64) : ∃ words, Reads words 0 given := by
  refine ⟨fun i => given.getD i 0, fun i hi => ?_⟩
  rw [Nat.zero_add]
  exact (List.getElem_eq_getD 0).symm

/-- Some words make the draw give this result, wherever they stand in a stream. -/
def Reachable {α : Type} (f : Words → (pos patience : Nat) → Option (α × Nat)) (a : α) : Prop :=
  ∃ given, ∀ words pos, Reads words pos given → Gives (f words pos) (a, pos + given.length)

theorem reachable_drawBelow {bits : Nat} (hbits : bits ≤ 64) (hn : n ≤ 2 ^ bits) (j : Fin n) :
    Reachable (fun words pos p => drawBelow bits n words p pos) j := by
  obtain ⟨word, hword⟩ := exists_hits hbits hn j
  refine ⟨[word], fun words pos h => ?_⟩
  have hread : words pos = word := h 0 Nat.zero_lt_one
  exact gives_drawBelow_of_hits (hread ▸ hword)

theorem reachable_drawMany (hn : n ≤ 2 ^ 64) (f : Fin m → Fin n) :
    Reachable (fun words pos p => drawMany n words p m pos) f := by
  induction m with
  | zero => exact ⟨[], fun words pos _ => gives_pure_of_eq (Prod.ext (funext fun i => i.elim0) rfl)⟩
  | succ m ih =>
    obtain ⟨first, hfirst⟩ := reachable_drawBelow (Nat.le_refl 64) hn (f 0)
    obtain ⟨others, hothers⟩ := ih fun i => f i.succ
    refine ⟨first ++ others, fun words pos h => ?_⟩
    rw [reads_append_iff] at h
    refine (hfirst words pos h.1).bind ((hothers words _ h.2).bind (gives_pure_of_eq (Prod.ext ?_ ?_)))
    · funext i
      rcases i with ⟨_ | i, hi⟩ <;> rfl
    · rw [List.length_append, Nat.add_assoc]

theorem reachable_drawPartners (hm : m < 2 ^ 32) (f : (k : Fin m) → Fin (k.val + 2)) :
    Reachable (fun words pos p => drawPartners words p m pos) f := by
  induction m with
  | zero => exact ⟨[], fun words pos _ => gives_pure_of_eq (Prod.ext (funext fun i => i.elim0) rfl)⟩
  | succ m ih =>
    obtain ⟨last, hlast⟩ := reachable_drawBelow (by decide) (Nat.succ_le_of_lt hm) (f (Fin.last m))
    obtain ⟨others, hothers⟩ := ih (Nat.lt_of_succ_lt hm) fun k => f k.castSucc
    refine ⟨last ++ others, fun words pos h => ?_⟩
    rw [reads_append_iff] at h
    refine (hlast words pos h.1).bind ((hothers words _ h.2).bind (gives_pure_of_eq (Prod.ext ?_ ?_)))
    · funext k
      by_cases hk : k.val < m
      · exact dif_pos hk
      · obtain rfl : k = Fin.last m := Fin.ext (Nat.le_antisymm (Nat.le_of_lt_succ k.isLt) (Nat.not_lt.1 hk))
        exact dif_neg hk
    · rw [List.length_append, Nat.add_assoc]

/-- Any choices are drawn from some stream. -/
theorem exists_gives_choices (hextra : extra + 3 ≤ maxLength) (c : Choices extra) :
    ∃ words d, Gives (draw extra words) d ∧ d.choices = c := by
  have hpartners : extra + 2 < 2 ^ 32 := Nat.lt_of_lt_of_le hextra (by decide)
  have hpick {n : Nat} (hn : n ∈ classSizes) (j : Fin n) :
      Reachable (fun words pos p => drawBelow 64 n words p pos) j :=
    reachable_drawBelow (Nat.le_refl 64) (bounds_of_classSizes n hn).2 j
  obtain ⟨letter, hletter⟩ := hpick letters_mem c.letter
  obtain ⟨digit, hdigit⟩ := hpick digits_mem c.digit
  obtain ⟨symbol, hsymbol⟩ := hpick symbols_mem c.symbol
  obtain ⟨others, hothers⟩ := reachable_drawMany (bounds_of_classSizes _ alphabet_mem).2 c.others
  obtain ⟨partner, hpartner⟩ := reachable_drawPartners hpartners c.partner
  obtain ⟨words, hwords⟩ := exists_reads (letter ++ (digit ++ (symbol ++ (others ++ partner))))
  simp only [reads_append_iff] at hwords
  obtain ⟨hreadLetter, hreadDigit, hreadSymbol, hreadOthers, hreadPartner⟩ := hwords
  let picked := 0 + letter.length + digit.length + symbol.length + others.length
  refine ⟨words, ⟨c, picked, picked + partner.length - picked⟩, ?_, rfl⟩
  refine (hletter words _ hreadLetter).bind ((hdigit words _ hreadDigit).bind ?_)
  refine (hsymbol words _ hreadSymbol).bind ((hothers words _ hreadOthers).bind ?_)
  exact (hpartner words _ hreadPartner).bind (gives_pure _)

end Reads

end VaultChat.Password
