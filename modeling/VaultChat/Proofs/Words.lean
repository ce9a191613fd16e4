import Mathlib.Data.List.TakeWhile
import VaultChat.Text.Blank

/-!
# What lies between blanks

Trimming, cutting at a blank and splitting into words, each described by how the text is put together.  Trimming gives
the part between the blanks at both ends (`trim_eq_iff`), a cut at the first blank gives the word that the text starts
with (`cut_isBlank_append`), and the words of a text are its runs without blanks, none of which can be made longer
(`words_eq_iff`).
-/

namespace VaultChat.Text

/-- Nothing but blanks. -/
def Blanks (cs : List Char) : Prop := ∀ c ∈ cs, isBlank c = true

/-- No blank at all. -/
def Solid (cs : List Char) : Prop := ∀ c ∈ cs, isBlank c = false

/-- The text is empty or starts with a blank, so that no word before it goes on in it. -/
def StartsBlank (cs : List Char) : Prop := ∀ c ∈ cs.head?, isBlank c = true

/-- The marks of ASCII, letters and digits among them, are no blanks. -/
theorem not_isBlank_of_mark {c : Char} (h : 0x21 ≤ c.toNat ∧ c.toNat ≤ 0x7E) : isBlank c = false := by
  rw [isBlank, ← Bool.not_eq_true, inRanges_iff]
  simp only [blankRanges, List.mem_cons, List.not_mem_nil, or_false, not_exists, not_and]
  rintro r (rfl | rfl | rfl | rfl | rfl | rfl | rfl | rfl | rfl | rfl) <;> omega

theorem startsBlank_of_blanks {cs : List Char} (h : Blanks cs) : StartsBlank cs := fun c hc =>
  h c (List.mem_of_head? hc)

/-- Every text is a word, which may be empty, and a rest that does not go on with the word. -/
theorem exists_solid_append (cs : List Char) : ∃ word rest, cs = word ++ rest ∧ Solid word ∧ StartsBlank rest := by
  induction cs with
  | nil => exact ⟨[], [], rfl, nofun, nofun⟩
  | cons c cs ih =>
    by_cases hc : isBlank c = true
    · exact ⟨[], c :: cs, rfl, nofun, fun d hd => by rwa [← Option.some.inj hd]⟩
    · obtain ⟨word, rest, rfl, hword, hrest⟩ := ih
      exact ⟨c :: word, rest, rfl, List.forall_mem_cons.2 ⟨eq_false_of_ne_true hc, hword⟩, hrest⟩

/-! ### Trimming -/

/-- `core` is what `cs` has between the blanks at its ends. -/
structure Trims (cs core : List Char) : Prop where
  joined : ∃ before after, Blanks before ∧ Blanks after ∧ cs = before ++ core ++ after
  head : ∀ c ∈ core.head?, isBlank c = false
  last : ∀ c ∈ core.getLast?, isBlank c = false

theorem trimStart_append {gap cs : List Char} (hgap : Blanks gap) (h : ∀ c ∈ cs.head?, isBlank c = false) :
    trimStart (gap ++ cs) = cs := by
  rw [trimStart, List.dropWhile_append_of_pos hgap]
  cases cs with
  | nil => rfl
  | cons c cs => exact List.dropWhile_cons_of_neg (by simp [h c rfl])

theorem exists_blanks_append_trimStart (cs : List Char) : ∃ gap, Blanks gap ∧ cs = gap ++ trimStart cs := by
  refine ⟨cs.takeWhile isBlank, fun c hc => List.mem_takeWhile_imp hc, ?_⟩
  exact List.takeWhile_append_dropWhile.symm

theorem head_trimStart (cs : List Char) : ∀ c ∈ (trimStart cs).head?, isBlank c = false := by
  intro c hc
  have hnot := List.head?_dropWhile_not isBlank cs
  rw [← trimStart, Option.mem_def.1 hc] at hnot
  simpa using hnot

private theorem blanks_reverse {cs : List Char} (h : Blanks cs) : Blanks cs.reverse := fun c hc =>
  h c (List.mem_reverse.1 hc)

private theorem trims_trim (cs : List Char) : Trims cs (trim cs) := by
  obtain ⟨before, hbefore, hcs⟩ := exists_blanks_append_trimStart cs
  obtain ⟨after, hafter, hrest⟩ := exists_blanks_append_trimStart (trimStart cs).reverse
  have hsplit : trimStart cs = trim cs ++ after.reverse := by
    rw [← List.reverse_inj, hrest, List.reverse_append, List.reverse_reverse]
    simp [trim, trimEnd, trimStart]
  constructor
  · refine ⟨before, after.reverse, hbefore, blanks_reverse hafter, ?_⟩
    rw [List.append_assoc, ← hsplit, ← hcs]
  · intro c hc
    refine head_trimStart cs c ?_
    rw [hsplit, List.head?_append, Option.mem_def.1 hc]
    rfl
  · intro c hc
    refine head_trimStart (trimStart cs).reverse c ?_
    rwa [trim, trimEnd, List.getLast?_reverse] at hc

private theorem trim_of_trims {cs core : List Char} (h : Trims cs core) : trim cs = core := by
  obtain ⟨⟨before, after, hbefore, hafter, rfl⟩, hhead, hlast⟩ := h
  rw [List.append_assoc, trim_append_of_blank hbefore, trim, trimEnd]
  by_cases hcore : core = []
  · have hblank : trimStart after = [] := List.dropWhile_eq_nil_iff.2 hafter
    rw [hcore, List.nil_append, hblank]
    rfl
  · have hstart : trimStart (core ++ after) = core ++ after := by
      obtain ⟨d, core', rfl⟩ := List.exists_cons_of_ne_nil hcore
      have hnone : Blanks [] := List.forall_mem_nil _
      exact trimStart_append hnone hhead
    have hend : trimStart (core ++ after).reverse = core.reverse := by
      rw [List.reverse_append]
      refine trimStart_append (blanks_reverse hafter) fun c hc => hlast c ?_
      rwa [List.head?_reverse] at hc
    rw [hstart, ← trimStart, hend, List.reverse_reverse]

theorem trim_eq_iff {cs core : List Char} : trim cs = core ↔ Trims cs core := by
  constructor
  · rintro rfl
    exact trims_trim cs
  · exact trim_of_trims

/-- Nothing is left of a text of blanks, and of no other one. -/
theorem trim_eq_nil_iff {cs : List Char} : trim cs = [] ↔ Blanks cs := by
  rw [trim_eq_iff]
  constructor
  · rintro ⟨⟨before, after, hbefore, hafter, rfl⟩, -, -⟩
    rw [List.append_nil]
    exact List.forall_mem_append.2 ⟨hbefore, hafter⟩
  · intro h
    exact ⟨⟨cs, [], h, nofun, by rw [List.append_nil, List.append_nil]⟩, nofun, nofun⟩

theorem trim_of_solid {cs : List Char} (h : Solid cs) : trim cs = cs := by
  refine trim_eq_iff.2 ⟨⟨[], [], nofun, nofun, (List.append_nil cs).symm⟩, ?_, ?_⟩
  · exact fun c hc => h c (List.mem_of_head? hc)
  · exact fun c hc => h c (List.mem_of_getLast? hc)

/-- The blank at which a text is parted from a word before it is trimmed away. -/
theorem trim_tail? {cs : List Char} (h : StartsBlank cs) : trim (cs.tail?.getD []) = trim cs := by
  cases cs with
  | nil => rfl
  | cons c cs =>
    have hc : ∀ d ∈ [c], isBlank d = true := List.forall_mem_singleton.2 (h c rfl)
    exact (trim_append_of_blank hc cs).symm

/-- The first blank behind a word is where the word ends. -/
theorem cut_isBlank_append {word rest : List Char} (hword : Solid word) (hrest : StartsBlank rest) :
    cut isBlank (word ++ rest) = (word, rest.tail?) := by
  rw [cut_append hword]
  cases rest with
  | nil => exact Prod.ext (List.append_nil word) rfl
  | cons c rest =>
    rw [cut_cons_of_pos (hrest c rfl)]
    exact Prod.ext (List.append_nil word) rfl

/-! ### Words -/

/-- The words lie in the text in this order, with blanks between them and perhaps around them. -/
inductive Spaced : List (List Char) → List Char → Prop where
  | nil {gap : List Char} (hgap : Blanks gap) : Spaced [] gap
  | cons {gap word rest : List Char} {ws : List (List Char)} (hgap : Blanks gap) (hne : word ≠ [])
      (hword : Solid word) (hrest : StartsBlank rest) (h : Spaced ws rest) : Spaced (word :: ws) (gap ++ word ++ rest)

private theorem words_cons (c : Char) (cs : List Char) : words (c :: cs) =
    if isBlank c then words cs
    else
      match cs, words cs with
      | d :: _, w :: ws => if isBlank d then [c] :: w :: ws else (c :: w) :: ws
      | _, ws => [c] :: ws := rfl

theorem words_append_of_blanks {gap : List Char} (h : Blanks gap) (cs : List Char) :
    words (gap ++ cs) = words cs := by
  induction gap with
  | nil => rfl
  | cons c gap ih =>
    obtain ⟨hc, hgap⟩ := List.forall_mem_cons.1 h
    rw [List.cons_append, words_cons, if_pos hc, ih hgap]

theorem words_append_of_solid {word rest : List Char} (hne : word ≠ []) (hword : Solid word)
    (hrest : StartsBlank rest) : words (word ++ rest) = word :: words rest := by
  induction word with
  | nil => exact absurd rfl hne
  | cons c word ih =>
    obtain ⟨hc, hword⟩ := List.forall_mem_cons.1 hword
    rw [List.cons_append, words_cons, if_neg (ne_true_of_eq_false hc)]
    cases word with
    | nil =>
      cases rest with
      | nil => rfl
      | cons d rest =>
        -- The word ends here, whether or not another one follows.
        have hd : isBlank d = true := hrest d rfl
        cases hws : words (d :: rest) <;> simp [hws, hd]
    | cons d word =>
      have hd : isBlank d = false := hword d List.mem_cons_self
      rw [ih nofun hword]
      simp [hd]

theorem spaced_words (cs : List Char) : Spaced (words cs) cs := by
  obtain ⟨gap, hgap, hcs⟩ := exists_blanks_append_trimStart cs
  obtain ⟨word, rest, hsplit, hword, hrest⟩ := exists_solid_append (trimStart cs)
  have hhead := head_trimStart cs
  rw [hsplit] at hcs hhead
  by_cases hne : word = []
  · have hnil : rest = [] := by
      rw [hne, List.nil_append] at hhead
      cases rest with
      | nil => rfl
      | cons c rest => exact absurd (hrest c rfl) (by simp [hhead c rfl])
    have hwords : words cs = [] := by rw [hcs, hne, hnil, words_append_of_blanks hgap]; rfl
    rw [hwords, hcs, hne, hnil, List.append_nil, List.append_nil]
    exact .nil hgap
  · have hlength : rest.length < cs.length := by
      have hpos := List.length_pos_iff.2 hne
      rw [hcs, List.length_append, List.length_append]
      omega
    have hwords : words cs = word :: words rest := by
      rw [hcs, words_append_of_blanks hgap, words_append_of_solid hne hword hrest]
    rw [hwords, hcs, ← List.append_assoc]
    exact .cons hgap hne hword hrest (spaced_words rest)
termination_by cs.length

/-- The words of a text are the runs without blanks that lie in it between blanks. -/
theorem words_eq_iff {cs : List Char} {ws : List (List Char)} : words cs = ws ↔ Spaced ws cs := by
  constructor
  · rintro rfl
    exact spaced_words cs
  · intro h
    induction h with
    | nil hgap =>
      have hwords := words_append_of_blanks hgap []
      rwa [List.append_nil] at hwords
    | cons hgap hne hword hrest _ ih =>
      rw [List.append_assoc, words_append_of_blanks hgap, words_append_of_solid hne hword hrest, ih]

end VaultChat.Text
