import VaultChat.Password.Generator
import VaultChat.Proofs.Drawing
import VaultChat.Proofs.Shuffle

/-!
# Which passwords are generated

A password conforms if it has the length that was asked for, a character of each class, and no character of another
kind.  The choices give the conforming passwords and no others (`conforms_password`, `exists_choices_of_conforms`),
and every choice can be drawn, so these are exactly the passwords that some stream of random words leads to
(`yields_iff_conforms`).
-/

namespace VaultChat.Password

/-- The password has this length, a letter, a digit and a symbol, and nothing else than these. -/
structure Conforms (length : Nat) (password : String) : Prop where
  length_eq : password.length = length
  letter : ∃ c ∈ password.toList, c ∈ letters
  digit : ∃ c ∈ password.toList, c ∈ digits
  symbol : ∃ c ∈ password.toList, c ∈ symbols
  known : ∀ c ∈ password.toList, c ∈ alphabet

section Choices

variable {extra : Nat}

private theorem toList_picked (c : Choices extra) : c.picked.toList =
    letters.get c.letter :: digits.get c.digit :: symbols.get c.symbol ::
      List.ofFn fun i => alphabet.get (c.others i) := rfl

theorem Choices.conforms_password (c : Choices extra) : Conforms (extra + 3) c.password := by
  have hpassword : c.password.toList = (c.shuffle c.picked).toList := String.toList_ofList
  have hmem (x : Char) : x ∈ c.password.toList ↔ x ∈ c.picked.toList := by
    rw [hpassword]
    exact (c.shuffle_perm c.picked).mem_iff
  simp only [toList_picked, List.mem_cons, List.mem_ofFn] at hmem
  have hletter : letters.get c.letter ∈ c.password.toList := (hmem _).2 (.inl rfl)
  have hdigit : digits.get c.digit ∈ c.password.toList := (hmem _).2 (.inr (.inl rfl))
  have hsymbol : symbols.get c.symbol ∈ c.password.toList := (hmem _).2 (.inr (.inr (.inl rfl)))
  refine ⟨?_, ⟨_, hletter, List.get_mem _ _⟩, ⟨_, hdigit, List.get_mem _ _⟩, ⟨_, hsymbol, List.get_mem _ _⟩,
    fun x hx => ?_⟩
  · rw [← String.length_toList, c.length_password]
  · rw [alphabet]
    rcases (hmem x).1 hx with rfl | rfl | rfl | ⟨i, rfl⟩
    · exact List.mem_append_left _ (List.mem_append_left _ (List.get_mem _ _))
    · exact List.mem_append_left _ (List.mem_append_right _ (List.get_mem _ _))
    · exact List.mem_append_right _ (List.get_mem _ _)
    · exact List.get_mem alphabet _

private theorem nodup_alphabet : alphabet.Nodup := by decide +kernel

/-- No character belongs to two classes. -/
private theorem classes_disjoint {x y : Char} (h : x ∈ letters ∧ y ∈ digits ∨ x ∈ letters ∧ y ∈ symbols ∨
    x ∈ digits ∧ y ∈ symbols) : x ≠ y := by
  have hsymbols : (letters ++ digits).Disjoint symbols := List.disjoint_of_nodup_append nodup_alphabet
  have hdigits : letters.Disjoint digits := List.disjoint_of_nodup_append (nodup_alphabet.of_append_left)
  rintro rfl
  rcases h with ⟨hx, hy⟩ | ⟨hx, hy⟩ | ⟨hx, hy⟩
  · exact hdigits hx hy
  · exact hsymbols (List.mem_append_left _ hx) hy
  · exact hsymbols (List.mem_append_right _ hx) hy

/-- A conforming password has a character of each class, and others. -/
private theorem Conforms.exists_perm {password : String} (h : Conforms (extra + 3) password) :
    ∃ x ∈ letters, ∃ y ∈ digits, ∃ z ∈ symbols, ∃ others : List Char, others.length = extra ∧
      (∀ c ∈ others, c ∈ alphabet) ∧ password.toList.Perm (x :: y :: z :: others) := by
  obtain ⟨hlength, ⟨x, hx, hletter⟩, ⟨y, hy, hdigit⟩, ⟨z, hz, hsymbol⟩, hknown⟩ := h
  have hxy : y ≠ x := (classes_disjoint (.inl ⟨hletter, hdigit⟩)).symm
  have hxz : z ≠ x := (classes_disjoint (.inr (.inl ⟨hletter, hsymbol⟩))).symm
  have hyz : z ≠ y := (classes_disjoint (.inr (.inr ⟨hdigit, hsymbol⟩))).symm
  have hfirst := List.perm_cons_erase hx
  have hsecond := List.perm_cons_erase ((List.mem_erase_of_ne hxy).2 hy)
  have hthird := List.perm_cons_erase ((List.mem_erase_of_ne hyz).2 ((List.mem_erase_of_ne hxz).2 hz))
  have hperm := hfirst.trans ((hsecond.trans (hthird.cons y)).cons x)
  refine ⟨x, hletter, y, hdigit, z, hsymbol, _, ?_, fun c hc => hknown c ?_, hperm⟩
  · have hcount := hperm.length_eq
    rw [String.length_toList, hlength] at hcount
    simp only [List.length_cons] at hcount
    omega
  · exact hperm.mem_iff.2 (List.mem_cons_of_mem x (List.mem_cons_of_mem y (List.mem_cons_of_mem z hc)))

/-- The characters in some order of choice, and the shuffle that undoes it. -/
theorem exists_choices_of_conforms {password : String} (h : Conforms (extra + 3) password) :
    ∃ c : Choices extra, c.password = password := by
  obtain ⟨x, hletter, y, hdigit, z, hsymbol, others, hlength, hknown, hperm⟩ := h.exists_perm
  obtain ⟨letter, rfl⟩ := List.get_of_mem hletter
  obtain ⟨digit, rfl⟩ := List.get_of_mem hdigit
  obtain ⟨symbol, rfl⟩ := List.get_of_mem hsymbol
  subst hlength
  choose other hother using fun i => List.get_of_mem (hknown (others.get i) (List.get_mem others i))
  let unshuffled : Choices others.length := { Choices.trivial _ with letter, digit, symbol, others := other }
  have hpicked : unshuffled.picked.toList =
      letters.get letter :: digits.get digit :: symbols.get symbol :: others := by
    rw [toList_picked]
    simp only [unshuffled, hother, List.ofFn_get]
  let wanted : Vector Char (others.length + 3) :=
    ⟨password.toList.toArray, by rw [List.size_toArray, String.length_toList, h.length_eq]⟩
  have hwanted : wanted.toList.Perm unshuffled.picked.toList := by rwa [hpicked]
  obtain ⟨partner, hshuffle⟩ := Choices.exists_shuffle_eq hwanted
  refine ⟨{ unshuffled with partner }, ?_⟩
  have hresult := hshuffle { unshuffled with partner } rfl
  exact (congrArg (fun v => String.ofList v.toList) hresult).trans String.ofList_toList

end Choices

/-! ### Streams -/

/-- With enough patience, the stream of words leads to this password. -/
def Yields (length : Nat) (words : Words) (password : String) : Prop :=
  ∃ patience g, generate length words patience = .ok (some g) ∧ g.password = password

section Streams

variable {length extra : Nat} {words : Words}

theorem generate_of_not_served (h : length < minLength ∨ maxLength < length) (words : Words) (patience : Nat) :
    generate length words patience = .error (.invalidInput
      s!"password length must be between {minLength} and {maxLength}, got {length}") := by
  have hrefused : freeCharacters length = .error _ := if_neg fun hserved => by omega
  rw [generate, hrefused]
  rfl

theorem generate_of_served (hmin : minLength ≤ extra + 3) (hmax : extra + 3 ≤ maxLength) (words : Words)
    (patience : Nat) : generate (extra + 3) words patience =
      .ok ((draw extra words patience).map fun d => ⟨d.choices.password, d.forCharacters, d.forPartners⟩) := by
  have hserved : freeCharacters (extra + 3) = .ok extra := if_pos ⟨hmin, hmax⟩
  rw [generate, hserved]
  rfl

theorem yields_iff (hmin : minLength ≤ extra + 3) (hmax : extra + 3 ≤ maxLength) {password : String} :
    Yields (extra + 3) words password ↔ ∃ d, Gives (draw extra words) d ∧ d.choices.password = password := by
  constructor
  · rintro ⟨patience, g, hg, rfl⟩
    rw [generate_of_served hmin hmax] at hg
    obtain ⟨d, hd, rfl⟩ := Option.map_eq_some_iff.1 (Except.ok.inj hg)
    exact ⟨d, (lasting_draw extra words).gives hd, rfl⟩
  · rintro ⟨d, ⟨enough, hd⟩, rfl⟩
    refine ⟨enough, ⟨d.choices.password, d.forCharacters, d.forPartners⟩, ?_, rfl⟩
    rw [generate_of_served hmin hmax, hd enough (Nat.le_refl enough), Option.map_some]

/-- A length that is not served is refused whatever the words are, even with no patience for a single one.  For a
length that is served, a stream yields one password at most, and it yields one unless some draw finds no word that it
accepts.  The passwords that streams yield are those that conform. -/
theorem yields_iff_conforms (length : Nat) :
    (length < minLength ∨ maxLength < length → ∀ words patience, generate length words patience =
      .error (.invalidInput s!"password length must be between {minLength} and {maxLength}, got {length}")) ∧
    (minLength ≤ length → length ≤ maxLength →
      (∀ words patience, ∃ result, generate length words patience = .ok result) ∧
      (∀ words, (∃ password, Yields length words password) ∨ Starves length words) ∧
      (∀ words password other, Yields length words password → Yields length words other → password = other) ∧
      ∀ password, (∃ words, Yields length words password) ↔ Conforms length password) := by
  refine ⟨fun h => generate_of_not_served h, fun hmin hmax => ?_⟩
  obtain ⟨extra, rfl⟩ := Nat.exists_eq_add_of_le' (Nat.le_trans (by decide : 3 ≤ minLength) hmin)
  simp only [yields_iff hmin hmax]
  refine ⟨fun words patience => ?_, fun words => ?_, ?_, fun password => ?_⟩
  · exact ⟨_, generate_of_served hmin hmax words patience⟩
  · by_cases hstarves : Starves (extra + 3) words
    · exact .inr hstarves
    · obtain ⟨d, hd⟩ := exists_gives_draw hstarves
      exact .inl ⟨_, d, hd, rfl⟩
  · rintro words _ _ ⟨d, hd, rfl⟩ ⟨d', hd', rfl⟩
    rw [hd.unique hd']
  · constructor
    · rintro ⟨words, d, -, rfl⟩
      exact d.choices.conforms_password
    · intro h
      obtain ⟨c, rfl⟩ := exists_choices_of_conforms h
      obtain ⟨words, d, hd, hchoices⟩ := exists_gives_choices hmax c
      exact ⟨words, d, hd, congrArg Choices.password hchoices⟩

end Streams

end VaultChat.Password
