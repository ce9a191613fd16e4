import VaultChat.Chat.Input

/-!
# What the parsers accept

The forms of text that a dialogue accepts, told without the parsers: a code is a string of digits between blanks
(`parseCode_eq_some_iff`), an entry is its three parts with single spaces between them (`parseEntry_eq_some_iff`), an
id is an integer of 64 bits between blanks (`parseId_eq_some_iff`), and a confirmation is the word yes in letters of
any case (`isConfirmation_iff`).
-/

namespace VaultChat

namespace Text

theorem readNatural_of_digits {bound : Nat} {cs : List Char} (hne : cs ≠ []) (hd : ∀ c ∈ cs, isDigit c = true) :
    readNatural bound cs = readDigits bound .tooLarge 0 cs := by
  have hplus : isDigit '+' ≠ true := by decide
  have hminus : isDigit '-' ≠ true := by decide
  unfold readNatural
  split
  · exact absurd rfl hne
  · exact absurd (hd '+' (by simp)) hplus
  · exact absurd (hd '-' (by simp)) hminus
  · exact absurd (hd '+' (by simp)) hplus
  · rfl

/-- The text is an integer from `-(bound + 1)` to `bound`: digits after an optional sign. -/
inductive IsInteger (bound : Nat) : List Char → Int → Prop where
  | unsigned {ds : List Char} (hne : ds ≠ []) (hd : ∀ c ∈ ds, isDigit c = true) (hb : digitsValue 0 ds ≤ bound) :
      IsInteger bound ds (digitsValue 0 ds)
  | plus {ds : List Char} (hne : ds ≠ []) (hd : ∀ c ∈ ds, isDigit c = true) (hb : digitsValue 0 ds ≤ bound) :
      IsInteger bound ('+' :: ds) (digitsValue 0 ds)
  | minus {ds : List Char} (hne : ds ≠ []) (hd : ∀ c ∈ ds, isDigit c = true) (hb : digitsValue 0 ds ≤ bound + 1) :
      IsInteger bound ('-' :: ds) (-digitsValue 0 ds)

private theorem map_readDigits_eq_ok_iff {bound : Nat} {excess : NumeralFault} {cs : List Char} {f : Nat → Int}
    {n : Int} : (readDigits bound excess 0 cs).map f = .ok n ↔
      (∀ c ∈ cs, isDigit c = true) ∧ digitsValue 0 cs ≤ bound ∧ f (digitsValue 0 cs) = n := by
  have hread : ∀ k, readDigits bound excess 0 cs = .ok k ↔ _ := fun k => readDigits_eq_ok_iff (Nat.zero_le bound)
  cases hr : readDigits bound excess 0 cs with
  | ok k =>
    obtain ⟨hd, hk, hb⟩ := (hread k).1 hr
    subst hk
    simp only [Except.map, Except.ok.injEq]
    exact ⟨fun h => ⟨hd, hb, h⟩, fun h => h.2.2⟩
  | error e =>
    refine ⟨nofun, fun ⟨hd, hb, _⟩ => ?_⟩
    rw [(hread _).2 ⟨hd, rfl, hb⟩] at hr
    cases hr

private theorem neg_readDigits_eq_ok_iff {bound : Nat} {excess : NumeralFault} {cs : List Char} {n : Int} :
    ((readDigits bound excess 0 cs : Except NumeralFault Int).map fun n => -n) = .ok n ↔
      (∀ c ∈ cs, isDigit c = true) ∧ digitsValue 0 cs ≤ bound ∧ -(digitsValue 0 cs : Int) = n := by
  have hread : Except.map (fun k : Nat => -(k : Int)) (readDigits bound excess 0 cs) = .ok n ↔ _ :=
    map_readDigits_eq_ok_iff
  rw [← hread]
  cases readDigits bound excess 0 cs <;> exact Iff.rfl

theorem readInteger_eq_ok_iff {bound : Nat} {cs : List Char} {n : Int} :
    readInteger bound cs = .ok n ↔ IsInteger bound cs n := by
  have hplus : isDigit '+' ≠ true := by decide
  have hminus : isDigit '-' ≠ true := by decide
  constructor
  · intro h
    unfold readInteger at h
    split at h
    · cases h
    · cases h
    · cases h
    · rename_i hne
      obtain ⟨hd, hb, rfl⟩ := neg_readDigits_eq_ok_iff.1 h
      exact .minus hne hd hb
    · rename_i hne
      obtain ⟨hd, hb, rfl⟩ := map_readDigits_eq_ok_iff.1 h
      exact .plus hne hd hb
    · rename_i hne _ _ _ _
      obtain ⟨hd, hb, rfl⟩ := map_readDigits_eq_ok_iff.1 h
      exact .unsigned hne hd hb
  · intro h
    unfold readInteger
    cases h with
    | unsigned hne hd hb =>
      split
      · exact absurd rfl hne
      · exact absurd (hd '+' (by simp)) hplus
      · exact absurd (hd '-' (by simp)) hminus
      · exact absurd (hd '-' (by simp)) hminus
      · exact absurd (hd '+' (by simp)) hplus
      · exact map_readDigits_eq_ok_iff.2 ⟨hd, hb, rfl⟩
    | plus hne hd hb =>
      split <;> rename_i heq
      · cases heq
      · cases heq
        exact absurd rfl hne
      · cases heq
      · cases heq
      · cases heq
        exact map_readDigits_eq_ok_iff.2 ⟨hd, hb, rfl⟩
      · exact absurd rfl (heq _)
    | minus hne hd hb =>
      split <;> rename_i heq
      · cases heq
      · cases heq
      · cases heq
        exact absurd rfl hne
      · cases heq
        exact neg_readDigits_eq_ok_iff.2 ⟨hd, hb, rfl⟩
      · cases heq
      · rename_i hother
        exact absurd rfl (hother _)

/-- The two letters that are the same in lower case, given the capital. -/
private theorem toLower_eq_iff (c lower upper : Char) (hl : lower.toNat = upper.toNat + 32)
    (hu : 65 ≤ upper.toNat ∧ upper.toNat ≤ 90) : c.toLower = lower ↔ c = lower ∨ c = upper := by
  have inj : ∀ {a b : Char}, a = b ↔ a.toNat = b.toNat := fun {a b} =>
    ⟨congrArg Char.toNat, fun h => Char.ext (UInt32.toNat_inj.1 h)⟩
  rw [inj, inj, inj]
  rcases toLower_cases c with ⟨hrange, hlower⟩ | ⟨hrange, hsame⟩
  · omega
  · rw [hsame]
    omega

end Text

namespace Chat

open Text

/-- The text is a code: digits between blanks, of a value that fits 32 bits. -/
def IsCode (text : String) (code : Code) : Prop :=
  trim text.toList ≠ [] ∧ (∀ c ∈ trim text.toList, isDigit c = true) ∧ digitsValue 0 (trim text.toList) = code ∧
    code ≤ maxUnsigned32

theorem parseCode_eq_some_iff {text : String} {code : Code} :
    parseCode text.toList = some code ↔ IsCode text code := by
  unfold parseCode IsCode
  generalize trim text.toList = cs
  dsimp only
  by_cases hne : cs = []
  · simp [hne]
  by_cases hd : ∀ c ∈ cs, isDigit c = true
  · have hall : (cs.isEmpty || !cs.all isDigit) = false := by
      rw [List.all_eq_true.2 hd, List.isEmpty_eq_false_iff.2 hne]
      rfl
    have hread : readDigits maxUnsigned32 .tooLarge 0 cs = .ok code ↔ _ :=
      readDigits_eq_ok_iff (Nat.zero_le maxUnsigned32)
    rw [hall, readNatural_of_digits hne hd]
    cases hr : readDigits maxUnsigned32 .tooLarge 0 cs with
    | ok n =>
      rw [hr, Except.ok.injEq] at hread
      simpa [Except.toOption, hne] using hread
    | error e =>
      rw [hr] at hread
      simpa [Except.toOption, hne] using hread
  · have hall : (cs.isEmpty || !cs.all isDigit) = true := by
      simpa using Or.inr (by simpa using hd)
    simp [hall, hd]

/-- The text is an entry: service, login and password, none of them empty, with a space between them.  Only the
password may hold spaces itself. -/
structure IsEntry (text : String) (entry : Vault.NewPassword) : Prop where
  joined : text = entry.service ++ " " ++ entry.login ++ " " ++ entry.password
  service_ne : entry.service ≠ ""
  service_free : ' ' ∉ entry.service.toList
  login_ne : entry.login ≠ ""
  login_free : ' ' ∉ entry.login.toList
  password_ne : entry.password ≠ ""

private theorem ofList_ne_empty {cs : List Char} : String.ofList cs ≠ "" ↔ cs.isEmpty = false := by
  rw [List.isEmpty_eq_false_iff]
  refine not_congr ⟨fun h => ?_, fun h => by rw [h]⟩
  have hl := congrArg String.toList h
  rwa [String.toList_ofList] at hl

theorem parseEntry_eq_some_iff {text : String} {entry : Vault.NewPassword} :
    parseEntry text = some entry ↔ IsEntry text entry := by
  constructor
  · intro h
    unfold parseEntry at h
    split at h
    · rename_i service rest hservice
      split at h
      · rename_i login password hlogin
        obtain ⟨hserviceFree, htext⟩ := cut_beq_iff.1 hservice
        obtain ⟨hloginFree, hrest⟩ := cut_beq_iff.1 hlogin
        split at h
        · cases h
        · rename_i hne
          simp only [Bool.or_eq_true, not_or, Bool.not_eq_true] at hne
          cases h
          refine ⟨?_, ofList_ne_empty.2 hne.1.1, ?_, ofList_ne_empty.2 hne.1.2, ?_, ofList_ne_empty.2 hne.2⟩
          · rw [← String.toList_inj, htext, hrest]
            simp [rejoin]
          · rwa [String.toList_ofList]
          · rwa [String.toList_ofList]
      · cases h
    · cases h
  · rintro ⟨hjoined, hservice, hserviceFree, hlogin, hloginFree, hpassword⟩
    have htext : text.toList = entry.service.toList ++
        rejoin ' ' (some (entry.login.toList ++ rejoin ' ' (some entry.password.toList))) := by
      rw [hjoined]
      simp [rejoin]
    rw [← String.ofList_toList (s := entry.service), ofList_ne_empty] at hservice
    rw [← String.ofList_toList (s := entry.login), ofList_ne_empty] at hlogin
    rw [← String.ofList_toList (s := entry.password), ofList_ne_empty] at hpassword
    unfold parseEntry
    rw [cut_beq_iff.2 ⟨hserviceFree, htext⟩]
    dsimp only
    rw [cut_beq_iff.2 ⟨hloginFree, rfl⟩]
    simp [hservice, hlogin, hpassword]

/-- The argument is an id: an integer between blanks that fits 64 bits. -/
def IsId (arg : String) (id : Int) : Prop := IsInteger maxSigned64 (trim arg.toList) id

theorem parseId_eq_some_iff {arg : String} {id : Int} : parseId arg = some id ↔ IsId arg id := by
  rw [parseId, IsId, ← readInteger_eq_ok_iff]
  cases readInteger maxSigned64 (trim arg.toList) <;> simp [Except.toOption]

/-- The text is the word yes between blanks, in letters of any case. -/
def IsYes (text : String) : Prop :=
  ∃ y e s, trim text.toList = [y, e, s] ∧ (y = 'y' ∨ y = 'Y') ∧ (e = 'e' ∨ e = 'E') ∧ (s = 's' ∨ s = 'S')

theorem isConfirmation_iff {text : String} : isConfirmation text = true ↔ IsYes text := by
  have hy := fun c : Char => toLower_eq_iff c 'y' 'Y' rfl (by decide)
  have he := fun c : Char => toLower_eq_iff c 'e' 'E' rfl (by decide)
  have hs := fun c : Char => toLower_eq_iff c 's' 'S' rfl (by decide)
  have hyes : "yes".toList.map Char.toLower = ['y', 'e', 's'] := rfl
  rw [isConfirmation, eqIgnoringCase, beq_iff_eq, hyes, IsYes]
  generalize trim text.toList = cs
  constructor
  · intro h
    obtain ⟨y, _, rfl, hy', h⟩ := List.map_eq_cons_iff.1 h
    obtain ⟨e, _, rfl, he', h⟩ := List.map_eq_cons_iff.1 h
    obtain ⟨s, _, rfl, hs', h⟩ := List.map_eq_cons_iff.1 h
    rw [List.map_eq_nil_iff] at h
    subst h
    exact ⟨y, e, s, rfl, (hy y).1 hy', (he e).1 he', (hs s).1 hs'⟩
  · rintro ⟨y, e, s, rfl, hy', he', hs'⟩
    rw [List.map_cons, List.map_cons, List.map_cons, List.map_nil, (hy y).2 hy', (he e).2 he', (hs s).2 hs']

end Chat

end VaultChat
