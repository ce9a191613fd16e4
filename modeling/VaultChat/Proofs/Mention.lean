import VaultChat.Proofs.CommandLine
import VaultChat.Telegram.Command

/-!
# Commands for other bots

Elsewhere than in private, a bot leaves out the commands that mention another bot.  `addressedElsewhere_iff` says
which texts it takes for such commands: those whose command word has another mention, as it should be, but also those
with blanks behind the slash, where the first word behind the blanks is not the command word
(`stray_mention_dropped`).
-/

namespace VaultChat.Telegram

open Chat Text

/-- Behind a slash and `gap`, the text goes on with a word that has a mention, and the mention is not `me`. -/
def MentionsOther (me : String) (gap text : List Char) : Prop :=
  ∃ body name mention rest, Slashed text (gap ++ body) ∧ CommandWord body name (some mention) rest ∧
    eqIgnoringCase mention me.toList = false

variable {me text : String}

/-- The first word behind the slash is looked at, wherever it starts. -/
theorem addressedElsewhere_eq_true_iff :
    addressedElsewhere me text = true ↔ ∃ gap, Blanks gap ∧ MentionsOther me gap text.toList := by
  constructor
  · intro h
    unfold addressedElsewhere at h
    split at h
    · cases h
    · rename_i body hslash
      split at h
      · rename_i mention hmention
        obtain ⟨word, hword, hsplit⟩ := Option.bind_eq_some_iff.1 hmention
        obtain ⟨ws, hws⟩ := List.head?_eq_some_iff.1 hword
        obtain - | ⟨hgap, -, hsolid, hparted, -⟩ := words_eq_iff.1 hws
        obtain ⟨hfree, hjoined⟩ := cut_beq_iff.1 (Prod.ext rfl hsplit : splitMention word = (_, some mention))
        rw [List.append_assoc] at hslash
        refine ⟨_, hgap, _, _, mention, _, afterSlash?_eq_some_iff.1 hslash, ⟨?_, hfree, ?_, hparted⟩,
          by simpa using h⟩
        · rw [← hjoined]
        · rwa [← hjoined]
      · cases h
  · rintro ⟨gap, hgap, body, name, mention, rest, hslash, ⟨rfl, hfree, hsolid, hparted⟩, hother⟩
    have hne : name ++ rejoin '@' (some mention) ≠ [] := by simp [rejoin]
    have hwords : words (gap ++ (name ++ rejoin '@' (some mention) ++ rest)) =
        (name ++ rejoin '@' (some mention)) :: words rest := by
      rw [words_append_of_blanks hgap, words_append_of_solid hne hsolid hparted]
    have hsplit : splitMention (name ++ rejoin '@' (some mention)) = (name, some mention) :=
      cut_beq_iff.2 ⟨hfree, rfl⟩
    rw [addressedElsewhere, afterSlash?_eq_some_iff.2 hslash]
    dsimp only
    rw [hwords, List.head?_cons, Option.bind_some, hsplit]
    simp [hother]

/-- With a blank right behind the slash, the command word is empty and mentions nobody. -/
theorem not_mentionsOther_of_gap {gap body : List Char} (hgap : Blanks gap) (hne : gap ≠ [])
    (h : Slashed text.toList (gap ++ body)) : ¬ MentionsOther me [] text.toList := by
  rintro ⟨body', name, mention, rest, hslash, ⟨rfl, -, hsolid, -⟩, -⟩
  obtain ⟨c, gap, rfl⟩ := List.exists_cons_of_ne_nil hne
  have hbody : c :: gap ++ body = name ++ rejoin '@' (some mention) ++ rest :=
    Option.some.inj ((afterSlash?_eq_some_iff.2 h).symm.trans (afterSlash?_eq_some_iff.2 hslash))
  obtain ⟨d, word, hword⟩ := List.exists_cons_of_ne_nil (l := name ++ rejoin '@' (some mention)) (by simp [rejoin])
  rw [hword] at hbody hsolid
  obtain ⟨rfl, -⟩ := List.cons.inj hbody
  have hblank : isBlank c = true := hgap c List.mem_cons_self
  rw [hsolid c List.mem_cons_self] at hblank
  cases hblank

theorem route_eq_none_iff {isPrivate : Bool} : route me isPrivate text = none ↔
    isPrivate = false ∧ (∀ c, parse me text ≠ .ok c) ∧ addressedElsewhere me text = true := by
  unfold route
  cases hparse : parse me text with
  | ok c => simp
  | error e => cases isPrivate <;> cases addressedElsewhere me text <;> simp

/-- A text is taken for a command for another bot if its command word has another mention, or if it has no command
word because of blanks behind the slash, and the first word behind them has another mention.  The two exclude each
other, and whatever else comes from a chat is passed on. -/
theorem addressedElsewhere_iff (me text : String) :
    (addressedElsewhere me text = true ↔ MentionsOther me [] text.toList ∨
      ∃ gap, gap ≠ [] ∧ Blanks gap ∧ MentionsOther me gap text.toList) ∧
    (∀ gap, gap ≠ [] → Blanks gap → MentionsOther me gap text.toList → ¬ MentionsOther me [] text.toList) ∧
    ∀ isPrivate, route me isPrivate text = none →
      isPrivate = false ∧ ∃ gap, Blanks gap ∧ MentionsOther me gap text.toList := by
  refine ⟨?_, ?_, ?_⟩
  · rw [addressedElsewhere_eq_true_iff]
    constructor
    · rintro ⟨gap, hgap, h⟩
      by_cases hne : gap = []
      · rw [hne] at h
        exact .inl h
      · exact .inr ⟨gap, hne, hgap, h⟩
    · rintro (h | ⟨gap, -, hgap, h⟩)
      · exact ⟨[], nofun, h⟩
      · exact ⟨gap, hgap, h⟩
  · rintro gap hne hgap ⟨body, -, -, -, hslash, -⟩
    exact not_mentionsOther_of_gap hgap hne hslash
  · intro isPrivate h
    obtain ⟨hprivate, -, helsewhere⟩ := route_eq_none_iff.1 h
    exact ⟨hprivate, addressedElsewhere_eq_true_iff.1 helsewhere⟩

/-- Somebody's address is taken for the name of a bot, and the line is lost. -/
theorem stray_mention_dropped :
    (¬ ∀ me text : String, addressedElsewhere me text = true ↔ MentionsOther me [] text.toList) ∧
      route "pm_bot" false "/ me@example.com pw" = none := by
  have helsewhere : addressedElsewhere "pm_bot" "/ me@example.com pw" = true := by decide +kernel
  have hslash : Slashed "/ me@example.com pw".toList ([' '] ++ "me@example.com pw".toList) :=
    afterSlash?_eq_some_iff.1 (by decide +kernel)
  refine ⟨fun h => ?_, by decide +kernel⟩
  exact not_mentionsOther_of_gap (List.forall_mem_singleton.2 (by decide)) nofun hslash ((h _ _).1 helsewhere)

end VaultChat.Telegram
