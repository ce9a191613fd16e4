import VaultChat.Chat.Plan
import VaultChat.Proofs.LetterCase
import VaultChat.Proofs.Words

/-!
# What a chat line means

A line whose first character that is not blank is a slash has a command word: what follows the slash up to the first
blank.  The name in it ends at the first at sign.  A line names a command if this name is a known one, in small or
capital letters of ASCII and in no other characters (`StandsFor`), and its argument is the rest of the line without
the blanks at the ends.  `ofLine_eq_iff_means` says that lines are classified in this way and that nothing of any
other line is lost.
-/

namespace VaultChat.Chat

open Text

/-- The line is `body` behind a slash, and there is nothing but blanks before the slash. -/
def Slashed (line body : List Char) : Prop := ∃ gap, Blanks gap ∧ line = gap ++ '/' :: body

/-- What stands behind a slash starts with a word, which is a name and perhaps a mention behind an at sign.  The rest
does not go on with the word. -/
structure CommandWord (body name : List Char) (mention : Option (List Char)) (rest : List Char) : Prop where
  joined : body = name ++ rejoin '@' mention ++ rest
  name_free : '@' ∉ name
  word_solid : Solid (name ++ rejoin '@' mention)
  rest_parted : StartsBlank rest

theorem afterSlash?_eq_some_iff {line body : List Char} : afterSlash? line = some body ↔ Slashed line body := by
  constructor
  · intro h
    obtain ⟨gap, hgap, hline⟩ := exists_blanks_append_trimStart line
    unfold afterSlash? at h
    split at h
    · rename_i rest hrest
      obtain rfl := Option.some.inj h
      exact ⟨gap, hgap, by rw [← hrest, ← hline]⟩
    · cases h
  · rintro ⟨gap, hgap, rfl⟩
    have hslash : isBlank '/' = false := by decide
    have hstart : trimStart (gap ++ '/' :: body) = '/' :: body :=
      trimStart_append hgap fun c hc => by rwa [← Option.some.inj hc]
    rw [afterSlash?, hstart]
    rfl

/-- There is a command word, which may be empty, behind every slash. -/
theorem exists_commandWord (body : List Char) : ∃ name mention rest, CommandWord body name mention rest := by
  obtain ⟨word, rest, rfl, hword, hrest⟩ := exists_solid_append body
  rcases hsplit : cut (· == '@') word with ⟨name, mention⟩
  obtain ⟨hfree, rfl⟩ := cut_beq_iff.1 hsplit
  exact ⟨name, mention, rest, rfl, hfree, hword, hrest⟩

theorem ofLine_of_not_slashed {line : String} (h : ∀ body, ¬ Slashed line.toList body) :
    Event.ofLine line = .text line := by
  have hnone : afterSlash? line.toList = none :=
    Option.eq_none_iff_forall_ne_some.2 fun body hbody => h body (afterSlash?_eq_some_iff.1 hbody)
  rw [Event.ofLine, hnone]

theorem ofLine_of_commandWord {line : String} {body name rest : List Char} {mention : Option (List Char)}
    (hslash : Slashed line.toList body) (h : CommandWord body name mention rest) :
    Event.ofLine line = .command ((Command.parse? name rest).getD (.unknown line)) := by
  have hword : splitMention (name ++ rejoin '@' mention) = (name, mention) := cut_beq_iff.2 ⟨h.name_free, rfl⟩
  rw [Event.ofLine, afterSlash?_eq_some_iff.2 hslash, h.joined]
  dsimp only
  rw [cut_isBlank_append h.word_solid h.rest_parted, hword]
  dsimp only
  rw [Command.parse?, trim_tail? h.rest_parted, ← Command.parse?]

/-! ### Known names -/

/-- The command that a known name and an argument stand for. -/
inductive Command.Named : String → String → Command → Prop where
  | start {arg : String} : Named "start" arg .start
  | add {arg : String} : Named "add" arg .add
  | get {arg : String} : Named "get" arg .list
  | list {arg : String} : Named "list" arg .list
  | showEntry {arg : String} : Named "show" arg (.showEntry arg)
  | deleteEntry {arg : String} : Named "delete" arg (.deleteEntry arg)
  | generate {arg : String} : Named "gen" arg (.generate arg)
  | logOut {arg : String} : Named "logout" arg .logOut
  | resetForever {arg : String} : Named "reset_forever" arg .resetForever
  | cancel {arg : String} : Named "cancel" arg .cancel
  | help {arg : String} : Named "help" arg .help

namespace Command

variable {name arg : String} {c : Command}

theorem ofName?_eq_some_iff : ofName? name arg = some c ↔ Named name arg c := by
  constructor
  · intro h
    unfold ofName? at h
    split at h <;> cases h <;> constructor
  · intro h
    cases h <;> rfl

/-- Known names are in small letters of ASCII, and there is no `k` in them. -/
theorem Named.spelling (h : Named name arg c) :
    (∀ d ∈ name.toList, IsAscii d ∧ d ≠ 'k') ∧ name.toList.map Char.toLower = name.toList := by
  have hall : (name.toList.all fun d => decide (IsAscii d ∧ d ≠ 'k')) = true := by
    cases h <;> decide +kernel
  refine ⟨fun d hd => of_decide_eq_true (List.all_eq_true.1 hall d hd), ?_⟩
  cases h <;> decide +kernel

/-- The lower case of a name is a known one only if the name is that one, up to the case of ASCII letters. -/
theorem parse?_eq_some_iff {name rest : List Char} : parse? name rest = some c ↔
    ∃ known arg, Named known arg c ∧ eqIgnoringCase name known.toList = true ∧ Trims rest arg.toList := by
  constructor
  · intro h
    have hnamed := ofName?_eq_some_iff.1 h
    obtain ⟨hascii, hlower⟩ := hnamed.spelling
    rw [String.toList_ofList] at hascii hlower
    refine ⟨_, _, hnamed, ?_, ?_⟩
    · rw [eqIgnoringCase, beq_iff_eq, String.toList_ofList, hlower]
      exact (lowercase_eq_iff hascii).1 rfl
    · rw [String.toList_ofList]
      exact trim_eq_iff.1 rfl
  · rintro ⟨known, arg, hnamed, hcase, harg⟩
    obtain ⟨hascii, hlower⟩ := hnamed.spelling
    rw [eqIgnoringCase, beq_iff_eq, hlower] at hcase
    rw [parse?, (lowercase_eq_iff hascii).2 hcase, trim_eq_iff.2 harg, String.ofList_toList, String.ofList_toList]
    exact ofName?_eq_some_iff.2 hnamed

end Command

/-! ### Meaning -/

/-- The line names this command: the name in its command word is known, in letters of any case, and the rest of the
line is the argument with blanks around it. -/
inductive StandsFor (line : String) (c : Command) : Prop where
  | intro {body name rest : List Char} {mention : Option (List Char)} {known arg : String}
      (hslash : Slashed line.toList body) (hword : CommandWord body name mention rest)
      (hknown : Command.Named known arg c) (hcase : eqIgnoringCase name known.toList = true)
      (harg : Trims rest arg.toList)

/-- What a line means: free text unless there is a slash in front, then the command that it names, if it names one. -/
inductive Means (line : String) : Event → Prop where
  | text (h : ∀ body, ¬ Slashed line.toList body) : Means line (.text line)
  | known {c : Command} (h : StandsFor line c) : Means line (.command c)
  | unknown {body : List Char} (hslash : Slashed line.toList body) (h : ∀ c, ¬ StandsFor line c) :
      Means line (.command (.unknown line))

variable {line : String} {c : Command}

theorem StandsFor.ofLine_eq (h : StandsFor line c) : Event.ofLine line = .command c := by
  obtain ⟨hslash, hword, hknown, hcase, harg⟩ := h
  rw [ofLine_of_commandWord hslash hword, Command.parse?_eq_some_iff.2 ⟨_, _, hknown, hcase, harg⟩, Option.getD_some]

theorem ofLine_of_not_standsFor {body : List Char} (hslash : Slashed line.toList body) (h : ∀ c, ¬ StandsFor line c) :
    Event.ofLine line = .command (.unknown line) := by
  obtain ⟨name, mention, rest, hword⟩ := exists_commandWord body
  have hnone : Command.parse? name rest = none := by
    refine Option.eq_none_iff_forall_ne_some.2 fun c hc => ?_
    obtain ⟨known, arg, hknown, hcase, harg⟩ := Command.parse?_eq_some_iff.1 hc
    exact h c ⟨hslash, hword, hknown, hcase, harg⟩
  rw [ofLine_of_commandWord hslash hword, hnone, Option.getD_none]

theorem means_ofLine (line : String) : Means line (Event.ofLine line) := by
  by_cases hslash : ∃ body, Slashed line.toList body
  · obtain ⟨body, hslash⟩ := hslash
    by_cases hstands : ∃ c, StandsFor line c
    · obtain ⟨c, hc⟩ := hstands
      rw [hc.ofLine_eq]
      exact .known hc
    · rw [ofLine_of_not_standsFor hslash (not_exists.1 hstands)]
      exact .unknown hslash (not_exists.1 hstands)
  · rw [ofLine_of_not_slashed (not_exists.1 hslash)]
    exact .text (not_exists.1 hslash)

/-- A chat line is taken as its meaning says and as nothing else.  The lines that name no command are kept as they
were sent, and a dialogue goes on with them in the same way, whether or not there is a slash in front. -/
theorem ofLine_eq_iff_means :
    (∀ line event, Event.ofLine line = event ↔ Means line event) ∧
      ∀ flow line, plan flow (.command (.unknown line)) = plan flow (.text line) := by
  refine ⟨fun line event => ⟨?_, ?_⟩, fun flow line => rfl⟩
  · rintro rfl
    exact means_ofLine line
  · intro h
    cases h with
    | text h => exact ofLine_of_not_slashed h
    | known h => exact h.ofLine_eq
    | unknown hslash h => exact ofLine_of_not_standsFor hslash h

end VaultChat.Chat
