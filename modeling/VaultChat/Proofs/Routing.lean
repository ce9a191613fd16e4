import VaultChat.Proofs.LetterCase
import VaultChat.Telegram.Command

/-!
# Two readings of a command line

A bot reads the commands of its menu in a way of its own, which cuts at the first space, and a chat line is read in
another, which cuts at the first blank of any kind.  `route_eq_ofLine_iff` says for which texts the two differ: those
of `Overruns`, where an argument follows another blank than a space, behind a second at sign.
-/

namespace VaultChat.Telegram

open Chat (Command Event)
open Text

/-! ### Names of the menu -/

/-- The menu has a command of this name. -/
def InMenu (name : List Char) : Prop := ∃ item ∈ menu, item.name = String.ofList name

theorem commandOf?_eq_some_iff {name : List Char} {arg : List Char} {c : Command} :
    commandOf? (String.ofList name) arg = some c ↔
      InMenu name ∧ Command.ofName? (String.ofList name) (String.ofList (trim arg)) = some c := by
  have hmenu : (menu.any (·.name == String.ofList name)) = true ↔ InMenu name := by
    simp [InMenu]
  unfold commandOf?
  split
  · rename_i h
    simp [hmenu.1 h]
  · rename_i h
    simp [mt hmenu.2 h]

/-- The names are words in lower case. -/
private theorem menu_spelling : ∀ item ∈ menu, lowercase item.name.toList = item.name.toList ∧
    (item.name.toList.all fun c => decide (isBlank c = false ∧ c ≠ '@')) = true := by
  decide +kernel

namespace InMenu

variable {name : List Char}

theorem lowercase_eq (h : InMenu name) : lowercase name = name := by
  obtain ⟨item, hitem, hname⟩ := h
  have hlower := (menu_spelling item hitem).1
  rwa [hname, String.toList_ofList] at hlower

theorem not_isBlank (h : InMenu name) : ∀ c ∈ name, isBlank c = false := by
  obtain ⟨item, hitem, hname⟩ := h
  have hfree := forall_mem_of_all (menu_spelling item hitem).2
  rw [hname, String.toList_ofList] at hfree
  exact fun c hc => (hfree c hc).1

theorem at_notMem (h : InMenu name) : '@' ∉ name := by
  obtain ⟨item, hitem, hname⟩ := h
  have hfree := forall_mem_of_all (menu_spelling item hitem).2
  rw [hname, String.toList_ofList] at hfree
  exact fun hc => (hfree '@' hc).2 rfl

end InMenu

/-- The names of the commands that have an argument. -/
def withArgument : List String := ["show", "delete", "gen"]

theorem ofName?_eq_of_notMem {name : String} (h : name ∉ withArgument) (arg arg' : String) :
    Command.ofName? name arg = Command.ofName? name arg' := by
  unfold Command.ofName?
  split <;> first | rfl | exact absurd (by decide) h

theorem inMenu_of_withArgument {name : List Char} (h : String.ofList name ∈ withArgument) : InMenu name := by
  have hmenu : ∀ n ∈ withArgument, ∃ item ∈ menu, item.name = n := by decide +kernel
  exact hmenu _ h

theorem exists_ofName? {name : String} (h : name ∈ withArgument) (arg : String) :
    ∃ c, Command.ofName? name arg = some c := by
  simp only [withArgument, List.mem_cons, List.not_mem_nil, or_false] at h
  rcases h with rfl | rfl | rfl <;> exact ⟨_, rfl⟩

theorem ofName?_inj {name : String} (h : name ∈ withArgument) {arg arg' : String}
    (heq : Command.ofName? name arg = Command.ofName? name arg') : arg = arg' := by
  simp only [withArgument, List.mem_cons, List.not_mem_nil, or_false] at h
  rcases h with rfl | rfl | rfl <;> simpa [Command.ofName?] using heq

/-! ### The bot's reading -/

/-- The bot named `me` reads the command `c` off the text. -/
inductive Reads (me text : String) (c : Command) : Prop where
  | intro (name : List Char) (mentions arg : Option (List Char))
      (htext : text.toList = '/' :: name ++ rejoin '@' mentions ++ rejoin ' ' arg)
      (hname : '@' ∉ name) (hspace : ' ' ∉ '/' :: name ++ rejoin '@' mentions)
      (hcommand : commandOf? (String.ofList name) (arg.getD []) = some c)
      (hmention : ∀ m ∈ mentions, eqIgnoringCase (cut (· == '@') m).1 me.toList = true)

private theorem word_eq_ok_iff {word arg : List Char} {unknown : Misread} {c : Command} :
    (match word with
      | '/' :: name =>
        match commandOf? (String.ofList name) arg with
        | some c => Except.ok c
        | none => .error unknown
      | _ => .error unknown) = .ok c ↔ ∃ name, word = '/' :: name ∧ commandOf? (String.ofList name) arg = some c := by
  split
  · rename_i name
    cases hc : commandOf? (String.ofList name) arg <;> simp [hc]
  · rename_i hslash
    exact ⟨nofun, fun ⟨name, hword, _⟩ => absurd hword (hslash name)⟩

theorem parse_eq_ok_iff {me text : String} {c : Command} : parse me text = .ok c ↔ Reads me text c := by
  constructor
  · intro h
    unfold parse at h
    rcases hhead : cut (· == ' ') text.toList with ⟨head, arg⟩
    rcases hword : cut (· == '@') head with ⟨word, mentions⟩
    obtain ⟨hspace, htext⟩ := cut_beq_iff.1 hhead
    obtain ⟨hfree, rfl⟩ := cut_beq_iff.1 hword
    rw [hhead] at h
    dsimp only at h
    rw [hword] at h
    have hcommand : (∃ name, word = '/' :: name ∧ commandOf? (String.ofList name) (arg.getD []) = some c) ∧
        ∀ m ∈ mentions, eqIgnoringCase (cut (· == '@') m).1 me.toList = true := by
      cases mentions with
      | none => exact ⟨word_eq_ok_iff.1 h, nofun⟩
      | some m =>
        dsimp only at h
        split at h
        · rename_i hm
          exact ⟨word_eq_ok_iff.1 h, by simpa using hm⟩
        · cases h
    obtain ⟨⟨name, rfl, hc⟩, hmention⟩ := hcommand
    exact ⟨name, mentions, arg, htext, fun hm => hfree (List.mem_cons_of_mem _ hm), hspace, hc, hmention⟩
  · rintro ⟨name, mentions, arg, htext, hname, hspace, hcommand, hmention⟩
    have hfree : '@' ∉ '/' :: name := List.not_mem_cons_of_ne_of_not_mem (by decide) hname
    unfold parse
    rw [cut_beq_iff.2 ⟨hspace, htext⟩]
    dsimp only
    rw [cut_beq_iff.2 ⟨hfree, rfl⟩]
    cases mentions with
    | none => exact word_eq_ok_iff.2 ⟨name, rfl, hcommand⟩
    | some m => exact (if_pos (hmention m rfl)).trans (word_eq_ok_iff.2 ⟨name, rfl, hcommand⟩)

/-! ### The reading of chat lines -/

private theorem isBlank_toLower (c : Char) : isBlank c.toLower = isBlank c := by
  have hletter {d : Char} (hd : 65 ≤ d.toNat ∧ d.toNat ≤ 122) : isBlank d = false := by
    rw [isBlank, ← Bool.not_eq_true, inRanges_iff]
    simp only [blankRanges, List.mem_cons, List.not_mem_nil, or_false, not_exists, not_and]
    rintro r (rfl | rfl | rfl | rfl | rfl | rfl | rfl | rfl | rfl | rfl) <;> omega
  rcases toLower_cases c with ⟨hrange, hlower⟩ | ⟨-, hsame⟩
  · rw [hletter (d := c.toLower) (by omega), hletter (d := c) (by omega)]
  · rw [hsame]

/-- A mention of a bot whose name has no blanks has none either. -/
theorem not_isBlank_of_eqIgnoringCase {me name : List Char} (hme : ∀ c ∈ me, isBlank c = false)
    (h : eqIgnoringCase name me = true) : ∀ c ∈ name, isBlank c = false := by
  intro c hc
  have hmap : name.map Char.toLower = me.map Char.toLower := beq_iff_eq.1 h
  have hlower : c.toLower ∈ me.map Char.toLower := hmap ▸ List.mem_map_of_mem hc
  obtain ⟨d, hd, hdc⟩ := List.mem_map.1 hlower
  rw [← isBlank_toLower, ← hdc, isBlank_toLower]
  exact hme d hd

/-- What a chat line with a name of the menu means. -/
theorem ofLine_of_slash {text : String} {name rest : List Char} (word : List Char) (arg : Option (List Char))
    (htext : text.toList = '/' :: rest) (hcut : cut isBlank rest = (word, arg)) (hname : InMenu name)
    (hword : (Chat.splitMention word).1 = name) :
    Event.ofLine text = .command ((Command.ofName? (String.ofList name)
      (String.ofList (trim (arg.getD [])))).getD (.unknown text)) := by
  have hslash : Chat.afterSlash? text.toList = some rest := by
    rw [htext, Chat.afterSlash?, trimStart, List.dropWhile_cons_of_neg (by decide)]
    rfl
  rw [Event.ofLine, hslash]
  dsimp only
  rw [hcut, hword, Command.parse?, hname.lowercase_eq]

private theorem splitMention_at {name : List Char} (hname : '@' ∉ name) (rest : List Char) :
    (Chat.splitMention (name ++ '@' :: rest)).1 = name :=
  congrArg Prod.fst (cut_beq_iff.2 ⟨hname, rfl⟩ : cut (· == '@') (name ++ '@' :: rest) = (name, some rest))

private theorem not_isBlank_at {as bs : List Char} (ha : ∀ c ∈ as, isBlank c = false)
    (hb : ∀ c ∈ bs, isBlank c = false) : ∀ c ∈ as ++ '@' :: bs, isBlank c = false := by
  have hat : isBlank '@' = false := by decide
  exact List.forall_mem_append.2 ⟨ha, List.forall_mem_cons.2 ⟨hat, hb⟩⟩

private theorem space_notMem {cs : List Char} (h : ∀ c ∈ cs, isBlank c = false) : ' ' ∉ cs := fun hm =>
  absurd (h ' ' hm) (by decide)

/-- Behind a word without blanks, a space is the first blank. -/
private theorem cut_isBlank_rejoin {word : List Char} (hword : ∀ c ∈ word, isBlank c = false)
    (arg : Option (List Char)) : cut isBlank (word ++ rejoin ' ' arg) = (word, arg) := by
  cases arg with
  | none => exact cut_eq_none_iff.2 ⟨(List.append_nil word).symm, by simpa [rejoin] using hword⟩
  | some arg => exact cut_eq_some_iff.2 ⟨hword, ' ', by decide, rfl⟩

/-- Text before a space is no part of the argument exactly if it is blank. -/
theorem trim_rejoin_eq_iff {after : List Char} {arg : Option (List Char)} :
    trim (after ++ rejoin ' ' arg) = trim (arg.getD []) ↔ ∀ c ∈ after, isBlank c = true := by
  have hrejoin : trim (rejoin ' ' arg) = trim (arg.getD []) := by
    cases arg with
    | none => rfl
    | some arg =>
      have hspace : ∀ c ∈ [' '], isBlank c = true := List.forall_mem_singleton.2 (by decide)
      exact trim_append_of_blank hspace arg
  constructor
  · intro h
    have hcount := congrArg (List.countP (!isBlank ·)) (h.trans hrejoin.symm)
    rw [countP_trim, countP_trim, List.countP_append, Nat.add_eq_right, List.countP_eq_zero] at hcount
    simpa using hcount
  · intro h
    rw [trim_append_of_blank h, hrejoin]

theorem ofName?_trim_rejoin {name : String} {after : List Char} {arg : Option (List Char)}
    (h : name ∈ withArgument → ∀ c ∈ after, isBlank c = true) :
    Command.ofName? name (String.ofList (trim (after ++ rejoin ' ' arg))) =
      Command.ofName? name (String.ofList (trim (arg.getD []))) := by
  by_cases hwith : name ∈ withArgument
  · rw [trim_rejoin_eq_iff.2 (h hwith)]
  · exact ofName?_eq_of_notMem hwith _ _

/-! ### Where they differ -/

/-- The text is a command that takes an argument, for the bot named `me`.  Behind the mention there is a second at
sign, then a blank and, before any space, something that is not blank. -/
inductive Overruns (me text : String) : Prop where
  | intro (name mention before after : List Char) (blank : Char) (arg : Option (List Char))
      (htext : text.toList =
        '/' :: (name ++ '@' :: (mention ++ '@' :: (before ++ blank :: after)) ++ rejoin ' ' arg))
      (hname : String.ofList name ∈ withArgument)
      (hfree : '@' ∉ mention) (hmention : eqIgnoringCase mention me.toList = true)
      (hbefore : ∀ c ∈ before, isBlank c = false) (hblank : isBlank blank = true)
      (hafter : ∃ c ∈ after, isBlank c = false) (hspace : ' ' ∉ before ++ blank :: after)

/-- A chat line goes on behind the mention up to the first blank. -/
private theorem ofLine_of_overrun {text : String} {name mention before after : List Char} {blank : Char}
    {arg : Option (List Char)} (htext : text.toList =
      '/' :: (name ++ '@' :: (mention ++ '@' :: (before ++ blank :: after)) ++ rejoin ' ' arg))
    (hname : InMenu name) (hmention : ∀ c ∈ mention, isBlank c = false) (hbefore : ∀ c ∈ before, isBlank c = false)
    (hblank : isBlank blank = true) :
    Event.ofLine text = .command ((Command.ofName? (String.ofList name)
      (String.ofList (trim (after ++ rejoin ' ' arg)))).getD (.unknown text)) := by
  refine ofLine_of_slash (name ++ '@' :: (mention ++ '@' :: before)) (some (after ++ rejoin ' ' arg)) htext
    (cut_eq_some_iff.2 ⟨?_, blank, hblank, by simp⟩) hname (splitMention_at hname.at_notMem _)
  exact not_isBlank_at hname.not_isBlank (not_isBlank_at hmention hbefore)

/-- The argument of a text that overruns a mention is not the one that a chat line has. -/
theorem Overruns.route_ne {me text : String} (hme : ∀ c ∈ me.toList, isBlank c = false) (h : Overruns me text) :
    route me true text ≠ some (.ofLine text) := by
  obtain ⟨name, mention, before, after, blank, arg, htext, hname, hfree, hmention, hbefore, hblank, hafter,
    hspace⟩ := h
  have hmenu := inMenu_of_withArgument hname
  have hmentionFree := not_isBlank_of_eqIgnoringCase hme hmention
  obtain ⟨c, hc⟩ := exists_ofName? hname (String.ofList (trim (arg.getD [])))
  have hparse : parse me text = .ok c := by
    refine parse_eq_ok_iff.2 ⟨name, some (mention ++ '@' :: (before ++ blank :: after)), arg, htext, hmenu.at_notMem,
      ?_, commandOf?_eq_some_iff.2 ⟨hmenu, hc⟩, ?_⟩
    · have hnameSpace := space_notMem hmenu.not_isBlank
      have hmentionSpace := space_notMem hmentionFree
      simp only [rejoin, List.mem_append, List.mem_cons, not_or] at hspace ⊢
      exact ⟨⟨by decide, hnameSpace⟩, by decide, hmentionSpace, by decide, hspace⟩
    · intro m hm
      obtain rfl : _ = m := Option.some.inj hm
      have hcut : (cut (· == '@') (mention ++ '@' :: (before ++ blank :: after))).1 = mention :=
        splitMention_at hfree _
      rwa [hcut]
  rw [route, hparse, ofLine_of_overrun htext hmenu hmentionFree hbefore hblank]
  intro heq
  obtain ⟨c', hc'⟩ := exists_ofName? hname (String.ofList (trim (after ++ rejoin ' ' arg)))
  rw [hc', Option.getD_some] at heq
  have hcc : c = c' := by simpa using heq
  have harg := ofName?_inj hname (hc.trans (hcc ▸ hc'.symm))
  have htrim := trim_rejoin_eq_iff.1 (String.ofList_injective harg).symm
  obtain ⟨d, hd, hdblank⟩ := hafter
  exact absurd (htrim d hd) (by simp [hdblank])

/-- A text that goes on like one that overruns, and does not, has nothing but blanks up to the space. -/
private theorem isBlank_of_not_overruns {me text : String} (hover : ¬ Overruns me text)
    {name mention before after : List Char} {blank : Char} {arg : Option (List Char)}
    (htext : text.toList = '/' :: (name ++ '@' :: (mention ++ '@' :: (before ++ blank :: after)) ++ rejoin ' ' arg))
    (hname : String.ofList name ∈ withArgument) (hfree : '@' ∉ mention)
    (hmention : eqIgnoringCase mention me.toList = true) (hbefore : ∀ c ∈ before, isBlank c = false)
    (hblank : isBlank blank = true) (hspace : ' ' ∉ before ++ blank :: after) : ∀ c ∈ after, isBlank c = true := by
  intro c hc
  cases hcblank : isBlank c with
  | true => rfl
  | false =>
    exact absurd ⟨name, mention, before, after, blank, arg, htext, hname, hfree, hmention, hbefore, hblank,
      ⟨c, hc, hcblank⟩, hspace⟩ hover

/-- Any other text that the bot reads has the same meaning as a chat line. -/
theorem Reads.ofLine_eq {me text : String} {c : Command} (hme : ∀ c ∈ me.toList, isBlank c = false)
    (h : Reads me text c) (hover : ¬ Overruns me text) : Event.ofLine text = .command c := by
  obtain ⟨name, mentions, arg, htext, hname, hspace, hcommand, hmention⟩ := h
  obtain ⟨hmenu, hc⟩ := commandOf?_eq_some_iff.1 hcommand
  -- Both readings cut at the first space where no other blank comes before it.
  have hsame (word : List Char) (hword : ∀ c ∈ word, isBlank c = false)
      (hsplit : (Chat.splitMention word).1 = name) (ht : text.toList = '/' :: (word ++ rejoin ' ' arg)) :
      Event.ofLine text = .command c := by
    rw [ofLine_of_slash word arg ht (cut_isBlank_rejoin hword arg) hmenu hsplit, hc, Option.getD_some]
  cases mentions with
  | none =>
    have hcut : cut (· == '@') name = (name, none) := cut_beq_iff.2 ⟨hname, (List.append_nil name).symm⟩
    exact hsame name hmenu.not_isBlank (congrArg Prod.fst hcut) (by simpa [rejoin] using htext)
  | some m =>
    have heq := hmention m rfl
    rcases hm : cut (· == '@') m with ⟨mention, more⟩
    rw [hm] at heq
    obtain ⟨hfree, rfl⟩ := cut_beq_iff.1 hm
    have hmentionFree := not_isBlank_of_eqIgnoringCase hme heq
    have hsplit (as : List Char) : (Chat.splitMention (name ++ '@' :: as)).1 = name := splitMention_at hname as
    cases more with
    | none =>
      have hword := not_isBlank_at hmenu.not_isBlank hmentionFree
      exact hsame _ hword (hsplit mention) (by simpa [rejoin] using htext)
    | some more =>
      rcases hmore : cut isBlank more with ⟨before, after⟩
      cases after with
      | none =>
        obtain ⟨-, hmoreFree⟩ := cut_eq_none_iff.1 hmore
        have hword := not_isBlank_at hmenu.not_isBlank (not_isBlank_at hmentionFree hmoreFree)
        exact hsame _ hword (hsplit _) (by simpa [rejoin] using htext)
      | some after =>
        -- The chat line is cut at `blank`, and all that it has more in its argument are blanks.
        obtain ⟨hbefore, blank, hblank, rfl⟩ := cut_eq_some_iff.1 hmore
        have ht : text.toList =
            '/' :: (name ++ '@' :: (mention ++ '@' :: (before ++ blank :: after)) ++ rejoin ' ' arg) := by
          simpa [rejoin] using htext
        have hafterSpace : ' ' ∉ before ++ blank :: after := by
          simp only [rejoin, List.mem_append, List.mem_cons, not_or] at hspace ⊢
          exact hspace.2.2.2.2
        have hblanks (hwith : String.ofList name ∈ withArgument) : ∀ c ∈ after, isBlank c = true :=
          isBlank_of_not_overruns hover ht hwith hfree heq hbefore hblank hafterSpace
        rw [ofLine_of_overrun ht hmenu hmentionFree hbefore hblank, ofName?_trim_rejoin hblanks, hc, Option.getD_some]

/-- A private text means the same to the bot as any chat line, but for those that overrun a mention. -/
theorem route_eq_ofLine_iff {me : String} (hme : ∀ c ∈ me.toList, isBlank c = false) (text : String) :
    route me true text = some (.ofLine text) ↔ ¬ Overruns me text := by
  refine ⟨fun hroute hover => hover.route_ne hme hroute, fun hover => ?_⟩
  cases hp : parse me text with
  | error e => rw [route, hp]; rfl
  | ok c => rw [route, hp, (parse_eq_ok_iff.1 hp).ofLine_eq hme hover]

/-- A word with more behind its mention, without and with a tab in it. -/
theorem route_eq_ofLine_iff_mention :
    (∀ c ∈ "pm_bot".toList, isBlank c = false) ∧ ¬ Overruns "pm_bot" "/show@PM_Bot@x 5" ∧
      Overruns "pm_bot" "/show@PM_Bot@x\t5 6" := by
  have hme : ∀ c ∈ "pm_bot".toList, isBlank c = false := forall_mem_of_all (by decide +kernel)
  refine ⟨hme, (route_eq_ofLine_iff hme _).1 (by decide +kernel), Classical.byContradiction fun hover => ?_⟩
  exact absurd ((route_eq_ofLine_iff hme _).2 hover) (by decide +kernel)

/-- The two readings are not the same: for the bot, a tab behind a second at sign is part of the word. -/
theorem not_route_eq_ofLine :
    ¬ ∀ me text : String, (∀ c ∈ me.toList, isBlank c = false ∧ c ≠ '@') →
      route me true text = some (.ofLine text) := by
  intro h
  have hme : ∀ c ∈ "bot".toList, isBlank c = false ∧ c ≠ '@' := forall_mem_of_all (by decide +kernel)
  exact absurd (h "bot" "/show@bot@\t5" hme) (by decide +kernel)

end VaultChat.Telegram
