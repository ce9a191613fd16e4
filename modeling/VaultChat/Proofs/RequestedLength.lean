import VaultChat.Proofs.Credentials
import VaultChat.Proofs.Generator
import VaultChat.Proofs.Inert
import VaultChat.Proofs.Numeral
import VaultChat.Proofs.StorageFailure

/-!
# Asking for a password of a certain length

The length is written in digits behind the command, any number of them.  A length in bounds is served
(`reply_of_served`), and one out of bounds is refused with the bounds, as long as it fits 64 bits.  A longer number is
refused with the usage of the command, as if it were no number (`requested_length_answered`).  No other event is
answered with the usage (`reply_eq_usage_iff`).
-/

namespace VaultChat

open Chat Text Password

namespace Chat

/-- The argument is a length: an unsigned numeral that fits 64 bits, without blanks. -/
def IsLength (arg : String) (n : Nat) : Prop := IsNatural maxUnsigned64 arg.toList n

theorem parseLength_eq_some_iff {arg : String} {n : Nat} : parseLength arg = some n ↔ IsLength arg n := by
  rw [parseLength, IsLength, ← readNatural_eq_ok_iff]
  cases readNatural maxUnsigned64 arg.toList <;> simp [Except.toOption]

theorem parseLength_eq_none_iff {arg : String} : parseLength arg = none ↔ ∀ n, ¬ IsLength arg n := by
  rw [Option.eq_none_iff_forall_ne_some]
  exact forall_congr' fun n => not_congr parseLength_eq_some_iff

/-- The line is the command for a password, blanks, and these digits. -/
structure AsksForLength (line : String) (digits : List Char) : Prop where
  joined : ∃ gap, gap ≠ [] ∧ Blanks gap ∧ line.toList = "/gen".toList ++ gap ++ digits
  digits_ne : digits ≠ []
  digits_digits : ∀ c ∈ digits, isDigit c = true

variable {line : String} {digits : List Char}

theorem AsksForLength.ofLine_eq (h : AsksForLength line digits) :
    Event.ofLine line = .command (.generate (String.ofList digits)) := by
  obtain ⟨⟨gap, hgap, hblanks, hline⟩, -, hdigits⟩ := h
  have hslash : Slashed line.toList ("gen".toList ++ (gap ++ digits)) := by
    refine ⟨[], nofun, ?_⟩
    rw [hline, List.append_assoc]
    rfl
  have hparted : StartsBlank (gap ++ digits) := by
    obtain ⟨c, gap, rfl⟩ := List.exists_cons_of_ne_nil hgap
    exact fun d hd => hblanks d (by rw [← Option.some.inj hd]; exact List.mem_cons_self)
  have hword : CommandWord ("gen".toList ++ (gap ++ digits)) "gen".toList none (gap ++ digits) := by
    refine ⟨?_, by decide, ?_, hparted⟩
    · rw [rejoin, List.append_nil]
    · rw [rejoin, List.append_nil]
      exact forall_mem_of_all (by decide)
  have htrim : trim (gap ++ digits) = digits := by
    rw [trim_append_of_blank hblanks, trim_of_solid (solid_of_digits hdigits)]
  rw [ofLine_of_commandWord hslash hword, Command.parse?, htrim]
  rfl

theorem asksForLength_of_all (gap : List Char) (hline : line.toList = "/gen".toList ++ gap ++ digits)
    (hgap : gap ≠ []) (hblank : gap.all isBlank = true) (hne : digits ≠ []) (hdigit : digits.all isDigit = true) :
    AsksForLength line digits :=
  ⟨⟨gap, hgap, List.all_eq_true.1 hblank, hline⟩, hne, List.all_eq_true.1 hdigit⟩

theorem AsksForLength.ne_empty (h : AsksForLength line digits) : String.ofList digits ≠ "" := by
  intro heq
  have hnil := congrArg String.toList heq
  rw [String.toList_ofList] at hnil
  exact h.digits_ne hnil

theorem AsksForLength.isLength_iff (h : AsksForLength line digits) {n : Nat} :
    IsLength (String.ofList digits) n ↔ digitsValue 0 digits = n ∧ n ≤ maxUnsigned64 := by
  rw [IsLength, String.toList_ofList]
  exact isNatural_digits_iff h.digits_ne h.digits_digits

end Chat

namespace Engine

variable {σ τ : Type} {settings : Settings} {env : Surroundings σ τ} {user : UserId} {e : Engine σ τ} {event : Event}
  {flow : Flow} {arg : String} {n : Nat}

/-! ### Events that ask for a password -/

theorem plan_generate (hne : arg ≠ "") (h : IsLength arg n) :
    plan flow (.command (.generate arg)) = .answer (.generatePassword (some n)) :=
  plan_eq_answer_iff.2 (.generatePassword rfl hne (parseLength_eq_some_iff.2 h))

theorem plan_generate_of_not_isLength (hne : arg ≠ "") (h : ∀ n, ¬ IsLength arg n) :
    plan flow (.command (.generate arg)) = .stay flow Wording.lengthNotANumber := by
  simp only [plan, planCommand, if_neg hne, parseLength_eq_none_iff.2 h]

/-- At most a password is chosen, and the dialogue stays where it is. -/
theorem respond_generate (settings : Settings) (user : UserId) (flow : Flow) (arg : String) :
    (∃ reply, respond settings user flow (.command (.generate arg)) = .done ⟨flow, reply⟩) ∨
      ∃ extra, respond settings user flow (.command (.generate arg)) =
        .choose extra fun c => .done ⟨flow, .hidden c.password⟩ := by
  have hinert : Inert flow (.command (.generate arg)) := .generate arg
  unfold respond
  obtain ⟨text, hplan⟩ | hplan | ⟨length, hplan⟩ := plan_of_inert hinert <;> rw [hplan]
  · exact .inl ⟨_, rfl⟩
  · cases plan_eq_answer_iff.1 hplan with
    | unmatched _ hl => cases hl
  · simp only [reply, generatePassword]
    cases freeCharacters (length.getD settings.defaultLength) with
    | ok extra => exact .inr ⟨extra, rfl⟩
    | error e => exact .inl ⟨_, rfl⟩

/-- The event changes no dialogue, no session and nothing at the vault, of which nothing is asked. -/
structure OnlyReplies (settings : Settings) (env : Surroundings σ τ) (user : UserId) (event : Event)
    (e : Engine σ τ) : Prop where
  flow : ∀ other, (e.handle settings env user event).2.flow other = e.flow other
  sessions : (e.handle settings env user event).2.world.sessions = e.world.sessions
  vault : (e.handle settings env user event).2.world.vault = e.world.vault
  exchanges : e.exchanges settings env user event = []

theorem onlyReplies_generate (settings : Settings) (env : Surroundings σ τ) (user : UserId) (e : Engine σ τ)
    (arg : String) : e.OnlyReplies settings env user (.command (.generate arg)) := by
  have hworld : (e.handle settings env user (.command (.generate arg))).2.world =
      ((respond settings user (e.flow user) (.command (.generate arg))).run env e.world).2 := rfl
  have hinert : Inert (e.flow user) (.command (.generate arg)) := .generate arg
  have hquiet := respond_quiet settings user hinert
  refine ⟨fun other => ?_, ?_, ?_, hquiet.exchanges env e.world⟩
  · rw [flow_handle, hquiet.next]
    split
    · rename_i hother
      rw [hother]
    · rfl
  all_goals
    rw [hworld]
    obtain ⟨reply, hrespond⟩ | ⟨extra, hrespond⟩ := respond_generate settings user (e.flow user) arg
    · rw [hrespond]
      rfl
    · rw [hrespond]
      rfl

/-- A length in bounds is served. -/
theorem reply_of_served (hplan : plan (e.flow user) event = .answer (.generatePassword (some n)))
    (hmin : minLength ≤ n) (hmax : n ≤ maxLength) :
    ∃ password, (e.handle settings env user event).1 = .hidden password ∧ Conforms n password := by
  have hfree : freeCharacters n = .ok (n - 3) := if_pos ⟨hmin, hmax⟩
  have hrespond : respond settings user (e.flow user) event =
      .choose (n - 3) fun c => .done ⟨e.flow user, .hidden c.password⟩ := by
    unfold respond
    rw [hplan]
    simp only [reply, generatePassword, Option.getD_some, hfree]
    rfl
  refine ⟨(env.dice e.world.throws (n - 3)).password, ?_, ?_⟩
  · show ((respond settings user (e.flow user) event).run env e.world).1.reply = _
    rw [hrespond]
    rfl
  · have hlength : n - 3 + 3 = n := Nat.sub_add_cancel (Nat.le_trans (by decide) hmin)
    have hconforms := (env.dice e.world.throws (n - 3)).conforms_password
    rwa [hlength] at hconforms

/-- A length out of bounds is refused. -/
theorem reply_of_not_served (hplan : plan (e.flow user) event = .answer (.generatePassword (some n)))
    (h : n < minLength ∨ maxLength < n) :
    (e.handle settings env user event).1 = .plain Wording.invalidLength := by
  have hbounds : ¬ (minLength ≤ n ∧ n ≤ maxLength) := by omega
  have hfree : ∃ detail, freeCharacters n = .error (.invalidInput detail) := ⟨_, if_neg hbounds⟩
  obtain ⟨detail, hfree⟩ := hfree
  show ((respond settings user (e.flow user) event).run env e.world).1.reply = _
  unfold respond
  rw [hplan]
  simp only [reply, generatePassword, Option.getD_some, hfree]
  rfl

theorem reply_of_stay {next : Flow} {text : String} (hplan : plan (e.flow user) event = .stay next text) :
    (e.handle settings env user event).1 = .plain text := by
  show ((respond settings user (e.flow user) event).run env e.world).1.reply = _
  unfold respond
  rw [hplan]
  rfl

/-! ### The usage of the command -/

/-- The usage of the command for a password, as a reply. -/
def usage : Reply := .plain Wording.lengthNotANumber

theorem plain_eq_usage_iff {text : String} : Reply.plain text = usage ↔ text = Wording.lengthNotANumber := by
  simp [usage, Reply.plain, Message.plain]

/-- A failure is told in one of three texts, or in that for refusals. -/
theorem failure_ne_usage (err : Error) {rejected : String} (h : rejected ≠ Wording.lengthNotANumber) :
    failure err rejected ≠ usage := by
  have hlogin : Wording.pleaseAuthenticate ≠ Wording.lengthNotANumber := by decide +kernel
  have hvault : Wording.vaultUnavailable ≠ Wording.lengthNotANumber := by decide +kernel
  have hstorage : Wording.storageUnavailable ≠ Wording.lengthNotANumber := by decide +kernel
  rw [failure, Ne, plain_eq_usage_iff]
  cases err with
  | invalidInput | config => exact h
  | unauthenticated => exact hlogin
  | http | json | database | cache | io => exact hstorage
  | vault f =>
    cases f with
    | transport => exact hvault
    | authFailed | notFound | conflict | rejected => exact h

theorem rejection_ne_usage {plan : Plan} {rejected : String} (h : plan.rejection? = some rejected) :
    rejected ≠ Wording.lengthNotANumber := by
  unfold Plan.rejection? at h
  split at h <;> cases h <;> decide +kernel

theorem success_ne_usage {x : Vault.Exchange} {success : Reply} (h : x.success? = some success) :
    success ≠ usage := by
  unfold Vault.Exchange.success? at h
  split at h <;> cases h
  -- An entry takes two messages, and the usage is one.
  case h_4 | h_5 => simp [renderEntry, usage, Reply.plain]
  all_goals decide +kernel

variable {is : List Incident} {t : Transition}

/-- The usage is told where it is planned, and never because of what was answered to a request. -/
theorem Answered.plan_of_usage {p : Plan} (h : Answered settings user flow p is t) (hreply : t.reply = usage) :
    p = .done t := by
  have hplain {text : String} (htext : Reply.plain text = usage) (hne : text ≠ Wording.lengthNotANumber) : False :=
    hne (plain_eq_usage_iff.1 htext)
  cases h with
  | done hp => exact hp
  | generated => exact absurd hreply (by simp [usage, Reply.hidden, Reply.plain, Message.hidden, Message.plain])
  | ungenerated => exact absurd hreply (failure_ne_usage _ (by decide +kernel))
  | unread _ hj | unserved _ _ hj => exact absurd hreply (failure_ne_usage _ (rejection_ne_usage hj))
  | unregistered | unauthenticated | unforgotten | undeleted =>
    exact absurd hreply (failure_ne_usage _ (by decide +kernel))
  | registered | known => exact absurd (congrArg List.length hreply) (by simp [usage, Reply.plain])
  | served _ _ hs | renewed _ _ hs => exact absurd hreply (success_ne_usage hs)
  | unrenewed =>
    -- The notice about the session comes last.
    have hlast := congrArg List.getLast? hreply
    rw [Reply.andPlain, List.getLast?_concat] at hlast
    exact absurd hlast (by decide +kernel)
  | loggedOut => split at hreply <;> exact (hplain hreply (by decide +kernel)).elim
  | loggedIn | absent | recognised | unsaved | prompted | unmatched | refused | missing | deleted =>
    exact (hplain hreply (by decide +kernel)).elim

/-- Free text is never answered with the usage at once. -/
theorem planText_ne_usage {text : String} (h : planText flow text = .done t) : t.reply ≠ usage := by
  unfold planText at h
  cases flow with
  | idle => cases h
  | awaitingCredentials | awaitingEntry | confirmingReset | awaitingCode =>
    dsimp only [Plan.stay] at h
    split at h <;> cases h <;> decide +kernel

/-- The usage is planned for arguments that are no lengths. -/
theorem generate_of_plan_usage (h : plan flow event = .done t) (hreply : t.reply = usage) :
    ∃ arg, event = .command (.generate arg) ∧ arg ≠ "" ∧ ∀ n, ¬ IsLength arg n := by
  have hother {next : Flow} {text : String} (hstay : Plan.stay next text = .done t)
      (hne : text ≠ Wording.lengthNotANumber) : False := by
    cases hstay
    exact hne (plain_eq_usage_iff.1 hreply)
  cases event with
  | text text => exact absurd hreply (planText_ne_usage h)
  | command c =>
    cases c with
    | unknown line => exact absurd hreply (planText_ne_usage h)
    | start | add | logOut | list => cases h
    | resetForever =>
      have hne : Wording.resetConfirm ≠ Wording.lengthNotANumber := by decide +kernel
      exact (hother h hne).elim
    | help =>
      have hne : Wording.help ≠ Wording.lengthNotANumber := by decide +kernel
      exact (hother h hne).elim
    | cancel =>
      simp only [plan, planCommand] at h
      split at h
      · exact (hother h (by decide +kernel)).elim
      · exact (hother h (by decide +kernel)).elim
    | showEntry | deleteEntry =>
      simp only [plan, planCommand] at h
      split at h
      · cases h
      · exact (hother h (by decide +kernel)).elim
    | generate arg =>
      by_cases hne : arg = ""
      · rw [hne] at h
        cases h
      · refine ⟨arg, rfl, hne, fun n hn => ?_⟩
        rw [plan_generate hne hn] at h
        cases h

/-- The usage is the reply to a command for a password whose argument is no length, and to nothing else. -/
theorem reply_eq_usage_iff : (e.handle settings env user event).1 = usage ↔
    ∃ arg, event = .command (.generate arg) ∧ arg ≠ "" ∧ ∀ n, ¬ IsLength arg n := by
  constructor
  · intro h
    have hanswered := respond_answered settings user (e.flow user) event env e.world
    exact generate_of_plan_usage (hanswered.plan_of_usage h) h
  · rintro ⟨arg, rfl, hne, hnone⟩
    exact reply_of_stay (plan_generate_of_not_isLength hne hnone)

/-- A request for a password with its length in digits is answered by the value of the digits, in whatever dialogue,
and nothing else comes of it.  Only numbers beyond 64 bits are not taken for numbers.  The usage is for them, and
otherwise for arguments that are no numerals. -/
theorem requested_length_answered {line : String} {digits : List Char} (h : AsksForLength line digits) :
    let n := digitsValue 0 digits
    let reply := (e.handle settings env user (.ofLine line)).1
    (minLength ≤ n ∧ n ≤ maxLength → ∃ password, reply = .hidden password ∧ Conforms n password) ∧
    ((n < minLength ∨ maxLength < n) ∧ n ≤ maxUnsigned64 → reply = .plain Wording.invalidLength) ∧
    (maxUnsigned64 < n → reply = .plain Wording.lengthNotANumber) ∧
    e.OnlyReplies settings env user (.ofLine line) ∧
    ∀ event, (e.handle settings env user event).1 = .plain Wording.lengthNotANumber ↔
      ∃ arg, event = .command (.generate arg) ∧ arg ≠ "" ∧ ∀ m, ¬ IsLength arg m := by
  intro n reply
  have hplan (hfits : n ≤ maxUnsigned64) :
      plan (e.flow user) (.ofLine line) = .answer (.generatePassword (some n)) := by
    rw [h.ofLine_eq]
    exact plan_generate h.ne_empty (h.isLength_iff.2 ⟨rfl, hfits⟩)
  refine ⟨?_, ?_, ?_, ?_, fun event => reply_eq_usage_iff⟩
  · rintro ⟨hmin, hmax⟩
    exact reply_of_served (hplan (Nat.le_trans hmax (by decide))) hmin hmax
  · rintro ⟨hbounds, hfits⟩
    exact reply_of_not_served (hplan hfits) hbounds
  · intro hexceeds
    refine reply_eq_usage_iff.2 ⟨_, h.ofLine_eq, h.ne_empty, fun m hm => ?_⟩
    obtain ⟨rfl, hfits⟩ := h.isLength_iff.1 hm
    exact absurd hfits (Nat.not_le.2 hexceeds)
  · rw [h.ofLine_eq]
    exact onlyReplies_generate settings env user e _

/-- The longest password, asked for with zeros in front and blanks of two kinds. -/
theorem requested_length_answered_longest :
    let env := Surroundings.plain Session.storageCache (.granting ⟨"token"⟩)
    let e : Engine Session.Storage Unit := ⟨.insert ∅ ⟨5⟩ .awaitingEntry, ⟨.memory ∅, (), 0⟩⟩
    AsksForLength "/gen \u3000000128" "000128".toList ∧
      ∃ password, (e.handle ⟨⟨60⟩, .always, 16⟩ env ⟨5⟩ (.ofLine "/gen \u3000000128")).1 = .hidden password ∧
        Conforms 128 password := by
  intro env e
  have hasks : AsksForLength "/gen \u3000000128" "000128".toList :=
    asksForLength_of_all [' ', '\u3000'] (by decide +kernel) nofun (by decide) (by decide) (by decide)
  exact ⟨hasks, (requested_length_answered hasks).1 (by decide +kernel)⟩

/-- Not every number out of bounds is refused with the bounds: the first one beyond 64 bits is not taken
for a number. -/
theorem huge_length_refused_as_word :
    let env := Surroundings.plain Session.storageCache (.granting ⟨"token"⟩)
    let e : Engine Session.Storage Unit := ⟨∅, ⟨.memory ∅, (), 0⟩⟩
    (e.handle ⟨⟨60⟩, .always, 16⟩ env ⟨5⟩ (.ofLine "/gen 18446744073709551616")).1 = .plain Wording.lengthNotANumber ∧
      ¬ ∀ (settings : Settings) (user : UserId) (line : String) (digits : List Char), AsksForLength line digits →
        digitsValue 0 digits < minLength ∨ maxLength < digitsValue 0 digits →
          (e.handle settings env user (.ofLine line)).1 = .plain Wording.invalidLength := by
  intro env e
  have hasks : AsksForLength "/gen 18446744073709551616" "18446744073709551616".toList :=
    asksForLength_of_all [' '] (by decide +kernel) nofun (by decide) (by decide) (by decide)
  have hhuge : ∀ m, ¬ IsLength (String.ofList "18446744073709551616".toList) m := fun m hm => by
    obtain ⟨rfl, hfits⟩ := hasks.isLength_iff.1 hm
    exact absurd hfits (by decide +kernel)
  have hreply (settings : Settings) (user : UserId) :
      (e.handle settings env user (.ofLine "/gen 18446744073709551616")).1 = .plain Wording.lengthNotANumber :=
    reply_eq_usage_iff.2 ⟨_, hasks.ofLine_eq, hasks.ne_empty, hhuge⟩
  refine ⟨hreply _ _, fun h => ?_⟩
  have hbounds := h ⟨⟨60⟩, .always, 16⟩ ⟨5⟩ _ _ hasks (.inr (by decide +kernel))
  rw [hreply] at hbounds
  exact absurd hbounds (by decide +kernel)

end Engine

end VaultChat
