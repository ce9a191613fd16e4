import VaultChat.Proofs.Incidents
import VaultChat.Proofs.Input
import VaultChat.Session.Storage

/-!
# Passwords are stored as typed

A dialogue that waits for an entry takes the whole line that was sent, whether or not it starts with a slash
(`ofLine_line?`), and passes its three parts to the vault with nothing taken away.  `addPassword_iff_isEntry` says
which lines are stored, and as what.
-/

namespace VaultChat

open Chat Session

/-- A name that is known stands for a known command. -/
theorem Chat.Command.line?_of_ofName? {name arg : String} {c : Command} (h : Command.ofName? name arg = some c) :
    (Event.command c).line? = none := by
  unfold Command.ofName? at h
  split at h <;> cases h <;> rfl

/-- What is not a known command stands for the line as it was sent. -/
theorem Chat.ofLine_line? {line text : String} (h : (Event.ofLine line).line? = some text) : text = line := by
  unfold Event.ofLine at h
  split at h
  · exact (Option.some.inj h).symm
  · rename_i rest _
    dsimp only at h
    generalize (Text.cut Text.isBlank rest).2.getD [] = arg at h
    cases hc : Command.parse? (splitMention (Text.cut Text.isBlank rest).1).1 arg with
    | none =>
      rw [hc] at h
      exact (Option.some.inj h).symm
    | some c =>
      rw [hc, Option.getD_some, Command.line?_of_ofName? hc] at h
      cases h

namespace Engine

variable {σ τ : Type} {settings : Settings} {env : Surroundings σ τ} {user : UserId} {e : Engine σ τ} {event : Event}

/-- An entry is passed to the vault once, under the token of the session. -/
theorem calls_of_addPassword {entry : Vault.NewPassword} {token : Token}
    (hplan : plan (e.flow user) event = .run (.addPassword entry))
    (hlive : (env.cache.session? env.now user e.world.sessions).1 = .ok (some token)) :
    (e.exchanges settings env user event).map Vault.Exchange.call = [.addPassword token entry] := by
  have hanswer := respond_answered settings user (e.flow user) event env e.world
  obtain ⟨is, his⟩ : ∃ is, (respond settings user (e.flow user) event).incidents env e.world =
      .lookedUp (env.cache.session? env.now user e.world.sessions).1 :: is := by
    unfold respond
    rw [hplan]
    exact ⟨_, rfl⟩
  rw [his, hlive, hplan] at hanswer
  obtain ⟨outcome, hx⟩ := hanswer.exchanges_of_holding rfl
  rw [exchanges, Procedure.exchanges_eq, his, List.filterMap_cons, hlive]
  simp only [Incident.exchange?]
  rw [hx]
  rfl

/-- What is no entry is asked for again. -/
theorem respond_of_not_isEntry {flow : Flow} {text : String} (hflow : flow = .awaitingEntry)
    (htext : event.line? = some text) (hnone : ∀ entry, ¬ IsEntry text entry) :
    respond settings user flow event = .done ⟨.awaitingEntry, .plain Wording.entryMalformed⟩ := by
  have hparse : parseEntry text = none :=
    Option.eq_none_iff_forall_ne_some.2 fun entry he => hnone entry (parseEntry_eq_some_iff.1 he)
  have hplan : plan flow event = .stay .awaitingEntry Wording.entryMalformed := by
    rw [plan_of_line htext, hflow]
    simp only [planText, hparse]
  unfold respond
  rw [hplan]
  rfl

/-- In a dialogue that waits for an entry and has a session, a line that is no known command is stored exactly if it
is an entry, as that entry.  Any other line is asked for again. -/
theorem addPassword_iff_isEntry {token : Token} {line : String} (hflow : e.flow user = .awaitingEntry)
    (hlive : (env.cache.session? env.now user e.world.sessions).1 = .ok (some token))
    (hline : (Event.ofLine line).line?.isSome = true) :
    (∀ t entry, .addPassword t entry ∈ (e.exchanges settings env user (.ofLine line)).map Vault.Exchange.call ↔
      t = token ∧ IsEntry line entry) ∧
    (∀ entry, IsEntry line entry →
      (e.exchanges settings env user (.ofLine line)).map Vault.Exchange.call = [.addPassword token entry]) ∧
    ((∀ entry, ¬ IsEntry line entry) → e.exchanges settings env user (.ofLine line) = [] ∧
      (e.handle settings env user (.ofLine line)).1 = .plain Wording.entryMalformed ∧
      (e.handle settings env user (.ofLine line)).2.flow user = .awaitingEntry) := by
  obtain ⟨text, htext⟩ := Option.isSome_iff_exists.1 hline
  obtain rfl := ofLine_line? htext
  have hcalls (entry : Vault.NewPassword) (he : IsEntry text entry) :
      (e.exchanges settings env user (.ofLine text)).map Vault.Exchange.call = [.addPassword token entry] :=
    calls_of_addPassword (plan_eq_run_iff.2 (.addPassword hflow htext (parseEntry_eq_some_iff.2 he))) hlive
  have hexchanges (hnone : ∀ entry, ¬ IsEntry text entry) : e.exchanges settings env user (.ofLine text) = [] := by
    rw [exchanges, respond_of_not_isEntry hflow htext hnone]
    rfl
  refine ⟨fun t entry => ⟨fun hmem => ?_, ?_⟩, hcalls, fun hnone => ⟨hexchanges hnone, ?_, ?_⟩⟩
  · by_cases hentry : ∃ entry, IsEntry text entry
    · obtain ⟨entry', he⟩ := hentry
      rw [hcalls entry' he] at hmem
      cases List.mem_singleton.1 hmem
      exact ⟨rfl, he⟩
    · rw [hexchanges (not_exists.1 hentry)] at hmem
      cases hmem
  · rintro ⟨rfl, he⟩
    rw [hcalls entry he]
    exact List.mem_singleton_self _
  · show ((respond settings user (e.flow user) (.ofLine text)).run env e.world).1.reply = _
    rw [respond_of_not_isEntry hflow htext hnone]
    rfl
  · rw [flow_handle, if_pos rfl, respond_of_not_isEntry hflow htext hnone]
    rfl

/-- A line that starts with a slash, and ends with a password that has blanks at both ends and in between. -/
theorem addPassword_iff_isEntry_slash :
    let settings : Settings := ⟨⟨60⟩, .always, 16⟩
    let env := Surroundings.plain storageCache (.granting ⟨"token"⟩)
    let e : Engine Storage Unit :=
      ⟨.insert ∅ ⟨5⟩ .awaitingEntry, ⟨.memory (.insert ∅ (UserId.sessionKey ⟨5⟩) ⟨"token", .latest⟩), (), 0⟩⟩
    e.flow ⟨5⟩ = .awaitingEntry ∧
      (env.cache.session? env.now ⟨5⟩ e.world.sessions).1 = .ok (some ⟨"token"⟩) ∧
      (Event.ofLine "/mail me  p  w ").line?.isSome = true ∧ IsEntry "/mail me  p  w " ⟨"/mail", "me", " p  w "⟩ ∧
      (e.exchanges settings env ⟨5⟩ (.ofLine "/mail me  p  w ")).map Vault.Exchange.call =
        [.addPassword ⟨"token"⟩ ⟨"/mail", "me", " p  w "⟩] := by
  intro settings env e
  have hflow : e.flow ⟨5⟩ = .awaitingEntry := by decide +kernel
  have hlive : (env.cache.session? env.now ⟨5⟩ e.world.sessions).1 = .ok (some ⟨"token"⟩) := rfl
  have hline : (Event.ofLine "/mail me  p  w ").line?.isSome = true := by decide +kernel
  have hentry : IsEntry "/mail me  p  w " ⟨"/mail", "me", " p  w "⟩ := parseEntry_eq_some_iff.1 (by decide +kernel)
  exact ⟨hflow, hlive, hline, hentry, (addPassword_iff_isEntry hflow hlive hline).2.1 _ hentry⟩

end Engine

end VaultChat
