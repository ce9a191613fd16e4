import VaultChat.Proofs.Conduct
import VaultChat.Proofs.Input
import VaultChat.Proofs.NextStep
import VaultChat.Session.Storage

/-!
# Account reset

The vault is told to delete an account exactly when its user has asked for a reset, said yes and given a code, with
nothing but harmless events in between.  `ResetAsked` and `ResetConfirmed` describe the histories of a user after
which a yes or a code is waited for, `flow_reset_iff` says that the dialogue is at these steps after these histories
only, and `deleteAccount_iff` is the statement about every handled event.
-/

namespace VaultChat

open Chat Session

namespace Chat

namespace Event

/-- A command that is answered at once and leaves any dialogue alone. -/
def leavesAlone : Event → Bool
  | .command .list | .command (.showEntry _) | .command (.deleteEntry _) | .command (.generate _) | .command .help =>
    true
  | _ => false

/-- The event is a line that says yes. -/
def SaysYes (e : Event) : Prop := ∃ text, e.line? = some text ∧ IsYes text

/-- The event is a line that is a code. -/
def GivesCode (e : Event) (code : Code) : Prop := ∃ text, e.line? = some text ∧ IsCode text code

/-- The event is a line that is no code. -/
def GivesNoCode (e : Event) : Prop := ∃ text, e.line? = some text ∧ ∀ code, ¬ IsCode text code

end Event

/-- Some event, seen with those before it, is of the first kind, and all later ones are of the second. -/
def Since (first : List Event → Event → Prop) (later : Event → Prop) (es : List Event) : Prop :=
  ∃ before e after, es = before ++ e :: after ∧ first before e ∧ ∀ x ∈ after, later x

theorem since_append_singleton {first : List Event → Event → Prop} {later : Event → Prop} {es : List Event}
    {e : Event} : Since first later (es ++ [e]) ↔ first es e ∨ Since first later es ∧ later e := by
  constructor
  · rintro ⟨before, x, after, h, hfirst, hlater⟩
    -- `e` is the event of the first kind itself, or the last one of those after it.
    rcases after.eq_nil_or_concat with rfl | ⟨after, y, rfl⟩
    · obtain ⟨rfl, he⟩ := List.append_inj' h rfl
      cases he
      exact .inl hfirst
    · rw [List.concat_eq_append, ← List.cons_append, ← List.append_assoc] at h
      obtain ⟨rfl, he⟩ := List.append_inj' h rfl
      cases he
      refine .inr ⟨⟨before, x, after, rfl, hfirst, fun z hz => hlater z ?_⟩, hlater e ?_⟩
      · simp [hz]
      · simp
  · rintro (hfirst | ⟨⟨before, x, after, rfl, hfirst, hlater⟩, he⟩)
    · exact ⟨es, e, [], rfl, hfirst, by simp⟩
    · refine ⟨before, x, after ++ [e], by simp, hfirst, fun z hz => ?_⟩
      rcases List.mem_append.1 hz with hz | hz
      · exact hlater z hz
      · rw [List.mem_singleton.1 hz]
        exact he

theorem not_since_nil {first : List Event → Event → Prop} {later : Event → Prop} : ¬ Since first later [] := by
  rintro ⟨before, e, after, h, -⟩
  simp at h

/-- A reset was asked for, and nothing else has happened since. -/
def ResetAsked : List Event → Prop := Since (fun _ e => e = .command .resetForever) fun e => e.leavesAlone = true

/-- A reset was asked for and confirmed, and no code has been given since. -/
def ResetConfirmed : List Event → Prop :=
  Since (fun before e => ResetAsked before ∧ e.SaysYes) fun e => e.leavesAlone = true ∨ e.GivesNoCode

theorem resetAsked_append_singleton {es : List Event} {e : Event} :
    ResetAsked (es ++ [e]) ↔ e = .command .resetForever ∨ ResetAsked es ∧ e.leavesAlone = true :=
  since_append_singleton

theorem resetConfirmed_append_singleton {es : List Event} {e : Event} :
    ResetConfirmed (es ++ [e]) ↔
      ResetAsked es ∧ e.SaysYes ∨ ResetConfirmed es ∧ (e.leavesAlone = true ∨ e.GivesNoCode) :=
  since_append_singleton

/-! ### Plans -/

variable {flow : Flow} {event : Event}

/-- A line is none of the commands that matter to a reset. -/
private theorem line_of_reset {text : String} (h : event.line? = some text) :
    event ≠ .command .resetForever ∧ event.leavesAlone = false := by
  rcases event with c | t
  · cases c <;> cases h
    exact ⟨nofun, rfl⟩
  · exact ⟨nofun, rfl⟩

theorem plan_next?_confirmingReset : (plan flow event).next? flow = some .confirmingReset ↔
    event = .command .resetForever ∨ flow = .confirmingReset ∧ event.leavesAlone = true := by
  cases hl : event.line? with
  | some text =>
    rw [plan_of_line hl, (line_of_reset hl).2]
    cases flow <;> simp only [planText, Plan.stay] <;> (try split) <;> simp [Plan.next?, (line_of_reset hl).1]
  | none =>
    rcases event with c | t
    · cases c <;> simp only [plan, planCommand, Plan.stay] <;> (repeat' split) <;>
        simp_all [Plan.next?, Event.leavesAlone, Event.line?]
    · cases hl

theorem plan_next?_awaitingCode : (plan flow event).next? flow = some .awaitingCode ↔
    flow = .confirmingReset ∧ event.SaysYes ∨
      flow = .awaitingCode ∧ (event.leavesAlone = true ∨ event.GivesNoCode) := by
  unfold Event.SaysYes Event.GivesNoCode
  cases hl : event.line? with
  | some text =>
    rw [plan_of_line hl, (line_of_reset hl).2]
    cases flow with
    | idle => simp [planText, Plan.next?]
    | awaitingCredentials | awaitingEntry =>
      simp only [planText, Plan.stay]
      split <;> simp [Plan.next?]
    | confirmingReset =>
      simp only [planText, Plan.stay, ← isConfirmation_iff]
      cases hy : isConfirmation text <;> simp_all [Plan.next?]
    | awaitingCode =>
      simp only [planText, Plan.stay, ← parseCode_eq_some_iff]
      cases hp : parseCode text.toList <;> simp_all [Plan.next?]
  | none =>
    rcases event with c | t
    · cases c <;> simp only [plan, planCommand, Plan.stay] <;> (repeat' split) <;>
        simp_all [Plan.next?, Event.leavesAlone, Event.line?]
    · cases hl

theorem plan_deleteAccount_iff {code : Code} :
    plan flow event = .run (.deleteAccount code) ↔ flow = .awaitingCode ∧ event.GivesCode code := by
  rw [plan_eq_run_iff]
  constructor
  · rintro (_ | _ | _ | _ | _ | ⟨hf, hl, hp⟩)
    exact ⟨hf, _, hl, parseCode_eq_some_iff.1 hp⟩
  · rintro ⟨hf, text, hl, hcode⟩
    exact .deleteAccount hf hl (parseCode_eq_some_iff.2 hcode)

end Chat

namespace Engine

variable {σ τ : Type} {settings : Settings} {env : Surroundings σ τ} {user : UserId} {flow : Flow} {event : Event}

theorem respond_next_eq_iff {f : Flow} (hf : f = .confirmingReset ∨ f = .awaitingCode) (w : World σ τ) :
    ((respond settings user flow event).run env w).1.next = f ↔ (plan flow event).next? flow = some f := by
  rcases respond_next settings env user flow event w with h | ⟨e, he, hmem⟩
  · rw [h, Option.some.injEq]
  · -- No effect leads to a step of a reset.
    have hne : ((respond settings user flow event).run env w).1.next ≠ f := by
      intro hn
      rw [hn] at hmem
      rcases hf with rfl | rfl <;> cases e <;> simp [Effect.targets] at hmem
    rw [he]
    refine ⟨fun h => absurd h hne, fun h => ?_⟩
    cases h

/-! ### Calls -/

/-- An account is deleted by the plan to do so only, and for the user who sent the event. -/
theorem Conduct.of_deleteAccount_mem {stage : Stage} {p : Procedure Transition}
    (h : Conduct settings user flow event stage p) {w : World σ τ} {username : String} {code : Code}
    (hmem : .deleteAccount username code ∈ (p.exchanges env w).map Vault.Exchange.call) :
    username = user.username ∧ plan flow event = .run (.deleteAccount code) := by
  rcases h.call_cases hmem with hc | ⟨_, _, hc, -⟩ | ⟨_, hc, hplan⟩ | ⟨_, hb⟩
  · cases hc
  · cases hc
  · cases hc
    exact ⟨rfl, hplan⟩
  · cases hb

theorem exchanges_of_deleteAccount {code : Code} (h : plan flow event = .run (.deleteAccount code)) (w : World σ τ) :
    ((respond settings user flow event).exchanges env w).map Vault.Exchange.call =
      [.deleteAccount user.username code] := by
  rw [respond, h]
  show Vault.Call.deleteAccount _ _ :: _ = _
  congr 1
  cases (env.vault.respond (.deleteAccount user.username code) w.vault).1 <;> rfl

/-! ### Courses -/

theorem flow_reset_iff {m : Moment σ τ} (hidle : m.engine.flow user = .idle) (course : List Happening) :
    ((m.after settings env course).engine.flow user = .confirmingReset ↔
        ResetAsked (eventsOf user (m.history settings env course))) ∧
      ((m.after settings env course).engine.flow user = .awaitingCode ↔
        ResetConfirmed (eventsOf user (m.history settings env course))) := by
  refine Moment.induction (fun past m => (m.engine.flow user = .confirmingReset ↔ ResetAsked (eventsOf user past)) ∧
    (m.engine.flow user = .awaitingCode ↔ ResetConfirmed (eventsOf user past))) ?_ ?_ course
  · rw [hidle]
    exact ⟨⟨nofun, fun h => absurd h not_since_nil⟩, ⟨nofun, fun h => absurd h not_since_nil⟩⟩
  · rintro past m h ⟨hasked, hconfirmed⟩
    cases h with
    | wait span =>
      rw [Moment.noted, List.append_nil]
      exact ⟨hasked, hconfirmed⟩
    | event sender event =>
      have hflow := flow_handle settings (env.at m.now) sender user event m.engine
      rw [Moment.noted, eventsOf, List.filter_append, List.map_append, ← eventsOf]
      -- Only the user's own events are in the list, and only they move the user's dialogue.
      by_cases hu : user = sender
      · subst hu
        have hown : ([m.handled settings env user event].filter fun r => r.user = user).map Handled.event =
            [event] := by
          simp [Moment.handled]
        rw [if_pos rfl] at hflow
        rw [hown]
        rw [resetAsked_append_singleton, resetConfirmed_append_singleton, ← hasked, ← hconfirmed]
        show ((m.engine.handle settings (env.at m.now) user event).2.flow user = _ ↔ _) ∧
          ((m.engine.handle settings (env.at m.now) user event).2.flow user = _ ↔ _)
        rw [hflow, respond_next_eq_iff (.inl rfl), respond_next_eq_iff (.inr rfl), plan_next?_confirmingReset,
          plan_next?_awaitingCode]
        exact ⟨Iff.rfl, Iff.rfl⟩
      · have hown : ([m.handled settings env sender event].filter fun r => r.user = user).map Handled.event = [] := by
          simp [Moment.handled, Ne.symm hu]
        rw [if_neg hu] at hflow
        rw [hown, List.append_nil]
        show ((m.engine.handle settings (env.at m.now) sender event).2.flow user = _ ↔ _) ∧
          ((m.engine.handle settings (env.at m.now) sender event).2.flow user = _ ↔ _)
        rw [hflow]
        exact ⟨hasked, hconfirmed⟩

/-- An account is deleted exactly where its user gives a code after a confirmed request, by the one call that the
event makes. -/
theorem deleteAccount_iff {m : Moment σ τ} {course : List Happening} {past future : List Handled} {r : Handled}
    (hr : m.history settings env course = past ++ r :: future) (hidle : m.engine.flow r.user = .idle)
    (username : String) (code : Code) :
    (.deleteAccount username code ∈ r.exchanges.map Vault.Exchange.call ↔
      username = r.user.username ∧ ResetConfirmed (eventsOf r.user past) ∧ r.event.GivesCode code) ∧
    (.deleteAccount username code ∈ r.exchanges.map Vault.Exchange.call →
      r.exchanges.map Vault.Exchange.call = [.deleteAccount username code]) := by
  obtain ⟨before, hpast, hhandled⟩ := Moment.met hr
  have hconfirmed : (m.after settings env before).engine.flow r.user = .awaitingCode ↔ _ :=
    (flow_reset_iff hidle before).2
  have hplan : plan ((m.after settings env before).engine.flow r.user) r.event = .run (.deleteAccount code) ↔
      ResetConfirmed (eventsOf r.user past) ∧ r.event.GivesCode code := by
    rw [plan_deleteAccount_iff, hconfirmed, hpast]
  have hexchanges : r.exchanges = (m.after settings env before).engine.exchanges settings
      (env.at (m.after settings env before).now) r.user r.event := congrArg Handled.exchanges hhandled
  have honly : .deleteAccount username code ∈ r.exchanges.map Vault.Exchange.call →
      username = r.user.username ∧ plan ((m.after settings env before).engine.flow r.user) r.event =
        .run (.deleteAccount code) := by
    rw [hexchanges]
    exact (respond_conduct settings r.user _ r.event).of_deleteAccount_mem
  have hall : plan ((m.after settings env before).engine.flow r.user) r.event = .run (.deleteAccount code) →
      r.exchanges.map Vault.Exchange.call = [.deleteAccount r.user.username code] := fun h => by
    rw [hexchanges]
    exact exchanges_of_deleteAccount h _
  refine ⟨⟨fun hmem => ?_, ?_⟩, fun hmem => ?_⟩
  · exact ⟨(honly hmem).1, hplan.1 (honly hmem).2⟩
  · rintro ⟨rfl, h⟩
    rw [hall (hplan.2 h)]
    exact List.mem_singleton_self _
  · obtain ⟨rfl, h⟩ := honly hmem
    exact hall h

/-- A reset with a look at the help, a mistyped code and another user's reset in between. -/
theorem deleteAccount_iff_dialogue :
    let m : Moment Storage Unit := ⟨⟨0, by decide⟩, .start ⟨.memory ∅, (), 0⟩⟩
    ∃ past r, m.history ⟨⟨60⟩, .never, 16⟩ (.plain storageCache (.granting ⟨"token"⟩))
        [.event ⟨5⟩ (.command .resetForever), .event ⟨5⟩ (.command .help), .event ⟨6⟩ (.command .resetForever),
          .event ⟨5⟩ (.text " Yes "), .wait ⟨7⟩, .event ⟨5⟩ (.text "+12"), .event ⟨5⟩ (.text "012")] = past ++ [r] ∧
      m.engine.flow r.user = .idle ∧ ResetConfirmed (eventsOf r.user past) ∧ r.event.GivesCode 12 ∧
      r.exchanges.map Vault.Exchange.call = [.deleteAccount "5" 12] := by
  intro m
  have hr : m.history ⟨⟨60⟩, .never, 16⟩ (.plain storageCache (.granting ⟨"token"⟩))
      [.event ⟨5⟩ (.command .resetForever), .event ⟨5⟩ (.command .help), .event ⟨6⟩ (.command .resetForever),
        .event ⟨5⟩ (.text " Yes "), .wait ⟨7⟩, .event ⟨5⟩ (.text "+12"), .event ⟨5⟩ (.text "012")] =
      [_, _, _, _, _] ++ [_] := rfl
  have h := deleteAccount_iff hr rfl "5" 12
  have hmem := h.1.1 (by decide)
  exact ⟨_, _, hr, rfl, hmem.2.1, hmem.2.2, h.2 (h.1.2 hmem)⟩

end Engine

end VaultChat
