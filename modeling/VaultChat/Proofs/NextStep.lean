import VaultChat.Proofs.Course
import VaultChat.Proofs.Plan

/-!
# Where dialogues go

The step that follows an event is the one that the plan says, or one to which the planned effect can lead
(`respond_next`).  Every effect ends a dialogue or opens its own (`Effect.targets`).
-/

namespace VaultChat

open Chat

namespace Chat

/-- Where a dialogue goes, if the plan alone decides it. -/
def Plan.next? (flow : Flow) : Plan → Option Flow
  | .done t => some t.next
  | .answer _ => some flow
  | .run _ => none

/-- The steps to which an effect can lead. -/
def Effect.targets : Effect → List Flow
  | .beginLogin => [.idle, .awaitingCredentials]
  | .beginAddPassword => [.idle, .awaitingEntry]
  | .authenticate .. | .addPassword _ | .logOut | .deleteAccount _ => [.idle]

end Chat

namespace Engine

variable {σ τ : Type} {settings : Settings} {user : UserId}

/-- Every result of the procedure satisfies `P`, whatever is answered. -/
def Procedure.Ends {α : Type} (P : α → Prop) : Procedure α → Prop
  | .done a => P a
  | .lookUp _ next => ∀ r, (next r).Ends P
  | .store _ _ _ next => ∀ r, (next r).Ends P
  | .forget _ next => ∀ r, (next r).Ends P
  | .extend _ _ next => ∀ r, (next r).Ends P
  | .call _ next => ∀ r, (next r).Ends P
  | .choose _ next => ∀ r, (next r).Ends P

theorem Procedure.Ends.run {α : Type} {P : α → Prop} {p : Procedure α} (h : p.Ends P) (env : Surroundings σ τ)
    (w : World σ τ) : P (p.run env w).1 := by
  induction p generalizing w with
  | done a => exact h
  | lookUp _ _ ih | store _ _ _ _ ih | forget _ _ ih | extend _ _ _ ih | call _ _ ih | choose _ _ ih =>
    exact ih _ (h _) _

theorem Procedure.ends_bind {α β : Type} {P : β → Prop} {p : Procedure α} {f : α → Procedure β}
    (h : ∀ a, (f a).Ends P) : (p.bind f).Ends P := by
  induction p with
  | done a => exact h a
  | lookUp _ _ ih | store _ _ _ _ ih | forget _ _ ih | extend _ _ _ ih | call _ _ ih | choose _ _ ih =>
    exact fun r => ih r

private theorem beginLogin_ends {P : Transition → Prop} (hidle : ∀ reply, P (.idle reply))
    (hcredentials : ∀ reply, P ⟨.awaitingCredentials, reply⟩) : (beginLogin user).Ends P := by
  refine Procedure.ends_bind fun r => ?_
  rcases r with e | token
  · cases e with
    | unauthenticated =>
      rintro (e | credentials)
      · cases e <;> first | exact hidle _ | exact hcredentials _
      · exact hcredentials _
    | _ => exact hidle _
  · exact hidle _

theorem perform_ends (e : Effect) : (perform settings user e).Ends fun t => t.next ∈ e.targets := by
  have hidle : ∀ reply, (Transition.idle reply).next ∈ e.targets := fun reply => by
    cases e <;> exact List.mem_cons_self
  cases e with
  | beginLogin => exact beginLogin_ends hidle fun reply => by simp [Effect.targets]
  | authenticate masterKey code =>
    rintro (e | token)
    · exact hidle _
    · rintro (e | ⟨⟩) <;> exact hidle _
  | beginAddPassword =>
    refine Procedure.ends_bind fun r => ?_
    rcases r with e | token
    · exact hidle _
    · show Flow.awaitingEntry ∈ _
      simp [Effect.targets]
  | addPassword entry | logOut | deleteAccount code => exact Procedure.ends_bind fun r => hidle r

/-- The dialogue goes where the plan says, or where the planned effect can lead. -/
theorem respond_next (settings : Settings) (env : Surroundings σ τ) (user : UserId) (flow : Flow) (event : Event)
    (w : World σ τ) :
    (plan flow event).next? flow = some ((respond settings user flow event).run env w).1.next ∨
      ∃ e, plan flow event = .run e ∧ ((respond settings user flow event).run env w).1.next ∈ e.targets := by
  unfold respond
  cases plan flow event with
  | done t => exact .inl rfl
  | answer q =>
    left
    have hends : Procedure.Ends (fun t => t.next = flow)
        ((reply settings user q).bind fun r => Procedure.done (Transition.mk flow r)) :=
      Procedure.ends_bind fun r => rfl
    exact congrArg some (hends.run env w).symm
  | run e => exact .inr ⟨e, rfl, (perform_ends e).run env w⟩

end Engine

end VaultChat
