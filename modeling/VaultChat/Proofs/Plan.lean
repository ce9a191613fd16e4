import VaultChat.Chat.Plan

/-!
# What plans come from

The events that lead to each effect (`plan_eq_run_iff`) and to each query (`plan_eq_answer_iff`).  A line that names
no command is planned like free text (`plan_of_line`), and only an event that asks for a password is answered with one
(`generates_of_plan`).
-/

namespace VaultChat.Chat

/-- The text that a dialogue takes an event for: free text, or a line that names no command. -/
def Event.line? : Event → Option String
  | .text t => some t
  | .command (.unknown line) => some line
  | .command _ => none

/-- The event asks for a generated password. -/
def Event.generates : Event → Bool
  | .command (.generate _) => true
  | _ => false

theorem plan_of_line {flow : Flow} {event : Event} {text : String} (h : event.line? = some text) :
    plan flow event = planText flow text := by
  rcases event with c | t
  · cases c <;> cases h
    rfl
  · cases h
    rfl

/-- The events on which an effect is run. -/
inductive Runs (flow : Flow) (event : Event) : Effect → Prop where
  | beginLogin (h : event = .command .start) : Runs flow event .beginLogin
  | beginAddPassword (h : event = .command .add) : Runs flow event .beginAddPassword
  | logOut (h : event = .command .logOut) : Runs flow event .logOut
  | authenticate {masterKey : String} {code : Code} {text : String} (hf : flow = .awaitingCredentials)
      (hl : event.line? = some text) (hp : parseCredentials text = some (masterKey, code)) :
      Runs flow event (.authenticate masterKey code)
  | addPassword {entry : Vault.NewPassword} {text : String} (hf : flow = .awaitingEntry)
      (hl : event.line? = some text) (hp : parseEntry text = some entry) : Runs flow event (.addPassword entry)
  | deleteAccount {code : Code} {text : String} (hf : flow = .awaitingCode) (hl : event.line? = some text)
      (hp : parseCode text.toList = some code) : Runs flow event (.deleteAccount code)

private theorem runs_of_planText {flow : Flow} {event : Event} {text : String} {e : Effect}
    (hl : event.line? = some text) (h : planText flow text = .run e) : Runs flow event e := by
  unfold planText at h
  cases flow with
  | idle => cases h
  | awaitingCredentials =>
    cases hp : parseCredentials text with
    | none => rw [hp] at h; cases h
    | some p => rw [hp] at h; cases h; exact .authenticate rfl hl hp
  | awaitingEntry =>
    cases hp : parseEntry text with
    | none => rw [hp] at h; cases h
    | some entry => rw [hp] at h; cases h; exact .addPassword rfl hl hp
  | confirmingReset =>
    dsimp only at h
    split at h <;> cases h
  | awaitingCode =>
    cases hp : parseCode text.toList with
    | none => rw [hp] at h; cases h
    | some code => rw [hp] at h; cases h; exact .deleteAccount rfl hl hp

theorem plan_eq_run_iff {flow : Flow} {event : Event} {e : Effect} :
    plan flow event = .run e ↔ Runs flow event e := by
  constructor
  · intro h
    cases hl : event.line? with
    | some text => exact runs_of_planText hl (by rw [← plan_of_line hl]; exact h)
    | none =>
      rcases event with c | t
      · cases c <;> simp only [plan, planCommand, Plan.stay] at h <;>
          first
          | (cases h; first | exact .beginLogin rfl | exact .beginAddPassword rfl | exact .logOut rfl)
          | ((repeat' split at h) <;> cases h)
          | cases hl
      · cases hl
  · intro h
    cases h with
    | beginLogin h | beginAddPassword h | logOut h => rw [h]; rfl
    | authenticate hf hl hp | addPassword hf hl hp | deleteAccount hf hl hp =>
      rw [plan_of_line hl, hf]
      simp only [planText, hp]

/-- The events that are answered by a query. -/
inductive Asks (flow : Flow) (event : Event) : Query → Prop where
  | listPasswords (h : event = .command .list) : Asks flow event .listPasswords
  | showPassword {arg : String} {id : Int} (h : event = .command (.showEntry arg)) (hp : parseId arg = some id) :
      Asks flow event (.showPassword id)
  | deletePassword {arg : String} {id : Int} (h : event = .command (.deleteEntry arg)) (hp : parseId arg = some id) :
      Asks flow event (.deletePassword id)
  | generateDefault (h : event = .command (.generate "")) : Asks flow event (.generatePassword none)
  | generatePassword {arg : String} {length : Nat} (h : event = .command (.generate arg)) (hne : arg ≠ "")
      (hp : parseLength arg = some length) : Asks flow event (.generatePassword (some length))
  | unmatched {text : String} (hf : flow = .idle) (hl : event.line? = some text) : Asks flow event .unmatched

private theorem asks_of_planText {flow : Flow} {event : Event} {text : String} {q : Query}
    (hl : event.line? = some text) (h : planText flow text = .answer q) : Asks flow event q := by
  unfold planText at h
  cases flow with
  | idle => cases h; exact .unmatched rfl hl
  | awaitingCredentials | awaitingEntry | confirmingReset | awaitingCode =>
    dsimp only [Plan.stay] at h
    split at h <;> cases h

private theorem asks_of_planCommand {flow : Flow} {c : Command} {q : Query}
    (hl : (Event.command c).line? = none) (h : planCommand flow c = .answer q) : Asks flow (.command c) q := by
  cases c with
  | list => cases h; exact .listPasswords rfl
  | showEntry arg =>
    cases hp : parseId arg with
    | none => rw [planCommand, hp] at h; cases h
    | some id => rw [planCommand, hp] at h; cases h; exact .showPassword rfl hp
  | deleteEntry arg =>
    cases hp : parseId arg with
    | none => rw [planCommand, hp] at h; cases h
    | some id => rw [planCommand, hp] at h; cases h; exact .deletePassword rfl hp
  | generate arg =>
    by_cases hne : arg = ""
    · rw [planCommand, if_pos hne] at h
      cases h
      exact .generateDefault (by rw [hne])
    · rw [planCommand, if_neg hne] at h
      cases hp : parseLength arg with
      | none => rw [hp] at h; cases h
      | some length => rw [hp] at h; cases h; exact .generatePassword rfl hne hp
  | cancel =>
    rw [planCommand] at h
    split at h <;> cases h
  | start | add | logOut | resetForever | help => cases h
  | unknown line => cases hl

theorem plan_eq_answer_iff {flow : Flow} {event : Event} {q : Query} :
    plan flow event = .answer q ↔ Asks flow event q := by
  constructor
  · intro h
    cases hl : event.line? with
    | some text => exact asks_of_planText hl (by rw [← plan_of_line hl]; exact h)
    | none =>
      cases event with
      | command c => exact asks_of_planCommand hl h
      | text t => cases hl
  · intro h
    cases h with
    | listPasswords h | generateDefault h => rw [h]; rfl
    | showPassword h hp | deletePassword h hp => rw [h]; simp only [plan, planCommand, hp]
    | generatePassword h hne hp => rw [h]; simp only [plan, planCommand, if_neg hne, hp]
    | unmatched hf hl => rw [plan_of_line hl, hf]; rfl

/-- Only an event that asks for a password is answered with one. -/
theorem generates_of_plan {flow : Flow} {event : Event} {length : Option Nat}
    (h : plan flow event = .answer (.generatePassword length)) : event.generates = true := by
  cases plan_eq_answer_iff.1 h with
  | generateDefault he | generatePassword he => rw [he]; rfl

end VaultChat.Chat
