import VaultChat.Proofs.Cells
import VaultChat.Proofs.Conduct

/-!
# Users on their own

What an event of a user does is settled by the user's dialogue, the cell of the user's session and the answers of the
vault.  `Procedure.alone` carries a procedure out on these alone.  One request at a time (`Conduct.advance_alone`) or
all at once (`Conduct.run_alone`), a procedure among other users does to its own user what it does alone, and nothing
to anyone else.  Generated passwords are masked, since they depend on the dice.
-/

namespace VaultChat

open Chat Session

/-! ### Masks -/

namespace Chat

/-- The message with a character of its own in place of every character, if it is sensitive. -/
def Message.masked (m : Message) : Message :=
  if m.sensitive then .hidden (String.ofList (m.text.toList.map fun _ => '*')) else m

/-- The reply to an event with the password masked that the event asks for. -/
def Reply.masked (event : Event) (r : Reply) : Reply := if event.generates then r.map Message.masked else r

theorem Reply.masked_hidden {event : Event} {v w : String} (he : event.generates = true)
    (h : v.toList.length = w.toList.length) : Reply.masked event [.hidden v] = Reply.masked event [.hidden w] := by
  simp only [Reply.masked, he, if_true, List.map_cons, List.map_nil, Message.masked, Message.hidden,
    List.map_const', h]

end Chat

namespace Vault.Service

variable {τ : Type}

/-- The service gives these answers, whatever it is asked first. -/
def Answers (s : Service τ) (v : τ) (answers : (c : Call) → c.Answer) : Prop := ∀ c, (s.respond c v).1 = answers c

/-- The answer to a call is the same before and after any other call. -/
def OrderFree (s : Service τ) : Prop := ∀ c c' v, (s.respond c (s.respond c' v).2).1 = (s.respond c v).1

theorem OrderFree.answers {s : Service τ} (hs : s.OrderFree) {v : τ} {answers : (c : Call) → c.Answer}
    (h : s.Answers v answers) (c : Call) : s.Answers (s.respond c v).2 answers :=
  fun c' => (hs c' c v).trans (h c')

/-- The same service with a record of all calls. -/
def recording (s : Service τ) : Service (List Call × τ) where
  respond c v := ((s.respond c v.2).1, (v.1 ++ [c], (s.respond c v.2).2))

end Vault.Service

namespace Engine

variable {τ : Type}

/-! ### Procedures on their own -/

/-- What a procedure of one user leaves: its result, the cell of the user and the calls that were made. -/
structure Alone (α : Type) where
  result : α
  cell : Cell
  calls : List Vault.Call

/-- Carries a procedure out on the cell of its user, with these answers of the vault. -/
def Procedure.alone {α : Type} (now : Instant) (answers : (c : Vault.Call) → c.Answer) : Procedure α → Cell → Alone α
  | .done a, cell => ⟨a, cell, []⟩
  | .lookUp _ next, cell => (next ((cell.get now).1.map (·.map Token.mk))).alone now answers (cell.get now).2
  | .store _ token ttl next, cell =>
    (next (cell.set now token.text ttl).1).alone now answers (cell.set now token.text ttl).2
  | .forget _ next, cell => (next (cell.delete now).1).alone now answers (cell.delete now).2
  | .extend _ ttl next, cell => (next (cell.expire now ttl).1).alone now answers (cell.expire now ttl).2
  | .call c next, cell =>
    let left := (next (answers c)).alone now answers cell
    { left with calls := c :: left.calls }
  | .choose extra next, cell => (next (.trivial extra)).alone now answers cell

namespace Alone

/-- With the password masked that the event asks for. -/
def masked (event : Event) (a : Alone Transition) : Alone Transition :=
  { a with result := ⟨a.result.next, a.result.reply.masked event⟩ }

/-- After other calls. -/
def after (calls : List Vault.Call) (a : Alone Transition) : Alone Transition := { a with calls := calls ++ a.calls }

end Alone

variable {settings : Settings} {env : Surroundings Storage τ} {user : UserId} {flow : Flow} {event : Event}
  {stage : Stage} {p : Procedure Transition} {w : World Storage (List Vault.Call × τ)}
  {answers : (c : Vault.Call) → c.Answer}

/-- The same surroundings with a record of all calls. -/
def Surroundings.recording (env : Surroundings Storage τ) : Surroundings Storage (List Vault.Call × τ) :=
  ⟨env.now, env.cache, env.vault.recording, env.dice⟩

/-- What one request does: `q` and `w'` are left, and `made` are the calls. -/
structure Advances (settings : Settings) (env : Surroundings Storage τ) (user : UserId) (flow : Flow) (event : Event)
    (answers : (c : Vault.Call) → c.Answer) (p : Procedure Transition) (w : World Storage (List Vault.Call × τ))
    (made : List Vault.Call) (q : Procedure Transition) (w' : World Storage (List Vault.Call × τ)) : Prop where
  conduct : ∃ stage, Conduct settings user flow event stage q
  steady : env.vault.Answers w'.vault.2 answers
  record : w'.vault.1 = w.vault.1 ++ made
  others : ∀ key ≠ user.sessionKey, w'.sessions.cell key = w.sessions.cell key
  own : ((q.alone env.now answers (w'.sessions.cell user.sessionKey)).after made).masked event =
    (p.alone env.now answers (w.sessions.cell user.sessionKey)).masked event

/-- An operation on the session of the user, with the answer of which the procedure goes on. -/
private theorem advances_of_actsOn {α : Type} {op : Storage → Except Error α × Storage}
    {f : Cell → Except Error α × Cell} (next : Except Error α → Procedure Transition)
    (hop : ActsOn user.sessionKey op f)
    (hconduct : Conduct settings user flow event stage (next (op w.sessions).1))
    (hsteady : env.vault.Answers w.vault.2 answers)
    (halone : p.alone env.now answers (w.sessions.cell user.sessionKey) =
      (next (f (w.sessions.cell user.sessionKey)).1).alone env.now answers (f (w.sessions.cell user.sessionKey)).2) :
    Advances settings env user flow event answers p w [] (next (op w.sessions).1)
      { w with sessions := (op w.sessions).2 } where
  conduct := ⟨_, hconduct⟩
  steady := hsteady
  record := (List.append_nil _).symm
  others key hk := by
    show (op w.sessions).2.cell key = _
    rw [(hop w.sessions).2, if_neg hk]
  own := by
    show ((Procedure.alone _ _ _ ((op w.sessions).2.cell _)).after []).masked _ = _
    rw [(hop w.sessions).2, if_pos rfl, (hop w.sessions).1, halone]
    rfl

private theorem advances_call {c : Vault.Call} {next : c.Answer → Procedure Transition}
    (hconduct : ∀ r, ∃ stage, Conduct settings user flow event stage (next r)) (hvault : env.vault.OrderFree)
    (hsteady : env.vault.Answers w.vault.2 answers) :
    Advances settings env user flow event answers (.call c next) w [c]
      (next (env.recording.vault.respond c w.vault).1)
      { w with vault := (env.recording.vault.respond c w.vault).2 } where
  conduct := hconduct _
  steady := hvault.answers hsteady c
  record := rfl
  others _ _ := rfl
  own := by
    show ((Procedure.alone _ _ (next (env.vault.respond c w.vault.2).1) _).after [c]).masked _ = _
    rw [hsteady c]
    rfl

/-- One request among other users does what it does alone. -/
theorem Conduct.advance_alone (h : Conduct settings user flow event stage p) (hp : ∀ t, p ≠ .done t)
    (hcache : env.cache = storageCache) (hvault : env.vault.OrderFree)
    (hsteady : env.vault.Answers w.vault.2 answers) :
    ∃ made, Advances settings env user flow event answers p w made (p.advance env.recording w).1
      (p.advance env.recording w).2 := by
  have hcache : env.recording.cache = storageCache := hcache
  cases h with
  | done => exact absurd rfl (hp _)
  | @lookUp next h =>
    refine ⟨[], ?_⟩
    have hop := get_actsOn env.now user.sessionKey
    simp only [Procedure.advance, hcache]
    exact advances_of_actsOn (p := .lookUp user next) (fun r => next (r.map (·.map Token.mk))) hop (h _) hsteady rfl
  | @store _ next h =>
    simp only [Procedure.advance, hcache]
    exact ⟨[], advances_of_actsOn next (set_actsOn env.now user.sessionKey _ settings.sessionTtl) (h _) hsteady rfl⟩
  | @forget next h =>
    simp only [Procedure.advance, hcache]
    exact ⟨[], advances_of_actsOn next (delete_actsOn env.now user.sessionKey) (h _) hsteady rfl⟩
  | @extend _ next _ h =>
    simp only [Procedure.advance, hcache]
    exact ⟨[], advances_of_actsOn next (expire_actsOn env.now user.sessionKey settings.sessionTtl) (h _) hsteady rfl⟩
  | register h | authenticate _ h | present _ h | deleteAccount _ h =>
    exact ⟨[_], advances_call (fun r => ⟨_, h r⟩) hvault hsteady⟩
  | @choose extra hg =>
    -- The dice differ, but the passwords are equally long and masked.
    refine ⟨[], ⟨.over, .done rfl⟩, hsteady, (List.append_nil _).symm, fun _ _ => rfl, ?_⟩
    have hlength : (env.dice w.throws extra).password.toList.length =
        (Password.Choices.trivial extra).password.toList.length := by
      rw [Password.Choices.length_password, Password.Choices.length_password]
    have hreply : Reply.masked event [.hidden (env.dice w.throws extra).password] =
        Reply.masked event [.hidden (Password.Choices.trivial extra).password] := Reply.masked_hidden hg hlength
    show Alone.mk (Transition.mk flow (Reply.masked event [.hidden (env.dice w.throws extra).password]))
      (w.sessions.cell user.sessionKey) [] = _
    rw [hreply]
    rfl

theorem Advances.trans {q q' : Procedure Transition} {w' w'' : World Storage (List Vault.Call × τ)}
    {made made' : List Vault.Call} (h : Advances settings env user flow event answers p w made q w')
    (h' : Advances settings env user flow event answers q w' made' q' w'') :
    Advances settings env user flow event answers p w (made ++ made') q' w'' where
  conduct := h'.conduct
  steady := h'.steady
  record := by rw [h'.record, h.record, List.append_assoc]
  others key hk := (h'.others key hk).trans (h.others key hk)
  own := by
    have hafter := congrArg (Alone.after made) h'.own
    rw [← h.own]
    simp only [Alone.after, Alone.masked, Alone.mk.injEq] at hafter ⊢
    rw [List.append_assoc]
    exact hafter

/-- What holds at the end and can be told before a request from what holds after it, holds before every procedure. -/
theorem Procedure.induction_advance {α σ' τ' : Type} (env : Surroundings σ' τ')
    {motive : Procedure α → World σ' τ' → Prop} (done : ∀ a w, motive (.done a) w)
    (step : ∀ p w, (∀ a, p ≠ .done a) → motive (p.advance env w).1 (p.advance env w).2 → motive p w)
    (p : Procedure α) (w : World σ' τ') : motive p w := by
  induction p generalizing w with
  | done a => exact done a w
  | lookUp _ _ ih | store _ _ _ _ ih | forget _ _ ih | extend _ _ _ ih | call _ _ ih | choose _ _ ih =>
    exact step _ w nofun (ih _ _)

/-- A procedure that runs through among other users does what it does alone. -/
theorem Conduct.run_alone (h : Conduct settings user flow event stage p) (hcache : env.cache = storageCache)
    (hvault : env.vault.OrderFree) (hsteady : env.vault.Answers w.vault.2 answers) :
    ∃ made, Advances settings env user flow event answers p w made (.done (p.run env.recording w).1)
      (p.run env.recording w).2 := by
  -- The stage changes with every request, so the induction is over all stages.
  revert stage
  refine Procedure.induction_advance env.recording (motive := fun p w => env.vault.Answers w.vault.2 answers →
    ∀ {stage : Stage}, Conduct settings user flow event stage p →
      ∃ made, Advances settings env user flow event answers p w made (.done (p.run env.recording w).1)
        (p.run env.recording w).2) ?_ ?_ p w hsteady
  · intro t w hsteady stage h
    exact ⟨[], ⟨_, h⟩, hsteady, (List.append_nil _).symm, fun _ _ => rfl, rfl⟩
  · intro p w hp ih hsteady stage h
    obtain ⟨made, hadvance⟩ := h.advance_alone hp hcache hvault hsteady
    obtain ⟨stage', h'⟩ := hadvance.conduct
    obtain ⟨made', hrest⟩ := ih hadvance.steady h'
    rw [Procedure.run_advance] at hrest
    exact ⟨_, hadvance.trans hrest⟩

/-! ### Users one after the other -/

/-- A user's dialogue and the cell of the user's session. -/
structure Personal where
  flow : Flow
  cell : Cell

namespace Personal

variable (settings : Settings) (now : Instant) (answers : (c : Vault.Call) → c.Answer)

/-- How an event is responded to. -/
def respond (user : UserId) (s : Personal) (event : Event) : Alone Transition :=
  (Engine.respond settings user s.flow event).alone now answers s.cell

def next (user : UserId) (s : Personal) (event : Event) : Personal :=
  ⟨(s.respond settings now answers user event).result.next, (s.respond settings now answers user event).cell⟩

/-- What the user's own ones among the events lead to. -/
def after (user : UserId) (s : Personal) (events : List (UserId × Event)) : Personal :=
  (events.filter fun e => e.1 = user).foldl (fun s e => s.next settings now answers user e.2) s

/-- How the events are responded to, each one by its user's dialogue and cell. -/
def responses : (UserId → Personal) → List (UserId × Event) → List (Alone Transition)
  | _, [] => []
  | s, e :: events =>
    (s e.1).respond settings now answers e.1 e.2 ::
      responses (fun user => if user = e.1 then (s e.1).next settings now answers e.1 e.2 else s user) events

end Personal

namespace Personal

variable {settings : Settings} {now : Instant} {answers : (c : Vault.Call) → c.Answer}

theorem after_cons (user : UserId) (s : Personal) (e : UserId × Event) (events : List (UserId × Event)) :
    s.after settings now answers user (e :: events) =
      (if user = e.1 then s.next settings now answers e.1 e.2 else s).after settings now answers user events := by
  by_cases h : user = e.1
  · rw [if_pos h, after, after, List.filter_cons_of_pos (by simp [h]), List.foldl_cons, h]
  · rw [if_neg h, after, after, List.filter_cons_of_neg (by simpa using Ne.symm h)]

theorem responses_getElem? (s : UserId → Personal) (events : List (UserId × Event)) (i : Nat) :
    (responses settings now answers s events)[i]? = events[i]?.map fun e =>
      ((s e.1).after settings now answers e.1 (events.take i)).respond settings now answers e.1 e.2 := by
  induction events generalizing s i with
  | nil => rfl
  | cons e events ih =>
    cases i with
    | zero => rfl
    | succ i =>
      rw [responses, List.getElem?_cons_succ, ih, List.getElem?_cons_succ]
      congr 1
      funext e'
      rw [List.take_succ_cons, after_cons]
      split <;> simp_all

end Personal

/-- Handles events one after the other and gives their replies. -/
def handleAll {σ τ : Type} (settings : Settings) (env : Surroundings σ τ) :
    List (UserId × Event) → Engine σ τ → List Reply × Engine σ τ
  | [], e => ([], e)
  | (user, event) :: events, e =>
    let (reply, e) := e.handle settings env user event
    let (replies, e) := handleAll settings env events e
    (reply :: replies, e)

/-- The replies with generated passwords masked. -/
def maskedReplies (events : List (UserId × Event)) (replies : List Reply) : List Reply :=
  List.zipWith (fun e r => r.masked e.2) events replies

/-- The users' dialogues and cells, as the engine has them. -/
def Agrees {τ' : Type} (e : Engine Storage τ') (s : UserId → Personal) : Prop :=
  ∀ user, e.flow user = (s user).flow ∧ e.world.sessions.cell user.sessionKey = (s user).cell

section

variable {e : Engine Storage (List Vault.Call × τ)} {s : UserId → Personal} (hcache : env.cache = storageCache)
  (hvault : env.vault.OrderFree)
include hcache hvault

theorem handle_alone (settings : Settings) (hsteady : env.vault.Answers e.world.vault.2 answers) (hs : e.Agrees s)
    (user : UserId) (event : Event) :
    let r := e.handle settings env.recording user event
    let a := (s user).respond settings env.now answers user event
    env.vault.Answers r.2.world.vault.2 answers ∧
      r.2.Agrees (fun u => if u = user then (s user).next settings env.now answers user event else s u) ∧
      r.2.world.vault.1 = e.world.vault.1 ++ a.calls ∧ r.1.masked event = a.result.reply.masked event := by
  intro r a
  obtain ⟨made, hrun⟩ := (respond_conduct settings user (e.flow user) event).run_alone (w := e.world) hcache hvault
    hsteady
  have ha : (Engine.respond settings user (e.flow user) event).alone env.now answers
      (e.world.sessions.cell user.sessionKey) = a := by rw [(hs user).1, (hs user).2]; rfl
  have hown := hrun.own
  rw [ha] at hown
  simp only [Alone.masked, Alone.after, Procedure.alone, Alone.mk.injEq, Transition.mk.injEq, List.append_nil] at hown
  obtain ⟨⟨hnext, hreply⟩, hcell, hcalls⟩ := hown
  refine ⟨hrun.steady, fun u => ?_, by rw [← hcalls]; exact hrun.record, hreply⟩
  have hflow := flow_handle settings env.recording user u event e
  dsimp only
  by_cases hu : u = user
  · subst hu
    rw [if_pos rfl] at hflow ⊢
    exact ⟨hflow.trans hnext, hcell⟩
  · rw [if_neg hu] at hflow ⊢
    exact ⟨hflow.trans (hs u).1, (hrun.others _ (UserId.sessionKey_ne hu)).trans (hs u).2⟩

/-- Events handled one after the other are responded to as their users would be on their own. -/
theorem handleAll_alone (settings : Settings) (hsteady : env.vault.Answers e.world.vault.2 answers) (hs : e.Agrees s)
    (events : List (UserId × Event)) :
    let r := handleAll settings env.recording events e
    let responses := Personal.responses settings env.now answers s events
    r.2.Agrees (fun u => (s u).after settings env.now answers u events) ∧
      r.2.world.vault.1 = e.world.vault.1 ++ responses.flatMap Alone.calls ∧
      maskedReplies events r.1 = maskedReplies events (responses.map (·.result.reply)) := by
  induction events generalizing e s with
  | nil => exact ⟨hs, (List.append_nil _).symm, rfl⟩
  | cons p events ih =>
    obtain ⟨user, event⟩ := p
    obtain ⟨hsteady, hs', hrecord, hreply⟩ := handle_alone hcache hvault settings hsteady hs user event
    obtain ⟨hagrees, hrest, hreplies⟩ := ih hsteady hs'
    refine ⟨fun u => ?_, ?_, ?_⟩
    · dsimp only
      rw [Personal.after_cons]
      have hu := hagrees u
      dsimp only at hu
      by_cases h : u = user
      · subst h
        rw [if_pos rfl] at hu ⊢
        exact hu
      · rw [if_neg h] at hu ⊢
        exact hu
    · rw [Personal.responses, List.flatMap_cons, ← List.append_assoc, ← hrecord]
      exact hrest
    · exact List.cons_eq_cons.2 ⟨hreply, hreplies⟩

end

end Engine

end VaultChat
