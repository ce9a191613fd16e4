import VaultChat.Proofs.Cells
import VaultChat.Proofs.Course

/-!
# Secrecy

What a reply shows openly does not depend on secrets.  An `Observer` reads secrets or does not, and never sees how the
vault describes its failures.  Two procedures are twins for an observer if they ask the same things, up to what the
observer cannot see, as long as they get the same answers up to that; every response is its own twin
(`respond_twin`), and twins in worlds that look alike have results that look alike (`Twin.run`).  From this follows
`replies_look_alike` for whole courses.
-/

namespace VaultChat

open Chat Session

/-- Nobody sees the status and the text that come with a failure.  An outsider does not see secrets either. -/
inductive Observer where
  | outsider
  | insider
  deriving DecidableEq

namespace Observer

/-- What is seen of a secret. -/
def reads : Observer → String → String
  | .outsider, _ => ""
  | .insider, secret => secret

theorem reads_congr {o : Observer} {v w : String} (f : String → String) (h : o.reads v = o.reads w) :
    o.reads (f v) = o.reads (f w) := by
  cases o with
  | outsider => rfl
  | insider => exact congrArg f h

end Observer

/-! ### What is seen -/

def Chat.Message.seen (o : Observer) (m : Message) : Message := if m.sensitive then .hidden (o.reads m.text) else m

def Chat.Reply.seen (o : Observer) (r : Reply) : Reply := r.map (Message.seen o)

theorem Chat.Reply.seen_insider (r : Reply) : r.seen .insider = r := by
  have hm : Message.seen .insider = id := by
    funext ⟨text, sensitive⟩
    cases sensitive <;> rfl
  rw [Reply.seen, hm, List.map_id]

def Token.seen (o : Observer) (t : Token) : Token := ⟨o.reads t.text⟩

namespace Vault

def Failure.seen : Failure → Failure
  | .rejected _ => .rejected 0
  | .transport _ => .transport ""
  | f => f

/-- Failures that differ in their details at most. -/
inductive SameFailure : Failure → Failure → Prop where
  | authFailed : SameFailure .authFailed .authFailed
  | notFound : SameFailure .notFound .notFound
  | conflict : SameFailure .conflict .conflict
  | rejected (m n : Nat) : SameFailure (.rejected m) (.rejected n)
  | transport (s t : String) : SameFailure (.transport s) (.transport t)

theorem sameFailure_of_seen {f₁ f₂ : Failure} (h : f₁.seen = f₂.seen) : SameFailure f₁ f₂ := by
  cases f₁ <;> cases f₂ <;> first | constructor | cases h

def Credentials.seen (o : Observer) (c : Credentials) : Credentials := ⟨o.reads c.masterKey, o.reads c.totpSecret⟩

def PasswordEntry.seen (o : Observer) (e : PasswordEntry) : PasswordEntry := { e with password := o.reads e.password }

def Outcome.seen (o : Observer) : Outcome → Outcome
  | .failed f => .failed f.seen
  | .credentials c => .credentials (c.seen o)
  | .token t => .token (t.seen o)
  | .entries es => .entries (es.map (PasswordEntry.seen o))
  | .entry e => .entry (e.seen o)
  | .done => .done

def Call.seen (o : Observer) : Call → Call
  | .addPassword t entry => .addPassword (t.seen o) entry
  | .listPasswords t => .listPasswords (t.seen o)
  | .getPassword t id => .getPassword (t.seen o) id
  | .deletePassword t id => .deletePassword (t.seen o) id
  | c => c

end Vault

/-! ### Cells -/

namespace Session.Cell

/-- The cell with another value of the same expiry. -/
def map (f : String → String) : Cell → Cell
  | .memory e => .memory (e.map fun e => { e with value := f e.value })
  | .row r => .row (r.map fun r => { r with value := f r.value })
  | .closed => .closed

variable (f : String → String) (c : Cell) (now : Instant)

theorem live_map : (c.map f).live now = (c.live now).map f := by
  rcases c with ⟨_ | e⟩ | ⟨_ | r⟩ | _
  · rfl
  · simp only [map, Option.map_some, live]
    split <;> rfl
  · rfl
  · simp only [map, Option.map_some, live]
    split <;> rfl
  · rfl

theorem clear_map : (c.map f).clear = c.clear.map f := by
  cases c <;> rfl

theorem answer_map {α : Type} (a : α) : (c.map f).answer a = c.answer a := by
  cases c <;> rfl

theorem filled_map (v : String) (ttl : Span) : (c.map f).filled now (f v) ttl = (c.filled now v ttl).map f := by
  cases c <;> rfl

theorem get_map : (c.map f).get now = ((c.get now).1.map (·.map f), (c.get now).2.map f) := by
  simp only [get, live_map, clear_map, answer_map, Option.isSome_map]
  refine Prod.ext ?_ (apply_ite (map f) _ _ _).symm
  cases c <;> rfl

theorem set_map (v : String) (ttl : Span) :
    (c.map f).set now (f v) ttl = ((c.set now v ttl).1, (c.set now v ttl).2.map f) := by
  simp only [set, answer_map, filled_map]

theorem delete_map : (c.map f).delete now = ((c.delete now).1, (c.delete now).2.map f) := by
  simp only [delete, live_map, clear_map, answer_map, Option.isSome_map]

theorem expire_map (ttl : Span) :
    (c.map f).expire now ttl = ((c.expire now ttl).1, (c.expire now ttl).2.map f) := by
  unfold expire
  rw [live_map]
  cases c.live now with
  | some v => simp only [Option.map_some, answer_map, filled_map]
  | none => cases c <;> rfl

end Session.Cell

namespace Engine

variable {σ τ : Type} {o : Observer}

/-! ### Twins -/

/-- Answers to a look-up that look alike. -/
inductive SameLookUp (o : Observer) : Except Error (Option Token) → Except Error (Option Token) → Prop where
  | error (e : Error) : SameLookUp o (.error e) (.error e)
  | absent : SameLookUp o (.ok none) (.ok none)
  | token {t₁ t₂ : Token} (h : t₁.seen o = t₂.seen o) : SameLookUp o (.ok (some t₁)) (.ok (some t₂))

/-- The procedures ask requests that look alike as long as the answers look alike, and their results satisfy `R`. -/
inductive Twin (o : Observer) {α β : Type} (R : α → β → Prop) : Procedure α → Procedure β → Prop where
  | done {a b} (h : R a b) : Twin o R (.done a) (.done b)
  | lookUp {user next₁ next₂} (h : ∀ r₁ r₂, SameLookUp o r₁ r₂ → Twin o R (next₁ r₁) (next₂ r₂)) :
      Twin o R (.lookUp user next₁) (.lookUp user next₂)
  | store {user ttl next₁ next₂} {t₁ t₂ : Token} (ht : t₁.seen o = t₂.seen o)
      (h : ∀ r, Twin o R (next₁ r) (next₂ r)) : Twin o R (.store user t₁ ttl next₁) (.store user t₂ ttl next₂)
  | forget {user next₁ next₂} (h : ∀ r, Twin o R (next₁ r) (next₂ r)) :
      Twin o R (.forget user next₁) (.forget user next₂)
  | extend {user ttl next₁ next₂} (h : ∀ r, Twin o R (next₁ r) (next₂ r)) :
      Twin o R (.extend user ttl next₁) (.extend user ttl next₂)
  | call {c₁ c₂ : Vault.Call} {next₁ next₂} (hc : c₁.seen o = c₂.seen o)
      (h : ∀ r₁ r₂, (c₁.outcome r₁).seen o = (c₂.outcome r₂).seen o → Twin o R (next₁ r₁) (next₂ r₂)) :
      Twin o R (.call c₁ next₁) (.call c₂ next₂)
  | choose {extra : Nat} {next₁ next₂} (h : ∀ x y : Password.Choices extra, (o = .insider → x = y) →
      Twin o R (next₁ x) (next₂ y)) : Twin o R (.choose extra next₁) (.choose extra next₂)

namespace Twin

variable {α β γ δ : Type} {R : α → β → Prop} {S : γ → δ → Prop} {p : Procedure α} {q : Procedure β}

theorem bind {f : α → Procedure γ} {g : β → Procedure δ} (h : Twin o R p q)
    (hf : ∀ a b, R a b → Twin o S (f a) (g b)) : Twin o S (p.bind f) (q.bind g) := by
  induction h with
  | done h => exact hf _ _ h
  | lookUp _ ih => exact .lookUp ih
  | store ht _ ih => exact .store ht ih
  | forget _ ih => exact .forget ih
  | extend _ ih => exact .extend ih
  | call hc _ ih => exact .call hc ih
  | choose _ ih => exact .choose ih

end Twin

/-! ### Responses -/

/-- Replies that look alike. -/
def SameReply (o : Observer) (r₁ r₂ : Reply) : Prop := r₁.seen o = r₂.seen o

/-- The dialogue goes on alike and the replies look alike. -/
def SameTransition (o : Observer) (t₁ t₂ : Transition) : Prop := t₁.next = t₂.next ∧ SameReply o t₁.reply t₂.reply

/-- Both have the token of a session, up to its value, or the same error. -/
inductive SameToken (o : Observer) : Except Error Token → Except Error Token → Prop where
  | error (e : Error) : SameToken o (.error e) (.error e)
  | token {t₁ t₂ : Token} (h : t₁.seen o = t₂.seen o) : SameToken o (.ok t₁) (.ok t₂)

section

variable (settings : Settings) (user : UserId) (o)

private theorem twin_reply (r : Reply) : Twin o (SameReply o) (.done r) (.done r) := .done rfl

private theorem liveToken_twin : Twin o (SameToken o) (liveToken user) (liveToken user) := by
  refine .lookUp fun r₁ r₂ h => ?_
  cases h with
  | error e => exact .done (.error e)
  | absent => exact .done (.error .unauthenticated)
  | token h => exact .done (.token h)

private theorem refreshed_twin (mutating : Bool) {r₁ r₂ : Reply} (h : SameReply o r₁ r₂) :
    Twin o (SameReply o) (refreshed settings user mutating r₁) (refreshed settings user mutating r₂) := by
  unfold refreshed
  split
  · refine .extend fun r => ?_
    rcases r with e | b
    · refine .done ?_
      simp only [SameReply, Reply.seen, Reply.andPlain, List.map_append] at h ⊢
      rw [h]
    · exact .done h
  · exact .done h

private theorem bearerFailure_twin {f₁ f₂ : Vault.Failure} (h : Vault.SameFailure f₁ f₂) (rejected : String) :
    Twin o (SameReply o) (bearerFailure user f₁ rejected) (bearerFailure user f₂ rejected) := by
  cases h with
  | authFailed => exact .forget fun r => twin_reply o _
  | notFound | conflict | rejected | transport => exact twin_reply o _

private theorem failure_vault_congr {f₁ f₂ : Vault.Failure} (h : Vault.SameFailure f₁ f₂) (rejected : String) :
    failure (.vault f₁) rejected = failure (.vault f₂) rejected := by
  cases h <;> rfl

private theorem renderEntry_congr {e₁ e₂ : Vault.PasswordEntry} (h : e₁.seen o = e₂.seen o) :
    SameReply o (renderEntry e₁) (renderEntry e₂) := by
  obtain ⟨id, service, login, password, updatedAt⟩ := e₁
  obtain ⟨_, _, _, password', _⟩ := e₂
  simp only [Vault.PasswordEntry.seen, Vault.PasswordEntry.mk.injEq] at h
  obtain ⟨rfl, rfl, rfl, hp, rfl⟩ := h
  simp only [SameReply, Reply.seen, renderEntry, List.map_cons, List.map_nil, Message.seen, Message.hidden, if_true,
    hp]
  rfl

private theorem renderEntries_congr {es₁ es₂ : List Vault.PasswordEntry}
    (h : es₁.map (Vault.PasswordEntry.seen o) = es₂.map (Vault.PasswordEntry.seen o)) :
    SameReply o (es₁.flatMap renderEntry) (es₂.flatMap renderEntry) := by
  induction es₁ generalizing es₂ with
  | nil =>
    cases es₂ with
    | nil => rfl
    | cons e₂ es₂ => cases h
  | cons e₁ es₁ ih =>
    cases es₂ with
    | nil => cases h
    | cons e₂ es₂ =>
      obtain ⟨he, hes⟩ := List.cons.inj h
      have hhead := renderEntry_congr o he
      have htail := ih hes
      simp only [SameReply, Reply.seen, List.flatMap_cons, List.map_append] at hhead htail ⊢
      rw [hhead, htail]

private theorem listPasswords_twin :
    Twin o (SameReply o) (listPasswords settings user) (listPasswords settings user) := by
  refine (liveToken_twin o user).bind fun r₁ r₂ h => ?_
  cases h with
  | error e => exact twin_reply o _
  | @token t₁ t₂ h =>
    refine .call (congrArg Vault.Call.listPasswords h) fun r₁ r₂ h => ?_
    rcases r₁ with f₁ | es₁ <;> rcases r₂ with f₂ | es₂
    · exact bearerFailure_twin o user (Vault.sameFailure_of_seen (Vault.Outcome.failed.inj h)) _
    · cases h
    · cases h
    · have hes := Vault.Outcome.entries.inj h
      cases es₁ with
      | nil =>
        cases es₂ with
        | nil => exact refreshed_twin o settings user false rfl
        | cons e₂ es₂ => cases hes
      | cons e₁ es₁ =>
        cases es₂ with
        | nil => cases hes
        | cons e₂ es₂ => exact refreshed_twin o settings user false (renderEntries_congr o hes)

private theorem showPassword_twin (id : Int) :
    Twin o (SameReply o) (showPassword settings user id) (showPassword settings user id) := by
  refine (liveToken_twin o user).bind fun r₁ r₂ h => ?_
  cases h with
  | error e => exact twin_reply o _
  | @token t₁ t₂ h =>
    refine .call (congrArg (Vault.Call.getPassword · id) h) fun r₁ r₂ h => ?_
    rcases r₁ with f₁ | e₁ <;> rcases r₂ with f₂ | e₂
    · have hf := Vault.sameFailure_of_seen (Vault.Outcome.failed.inj h)
      have htwin := bearerFailure_twin o user hf Wording.listFailed
      cases hf with
      | notFound => exact twin_reply o _
      | authFailed | conflict | rejected | transport => exact htwin
    · cases h
    · cases h
    · exact refreshed_twin o settings user false (renderEntry_congr o (Vault.Outcome.entry.inj h))

private theorem deletePassword_twin (id : Int) :
    Twin o (SameReply o) (deletePassword settings user id) (deletePassword settings user id) := by
  refine (liveToken_twin o user).bind fun r₁ r₂ h => ?_
  cases h with
  | error e => exact twin_reply o _
  | @token t₁ t₂ h =>
    refine .call (congrArg (Vault.Call.deletePassword · id) h) fun r₁ r₂ h => ?_
    rcases r₁ with f₁ | ⟨⟩ <;> rcases r₂ with f₂ | ⟨⟩
    · have hf := Vault.sameFailure_of_seen (Vault.Outcome.failed.inj h)
      have htwin := bearerFailure_twin o user hf Wording.deleteFailed
      cases hf with
      | notFound => exact twin_reply o _
      | authFailed | conflict | rejected | transport => exact htwin
    · cases h
    · cases h
    · exact refreshed_twin o settings user true rfl

private theorem addPassword_twin (entry : Vault.NewPassword) :
    Twin o (SameReply o) (addPassword settings user entry) (addPassword settings user entry) := by
  refine (liveToken_twin o user).bind fun r₁ r₂ h => ?_
  cases h with
  | error e => exact twin_reply o _
  | @token t₁ t₂ h =>
    refine .call (congrArg (Vault.Call.addPassword · entry) h) fun r₁ r₂ h => ?_
    rcases r₁ with f₁ | ⟨⟩ <;> rcases r₂ with f₂ | ⟨⟩
    · exact bearerFailure_twin o user (Vault.sameFailure_of_seen (Vault.Outcome.failed.inj h)) _
    · cases h
    · cases h
    · exact refreshed_twin o settings user true rfl

private theorem generatePassword_twin (length : Nat) :
    Twin o (SameReply o) (generatePassword length) (generatePassword length) := by
  unfold generatePassword
  cases Password.freeCharacters length with
  | error e => exact twin_reply o _
  | ok extra =>
    refine .choose fun x y h => .done ?_
    cases o with
    | outsider => rfl
    | insider => rw [h rfl]; rfl

private theorem unmatched_twin : Twin o (SameReply o) (unmatched user) (unmatched user) := by
  refine (liveToken_twin o user).bind fun r₁ r₂ h => ?_
  cases h with
  | error e => exact twin_reply o _
  | token h => exact twin_reply o _

private theorem reply_twin (q : Query) : Twin o (SameReply o) (reply settings user q) (reply settings user q) := by
  cases q with
  | listPasswords => exact listPasswords_twin o settings user
  | showPassword id => exact showPassword_twin o settings user id
  | deletePassword id => exact deletePassword_twin o settings user id
  | generatePassword length => exact generatePassword_twin o _
  | unmatched => exact unmatched_twin o user

private theorem twin_transition (t : Transition) : Twin o (SameTransition o) (.done t) (.done t) := .done ⟨rfl, rfl⟩

private theorem beginLogin_twin : Twin o (SameTransition o) (beginLogin user) (beginLogin user) := by
  refine (liveToken_twin o user).bind fun r₁ r₂ h => ?_
  cases h with
  | token h => exact twin_transition o _
  | error e =>
    cases e with
    | unauthenticated =>
      refine .call rfl fun r₁ r₂ h => ?_
      rcases r₁ with f₁ | c₁ <;> rcases r₂ with f₂ | c₂
      · have hf := Vault.sameFailure_of_seen (Vault.Outcome.failed.inj h)
        cases hf <;> exact twin_transition o _
      · cases h
      · cases h
      · obtain ⟨key₁, secret₁⟩ := c₁
        obtain ⟨key₂, secret₂⟩ := c₂
        have hc := Vault.Outcome.credentials.inj h
        simp only [Vault.Credentials.seen, Vault.Credentials.mk.injEq] at hc
        refine .done ⟨rfl, ?_⟩
        have hkey := Observer.reads_congr Wording.masterKey hc.1
        have hsecret := Observer.reads_congr Wording.totpSecret hc.2
        simp only [SameReply, Reply.seen, List.map_cons, List.map_nil, Message.seen, Message.hidden, if_true, hkey,
          hsecret]
    | _ => exact twin_transition o _

private theorem authenticate_twin (masterKey : String) (code : Code) :
    Twin o (SameTransition o) (authenticate settings user masterKey code)
      (authenticate settings user masterKey code) := by
  refine .call rfl fun r₁ r₂ h => ?_
  rcases r₁ with f₁ | t₁ <;> rcases r₂ with f₂ | t₂
  · refine .done ⟨rfl, ?_⟩
    show SameReply o (failure _ _) (failure _ _)
    rw [failure_vault_congr (Vault.sameFailure_of_seen (Vault.Outcome.failed.inj h))]
    rfl
  · cases h
  · cases h
  · refine .store (Vault.Outcome.token.inj h) fun r => ?_
    rcases r with e | ⟨⟩ <;> exact twin_transition o _

private theorem deleteAccount_twin (code : Code) :
    Twin o (SameReply o) (deleteAccount user code) (deleteAccount user code) := by
  refine .call rfl fun r₁ r₂ h => ?_
  rcases r₁ with f₁ | ⟨⟩ <;> rcases r₂ with f₂ | ⟨⟩
  · refine .done ?_
    rw [failure_vault_congr (Vault.sameFailure_of_seen (Vault.Outcome.failed.inj h))]
    rfl
  · cases h
  · cases h
  · exact .forget fun r => twin_reply o _

private theorem logOut_twin : Twin o (SameReply o) (logOut user) (logOut user) := by
  refine .forget fun r => ?_
  rcases r with e | _ | _ <;> exact twin_reply o _

private theorem perform_twin (e : Effect) :
    Twin o (SameTransition o) (perform settings user e) (perform settings user e) := by
  cases e with
  | beginLogin => exact beginLogin_twin o user
  | authenticate masterKey code => exact authenticate_twin o settings user masterKey code
  | beginAddPassword =>
    refine (liveToken_twin o user).bind fun r₁ r₂ h => ?_
    cases h <;> exact twin_transition o _
  | addPassword entry => exact (addPassword_twin o settings user entry).bind fun _ _ h => .done ⟨rfl, h⟩
  | logOut => exact (logOut_twin o user).bind fun _ _ h => .done ⟨rfl, h⟩
  | deleteAccount code => exact (deleteAccount_twin o user code).bind fun _ _ h => .done ⟨rfl, h⟩

/-- An event is responded to alike, whatever cannot be seen. -/
theorem respond_twin (flow : Flow) (event : Event) :
    Twin o (SameTransition o) (respond settings user flow event) (respond settings user flow event) := by
  unfold respond
  cases plan flow event with
  | done t => exact twin_transition o t
  | answer q => exact (reply_twin o settings user q).bind fun _ _ h => .done ⟨rfl, h⟩
  | run e => exact perform_twin o settings user e

end

/-! ### Worlds that look alike -/

/-- All sessions look alike, and the dice have been thrown equally often if they are watched. -/
structure World.Alike {τ₁ τ₂ : Type} (o : Observer) (w₁ : World Storage τ₁) (w₂ : World Storage τ₂) : Prop where
  cells : ∀ key, (w₁.sessions.cell key).map o.reads = (w₂.sessions.cell key).map o.reads
  throws : o = .insider → w₁.throws = w₂.throws

section

variable {τ₁ τ₂ : Type} {s₁ s₂ : Storage} {key : String}

/-- Operations that do alike to cells that look alike have alike answers and leave alike cells. -/
private theorem actsOn_alike {α : Type} {op₁ op₂ : Storage → Except Error α × Storage}
    {f₁ f₂ : Cell → Except Error α × Cell} (h₁ : ActsOn key op₁ f₁) (h₂ : ActsOn key op₂ f₂)
    (answer : Except Error α → Except Error α) {f : Cell → Except Error α × Cell}
    (hf₁ : ∀ c, f (c.map o.reads) = (answer (f₁ c).1, (f₁ c).2.map o.reads))
    (hf₂ : ∀ c, f (c.map o.reads) = (answer (f₂ c).1, (f₂ c).2.map o.reads))
    (hs : ∀ key, (s₁.cell key).map o.reads = (s₂.cell key).map o.reads) :
    answer (op₁ s₁).1 = answer (op₂ s₂).1 ∧
      ∀ key, ((op₁ s₁).2.cell key).map o.reads = ((op₂ s₂).2.cell key).map o.reads := by
  have hcell := hf₁ (s₁.cell key)
  rw [hs key, hf₂ (s₂.cell key), Prod.mk.injEq] at hcell
  refine ⟨by rw [(h₁ s₁).1, (h₂ s₂).1, hcell.1], fun k => ?_⟩
  rw [(h₁ s₁).2, (h₂ s₂).2]
  split
  · exact hcell.2.symm
  · exact hs k

private theorem sameLookUp_of_map {r₁ r₂ : Except Error (Option String)}
    (h : r₁.map (·.map o.reads) = r₂.map (·.map o.reads)) :
    SameLookUp o (r₁.map (·.map Token.mk)) (r₂.map (·.map Token.mk)) := by
  rcases r₁ with e₁ | _ | v₁ <;> rcases r₂ with e₂ | _ | v₂ <;> simp only [Except.map, Option.map] at h <;>
    first | cases h | skip
  · exact .error e₁
  · exact .absent
  · simp only [Except.ok.injEq, Option.some.injEq] at h
    exact .token (congrArg Token.mk h)

variable {env₁ : Surroundings Storage τ₁} {env₂ : Surroundings Storage τ₂} {w₁ : World Storage τ₁}
  {w₂ : World Storage τ₂}

/-- Twins have alike results, calls and effects if the outcomes of their calls look alike. -/
theorem Twin.run {α β : Type} {R : α → β → Prop} {p : Procedure α} {q : Procedure β} (h : Twin o R p q)
    (hcache₁ : env₁.cache = storageCache) (hcache₂ : env₂.cache = storageCache) (hnow : env₁.now = env₂.now)
    (hdice : o = .insider → env₁.dice = env₂.dice) (hw : w₁.Alike o w₂)
    (hout : ∀ x ∈ (p.exchanges env₁ w₁).zip (q.exchanges env₂ w₂), x.1.outcome.seen o = x.2.outcome.seen o) :
    R (p.run env₁ w₁).1 (q.run env₂ w₂).1 ∧ (p.run env₁ w₁).2.Alike o (q.run env₂ w₂).2 ∧
      (p.exchanges env₁ w₁).map (·.call.seen o) = (q.exchanges env₂ w₂).map (·.call.seen o) := by
  induction h generalizing w₁ w₂ with
  | done h => exact ⟨h, hw, rfl⟩
  | @lookUp user next₁ next₂ _ ih =>
    have hop := get_actsOn env₁.now user.sessionKey
    obtain ⟨hanswer, hcells⟩ := actsOn_alike hop hop (Except.map (Option.map o.reads))
      (Cell.get_map o.reads · env₁.now) (Cell.get_map o.reads · env₁.now) hw.cells
    simp only [Procedure.exchanges, Procedure.run, hcache₁, hcache₂, ← hnow] at hout ⊢
    exact ih _ _ (sameLookUp_of_map hanswer) ⟨hcells, hw.throws⟩ hout
  | @store user ttl next₁ next₂ t₁ t₂ ht _ ih =>
    have ht : o.reads t₁.text = o.reads t₂.text := congrArg Token.text ht
    obtain ⟨hanswer, hcells⟩ := actsOn_alike (set_actsOn env₁.now user.sessionKey t₁.text ttl)
      (set_actsOn env₁.now user.sessionKey t₂.text ttl) id
      (Cell.set_map o.reads · env₁.now t₁.text ttl)
      (fun c => by rw [ht]; exact Cell.set_map o.reads c env₁.now t₂.text ttl) hw.cells
    have hanswer : (storageCache.putSession env₁.now user t₁ ttl w₁.sessions).1 =
      (storageCache.putSession env₁.now user t₂ ttl w₂.sessions).1 := hanswer
    simp only [Procedure.exchanges, Procedure.run, hcache₁, hcache₂, ← hnow, ← hanswer] at hout ⊢
    exact ih _ ⟨hcells, hw.throws⟩ hout
  | @forget user next₁ next₂ _ ih =>
    have hop := delete_actsOn env₁.now user.sessionKey
    obtain ⟨hanswer, hcells⟩ := actsOn_alike hop hop id
      (Cell.delete_map o.reads · env₁.now) (Cell.delete_map o.reads · env₁.now) hw.cells
    have hanswer : (storageCache.deleteSession env₁.now user w₁.sessions).1 =
      (storageCache.deleteSession env₁.now user w₂.sessions).1 := hanswer
    simp only [Procedure.exchanges, Procedure.run, hcache₁, hcache₂, ← hnow, ← hanswer] at hout ⊢
    exact ih _ ⟨hcells, hw.throws⟩ hout
  | @extend user ttl next₁ next₂ _ ih =>
    have hop := expire_actsOn env₁.now user.sessionKey ttl
    obtain ⟨hanswer, hcells⟩ := actsOn_alike hop hop id
      (Cell.expire_map o.reads · env₁.now ttl) (Cell.expire_map o.reads · env₁.now ttl) hw.cells
    have hanswer : (storageCache.touchSession env₁.now user ttl w₁.sessions).1 =
      (storageCache.touchSession env₁.now user ttl w₂.sessions).1 := hanswer
    simp only [Procedure.exchanges, Procedure.run, hcache₁, hcache₂, ← hnow, ← hanswer] at hout ⊢
    exact ih _ ⟨hcells, hw.throws⟩ hout
  | @call c₁ c₂ next₁ next₂ hc _ ih =>
    obtain ⟨hfirst, hrest⟩ := List.forall_mem_cons.1 hout
    have hasked : World.Alike o { w₁ with vault := (env₁.vault.respond c₁ w₁.vault).2 }
        { w₂ with vault := (env₂.vault.respond c₂ w₂.vault).2 } := ⟨hw.cells, hw.throws⟩
    obtain ⟨hr, hw', hcalls⟩ := ih _ _ hfirst hasked hrest
    exact ⟨hr, hw', List.cons_eq_cons.2 ⟨hc, hcalls⟩⟩
  | @choose extra next₁ next₂ _ ih =>
    -- An outsider does not see what is drawn, an insider has the same dice.
    refine ih _ _ (fun ho => ?_) ⟨hw.cells, fun ho => congrArg (· + 1) (hw.throws ho)⟩ hout
    rw [hdice ho, hw.throws ho]

/-! ### Courses -/

/-- What is seen of a handled event: of the reply and of the calls. -/
def Handled.seen (o : Observer) (r : Handled) : Reply × List Vault.Call :=
  (r.reply.seen o, r.exchanges.map (·.call.seen o))

/-- The outcomes of the calls look alike, event by event and call by call. -/
def OutcomesAlike (o : Observer) (h₁ h₂ : List Handled) : Prop :=
  ∀ r ∈ h₁.zip h₂, ∀ x ∈ r.1.exchanges.zip r.2.exchanges, x.1.outcome.seen o = x.2.outcome.seen o

instance (o : Observer) (h₁ h₂ : List Handled) : Decidable (OutcomesAlike o h₁ h₂) :=
  inferInstanceAs (Decidable (∀ r ∈ h₁.zip h₂, ∀ x ∈ r.1.exchanges.zip r.2.exchanges,
    x.1.outcome.seen o = x.2.outcome.seen o))

/-- The same time and dialogues, in worlds that look alike. -/
structure Moment.Alike (o : Observer) (m₁ : Moment Storage τ₁) (m₂ : Moment Storage τ₂) : Prop where
  now : m₁.now = m₂.now
  flow : ∀ user, m₁.engine.flow user = m₂.engine.flow user
  world : m₁.engine.world.Alike o m₂.engine.world

namespace Moment.Alike

variable {settings : Settings} {m₁ : Moment Storage τ₁} {m₂ : Moment Storage τ₂}

theorem handled (h : m₁.Alike o m₂) (hcache₁ : env₁.cache = storageCache) (hcache₂ : env₂.cache = storageCache)
    (hdice : o = .insider → env₁.dice = env₂.dice) (user : UserId) (event : Event)
    (hout : OutcomesAlike o [m₁.handled settings env₁ user event] [m₂.handled settings env₂ user event]) :
    (m₁.handled settings env₁ user event).seen o = (m₂.handled settings env₂ user event).seen o ∧
      (m₁.next settings env₁ (.event user event)).Alike o (m₂.next settings env₂ (.event user event)) := by
  have hout := hout _ (List.mem_singleton_self _)
  simp only [Moment.handled, Engine.exchanges, ← h.flow user] at hout
  have hcache₁ : (env₁.at m₁.now).cache = storageCache := hcache₁
  have hcache₂ : (env₂.at m₂.now).cache = storageCache := hcache₂
  obtain ⟨⟨hnext, hreply⟩, hworld, hcalls⟩ :=
    (respond_twin o settings user (m₁.engine.flow user) event).run hcache₁ hcache₂ h.now hdice h.world hout
  refine ⟨Prod.ext ?_ ?_, h.now, fun other => ?_, ?_⟩
  · show Reply.seen o (Engine.handle ..).1 = Reply.seen o (Engine.handle ..).1
    simp only [handle, ← h.flow user]
    exact hreply
  · simp only [Handled.seen, Moment.handled, Engine.exchanges, ← h.flow user]
    exact hcalls
  · show (Engine.handle ..).2.flow other = (Engine.handle ..).2.flow other
    rw [flow_handle, flow_handle, ← h.flow user, ← h.flow other, hnext]
  · show (Engine.handle ..).2.world.Alike o (Engine.handle ..).2.world
    simp only [handle, ← h.flow user]
    exact hworld

theorem history (h : m₁.Alike o m₂) (hcache₁ : env₁.cache = storageCache) (hcache₂ : env₂.cache = storageCache)
    (hdice : o = .insider → env₁.dice = env₂.dice) (course : List Happening)
    (hout : OutcomesAlike o (m₁.history settings env₁ course) (m₂.history settings env₂ course)) :
    (m₁.history settings env₁ course).map (Handled.seen o) = (m₂.history settings env₂ course).map (Handled.seen o) ∧
      ∀ before, before <+: course → (m₁.after settings env₁ before).Alike o (m₂.after settings env₂ before) := by
  induction course generalizing m₁ m₂ with
  | nil =>
    refine ⟨rfl, fun before hb => ?_⟩
    rw [List.prefix_nil.1 hb]
    exact h
  | cons e course ih =>
    have hstep : (m₁.noted settings env₁ e).map (Handled.seen o) = (m₂.noted settings env₂ e).map (Handled.seen o) ∧
        (m₁.next settings env₁ e).Alike o (m₂.next settings env₂ e) ∧
        OutcomesAlike o ((m₁.next settings env₁ e).history settings env₁ course)
          ((m₂.next settings env₂ e).history settings env₂ course) := by
      cases e with
      | wait span => exact ⟨rfl, ⟨by rw [Moment.next, Moment.next, h.now], h.flow, h.world⟩, hout⟩
      | event user event =>
        obtain ⟨hseen, hnext⟩ := h.handled hcache₁ hcache₂ hdice user event
          fun r hr => hout r (by rw [List.mem_singleton.1 hr]; exact List.mem_cons_self)
        exact ⟨congrArg (fun x => [x]) hseen, hnext, fun r hr => hout r (List.mem_cons_of_mem _ hr)⟩
    obtain ⟨hnoted, hnext, hout⟩ := hstep
    obtain ⟨hseen, hafter⟩ := ih hnext hout
    refine ⟨by rw [Moment.history, Moment.history, List.map_append, List.map_append, hnoted, hseen], ?_⟩
    intro before hb
    cases before with
    | nil => exact h
    | cons b before =>
      obtain ⟨rfl, hrest⟩ := List.cons_prefix_cons.1 hb
      exact hafter before hrest

end Moment.Alike

/-- Two courses with the same events and times.  If the outcomes of the calls differ in secrets and in the details of
failures only, the replies, the calls and the dialogues show no difference that is open.  If they differ in the
details of failures only, the replies are the same. -/
theorem replies_look_alike {settings : Settings} {m₁ : Moment Storage τ₁} {m₂ : Moment Storage τ₂}
    (hcache₁ : env₁.cache = storageCache) (hcache₂ : env₂.cache = storageCache) (hnow : m₁.now = m₂.now)
    (hflow : ∀ user, m₁.engine.flow user = m₂.engine.flow user)
    (hcells : ∀ key, (m₁.engine.world.sessions.cell key).map (fun _ => "") =
      (m₂.engine.world.sessions.cell key).map fun _ => "") (course : List Happening) :
    (OutcomesAlike .outsider (m₁.history settings env₁ course) (m₂.history settings env₂ course) →
      (m₁.history settings env₁ course).map (Handled.seen .outsider) =
          (m₂.history settings env₂ course).map (Handled.seen .outsider) ∧
        ∀ before, before <+: course → ∀ user, (m₁.after settings env₁ before).engine.flow user =
          (m₂.after settings env₂ before).engine.flow user) ∧
    (env₁.dice = env₂.dice → m₁.engine.world.throws = m₂.engine.world.throws →
      (∀ key, m₁.engine.world.sessions.cell key = m₂.engine.world.sessions.cell key) →
      OutcomesAlike .insider (m₁.history settings env₁ course) (m₂.history settings env₂ course) →
      (m₁.history settings env₁ course).map Handled.reply = (m₂.history settings env₂ course).map Handled.reply) := by
  constructor
  · intro hout
    have hm : m₁.Alike .outsider m₂ := ⟨hnow, hflow, hcells, nofun⟩
    obtain ⟨hseen, hafter⟩ := hm.history hcache₁ hcache₂ nofun course hout
    exact ⟨hseen, fun before hb => (hafter before hb).flow⟩
  · intro hdice hthrows hcells hout
    have hm : m₁.Alike .insider m₂ := ⟨hnow, hflow, fun key => congrArg _ (hcells key), fun _ => hthrows⟩
    obtain ⟨hseen, -⟩ := hm.history hcache₁ hcache₂ (fun _ => hdice) course hout
    have hreply := congrArg (List.map Prod.fst) hseen
    rw [List.map_map, List.map_map] at hreply
    have hfst : (Prod.fst ∘ Handled.seen .insider) = Handled.reply := funext fun r => Chat.Reply.seen_insider r.reply
    rw [hfst] at hreply
    exact hreply

end

/-- Two vaults that issue different tokens, with a look at the passwords after the login, and two vaults that refuse
the login with different details. -/
theorem replies_look_alike_login :
    let settings : Settings := ⟨⟨60⟩, .never, 16⟩
    let m : Moment Storage Unit :=
      ⟨⟨0, by decide⟩, ⟨.insert ∅ ⟨5⟩ .awaitingCredentials, ⟨.memory ∅, (), 0⟩⟩⟩
    let history (vault : Vault.Service Unit) : List Handled :=
      m.history settings (.plain storageCache vault) [.event ⟨5⟩ (.text "key 123456"), .event ⟨5⟩ (.command .list)]
    let one := history (.granting ⟨"one"⟩)
    let two := history (.granting ⟨"two"⟩)
    let busy := history (.refusing (.transport "busy"))
    let down := history (.refusing (.transport "down"))
    (OutcomesAlike .outsider one two ∧ one.map (Handled.seen .outsider) = two.map (Handled.seen .outsider) ∧
      one.map Handled.exchanges ≠ two.map Handled.exchanges) ∧
    OutcomesAlike .insider busy down ∧ busy.map Handled.reply = down.map Handled.reply ∧
      busy.map Handled.exchanges ≠ down.map Handled.exchanges := by
  intro settings m history one two busy down
  have hout : OutcomesAlike .outsider one two := by decide
  have hout' : OutcomesAlike .insider busy down := by decide
  have hnow : m.now = m.now := rfl
  refine ⟨⟨hout, ?_, by decide⟩, hout', ?_, by decide⟩
  · exact ((replies_look_alike rfl rfl hnow (fun _ => rfl) (fun _ => rfl) _).1 hout).1
  · exact (replies_look_alike rfl rfl hnow (fun _ => rfl) (fun _ => rfl) _).2 rfl rfl (fun _ => rfl) hout'

end Engine

end VaultChat
