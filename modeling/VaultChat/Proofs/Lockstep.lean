import VaultChat.Proofs.Alone
import VaultChat.Proofs.Episode

/-!
# Lockstep

The same event of the same user is handled in two worlds.  As long as the user's cells are related by something that
the operations keep (`Simulates`) and the vaults give the same outcomes, the two procedures go through the same
requests (`Conduct.lockstep`): they end with the same reply, up to generated passwords, the same exchanges and related
cells.  `Moment.handled_lockstep` says this of handled events, and `Moment.event_lockstep` of whole engines.
-/

namespace VaultChat

open Chat Session

namespace Vault

theorem Call.outcome_injective {c : Call} {a b : c.Answer} (h : c.outcome a = c.outcome b) : a = b := by
  cases c <;> rcases a with f | a <;> rcases b with g | b <;> cases h <;> rfl

/-- The state of a service after these calls. -/
def Service.after {τ : Type} (s : Service τ) (v : τ) (calls : List Call) : τ :=
  calls.foldl (fun v c => (s.respond c v).2) v

end Vault

/-- With the password masked that the event asks for. -/
def Chat.Transition.masked (event : Event) (t : Transition) : Transition := ⟨t.next, t.reply.masked event⟩

namespace Engine

variable {τ τ₁ τ₂ : Type}

/-- With the password masked that the event asks for. -/
def Handled.masked (r : Handled) : Handled := { r with reply := r.reply.masked r.event }

theorem Handled.exchanges_eq_of_masked {r r' : Handled} (h : r.masked = r'.masked) : r.exchanges = r'.exchanges := by
  have hmasked : r.masked.exchanges = r'.masked.exchanges := congrArg Handled.exchanges h
  exact hmasked

/-! ### The vault -/

/-- A procedure leaves the vault as its calls do. -/
theorem Procedure.vault_run {α σ : Type} (env : Surroundings σ τ) (p : Procedure α) (w : World σ τ) :
    (p.run env w).2.vault = env.vault.after w.vault ((p.exchanges env w).map Vault.Exchange.call) := by
  induction p generalizing w with
  | done a => rfl
  | lookUp user next ih => exact ih _ { w with sessions := (env.cache.session? env.now user w.sessions).2 }
  | store user token ttl next ih =>
    exact ih _ { w with sessions := (env.cache.putSession env.now user token ttl w.sessions).2 }
  | forget user next ih => exact ih _ { w with sessions := (env.cache.deleteSession env.now user w.sessions).2 }
  | extend user ttl next ih =>
    exact ih _ { w with sessions := (env.cache.touchSession env.now user ttl w.sessions).2 }
  | call c next ih => exact ih _ { w with vault := (env.vault.respond c w.vault).2 }
  | choose extra next ih => exact ih _ { w with throws := w.throws + 1 }

/-! ### Related cells -/

/-- At this instant, related cells answer alike and operations leave them related, for every time to live in `P`. -/
structure Simulates (P : Span → Prop) (now : Instant) (R : Cell → Cell → Prop) : Prop where
  get {c d : Cell} (h : R c d) : (c.get now).1 = (d.get now).1 ∧ R (c.get now).2 (d.get now).2
  set {c d : Cell} (h : R c d) (value : String) {ttl : Span} (httl : P ttl) :
    (c.set now value ttl).1 = (d.set now value ttl).1 ∧ R (c.set now value ttl).2 (d.set now value ttl).2
  delete {c d : Cell} (h : R c d) : (c.delete now).1 = (d.delete now).1 ∧ R (c.delete now).2 (d.delete now).2
  expire {c d : Cell} (h : R c d) {ttl : Span} (httl : P ttl) :
    (c.expire now ttl).1 = (d.expire now ttl).1 ∧ R (c.expire now ttl).2 (d.expire now ttl).2

/-- Equal cells stay equal. -/
theorem simulates_eq (P : Span → Prop) (now : Instant) : Simulates P now Eq where
  get h := by rw [h]; exact ⟨rfl, rfl⟩
  set h value ttl _ := by rw [h]; exact ⟨rfl, rfl⟩
  delete h := by rw [h]; exact ⟨rfl, rfl⟩
  expire h ttl _ := by rw [h]; exact ⟨rfl, rfl⟩

variable {P : Span → Prop} {R : Cell → Cell → Prop}

/-- An operation on cells of two storages that keeps them related. -/
theorem actsOn_related {α : Type} {key : String} {op : Storage → Except Error α × Storage}
    {f : Cell → Except Error α × Cell} {s₁ s₂ : Storage} (hop : ActsOn key op f)
    (hf : (f (s₁.cell key)).1 = (f (s₂.cell key)).1 ∧ R (f (s₁.cell key)).2 (f (s₂.cell key)).2) :
    (op s₁).1 = (op s₂).1 ∧ R ((op s₁).2.cell key) ((op s₂).2.cell key) := by
  rw [(hop s₁).1, (hop s₂).1, hop.own, hop.own]
  exact hf

/-! ### Procedures -/

/-- The same procedure in two worlds asks the same, as long as it is answered the same. -/
theorem Conduct.lockstep {settings : Settings} {user : UserId} {flow : Flow} {event : Event} {stage : Stage}
    {p : Procedure Transition} {env₁ : Surroundings Storage τ₁} {env₂ : Surroundings Storage τ₂}
    {w₁ : World Storage τ₁} {w₂ : World Storage τ₂} (h : Conduct settings user flow event stage p)
    (hcache₁ : env₁.cache = storageCache) (hcache₂ : env₂.cache = storageCache) (hnow : env₁.now = env₂.now)
    (hsim : Simulates P env₁.now R) (httl : P settings.sessionTtl)
    (hcell : R (w₁.sessions.cell user.sessionKey) (w₂.sessions.cell user.sessionKey))
    (hout : ∀ x ∈ (p.exchanges env₁ w₁).zip (p.exchanges env₂ w₂), x.1.call = x.2.call → x.1.outcome = x.2.outcome) :
    (p.run env₁ w₁).1.masked event = (p.run env₂ w₂).1.masked event ∧
      p.exchanges env₁ w₁ = p.exchanges env₂ w₂ ∧
      R ((p.run env₁ w₁).2.sessions.cell user.sessionKey) ((p.run env₂ w₂).2.sessions.cell user.sessionKey) := by
  induction h generalizing w₁ w₂ with
  | done _ => exact ⟨rfl, rfl, hcell⟩
  | @lookUp next _ ih =>
    obtain ⟨hanswer, hcell⟩ := actsOn_related (get_actsOn env₁.now user.sessionKey) (hsim.get hcell)
    have hanswer : (storageCache.session? env₁.now user w₁.sessions).1 =
        (storageCache.session? env₁.now user w₂.sessions).1 := congrArg (Except.map _) hanswer
    simp only [Procedure.exchanges, Procedure.run, hcache₁, hcache₂, ← hnow, ← hanswer] at hout ⊢
    exact ih _ hcell hout
  | @store token next _ ih =>
    obtain ⟨hanswer, hcell⟩ := actsOn_related
      (set_actsOn env₁.now user.sessionKey token.text settings.sessionTtl) (hsim.set hcell token.text httl)
    have hanswer : (storageCache.putSession env₁.now user token settings.sessionTtl w₁.sessions).1 =
      (storageCache.putSession env₁.now user token settings.sessionTtl w₂.sessions).1 := hanswer
    simp only [Procedure.exchanges, Procedure.run, hcache₁, hcache₂, ← hnow, ← hanswer] at hout ⊢
    exact ih _ hcell hout
  | @forget next _ ih =>
    obtain ⟨hanswer, hcell⟩ := actsOn_related (delete_actsOn env₁.now user.sessionKey) (hsim.delete hcell)
    have hanswer : (storageCache.deleteSession env₁.now user w₁.sessions).1 =
      (storageCache.deleteSession env₁.now user w₂.sessions).1 := hanswer
    simp only [Procedure.exchanges, Procedure.run, hcache₁, hcache₂, ← hnow, ← hanswer] at hout ⊢
    exact ih _ hcell hout
  | @extend mutating next _ _ ih =>
    obtain ⟨hanswer, hcell⟩ := actsOn_related (expire_actsOn env₁.now user.sessionKey settings.sessionTtl)
      (hsim.expire hcell httl)
    have hanswer : (storageCache.touchSession env₁.now user settings.sessionTtl w₁.sessions).1 =
      (storageCache.touchSession env₁.now user settings.sessionTtl w₂.sessions).1 := hanswer
    simp only [Procedure.exchanges, Procedure.run, hcache₁, hcache₂, ← hnow, ← hanswer] at hout ⊢
    exact ih _ hcell hout
  | register _ ih | authenticate _ _ ih | present _ _ ih | deleteAccount _ _ ih =>
    obtain ⟨hfirst, hrest⟩ := List.forall_mem_cons.1 hout
    have hanswer := Vault.Call.outcome_injective (hfirst rfl)
    simp only [Procedure.exchanges, Procedure.run, ← hanswer] at hrest ⊢
    -- A call leaves the cells as they are.
    have hcalled := fun r v₁ v₂ => @ih r { w₁ with vault := v₁ } { w₂ with vault := v₂ } hcell
    obtain ⟨hresult, hexchanges, hcell⟩ := hcalled _ _ _ hrest
    exact ⟨hresult, congrArg _ hexchanges, hcell⟩
  | @choose extra hg =>
    -- The dice differ, but the passwords are equally long and masked.
    have hlength : (env₁.dice w₁.throws extra).password.toList.length =
        (env₂.dice w₂.throws extra).password.toList.length := by
      rw [Password.Choices.length_password, Password.Choices.length_password]
    have hreply : Reply.masked event [.hidden (env₁.dice w₁.throws extra).password] =
        Reply.masked event [.hidden (env₂.dice w₂.throws extra).password] := Reply.masked_hidden hg hlength
    exact ⟨congrArg (Transition.mk flow) hreply, rfl, hcell⟩

/-! ### Handled events -/

section

variable {settings : Settings} {env₁ : Surroundings Storage τ₁} {env₂ : Surroundings Storage τ₂}
  {m₁ : Moment Storage τ₁} {m₂ : Moment Storage τ₂}

/-- An event leaves the vault as the calls that it causes. -/
theorem Moment.vault_next {σ : Type} (settings : Settings) (env : Surroundings σ τ) (m : Moment σ τ) (user : UserId)
    (event : Event) : (m.next settings env (.event user event)).engine.world.vault =
      env.vault.after m.engine.world.vault ((m.handled settings env user event).exchanges.map Vault.Exchange.call) :=
  Procedure.vault_run (env.at m.now) (respond settings user (m.engine.flow user) event) m.engine.world

/-- An event that meets the same dialogue and related cells is handled the same, if its calls in the first world are
answered as the vault of the second would answer them. -/
theorem Moment.handled_lockstep (hcache₁ : env₁.cache = storageCache) (hcache₂ : env₂.cache = storageCache)
    (hnow : m₁.now = m₂.now) (hsim : Simulates P m₁.now R) (httl : P settings.sessionTtl) {user : UserId}
    (hflow : m₁.engine.flow user = m₂.engine.flow user)
    (hcell : R (m₁.engine.world.sessions.cell user.sessionKey) (m₂.engine.world.sessions.cell user.sessionKey))
    (event : Event) (hout : ∀ x ∈ (m₁.handled settings env₁ user event).exchanges,
      x.outcome = x.call.outcome (env₂.vault.respond x.call m₂.engine.world.vault).1) :
    (m₁.handled settings env₁ user event).masked = (m₂.handled settings env₂ user event).masked ∧
      (m₁.next settings env₁ (.event user event)).engine.flow user =
        (m₂.next settings env₂ (.event user event)).engine.flow user ∧
      R ((m₁.next settings env₁ (.event user event)).engine.world.sessions.cell user.sessionKey)
        ((m₂.next settings env₂ (.event user event)).engine.world.sessions.cell user.sessionKey) := by
  have hzip : ∀ x ∈ (m₁.handled settings env₁ user event).exchanges.zip
      (m₂.handled settings env₂ user event).exchanges, x.1.call = x.2.call → x.1.outcome = x.2.outcome := by
    rintro ⟨⟨c₁, o₁⟩, ⟨c₂, o₂⟩⟩ hx (hc : c₁ = c₂)
    subst hc
    obtain ⟨hx₁, hx₂⟩ := List.of_mem_zip hx
    calc o₁ = c₁.outcome (env₂.vault.respond c₁ m₂.engine.world.vault).1 := hout _ hx₁
      _ = o₂ := (Moment.outcome_of_mem hcache₂ hx₂).symm
  have hconduct := respond_conduct settings user (m₁.engine.flow user) event
  have hcache₁ : (env₁.at m₁.now).cache = storageCache := hcache₁
  have hcache₂ : (env₂.at m₂.now).cache = storageCache := hcache₂
  simp only [Moment.handled, Engine.exchanges, ← hflow] at hzip
  obtain ⟨hresult, hexchanges, hcell⟩ := hconduct.lockstep hcache₁ hcache₂ hnow hsim httl hcell hzip
  obtain ⟨hnext, hreply⟩ := Transition.mk.inj hresult
  refine ⟨?_, ?_, ?_⟩
  · simp only [Handled.masked, Moment.handled, Engine.exchanges, handle, ← hflow, Handled.mk.injEq, true_and]
    exact ⟨hnow, hexchanges, hreply⟩
  · show (Engine.handle ..).2.flow user = (Engine.handle ..).2.flow user
    rw [flow_handle, flow_handle, if_pos rfl, if_pos rfl, ← hflow]
    exact hnext
  · simp only [Moment.next, handle, ← hflow]
    exact hcell

end

/-- An event that meets the same dialogues, related cells and the same vault is handled the same, and
leaves them so. -/
theorem Moment.event_lockstep (settings : Settings) {env₁ env₂ : Surroundings Storage τ} {m₁ m₂ : Moment Storage τ}
    (hcache₁ : env₁.cache = storageCache) (hcache₂ : env₂.cache = storageCache) (hvault : env₁.vault = env₂.vault)
    (hnow : m₁.now = m₂.now) (hsim : Simulates P m₁.now R) (httl : P settings.sessionTtl)
    (hflow : ∀ user, m₁.engine.flow user = m₂.engine.flow user)
    (hstate : m₁.engine.world.vault = m₂.engine.world.vault)
    (hcells : ∀ key, R (m₁.engine.world.sessions.cell key) (m₂.engine.world.sessions.cell key))
    (user : UserId) (event : Event) :
    (m₁.handled settings env₁ user event).masked = (m₂.handled settings env₂ user event).masked ∧
      (∀ other, (m₁.next settings env₁ (.event user event)).engine.flow other =
        (m₂.next settings env₂ (.event user event)).engine.flow other) ∧
      (m₁.next settings env₁ (.event user event)).engine.world.vault =
        (m₂.next settings env₂ (.event user event)).engine.world.vault ∧
      ∀ key, R ((m₁.next settings env₁ (.event user event)).engine.world.sessions.cell key)
        ((m₂.next settings env₂ (.event user event)).engine.world.sessions.cell key) := by
  have hout : ∀ x ∈ (m₁.handled settings env₁ user event).exchanges,
      x.outcome = x.call.outcome (env₂.vault.respond x.call m₂.engine.world.vault).1 := fun x hx => by
    rw [← hvault, ← hstate]
    exact Moment.outcome_of_mem hcache₁ hx
  obtain ⟨hhandled, hown, hcell⟩ := Moment.handled_lockstep hcache₁ hcache₂ hnow hsim httl (hflow user)
    (hcells user.sessionKey) event hout
  refine ⟨hhandled, fun other => ?_, ?_, fun key => ?_⟩
  · by_cases ho : other = user
    · rw [ho]
      exact hown
    · rw [Moment.flow_next_of_ne settings env₁ m₁ ho, Moment.flow_next_of_ne settings env₂ m₂ ho, hflow other]
  · rw [Moment.vault_next, Moment.vault_next, Handled.exchanges_eq_of_masked hhandled, hvault, hstate]
  · by_cases hk : key = user.sessionKey
    · rw [hk]
      exact hcell
    · obtain ⟨-, hothers₁⟩ := m₁.handled_episode hcache₁ settings user event
      obtain ⟨-, hothers₂⟩ := m₂.handled_episode hcache₂ settings user event
      rw [hothers₁ key hk, hothers₂ key hk]
      exact hcells key

end Engine

end VaultChat
