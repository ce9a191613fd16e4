import VaultChat.Engine.Basic

/-!
# Courses of events

An engine lives through events of its users and through stretches of time.  A course is a list of such happenings.
`Moment.after` is where it leads, and `Moment.history` lists the events that were handled on the way, each with the
exchanges with the vault that it caused.  What holds at the start and is kept by every happening holds after every
course (`Moment.induction`), and every handled event was met at some moment of the course (`Moment.met`).
-/

namespace VaultChat

open Chat

namespace Vault

/-- What became of a call. -/
inductive Outcome where
  | failed (f : Failure)
  | credentials (c : Credentials)
  | token (t : Token)
  | entries (es : List PasswordEntry)
  | entry (e : PasswordEntry)
  | done
  deriving DecidableEq

/-- The outcome that an answer to a call stands for. -/
def Call.outcome : (c : Call) → c.Answer → Outcome
  | _, .error f => .failed f
  | .register _, .ok c => .credentials c
  | .authenticate .., .ok t => .token t
  | .listPasswords _, .ok es => .entries es
  | .getPassword .., .ok e => .entry e
  | .addPassword .., .ok () | .deletePassword .., .ok () | .deleteAccount .., .ok () => .done

@[simp] theorem Call.outcome_error (c : Call) (f : Failure) : c.outcome (.error f) = .failed f := by
  cases c <;> rfl

theorem Call.outcome_ok_ne_failed (c : Call) (a : c.Result) (f : Failure) : c.outcome (.ok a) ≠ .failed f := by
  cases c <;> simp [outcome]

/-- A call and what became of it. -/
structure Exchange where
  call : Call
  outcome : Outcome
  deriving DecidableEq

/-- A vault that grants every request and keeps nothing. -/
def Service.granting (token : Token) : Service Unit where
  respond
    | .register _, v => (.ok ⟨"key", "secret"⟩, v)
    | .authenticate .., v => (.ok token, v)
    | .listPasswords _, v => (.ok [], v)
    | .getPassword _ id, v => (.ok ⟨id, "service", "login", "password", none⟩, v)
    | .addPassword .., v | .deletePassword .., v | .deleteAccount .., v => (.ok (), v)

/-- A vault that grants every request, but registers a username only once. -/
def Service.registering (token : Token) : Service (List String) where
  respond
    | .register username, names =>
      if username ∈ names then (.error .conflict, names) else (.ok ⟨"key", "secret"⟩, username :: names)
    | c, names => (((Service.granting token).respond c ()).1, names)

/-- A vault that refuses every request. -/
def Service.refusing (f : Failure) : Service Unit where
  respond _ v := (.error f, v)

end Vault

namespace Engine

variable {α β σ τ : Type}

/-- The exchanges with the vault in the course of a procedure, the first one first. -/
def Procedure.exchanges (env : Surroundings σ τ) : Procedure α → World σ τ → List Vault.Exchange
  | .done _, _ => []
  | .lookUp user next, w =>
    let (r, s) := env.cache.session? env.now user w.sessions
    (next r).exchanges env { w with sessions := s }
  | .store user token ttl next, w =>
    let (r, s) := env.cache.putSession env.now user token ttl w.sessions
    (next r).exchanges env { w with sessions := s }
  | .forget user next, w =>
    let (r, s) := env.cache.deleteSession env.now user w.sessions
    (next r).exchanges env { w with sessions := s }
  | .extend user ttl next, w =>
    let (r, s) := env.cache.touchSession env.now user ttl w.sessions
    (next r).exchanges env { w with sessions := s }
  | .call c next, w =>
    let (r, v) := env.vault.respond c w.vault
    ⟨c, c.outcome r⟩ :: (next r).exchanges env { w with vault := v }
  | .choose extra next, w =>
    (next (env.dice w.throws extra)).exchanges env { w with throws := w.throws + 1 }

/-- The first call of a procedure is answered by the vault as the procedure finds it. -/
theorem Procedure.outcome_of_exchanges_eq_cons {env : Surroundings σ τ} {p : Procedure α} {w : World σ τ}
    {x : Vault.Exchange} {es : List Vault.Exchange} (h : p.exchanges env w = x :: es) :
    x.outcome = x.call.outcome (env.vault.respond x.call w.vault).1 := by
  induction p generalizing w with
  | done a => cases h
  | lookUp _ _ ih | store _ _ _ _ ih | forget _ _ ih | extend _ _ _ ih | choose _ _ ih =>
    -- Nothing but a call changes the vault.
    have hrest := ih _ h
    exact hrest
  | call c next _ =>
    obtain ⟨rfl, -⟩ := List.cons.inj h
    rfl

/-- The exchanges that an event causes. -/
def exchanges (settings : Settings) (env : Surroundings σ τ) (user : UserId) (event : Event) (e : Engine σ τ) :
    List Vault.Exchange :=
  (respond settings user (e.flow user) event).exchanges env e.world

theorem flow_handle (settings : Settings) (env : Surroundings σ τ) (user other : UserId) (event : Event)
    (e : Engine σ τ) : (e.handle settings env user event).2.flow other =
      if other = user then ((respond settings user (e.flow user) event).run env e.world).1.next
      else e.flow other := by
  show ((setFlow e.flows user ((respond settings user (e.flow user) event).run env e.world).1.next).find? other).getD
    .idle = _
  generalize ((respond settings user (e.flow user) event).run env e.world).1.next = next
  unfold setFlow
  by_cases hn : next = .idle
  · rw [if_pos hn, KeyMap.find?_erase, hn]
    split <;> rfl
  · rw [if_neg hn, KeyMap.find?_insert]
    split <;> rfl

/-- Surroundings in which the dice always fall alike. -/
def Surroundings.plain (cache : Session.Cache σ) (vault : Vault.Service τ) : Surroundings σ τ :=
  ⟨⟨0, by decide⟩, cache, vault, fun _ => .trivial⟩

/-- The same surroundings at another time. -/
def Surroundings.at (env : Surroundings σ τ) (now : Instant) : Surroundings σ τ := { env with now }

/-! ### Happenings -/

/-- A user sends an event, or time passes. -/
inductive Happening where
  | event (user : UserId) (event : Event)
  | wait (span : Span)

/-- An event that was handled. -/
structure Handled where
  now : Instant
  user : UserId
  event : Event
  exchanges : List Vault.Exchange
  reply : Reply

/-- The events of one user, in the order in which they were handled. -/
def eventsOf (user : UserId) (history : List Handled) : List Event :=
  (history.filter fun r => r.user = user).map Handled.event

/-- An engine and the time on its clock. -/
structure Moment (σ τ : Type) where
  now : Instant
  engine : Engine σ τ

namespace Moment

variable (settings : Settings) (env : Surroundings σ τ)

def next (m : Moment σ τ) : Happening → Moment σ τ
  | .event user event => { m with engine := (m.engine.handle settings (env.at m.now) user event).2 }
  | .wait span => { m with now := m.now.advance span }

/-- What is handled when an event comes in. -/
def handled (m : Moment σ τ) (user : UserId) (event : Event) : Handled where
  now := m.now
  user := user
  event := event
  exchanges := m.engine.exchanges settings (env.at m.now) user event
  reply := (m.engine.handle settings (env.at m.now) user event).1

def noted (m : Moment σ τ) : Happening → List Handled
  | .event user event => [m.handled settings env user event]
  | .wait _ => []

/-- The moment that a course leads to. -/
def after (m : Moment σ τ) (course : List Happening) : Moment σ τ := course.foldl (next settings env) m

/-- The events handled in a course. -/
def history : Moment σ τ → List Happening → List Handled
  | _, [] => []
  | m, h :: course => m.noted settings env h ++ history (m.next settings env h) course

variable {settings : Settings} {env : Surroundings σ τ}

/-- An event leaves the dialogues of other users as they are. -/
theorem flow_next_of_ne (settings : Settings) (env : Surroundings σ τ) (m : Moment σ τ) {user other : UserId}
    (h : other ≠ user) (event : Event) :
    (m.next settings env (.event user event)).engine.flow other = m.engine.flow other := by
  show (Engine.handle ..).2.flow other = _
  rw [flow_handle, if_neg h]

theorem history_append (m : Moment σ τ) (before course : List Happening) :
    m.history settings env (before ++ course) =
      m.history settings env before ++ (m.after settings env before).history settings env course := by
  induction before generalizing m with
  | nil => rfl
  | cons h before ih =>
    have hrest := ih (m.next settings env h)
    rw [List.cons_append, history, hrest, history, List.append_assoc]
    rfl

/-- What holds of the start and of the empty history, and is kept by every happening, holds after every course. -/
theorem induction {m : Moment σ τ} (I : List Handled → Moment σ τ → Prop) (start : I [] m)
    (step : ∀ past m h, I past m → I (past ++ m.noted settings env h) (m.next settings env h))
    (course : List Happening) : I (m.history settings env course) (m.after settings env course) := by
  suffices ∀ past m, I past m → I (past ++ m.history settings env course) (m.after settings env course) from
    this [] m start
  induction course with
  | nil =>
    intro past m hI
    rw [history, List.append_nil]
    exact hI
  | cons h course ih =>
    intro past m hI
    rw [history, ← List.append_assoc]
    exact ih _ _ (step past m h hI)

/-- A handled event was met at the moment to which the course before it led. -/
theorem met {m : Moment σ τ} {course : List Happening} {past future : List Handled} {r : Handled}
    (h : m.history settings env course = past ++ r :: future) :
    ∃ before, m.history settings env before = past ∧
      r = (m.after settings env before).handled settings env r.user r.event := by
  induction course generalizing m past with
  | nil => simp [history] at h
  | cons e course ih =>
    rw [history] at h
    cases e with
    | wait span =>
      obtain ⟨before, hp, hr⟩ := ih h
      exact ⟨.wait span :: before, hp, hr⟩
    | event user event =>
      cases past with
      | nil =>
        refine ⟨[], rfl, ?_⟩
        have hr := (List.cons.inj h).1
        rw [← hr]
        rfl
      | cons p past =>
        obtain ⟨hp, ht⟩ := List.cons.inj h
        obtain ⟨before, hb, hr⟩ := ih ht
        refine ⟨.event user event :: before, ?_, hr⟩
        rw [history, hb, ← hp]
        rfl

end Moment

end Engine

end VaultChat
