import VaultChat.Proofs.Lockstep
import VaultChat.Proofs.Requests

/-!
# Memory or rows

An entry in memory ends at a nanosecond, a row at a millisecond, and the two are not dropped on the same occasions.
As long as the clock is read at whole milliseconds before the last one of the calendar and everything lives for whole
milliseconds, the two show the same (`Cell.Agree`), and stay so whatever is done (`simulates_agree`).  Hence an engine
that keeps sessions in memory and one that keeps them in rows cannot be told apart (`interchangeable`).
-/

namespace VaultChat

/-- A whole number of milliseconds. -/
def Span.Whole (s : Span) : Prop := 1000000 ∣ s.nanos

instance (s : Span) : Decidable s.Whole := inferInstanceAs (Decidable (1000000 ∣ s.nanos))

namespace Instant

/-- A whole millisecond before the last one of the calendar. -/
def Tick (t : Instant) : Prop := 1000000 ∣ t.nanos ∧ t.millis < latest.millis

instance (t : Instant) : Decidable t.Tick :=
  inferInstanceAs (Decidable (1000000 ∣ t.nanos ∧ t.millis < latest.millis))

/-- What lives for whole milliseconds from a tick on ends at a whole millisecond or with the calendar. -/
theorem expiryAfter_whole {now : Instant} (hnow : now.Tick) {ttl : Span} (httl : ttl.Whole) :
    now.expiryAfter ttl = latest ∨ (1000000 : Int) ∣ (now.expiryAfter ttl).nanos := by
  unfold expiryAfter
  obtain ⟨hd, -⟩ | ⟨hd, -⟩ := distance?_eq ttl <;> rw [hd]
  · rw [Option.bind_some, add?]
    by_cases hl : now.nanos + ttl.nanos ≤ latestNanos
    · rw [dif_pos hl]
      right
      show (1000000 : Int) ∣ now.nanos + ttl.nanos
      exact Int.dvd_add hnow.1 (Int.natCast_dvd_natCast.2 httl)
    · rw [dif_neg hl]
      exact .inl rfl
  · exact .inl rfl

/-- Whether such an end is still to come can be told from the milliseconds. -/
theorem lt_expiryAfter_iff {now t : Instant} (hnow : now.Tick) {ttl : Span} (httl : ttl.Whole) (ht : t.Tick) :
    t < now.expiryAfter ttl ↔ t.millis < (now.expiryAfter ttl).millis := by
  have hmillis : ∀ i : Instant, i.millis = i.nanos / 1000000 := fun i =>
    Int.fdiv_eq_ediv_of_nonneg _ (by decide)
  obtain ⟨hwhole, hearly⟩ := ht
  rcases expiryAfter_whole hnow httl with he | he
  · rw [he]
    refine ⟨fun _ => hearly, fun _ => ?_⟩
    rw [hmillis, hmillis] at hearly
    rw [lt_iff]
    omega
  · rw [lt_iff, hmillis, hmillis]
    omega

end Instant

namespace Session

namespace Cell

/-! ### Open cells -/

def isOpen : Cell → Bool
  | .memory _ | .row _ => true
  | .closed => false

variable {c d : Cell} {now t : Instant} {ttl : Span}

theorem answer_of_isOpen {α : Type} (h : c.isOpen = true) (a : α) : c.answer a = .ok a := by
  cases c with
  | memory | row => rfl
  | closed => cases h

@[simp] theorem isOpen_clear (c : Cell) : c.clear.isOpen = c.isOpen := by
  cases c <;> rfl

@[simp] theorem isOpen_filled (now : Instant) (value : String) (ttl : Span) (c : Cell) :
    (c.filled now value ttl).isOpen = c.isOpen := by
  cases c <;> rfl

@[simp] theorem isOpen_get (now : Instant) (c : Cell) : (c.get now).2.isOpen = c.isOpen := by
  unfold get
  split
  · rfl
  · exact isOpen_clear c

@[simp] theorem isOpen_expire (now : Instant) (ttl : Span) (c : Cell) : (c.expire now ttl).2.isOpen = c.isOpen := by
  unfold expire
  cases c.live now with
  | some v => exact isOpen_filled now v ttl c
  | none => cases c <;> rfl

/-- At a tick, an entry and a row that were filled alike are alike. -/
theorem live_filled_tick (ho : c.isOpen = true) (hnow : now.Tick) (httl : ttl.Whole) (ht : t.Tick) (value : String) :
    (c.filled now value ttl).live t = if t < now.expiryAfter ttl then some value else none := by
  cases c with
  | memory => rfl
  | row =>
    show (if t.millis < (now.expiryAfter ttl).millis then some value else none) = _
    simp only [Instant.lt_expiryAfter_iff hnow httl ht]
  | closed => cases ho

/-! ### Cells that agree -/

/-- Two cells that can be used, and show the same at every tick from now on. -/
structure Agree (now : Instant) (c d : Cell) : Prop where
  left : c.isOpen = true
  right : d.isOpen = true
  live : ∀ t, now ≤ t → t.Tick → c.live t = d.live t

theorem Agree.later (h : Agree now c d) (ht : now ≤ t) : Agree t c d where
  left := h.left
  right := h.right
  live u hu := h.live u (Int.le_trans ht hu)

theorem Agree.clear (h : Agree now c d) : Agree now c.clear d.clear where
  left := by rw [isOpen_clear, h.left]
  right := by rw [isOpen_clear, h.right]
  live t _ _ := by rw [live_clear, live_clear]

theorem Agree.filled (h : Agree now c d) (hnow : now.Tick) (httl : ttl.Whole) (value : String) :
    Agree now (c.filled now value ttl) (d.filled now value ttl) where
  left := by rw [isOpen_filled, h.left]
  right := by rw [isOpen_filled, h.right]
  live t _ ht := by rw [live_filled_tick h.left hnow httl ht, live_filled_tick h.right hnow httl ht]

end Cell

open Cell

/-- At a tick, cells that agree answer alike and go on to agree, if everything is to live for whole milliseconds. -/
theorem simulates_agree {now : Instant} (hnow : now.Tick) : Engine.Simulates Span.Whole now (Agree now) where
  get {c d} h := by
    have hlive : c.live now = d.live now := h.live now (Int.le_refl _) hnow
    refine ⟨?_, by rw [isOpen_get, h.left], by rw [isOpen_get, h.right], fun t ht htick => ?_⟩
    · show c.answer (c.live now) = d.answer (d.live now)
      rw [answer_of_isOpen h.left, answer_of_isOpen h.right, hlive]
    · rw [live_get ht, live_get ht, h.live t ht htick]
  set {c d} h value ttl httl := by
    refine ⟨?_, h.filled hnow httl value⟩
    show c.answer () = d.answer ()
    rw [answer_of_isOpen h.left, answer_of_isOpen h.right]
  delete {c d} h := by
    have hlive : c.live now = d.live now := h.live now (Int.le_refl _) hnow
    refine ⟨?_, h.clear⟩
    show c.answer (c.live now).isSome = d.answer (d.live now).isSome
    rw [answer_of_isOpen h.left, answer_of_isOpen h.right, hlive]
  expire {c d} h ttl httl := by
    have hlive : c.live now = d.live now := h.live now (Int.le_refl _) hnow
    cases hc : c.live now with
    | some v =>
      have hd : d.live now = some v := by rw [← hlive, hc]
      rw [expire_of_live hc, expire_of_live hd]
      refine ⟨?_, h.filled hnow httl v⟩
      rw [answer_of_isOpen h.left, answer_of_isOpen h.right]
    | none =>
      have hd : d.live now = none := by rw [← hlive, hc]
      refine ⟨?_, by rw [isOpen_expire, h.left], by rw [isOpen_expire, h.right], fun t ht _ => ?_⟩
      · rw [answer_expire_of_expired hc, answer_expire_of_expired hd, answer_of_isOpen h.left,
          answer_of_isOpen h.right]
      · rw [live_expire_of_expired hc ht, live_expire_of_expired hd ht]

end Session

namespace Engine

open Chat Session

/-! ### Scripts -/

/-- Something happens, or the sessions are asked past the engine. -/
inductive Deed where
  | happening (h : Happening)
  | request (r : Request)
  | session (user : UserId) (r : SessionRequest)

/-- How long something is asked to live past the engine. -/
def Deed.ttl? : Deed → Option Span
  | .happening _ => none
  | .request r => r.ttl?
  | .session user r => (r.request user).ttl?

/-- What is seen of a deed: the event that was handled, with generated passwords masked, or an answer. -/
inductive Report where
  | noted (rs : List Handled)
  | answered (a : Except Error Answer)

section

variable {σ τ : Type} (settings : Settings) (env : Surroundings σ τ)

/-- The moment with other contents of the sessions. -/
def Moment.withSessions (m : Moment σ τ) (s : σ) : Moment σ τ :=
  { m with engine := { m.engine with world := { m.engine.world with sessions := s } } }

def Moment.carryOut (m : Moment σ τ) : Deed → Report × Moment σ τ
  | .happening h => (.noted ((m.noted settings env h).map Handled.masked), m.next settings env h)
  | .request r =>
    (.answered (env.cache.perform m.now r m.engine.world.sessions).1,
      m.withSessions (env.cache.perform m.now r m.engine.world.sessions).2)
  | .session user r =>
    (.answered (env.cache.performFor m.now user r m.engine.world.sessions).1,
      m.withSessions (env.cache.performFor m.now user r m.engine.world.sessions).2)

/-- To ask for a user's session is to ask for its key. -/
theorem Moment.carryOut_session (m : Moment σ τ) (user : UserId) (r : SessionRequest) :
    m.carryOut settings env (.session user r) = m.carryOut settings env (.request (r.request user)) := by
  rw [carryOut, carryOut, performFor_eq]

/-- What is seen of every deed, and where it leaves the users' dialogues. -/
def Moment.trace : Moment σ τ → List Deed → List (Report × (UserId → Flow))
  | _, [] => []
  | m, d :: script =>
    ((m.carryOut settings env d).1, (m.carryOut settings env d).2.engine.flow) ::
      Moment.trace (m.carryOut settings env d).2 script

end

/-- The times at which a script that starts now reads the clock. -/
def readings : Instant → List Deed → List Instant
  | _, [] => []
  | now, .happening (.wait span) :: script => readings (now.advance span) script
  | now, _ :: script => now :: readings now script

theorem readings_cons {σ τ : Type} (settings : Settings) (env : Surroundings σ τ) (m : Moment σ τ) (d : Deed)
    (script : List Deed) :
    readings m.now (d :: script) = readings m.now [d] ++ readings (m.carryOut settings env d).2.now script := by
  rcases d with (_ | _) | _ | _ <;> rfl

/-! ### Engines that agree -/

variable {τ : Type} {settings : Settings} {env₁ env₂ : Surroundings Storage τ} {m₁ m₂ : Moment Storage τ}

/-- The same time, dialogues and vault, and sessions that agree. -/
structure Moment.Agree (m₁ m₂ : Moment Storage τ) : Prop where
  now : m₁.now = m₂.now
  flow : ∀ user, m₁.engine.flow user = m₂.engine.flow user
  vault : m₁.engine.world.vault = m₂.engine.world.vault
  cells : ∀ key, (m₁.engine.world.sessions.cell key).Agree m₁.now (m₂.engine.world.sessions.cell key)

theorem Simulates.perform {P : Span → Prop} {now : Instant} {R : Cell → Cell → Prop} (hsim : Simulates P now R)
    {c d : Cell} (h : R c d) {r : Request} (httl : ∀ ttl ∈ r.ttl?, P ttl) :
    (c.perform now r).1 = (d.perform now r).1 ∧ R (c.perform now r).2 (d.perform now r).2 := by
  cases r with
  | get key =>
    obtain ⟨hanswer, hnext⟩ := hsim.get h
    exact ⟨congrArg (Except.map _) hanswer, hnext⟩
  | set key value ttl =>
    obtain ⟨hanswer, hnext⟩ := hsim.set h value (httl ttl rfl)
    exact ⟨congrArg (Except.map _) hanswer, hnext⟩
  | delete key =>
    obtain ⟨hanswer, hnext⟩ := hsim.delete h
    exact ⟨congrArg (Except.map _) hanswer, hnext⟩
  | expire key ttl =>
    obtain ⟨hanswer, hnext⟩ := hsim.expire h (httl ttl rfl)
    exact ⟨congrArg (Except.map _) hanswer, hnext⟩

namespace Moment.Agree

variable (hcache₁ : env₁.cache = storageCache) (hcache₂ : env₂.cache = storageCache)
  (hvault : env₁.vault = env₂.vault) (h : m₁.Agree m₂)

include h in
theorem wait (span : Span) : (m₁.next settings env₁ (.wait span)).Agree (m₂.next settings env₂ (.wait span)) where
  now := congrArg (Instant.advance · span) h.now
  flow := h.flow
  vault := h.vault
  cells key := (h.cells key).later (Instant.le_advance m₁.now span)

include hcache₁ hcache₂ h in
theorem request (htick : m₁.now.Tick) {r : Request} (httl : ∀ ttl ∈ r.ttl?, ttl.Whole) :
    (m₁.carryOut settings env₁ (.request r)).1 = (m₂.carryOut settings env₂ (.request r)).1 ∧
      (m₁.carryOut settings env₁ (.request r)).2.Agree (m₂.carryOut settings env₂ (.request r)).2 := by
  have hacts := perform_actsOn m₁.now r
  obtain ⟨hanswer, hcell⟩ := actsOn_related hacts ((simulates_agree htick).perform (h.cells r.key) httl)
  simp only [Moment.carryOut, hcache₁, hcache₂, ← h.now]
  refine ⟨congrArg Report.answered hanswer, h.now, h.flow, h.vault, fun key => ?_⟩
  by_cases hk : key = r.key
  · rw [hk]
    exact hcell
  · have hcells := h.cells key
    rw [← hacts.other m₁.engine.world.sessions hk, ← hacts.other m₂.engine.world.sessions hk] at hcells
    exact hcells

include hcache₁ hcache₂ hvault h in
theorem event (htick : m₁.now.Tick) (httl : settings.sessionTtl.Whole) (user : UserId) (event : Event) :
    (m₁.handled settings env₁ user event).masked = (m₂.handled settings env₂ user event).masked ∧
      (m₁.next settings env₁ (.event user event)).Agree (m₂.next settings env₂ (.event user event)) := by
  obtain ⟨hhandled, hflow, hstate, hcells⟩ := Moment.event_lockstep settings hcache₁ hcache₂ hvault h.now
    (simulates_agree htick) httl h.flow h.vault h.cells user event
  exact ⟨hhandled, h.now, hflow, hstate, hcells⟩

include hcache₁ hcache₂ hvault h in
/-- A deed that reads the clock, if at all, at a tick. -/
theorem carryOut (httl : settings.sessionTtl.Whole) (d : Deed) (htick : ∀ t ∈ readings m₁.now [d], t.Tick)
    (hd : ∀ ttl ∈ d.ttl?, ttl.Whole) :
    (m₁.carryOut settings env₁ d).1 = (m₂.carryOut settings env₂ d).1 ∧
      (m₁.carryOut settings env₁ d).2.Agree (m₂.carryOut settings env₂ d).2 := by
  cases d with
  | happening e =>
    cases e with
    | wait span =>
      have hnext : (m₁.next settings env₁ (.wait span)).Agree (m₂.next settings env₂ (.wait span)) := h.wait span
      exact ⟨rfl, hnext⟩
    | event user event =>
      obtain ⟨hhandled, hnext⟩ := h.event hcache₁ hcache₂ hvault (htick _ List.mem_cons_self) httl user event
      exact ⟨congrArg (fun r => Report.noted [r]) hhandled, hnext⟩
  | request r => exact h.request hcache₁ hcache₂ (htick _ List.mem_cons_self) hd
  | session user r =>
    rw [carryOut_session, carryOut_session]
    exact h.request hcache₁ hcache₂ (htick _ List.mem_cons_self) hd

include hcache₁ hcache₂ hvault in
theorem trace (httl : settings.sessionTtl.Whole) (script : List Deed) (h : m₁.Agree m₂)
    (htick : ∀ t ∈ readings m₁.now script, t.Tick) (hscript : ∀ d ∈ script, ∀ ttl ∈ d.ttl?, ttl.Whole) :
    m₁.trace settings env₁ script = m₂.trace settings env₂ script := by
  induction script generalizing m₁ m₂ with
  | nil => rfl
  | cons d script ih =>
    rw [readings_cons settings env₁, List.forall_mem_append] at htick
    obtain ⟨htick, hticks⟩ := htick
    obtain ⟨hd, hscript⟩ := List.forall_mem_cons.1 hscript
    obtain ⟨hreport, hnext⟩ := h.carryOut hcache₁ hcache₂ hvault httl d htick hd
    have hflow : (m₁.carryOut settings env₁ d).2.engine.flow = (m₂.carryOut settings env₂ d).2.engine.flow :=
      funext hnext.flow
    rw [Moment.trace, Moment.trace, hreport, hflow, ih hnext hticks hscript]

end Moment.Agree

/-- An engine over an empty memory and one over an empty table, with the same vault.  Whatever is done, with the clock
read at ticks only and everything to live for whole milliseconds, each step shows the same and leaves the same
dialogues. -/
theorem interchangeable (hcache₁ : env₁.cache = storageCache) (hcache₂ : env₂.cache = storageCache)
    (hvault : env₁.vault = env₂.vault) (httl : settings.sessionTtl.Whole) (start : Instant)
    (flows : KeyMap UserId Flow) (v : τ) (throws₁ throws₂ : Nat) {rows : Storage}
    (hrows : ∀ key, rows.cell key = .row none) (script : List Deed)
    (htick : ∀ t ∈ readings start script, t.Tick) (hscript : ∀ d ∈ script, ∀ ttl ∈ d.ttl?, ttl.Whole) :
    Moment.trace settings env₁ ⟨start, ⟨flows, ⟨.memory ∅, v, throws₁⟩⟩⟩ script =
      Moment.trace settings env₂ ⟨start, ⟨flows, ⟨rows, v, throws₂⟩⟩⟩ script := by
  have hcells : ∀ key, (Storage.cell key (.memory ∅)).Agree start (rows.cell key) := fun key => by
    rw [hrows key]
    exact ⟨rfl, rfl, fun _ _ _ => rfl⟩
  have hagree : Moment.Agree (⟨start, ⟨flows, ⟨.memory ∅, v, throws₁⟩⟩⟩ : Moment Storage τ)
    ⟨start, ⟨flows, ⟨rows, v, throws₂⟩⟩⟩ := ⟨rfl, fun _ => rfl, rfl, hcells⟩
  exact Moment.Agree.trace hcache₁ hcache₂ hvault httl script hagree htick hscript

/-- An entry that is to live for longer than the calendar lasts, beside a session that a listing renews and that then
expires. -/
theorem interchangeable_saturated :
    let settings : Settings := ⟨⟨60000000⟩, .always, 16⟩
    let env := Surroundings.plain storageCache (.granting ⟨"token"⟩)
    let start : Instant := ⟨0, by decide⟩
    let forever : Span := ⟨1000000000000000000000000000000⟩
    let script : List Deed := [.request (.set "k" "v" forever), .session ⟨5⟩ (.put ⟨"token"⟩ ⟨60000000⟩),
      .happening (.wait ⟨59000000⟩), .happening (.event ⟨5⟩ (.command .list)), .happening (.wait ⟨59000000⟩),
      .session ⟨5⟩ .get, .happening (.wait ⟨1000000⟩), .session ⟨5⟩ .get, .request (.get "k")]
    let trace (sessions : Storage) : List (Report × (UserId → Flow)) :=
      Moment.trace settings env ⟨start, .start ⟨sessions, (), 0⟩⟩ script
    settings.sessionTtl.Whole ∧ (∀ t ∈ readings start script, t.Tick) ∧
      (∀ d ∈ script, ∀ ttl ∈ d.ttl?, ttl.Whole) ∧ start.expiryAfter forever = .latest ∧
      trace (.memory ∅) = trace (.table ∅) ∧
      ((trace (.table ∅)).map Prod.fst).drop 5 = [.answered (.ok (.value (some "token"))), .noted [],
        .answered (.ok (.value none)), .answered (.ok (.value (some "v")))] := by
  intro settings env start forever script trace
  have hcache : env.cache = storageCache := rfl
  have httl : settings.sessionTtl.Whole := by decide
  have hrows : ∀ key, (Storage.table ∅).cell key = .row none := fun _ => rfl
  have htick : ∀ t ∈ readings start script, t.Tick := by decide
  have hscript : ∀ d ∈ script, ∀ ttl ∈ d.ttl?, ttl.Whole := by decide
  exact ⟨httl, htick, hscript, rfl,
    interchangeable hcache hcache rfl httl start ∅ () 0 0 hrows script htick hscript, rfl⟩

end Engine

end VaultChat
