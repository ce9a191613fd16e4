import VaultChat.Proofs.Input
import VaultChat.Proofs.Lockstep

/-!
# Events that leave no trace

Some events only get a reply: the dialogue stays where it is, nothing is asked of the vault, and of the session no
more than a look-up is made, which may drop what has expired.  `Inert` lists them.  An engine that is spared any of
its inert events goes on as it would have gone with them: it handles the other events alike, asks the vault the same
and looks the same at every moment (`traceless`).
-/

namespace VaultChat

namespace Session

/-! ### Cells that look alike -/

/-- Two cells of one kind that show the same from now on.  Either may still hold what has expired. -/
structure Cell.Alike (now : Instant) (c d : Cell) : Prop where
  clear : c.clear = d.clear
  live : ∀ t, now ≤ t → c.live t = d.live t

namespace Cell

variable {c d e : Cell} {now t : Instant}

theorem answer_of_clear {α : Type} (h : c.clear = d.clear) (a : α) : c.answer a = d.answer a := by
  cases c <;> cases d <;> first | rfl | cases h

theorem filled_of_clear (h : c.clear = d.clear) (now : Instant) (value : String) (ttl : Span) :
    c.filled now value ttl = d.filled now value ttl := by
  cases c <;> cases d <;> first | rfl | cases h

@[simp] theorem clear_clear (c : Cell) : c.clear.clear = c.clear := by
  cases c <;> rfl

@[simp] theorem clear_get (now : Instant) (c : Cell) : (c.get now).2.clear = c.clear := by
  unfold get
  split
  · rfl
  · exact clear_clear c

@[simp] theorem clear_filled (now : Instant) (value : String) (ttl : Span) (c : Cell) :
    (c.filled now value ttl).clear = c.clear := by
  cases c <;> rfl

@[simp] theorem clear_expire (now : Instant) (ttl : Span) (c : Cell) : (c.expire now ttl).2.clear = c.clear := by
  unfold expire
  cases c.live now with
  | some v => exact clear_filled now v ttl c
  | none => cases c <;> rfl

namespace Alike

theorem refl (now : Instant) (c : Cell) : Alike now c c := ⟨rfl, fun _ _ => rfl⟩

theorem trans (hcd : Alike now c d) (hde : Alike now d e) : Alike now c e where
  clear := hcd.clear.trans hde.clear
  live t ht := (hcd.live t ht).trans (hde.live t ht)

theorem later (h : Alike now c d) (ht : now ≤ t) : Alike t c d where
  clear := h.clear
  live u hu := h.live u (Int.le_trans ht hu)

theorem get_left (now : Instant) (c : Cell) : Alike now (c.get now).2 c where
  clear := clear_get now c
  live _ ht := live_get ht

end Alike

end Cell

open Cell

/-- Cells that look alike answer alike and go on to look alike. -/
theorem simulates_alike (now : Instant) : Engine.Simulates (fun _ => True) now (Alike now) where
  get {c d} h := by
    have hlive : c.live now = d.live now := h.live now (Int.le_refl _)
    refine ⟨?_, by rw [clear_get, clear_get, h.clear], fun t ht => by rw [live_get ht, live_get ht, h.live t ht]⟩
    show c.answer (c.live now) = d.answer (d.live now)
    rw [hlive, answer_of_clear h.clear]
  set {c d} h value ttl _ := by
    have hfilled : c.filled now value ttl = d.filled now value ttl := filled_of_clear h.clear now value ttl
    refine ⟨answer_of_clear h.clear (), ?_⟩
    show Alike now (c.filled now value ttl) (d.filled now value ttl)
    rw [hfilled]
    exact .refl now _
  delete {c d} h := by
    have hlive : c.live now = d.live now := h.live now (Int.le_refl _)
    refine ⟨?_, ?_⟩
    · show c.answer (c.live now).isSome = d.answer (d.live now).isSome
      rw [hlive, answer_of_clear h.clear]
    · show Alike now c.clear d.clear
      rw [h.clear]
      exact .refl now _
  expire {c d} h ttl _ := by
    have hlive : c.live now = d.live now := h.live now (Int.le_refl _)
    cases hc : c.live now with
    | some v =>
      have hd : d.live now = some v := by rw [← hlive, hc]
      have hfilled : c.filled now v ttl = d.filled now v ttl := filled_of_clear h.clear now v ttl
      rw [expire_of_live hc, expire_of_live hd, hfilled]
      exact ⟨answer_of_clear h.clear true, .refl now _⟩
    | none =>
      have hd : d.live now = none := by rw [← hlive, hc]
      refine ⟨?_, by rw [clear_expire, clear_expire, h.clear], fun t ht => ?_⟩
      · rw [answer_expire_of_expired hc, answer_expire_of_expired hd, answer_of_clear h.clear]
      · rw [live_expire_of_expired hc ht, live_expire_of_expired hd ht]

end Session

namespace Engine

open Chat Session

variable {σ τ : Type}

/-! ### Inert events -/

/-- The events that only get a reply in the dialogue that they meet. -/
inductive Inert (flow : Flow) : Event → Prop where
  | help : Inert flow (.command .help)
  | generate (arg : String) : Inert flow (.command (.generate arg))
  | showEntry {arg : String} (h : ∀ id, ¬ IsId arg id) : Inert flow (.command (.showEntry arg))
  | deleteEntry {arg : String} (h : ∀ id, ¬ IsId arg id) : Inert flow (.command (.deleteEntry arg))
  | cancel (hf : flow = .idle) : Inert flow (.command .cancel)
  | unmatched {event : Event} {text : String} (hf : flow = .idle) (hl : event.line? = some text) : Inert flow event
  | credentials {event : Event} {text : String} (hf : flow = .awaitingCredentials) (hl : event.line? = some text)
      (hp : parseCredentials text = none) : Inert flow event
  | entry {event : Event} {text : String} (hf : flow = .awaitingEntry) (hl : event.line? = some text)
      (hp : parseEntry text = none) : Inert flow event
  | code {event : Event} {text : String} (hf : flow = .awaitingCode) (hl : event.line? = some text)
      (hp : parseCode text.toList = none) : Inert flow event

private theorem parseId_eq_none {arg : String} (h : ∀ id, ¬ IsId arg id) : parseId arg = none :=
  Option.eq_none_iff_forall_ne_some.2 fun id hid => h id (parseId_eq_some_iff.1 hid)

/-- An inert event is answered where the dialogue is, with a password if it asks for one. -/
theorem plan_of_inert {flow : Flow} {event : Event} (h : Inert flow event) :
    (∃ text, plan flow event = .stay flow text) ∨ plan flow event = .answer .unmatched ∨
      ∃ length, plan flow event = .answer (.generatePassword length) := by
  cases h with
  | help => exact .inl ⟨_, rfl⟩
  | generate arg =>
    simp only [plan, planCommand]
    split
    · exact .inr (.inr ⟨none, rfl⟩)
    · split
      · exact .inr (.inr ⟨_, rfl⟩)
      · exact .inl ⟨_, rfl⟩
  | showEntry h | deleteEntry h =>
    simp only [plan, planCommand, parseId_eq_none h]
    exact .inl ⟨_, rfl⟩
  | cancel hf =>
    rw [hf]
    exact .inl ⟨_, rfl⟩
  | unmatched hf hl =>
    rw [plan_of_line hl, hf]
    exact .inr (.inl rfl)
  | credentials hf hl hp | entry hf hl hp | code hf hl hp =>
    rw [plan_of_line hl, hf]
    simp only [planText, hp]
    exact .inl ⟨_, rfl⟩

/-- The procedure at most looks up the session or throws dice, and then leaves the dialogue where it is. -/
inductive Quiet (user : UserId) (flow : Flow) : Procedure Transition → Prop where
  | done (reply : Reply) : Quiet user flow (.done ⟨flow, reply⟩)
  | lookUp {next} (h : ∀ r, Quiet user flow (next r)) : Quiet user flow (.lookUp user next)
  | choose {extra : Nat} {next} (h : ∀ c, Quiet user flow (next c)) : Quiet user flow (.choose extra next)

theorem respond_quiet (settings : Settings) (user : UserId) {flow : Flow} {event : Event} (h : Inert flow event) :
    Quiet user flow (respond settings user flow event) := by
  unfold respond
  obtain ⟨text, hplan⟩ | hplan | ⟨length, hplan⟩ := plan_of_inert h <;> rw [hplan]
  · exact .done _
  · exact .lookUp fun r => by rcases r with e | _ | token <;> exact .done _
  · simp only [reply, generatePassword]
    cases Password.freeCharacters (length.getD settings.defaultLength) with
    | ok extra => exact .choose fun c => .done _
    | error e => exact .done _

namespace Quiet

variable {user : UserId} {flow : Flow} {p : Procedure Transition}

theorem exchanges (h : Quiet user flow p) (env : Surroundings σ τ) (w : World σ τ) : p.exchanges env w = [] := by
  induction h generalizing w with
  | done => rfl
  | lookUp _ ih | choose _ ih => exact ih _ _

theorem next (h : Quiet user flow p) (env : Surroundings σ τ) (w : World σ τ) : (p.run env w).1.next = flow := by
  induction h generalizing w with
  | done => rfl
  | lookUp _ ih | choose _ ih => exact ih _ _

/-- All sessions look as before. -/
theorem cells (h : Quiet user flow p) {env : Surroundings Storage τ} (hcache : env.cache = storageCache)
    (w : World Storage τ) (key : String) :
    ((p.run env w).2.sessions.cell key).Alike env.now (w.sessions.cell key) := by
  induction h generalizing w with
  | done => exact .refl _ _
  | choose _ ih => exact ih _ _
  | @lookUp next _ ih =>
    have hget : ((storageCache.get env.now user.sessionKey w.sessions).2.cell key).Alike env.now
        (w.sessions.cell key) := by
      rw [(get_actsOn env.now user.sessionKey w.sessions).2]
      split
      · rename_i hk
        rw [hk]
        exact .get_left _ _
      · exact .refl _ _
    refine .trans ?_ hget
    simp only [Procedure.run, hcache]
    exact ih _ _

end Quiet

/-! ### Engines that look alike -/

/-- The same time, dialogues and vault, and sessions that look alike. -/
structure Moment.LooksLike (m₁ m₂ : Moment Storage τ) : Prop where
  now : m₁.now = m₂.now
  flow : ∀ user, m₁.engine.flow user = m₂.engine.flow user
  vault : m₁.engine.world.vault = m₂.engine.world.vault
  cells : ∀ key, (m₁.engine.world.sessions.cell key).Alike m₁.now (m₂.engine.world.sessions.cell key)

namespace Moment.LooksLike

variable (settings : Settings) {env : Surroundings Storage τ} {m m₁ m₂ : Moment Storage τ}

theorem refl (m : Moment Storage τ) : m.LooksLike m := ⟨rfl, fun _ => rfl, rfl, fun _ => .refl _ _⟩

theorem trans {m₃ : Moment Storage τ} (h : m₁.LooksLike m₂) (h' : m₂.LooksLike m₃) : m₁.LooksLike m₃ where
  now := h.now.trans h'.now
  flow user := (h.flow user).trans (h'.flow user)
  vault := h.vault.trans h'.vault
  cells key := (h.cells key).trans (by rw [h.now]; exact h'.cells key)

/-- From now on the same sessions are found. -/
theorem session (h : m₁.LooksLike m₂) {t : Instant} (ht : m₁.now ≤ t) (user : UserId) :
    (storageCache.session? t user m₁.engine.world.sessions).1 =
      (storageCache.session? t user m₂.engine.world.sessions).1 := by
  have hcell := h.cells user.sessionKey
  rw [session?_cell, session?_cell, hcell.live t ht, Cell.answer_of_clear hcell.clear]

/-- What happens to both leaves them alike, and events are handled alike. -/
theorem next (hcache : env.cache = storageCache) (h : m₁.LooksLike m₂) (e : Happening) :
    (m₁.noted settings env e).map Handled.masked = (m₂.noted settings env e).map Handled.masked ∧
      (m₁.next settings env e).LooksLike (m₂.next settings env e) := by
  cases e with
  | wait span =>
    exact ⟨rfl, congrArg (Instant.advance · span) h.now, h.flow, h.vault,
      fun key => (h.cells key).later (Instant.le_advance m₁.now span)⟩
  | event user event =>
    obtain ⟨hhandled, hflow, hvault, hcells⟩ := Moment.event_lockstep settings hcache hcache rfl h.now
      (simulates_alike m₁.now) trivial h.flow h.vault h.cells user event
    exact ⟨congrArg (fun r => [r]) hhandled, h.now, hflow, hvault, hcells⟩

/-- After an inert event an engine looks as before. -/
theorem inert (hcache : env.cache = storageCache) {user : UserId} {event : Event}
    (h : Inert (m.engine.flow user) event) :
    (m.handled settings env user event).exchanges = [] ∧ (m.next settings env (.event user event)).LooksLike m := by
  have hquiet := respond_quiet settings user h
  have hexchanges : (m.handled settings env user event).exchanges = [] := hquiet.exchanges _ _
  have hcache : (env.at m.now).cache = storageCache := hcache
  refine ⟨hexchanges, rfl, fun other => ?_, ?_, hquiet.cells hcache m.engine.world⟩
  · show (Engine.handle ..).2.flow other = _
    rw [flow_handle, hquiet.next]
    split
    · rename_i ho
      rw [ho]
    · rfl
  · rw [Moment.vault_next, hexchanges]
    rfl

end Moment.LooksLike

/-! ### Courses without inert events -/

theorem Handled.flatMap_exchanges_of_masked {rs rs' : List Handled} (h : rs.map masked = rs'.map masked) :
    rs.flatMap exchanges = rs'.flatMap exchanges := by
  have hmasked : ∀ rs : List Handled, rs.flatMap exchanges = (rs.map masked).flatMap exchanges := fun rs => by
    rw [List.flatMap_map]
    rfl
  rw [hmasked rs, hmasked rs', h]

/-- A happening of a course, or an event that the engine may be spared. -/
inductive Marked where
  | kept (h : Happening)
  | spared (user : UserId) (event : Event)

namespace Marked

def happening : Marked → Happening
  | .kept h => h
  | .spared user event => .event user event

def kept? : Marked → Option Happening
  | .kept h => some h
  | .spared .. => none

end Marked

namespace Moment

variable (settings : Settings) (env : Surroundings σ τ)

/-- In the course as a whole, every event that may be spared is inert in the dialogue that it meets. -/
def SparesInert : Moment σ τ → List Marked → Prop
  | _, [] => True
  | m, .kept h :: course => (m.next settings env h).SparesInert course
  | m, .spared user event :: course =>
    Inert (m.engine.flow user) event ∧ (m.next settings env (.event user event)).SparesInert course

/-- In the course as a whole, what is handled of the events that are kept. -/
def retained : Moment σ τ → List Marked → List Handled
  | _, [] => []
  | m, .kept h :: course => m.noted settings env h ++ (m.next settings env h).retained course
  | m, .spared user event :: course => (m.next settings env (.event user event)).retained course

variable {settings env}

theorem SparesInert.of_append {m : Moment σ τ} {before course : List Marked}
    (h : m.SparesInert settings env (before ++ course)) : m.SparesInert settings env before := by
  induction before generalizing m with
  | nil => trivial
  | cons e before ih =>
    cases e with
    | kept => exact ih h
    | spared => exact ⟨h.1, ih h.2⟩

/-- Events that may be spared ask nothing of the vault. -/
theorem flatMap_exchanges_retained {env : Surroundings Storage τ} (hcache : env.cache = storageCache)
    {m : Moment Storage τ} {course : List Marked} (hinert : m.SparesInert settings env course) :
    (m.history settings env (course.map Marked.happening)).flatMap Handled.exchanges =
      (m.retained settings env course).flatMap Handled.exchanges := by
  induction course generalizing m with
  | nil => rfl
  | cons e course ih =>
    rw [List.map_cons, history, List.flatMap_append]
    cases e with
    | kept e =>
      have hrest := ih hinert
      rw [retained, List.flatMap_append, ← hrest]
      rfl
    | spared user event =>
      obtain ⟨hinert, hcourse⟩ := hinert
      obtain ⟨hnone, -⟩ := LooksLike.inert settings hcache hinert
      have hrest := ih hcourse
      rw [retained, ← hrest]
      show (m.handled settings env user event).exchanges ++ [] ++ _ = _
      rw [hnone]
      rfl

/-- An engine that is spared its inert events handles the others like one that looks alike, and goes on to do so. -/
theorem LooksLike.spare {env : Surroundings Storage τ} (hcache : env.cache = storageCache) {m₁ m₂ : Moment Storage τ}
    (h : m₁.LooksLike m₂) {course : List Marked} (hinert : m₁.SparesInert settings env course) :
    (m₁.retained settings env course).map Handled.masked =
        (m₂.history settings env (course.filterMap Marked.kept?)).map Handled.masked ∧
      (m₁.after settings env (course.map Marked.happening)).LooksLike
        (m₂.after settings env (course.filterMap Marked.kept?)) := by
  induction course generalizing m₁ m₂ with
  | nil => exact ⟨rfl, h⟩
  | cons e course ih =>
    cases e with
    | kept e =>
      obtain ⟨hnoted, hnext⟩ := h.next settings hcache e
      obtain ⟨hretained, hafter⟩ := ih hnext hinert
      refine ⟨?_, hafter⟩
      show (m₁.noted settings env e ++ _).map Handled.masked = (m₂.noted settings env e ++ _).map Handled.masked
      rw [List.map_append, List.map_append, hnoted, hretained]
    | spared user event =>
      obtain ⟨hinert, hcourse⟩ := hinert
      obtain ⟨-, hsame⟩ := LooksLike.inert settings hcache hinert
      exact ih (hsame.trans h) hcourse

end Moment

/-- An engine lives through a course, and through what is left of it without some events that are inert where they
occur.  It handles the events that are left alike, asks the vault the same, and after every part of the course it is
in the same dialogues and finds the same sessions from then on. -/
theorem traceless {settings : Settings} {env : Surroundings Storage τ} (hcache : env.cache = storageCache)
    (m : Moment Storage τ) (course : List Marked) (hinert : m.SparesInert settings env course) :
    (m.retained settings env course).map Handled.masked =
        (m.history settings env (course.filterMap Marked.kept?)).map Handled.masked ∧
      (m.history settings env (course.map Marked.happening)).flatMap Handled.exchanges =
        (m.history settings env (course.filterMap Marked.kept?)).flatMap Handled.exchanges ∧
      ∀ before rest, course = before ++ rest →
        let whole := m.after settings env (before.map Marked.happening)
        let left := m.after settings env (before.filterMap Marked.kept?)
        whole.now = left.now ∧ (∀ user, whole.engine.flow user = left.engine.flow user) ∧
          ∀ user t, whole.now ≤ t → (storageCache.session? t user whole.engine.world.sessions).1 =
            (storageCache.session? t user left.engine.world.sessions).1 := by
  obtain ⟨hretained, -⟩ := (Moment.LooksLike.refl m).spare hcache hinert
  refine ⟨hretained, ?_, ?_⟩
  · rw [Moment.flatMap_exchanges_retained hcache hinert]
    exact Handled.flatMap_exchanges_of_masked hretained
  rintro before rest rfl
  obtain ⟨-, halike⟩ := (Moment.LooksLike.refl m).spare hcache hinert.of_append
  exact ⟨halike.now, halike.flow, fun user t ht => halike.session ht user⟩

/-- Spared text drops an expired session from memory, but nobody can tell. -/
theorem traceless_expired :
    let settings : Settings := ⟨⟨60000000000⟩, .never, 16⟩
    let env := Surroundings.plain storageCache (.granting ⟨"token"⟩)
    let m : Moment Storage Unit := ⟨⟨0, by decide⟩, .start ⟨.memory ∅, (), 0⟩⟩
    let course : List Marked := [.kept (.event ⟨5⟩ (.command .start)), .spared ⟨5⟩ (.text "key"),
      .spared ⟨5⟩ (.command (.generate "12")), .kept (.event ⟨5⟩ (.text "key 123456")),
      .kept (.event ⟨5⟩ (.command .list)), .kept (.wait ⟨60000000000⟩), .spared ⟨5⟩ (.text "hello"),
      .spared ⟨5⟩ (.command (.showEntry "one"))]
    let whole := m.after settings env (course.map Marked.happening)
    let left := m.after settings env (course.filterMap Marked.kept?)
    m.SparesInert settings env course ∧
      (m.history settings env (course.map Marked.happening)).flatMap Handled.exchanges =
        (m.history settings env (course.filterMap Marked.kept?)).flatMap Handled.exchanges ∧
      (m.history settings env (course.filterMap Marked.kept?)).length = 3 ∧
      whole.engine.world.sessions.cell "session:5" = .memory none ∧
      left.engine.world.sessions.cell "session:5" ≠ .memory none ∧
      (storageCache.session? whole.now ⟨5⟩ whole.engine.world.sessions).1 =
        (storageCache.session? whole.now ⟨5⟩ left.engine.world.sessions).1 := by
  intro settings env m course whole left
  have hone : ∀ id, ¬ IsId "one" id := fun id hid => by
    have hnone : parseId "one" = none := by decide
    rw [parseId_eq_some_iff.2 hid] at hnone
    cases hnone
  have hinert : m.SparesInert settings env course :=
    ⟨.credentials (by decide +kernel) rfl (by decide), .generate _, .unmatched (by decide +kernel) rfl,
      .showEntry hone, trivial⟩
  obtain ⟨-, hexchanges, hseen⟩ := @traceless Unit settings env rfl m course hinert
  obtain ⟨-, -, hsession⟩ := hseen course [] (List.append_nil course).symm
  exact ⟨hinert, hexchanges, rfl, by decide, by decide, hsession ⟨5⟩ whole.now (Int.le_refl _)⟩

end Engine

end VaultChat
