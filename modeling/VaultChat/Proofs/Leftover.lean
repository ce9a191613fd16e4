import VaultChat.Proofs.Course
import VaultChat.Proofs.Exclusion
import VaultChat.Session.Storage

/-!
# Slots that are left over

A call that has committed an idle step removes its slot unless another call has a handle on it, and leaves this to the
others in that case.  They do so as long as all of them have events that they have yet to commit (`TimelyAt`), as is
the case where calls with events leave as soon as they have committed: then nobody keeps a slot who is not in a
dialogue (`isSome_slot_iff`, `isSome_slot_iff_of_unbroken`).  A call that only looks at the dialogue removes nothing,
nor does one that has made its test already, and where these are the others an idle slot is left over
(`leftover_of_reader`, `leftover_of_tests`).
-/

namespace VaultChat.Engine

open Chat

variable {σ τ : Type}

/-- The call has a handle and has yet to commit. -/
def Phase.isPending : Phase → Bool
  | .holding _ | .queued _ | .working .. => true
  | .arriving | .committed .. | .leaving .. | .finished _ | .seen _ => false

/-- The call has committed and has yet to leave. -/
def Phase.isClosing : Phase → Bool
  | .committed .. | .leaving .. => true
  | .arriving | .holding _ | .queued _ | .working .. | .finished _ | .seen _ => false

namespace Slots

/-- Call `i` has an event and a handle on the slot, which it is not about to give back. -/
def Attends (m : Slots σ τ) (s i : Nat) : Prop :=
  ∃ c, m.calls.find? i = some c ∧ c.event ≠ none ∧ c.phase.handle? = some s ∧ ∀ reply, c.phase ≠ .leaving s reply

/-- Where the map has an idle slot, a call attends to it. -/
structure Tended (m : Slots σ τ) : Prop where
  working : ∀ i c s p, m.calls.find? i = some c → c.phase = .working s p → c.event ≠ none
  idle : ∀ user s x, m.users.find? user = some s → m.slots.find? s = some x → x.flow = .idle → ∃ i, m.Attends s i

/-- If call `i` is about to test whether its slot can be removed, all other calls with a handle on the slot have
events that they have yet to commit. -/
def TimelyAt (m : Slots σ τ) (i : Nat) : Prop :=
  ∀ c s reply, m.calls.find? i = some c → c.phase = .committed s reply →
    ∀ j d, j ≠ i → m.calls.find? j = some d → d.phase.handle? = some s → d.event ≠ none ∧ d.phase.isPending = true

/-- Every test on the schedule is timely. -/
def Timely (settings : Settings) : Slots σ τ → List (Surroundings σ τ × Nat) → Prop
  | _, [] => True
  | m, (env, i) :: schedule =>
    match m.step settings env i with
    | some m' => m.TimelyAt i ∧ m'.Timely settings schedule
    | none => m.Timely settings schedule

section

variable {settings : Settings} {env : Surroundings σ τ} {m m' : Slots σ τ} {i j s k : Nat} {c : InFlight}
  {x x' : Slot} {p : Phase} {past : List (UserId × Flow)}

theorem Attends.of_ne (h : m.Attends k j)
    (hcalls : ∀ j, m'.calls.find? j = if j = i then some { c with phase := p } else m.calls.find? j) (hj : j ≠ i) :
    m'.Attends k j := by
  obtain ⟨d, hd, hrest⟩ := h
  exact ⟨d, by rw [hcalls, if_neg hj, hd], hrest⟩

private theorem Tended.working_next (h : m.Tended)
    (hcalls : ∀ j, m'.calls.find? j = if j = i then some { c with phase := p } else m.calls.find? j)
    (hp : ∀ s q, p = .working s q → c.event ≠ none) (j : Nat) (d : InFlight) (s : Nat) (q : Procedure Transition)
    (hd : m'.calls.find? j = some d) (hq : d.phase = .working s q) : d.event ≠ none := by
  rw [hcalls] at hd
  split at hd
  · cases hd
    exact hp s q hq
  · exact h.working j d s q hd hq

/-- A call that cannot remove the idle slot of its user is not alone with it. -/
theorem Guarded.exists_other (h : m.Guarded past) (hc : m.calls.find? i = some c) {reply : Reply}
    (hp : c.phase = .committed s reply) (hs : m.slots.find? s = some x) (hidle : x.flow = .idle)
    (hkept : m.releasable c.user s = false) :
    ∃ j d, j ≠ i ∧ m.calls.find? j = some d ∧ d.phase.handle? = some s := by
  have hu : m.users.find? c.user = some s := by
    refine (h.home i c s hc (by rw [hp]; rfl)).resolve_left ?_
    rw [hp]
    nofun
  have hphase := phase_of_call hc
  have hhandle : c.phase.handle? = some s := by rw [hp]; rfl
  suffices ∃ j q, j ≠ i ∧ m.phase j = some q ∧ q.handle? = some s by
    obtain ⟨j, q, hj, hq, hs⟩ := this
    obtain ⟨d, hd, rfl⟩ := Option.map_eq_some_iff.1 hq
    exact ⟨j, d, hj, hd, hs⟩
  by_cases hone : x.handles = 1
  · cases hh : x.holder with
    | none =>
      rw [releasable, hu, hs] at hkept
      simp [hone, hh, hidle] at hkept
    | some j =>
      obtain ⟨q, hq, hline⟩ := (h.tallies s x hs).line?_of_holder hh
      refine ⟨j, q, ?_, hq, Phase.handle?_of_line? hline⟩
      rintro rfl
      rw [hphase, Option.some.injEq] at hq
      rw [← hq, hp] at hline
      cases hline
  · exact (h.tallies s x hs).exists_ne_of_handles hone hphase hhandle

/-- What a call does to its slot, if its test is timely. -/
private theorem Tended.act (h : m.Tended) (hg : m.Guarded past) (htimely : m.TimelyAt i)
    (hc : m.calls.find? i = some c) (hs : m.slots.find? s = some x) (hact : Act settings i c s x p x')
    (hkept : ∀ reply, c.phase = .committed s reply → m.releasable c.user s = false)
    (hm : Changes m m' i { c with phase := p } s x') (husers : m'.users = m.users) : m'.Tended where
  working := by
    refine h.working_next hm.calls fun r q hq => ?_
    cases hact with
    | begin _ _ he => simp [he]
    | advance hp => exact h.working i c s _ hc hp
    | commit => split at hq <;> cases hq
    | take | ask | look | keep | leave => cases hq
  idle user k y hu hy hidle := by
    rw [husers] at hu
    rw [hm.slots] at hy
    by_cases hk : k = s
    · subst hk
      rw [if_pos rfl, Option.some.injEq] at hy
      subst hy
      -- Whoever attended to the slot goes on to, but for the acting call perhaps.
      have keep : x.flow = .idle → (c.event ≠ none → c.phase.handle? = some k →
          (∀ reply, c.phase ≠ .leaving k reply) → p.handle? = some k ∧ ∀ reply, p ≠ .leaving k reply) →
          ∃ j, m'.Attends k j := by
        intro hx hi
        obtain ⟨j, hj⟩ := h.idle user k x hu hs hx
        by_cases hji : j = i
        · subst hji
          obtain ⟨d, hd, he, hhandle, hstays⟩ := hj
          cases hc.symm.trans hd
          exact ⟨j, _, hm.call, he, hi he hhandle hstays⟩
        · exact ⟨j, hj.of_ne hm.calls hji⟩
      cases hact with
      | take | begin | advance => exact keep hidle fun _ _ _ => ⟨rfl, by simp⟩
      | ask =>
        have hx : x.flow = .idle := by
          rw [← hidle, Slot.ask]
          split <;> rfl
        exact keep hx fun _ _ _ => ⟨rfl, by simp⟩
      | look _ _ he => exact keep hidle fun hevent => absurd he hevent
      | leave hp => exact keep hidle fun _ _ hstays => absurd hp (hstays _)
      | @commit t hp =>
        have hnext : t.next = .idle := hidle
        refine ⟨i, _, hm.call, h.working i c k _ hc hp, ?_⟩
        simp only [hnext, if_true]
        exact ⟨rfl, by simp⟩
      | keep hp =>
        obtain ⟨j, d, hji, hd, hhandle⟩ := hg.exists_other hc hp hs hidle (hkept _ hp)
        obtain ⟨he, hpending⟩ := htimely c k _ hc hp j d hji hd hhandle
        refine ⟨j, d, by rw [hm.calls, if_neg hji, hd], he, hhandle, fun reply hl => ?_⟩
        rw [hl] at hpending
        cases hpending
    · rw [if_neg hk] at hy
      obtain ⟨j, hj⟩ := h.idle user k y hu hy hidle
      refine ⟨j, hj.of_ne hm.calls ?_⟩
      rintro rfl
      obtain ⟨d, hd, -, hhandle, -⟩ := hj
      cases hc.symm.trans hd
      exact hk (hact.handle_before hhandle)

/-- Every step keeps the slots tended, if its test is timely. -/
theorem Tended.step (h : m.Tended) (hg : m.Guarded past) (htimely : m.TimelyAt i)
    (hstep : m.step settings env i = some m') : m'.Tended := by
  obtain ⟨c, hc⟩ := exists_call_of_step hstep
  -- The slot of another user is attended to by another call.
  have others : ∀ {k d}, m.Attends k d → (c.phase.handle? ≠ some k) → d ≠ i := by
    rintro k _ ⟨d, hd, -, hhandle, -⟩ hne rfl
    cases hc.symm.trans hd
    exact hne hhandle
  cases hg.step_cases hc hstep with
  | act hs _ hact hkept hm husers => exact h.act hg htimely hc hs hact hkept hm husers
  | create hp he hu hm husers =>
    refine ⟨h.working_next hm.calls nofun, fun user k y hk hy hidle => ?_⟩
    rw [husers, KeyMap.find?_insert] at hk
    split at hk
    · cases hk
      exact ⟨i, _, hm.call, he, rfl, nofun⟩
    · have hlt := hg.users user k hk
      rw [hm.slots, if_neg (Nat.ne_of_lt hlt)] at hy
      obtain ⟨j, hj⟩ := h.idle user k y hk hy hidle
      exact ⟨j, hj.of_ne hm.calls (others hj (by rw [hp]; nofun))⟩
  | miss hp hu hm =>
    subst hm
    have hcalls : ∀ j, (m.setPhase i c (.seen .idle)).calls.find? j = _ := fun j => find?_calls_setPhase ..
    refine ⟨h.working_next hcalls nofun, fun user k y hk hy hidle => ?_⟩
    obtain ⟨j, hj⟩ := h.idle user k y hk hy hidle
    exact ⟨j, hj.of_ne hcalls (others hj (by rw [hp]; nofun))⟩
  | @remove r y reply hp hu hs _ _ _ hm husers =>
    refine ⟨h.working_next hm.calls nofun, fun user k y hk hy hidle => ?_⟩
    rw [husers, KeyMap.find?_erase] at hk
    split at hk
    · cases hk
    · rename_i huser
      have hkr : k ≠ r := fun hkr => huser (hg.injective user c.user k hk (hkr ▸ hu))
      rw [hm.slots, if_neg hkr] at hy
      obtain ⟨j, hj⟩ := h.idle user k y hk hy hidle
      refine ⟨j, hj.of_ne hm.calls (others hj ?_)⟩
      rw [hp]
      exact fun hrk => hkr (Option.some.inj hrk).symm

theorem Tended.follow {schedule : List (Surroundings σ τ × Nat)} (h : m.Tended) (hg : m.Guarded past)
    (htimely : m.Timely settings schedule) : (m.follow settings schedule).Tended := by
  induction schedule generalizing m past with
  | nil => exact h
  | cons e schedule ih =>
    obtain ⟨env, i⟩ := e
    rw [Timely] at htimely
    rw [Slots.follow]
    cases hstep : m.step settings env i with
    | none =>
      rw [hstep] at htimely
      exact ih h hg htimely
    | some m' =>
      rw [hstep] at htimely
      exact ih (h.step hg htimely.1 hstep) (hg.step hstep) htimely.2

theorem tended_opening (w : World σ τ) (calls : List (UserId × Option Event)) : (opening w calls).Tended where
  working i c s p hc hp := by
    rw [arriving_of_opening hc] at hp
    cases hp
  idle := nofun

end

/-- If every test is timely, then once no call has a handle exactly the users in a dialogue have a slot. -/
theorem isSome_slot_iff (settings : Settings) (w : World σ τ) (calls : List (UserId × Option Event))
    (schedule : List (Surroundings σ τ × Nat)) (htimely : (opening w calls).Timely settings schedule)
    (hover : ∀ i c, ((opening w calls).follow settings schedule).calls.find? i = some c → c.phase.handle? = none)
    (user : UserId) : (((opening w calls).follow settings schedule).users.find? user).isSome = true ↔
      ((opening w calls).follow settings schedule).flow user ≠ .idle := by
  have hg := guarded_follow settings w calls schedule
  have htended := (tended_opening w calls).follow (guarded_opening w calls) htimely
  generalize (opening w calls).follow settings schedule = m at hg htended hover
  cases hu : m.users.find? user with
  | none => exact ⟨nofun, fun hflow => absurd (flow_of_none hu) hflow⟩
  | some s =>
    obtain ⟨x, hs⟩ := (hg.slots s).2 (hg.users user s hu)
    refine ⟨fun _ hidle => ?_, fun _ => rfl⟩
    rw [flow_of_slot hu hs] at hidle
    obtain ⟨i, c, hc, -, hhandle, -⟩ := htended.idle user s x hu hs hidle
    rw [hover i c hc] at hhandle
    cases hhandle

/-! ### Calls that leave at once -/

/-- Whenever a call has committed, it is the one to move until it has left. -/
def Unbroken (settings : Settings) : Slots σ τ → List (Surroundings σ τ × Nat) → Prop
  | _, [] => True
  | m, (env, i) :: schedule =>
    (∀ j c, m.calls.find? j = some c → c.phase.isClosing = true → j = i) ∧
      match m.step settings env i with
      | some m' => m'.Unbroken settings schedule
      | none => m.Unbroken settings schedule

/-- A step leaves every call its event. -/
theorem Guarded.event_next {settings : Settings} {env : Surroundings σ τ} {m m' : Slots σ τ} {i j : Nat}
    {past : List (UserId × Flow)} {d : InFlight} (h : m.Guarded past) (hstep : m.step settings env i = some m')
    (hd : m'.calls.find? j = some d) : ∃ c, m.calls.find? j = some c ∧ c.event = d.event := by
  obtain ⟨c, hc⟩ := exists_call_of_step hstep
  obtain ⟨p, hcalls⟩ : ∃ p, ∀ j,
      m'.calls.find? j = if j = i then some { c with phase := p } else m.calls.find? j := by
    cases h.step_cases hc hstep with
    | act _ _ _ _ hm | create _ _ _ hm | remove _ _ _ _ _ _ hm => exact ⟨_, hm.calls⟩
    | miss _ _ hm => exact ⟨_, fun j => by rw [hm]; exact find?_calls_setPhase ..⟩
  rw [hcalls] at hd
  split at hd
  · rename_i hj
    cases hd
    exact ⟨c, by rw [hj, hc], rfl⟩
  · exact ⟨d, hd, rfl⟩

/-- Where all calls have events and leave at once, every test is timely. -/
theorem Unbroken.timely {settings : Settings} {m : Slots σ τ} {past : List (UserId × Flow)}
    {schedule : List (Surroundings σ τ × Nat)} (hg : m.Guarded past)
    (hevents : ∀ i c, m.calls.find? i = some c → c.event ≠ none) (h : m.Unbroken settings schedule) :
    m.Timely settings schedule := by
  induction schedule generalizing m past with
  | nil => trivial
  | cons e schedule ih =>
    obtain ⟨env, i⟩ := e
    obtain ⟨hfirst, hrest⟩ := h
    rw [Timely]
    cases hstep : m.step settings env i with
    | none =>
      rw [hstep] at hrest
      exact ih hg hevents hrest
    | some m' =>
      rw [hstep] at hrest
      refine ⟨fun c s reply _ _ j d hj hd hhandle => ⟨hevents j d hd, ?_⟩,
        ih (hg.step hstep) (fun j d hd => ?_) hrest⟩
      · have hopen : d.phase.isClosing ≠ true := fun hclosing => hj (hfirst j d hd hclosing)
        cases hp : d.phase with
        | holding | queued | working => rfl
        | committed | leaving =>
          rw [hp] at hopen
          exact absurd rfl hopen
        | arriving | finished | seen =>
          rw [hp] at hhandle
          cases hhandle
      · obtain ⟨c, hc, he⟩ := hg.event_next hstep hd
        rw [← he]
        exact hevents j c hc

/-- If all calls have events and leave as soon as they have committed, then once no call has a handle exactly the
users in a dialogue have a slot. -/
theorem isSome_slot_iff_of_unbroken (settings : Settings) (w : World σ τ) (calls : List (UserId × Option Event))
    (hevents : ∀ e ∈ calls, e.2 ≠ none) (schedule : List (Surroundings σ τ × Nat))
    (hunbroken : (opening w calls).Unbroken settings schedule)
    (hover : ∀ i c, ((opening w calls).follow settings schedule).calls.find? i = some c → c.phase.handle? = none)
    (user : UserId) : (((opening w calls).follow settings schedule).users.find? user).isSome = true ↔
      ((opening w calls).follow settings schedule).flow user ≠ .idle := by
  refine isSome_slot_iff settings w calls schedule (hunbroken.timely (guarded_opening w calls) fun i c hc => ?_) hover
    user
  obtain ⟨e, he, rfl⟩ := call_of_opening hc
  exact hevents e he

/-! ### Slots that are left over -/

/-- A call that looks at the dialogue while another one tests the slot: both are over, and the idle user
has a slot. -/
theorem leftover_of_reader :
    let env := Surroundings.plain Session.storageCache (.granting ⟨"token"⟩)
    let calls : List (UserId × Option Event) := [(⟨1⟩, some (.command .help)), (⟨1⟩, none)]
    let m := (opening (⟨.memory ∅, (), 0⟩ : World Session.Storage Unit) calls).follow ⟨⟨60⟩, .never, 16⟩
      ([0, 1, 0, 0, 0, 0, 0, 1, 1].map fun i => (env, i))
    m.phase 0 = some (.finished (.plain Wording.help)) ∧ m.phase 1 = some (.seen .idle) ∧
      m.users.find? ⟨1⟩ = some 0 ∧ m.flow ⟨1⟩ = .idle :=
  ⟨rfl, rfl, rfl, rfl⟩

/-- Two calls that have both committed when either tests the slot. -/
theorem leftover_of_tests :
    let env := Surroundings.plain Session.storageCache (.granting ⟨"token"⟩)
    let calls : List (UserId × Option Event) := [(⟨1⟩, some (.command .help)), (⟨1⟩, some (.command .help))]
    let m := (opening (⟨.memory ∅, (), 0⟩ : World Session.Storage Unit) calls).follow ⟨⟨60⟩, .never, 16⟩
      ([0, 1, 0, 0, 0, 1, 1, 1, 0, 1, 0, 1].map fun i => (env, i))
    m.phase 0 = some (.finished (.plain Wording.help)) ∧ m.phase 1 = some (.finished (.plain Wording.help)) ∧
      m.users.find? ⟨1⟩ = some 0 ∧ m.flow ⟨1⟩ = .idle :=
  ⟨rfl, rfl, rfl, rfl⟩

end Slots

end VaultChat.Engine
