import VaultChat.Proofs.Alone
import VaultChat.Proofs.Interleaving

/-!
# How a user's calls stand

While events are handled at once, the calls of one user are finished, in line for the user's slot, or yet to arrive,
in this order.  `Standing` says so, together with what the user's slot and session are after the finished calls.  It
speaks of what belongs to the user alone, so that only moves of the user's own calls matter, and each of these keeps
it (`Standing.enter`, `Standing.create`, `Standing.begin`, `Standing.advance`, `Standing.finish`).
-/

namespace VaultChat.Engine

open Chat Session

/-- Events to be handled at once, and what they meet. -/
structure Occasion where
  settings : Settings
  now : Instant
  answers : (c : Vault.Call) → c.Answer
  start : UserId → Personal
  events : List (UserId × Event)

/-- What belongs to one user: the slot with its number, the calls and the session. -/
structure View where
  slot : Option (Nat × Slot)
  phase : Nat → Option Phase
  cell : Cell

/-- The phases with that of one call changed. -/
def changePhase (phase : Nat → Option Phase) (i : Nat) (p : Phase) : Nat → Option Phase :=
  fun j => if j = i then some p else phase j

theorem changePhase_self {phase : Nat → Option Phase} {i : Nat} {p : Phase} : changePhase phase i p i = some p :=
  if_pos rfl

theorem changePhase_of_ne {phase : Nat → Option Phase} {i j : Nat} {p : Phase} (h : j ≠ i) :
    changePhase phase i p j = phase j := if_neg h

namespace Occasion

variable (g : Occasion)

/-- A user after those of the first `n` events that are the user's own. -/
def personal (user : UserId) (n : Nat) : Personal :=
  (g.start user).after g.settings g.now g.answers user (g.events.take n)

/-- How a user responds to event `i`. -/
def response (user : UserId) (i : Nat) (event : Event) : Alone Transition :=
  (g.personal user i).respond g.settings g.now g.answers user event

/-- The user's calls before `n` are finished, those in `line` have arrived, and all others are yet to arrive. -/
structure Placed (user : UserId) (n : Nat) (line : List Nat) (phase : Nat → Option Phase) : Prop where
  sorted : line.Pairwise (· < ·)
  own : ∀ i ∈ line, n ≤ i ∧ ∃ event, g.events[i]? = some (user, event)
  finished : ∀ i event, g.events[i]? = some (user, event) → i < n → ∃ reply, phase i = some (.finished reply) ∧
    reply.masked event = (g.response user i event).result.reply.masked event
  arriving : ∀ i event, g.events[i]? = some (user, event) → n ≤ i → i ∉ line →
    phase i = some .arriving ∧ ∀ j ∈ line, j < i

/-- How the calls of a user stand. -/
inductive Standing (user : UserId) : View → Prop where
  /-- The user is idle and has no slot. -/
  | away {phase n} (hp : g.Placed user n [] phase) (hidle : (g.personal user n).flow = .idle) :
      Standing user ⟨none, phase, (g.personal user n).cell⟩
  /-- The user is in a dialogue, and no call is in line. -/
  | talking {phase n s} (hp : g.Placed user n [] phase) (htalk : (g.personal user n).flow ≠ .idle) :
      Standing user ⟨some (s, ⟨(g.personal user n).flow, none, [], 0⟩), phase, (g.personal user n).cell⟩
  /-- The first call in line has the lock. -/
  | granted {phase n s i rest} (hp : g.Placed user n (i :: rest) phase) (hi : phase i = some (.queued s))
      (hrest : ∀ j ∈ rest, phase j = some (.queued s)) :
      Standing user ⟨some (s, ⟨(g.personal user n).flow, some i, rest, rest.length + 1⟩), phase,
        (g.personal user n).cell⟩
  /-- The first call in line has the lock and works. -/
  | working {phase n s i rest p event flow flow' stage cell} (hp : g.Placed user n (i :: rest) phase)
      (hi : phase i = some (.working s p)) (hrest : ∀ j ∈ rest, phase j = some (.queued s))
      (he : g.events[i]? = some (user, event)) (hc : Conduct g.settings user flow' event stage p)
      (hown : ((p.alone g.now g.answers cell).masked event).result = ((g.response user i event).masked event).result ∧
        (p.alone g.now g.answers cell).cell = (g.response user i event).cell) :
      Standing user ⟨some (s, ⟨flow, some i, rest, rest.length + 1⟩), phase, cell⟩

variable {g} {user : UserId}

/-! ### Users after their events -/

theorem personal_of_none {a b : Nat} (hab : a ≤ b)
    (h : ∀ i event, g.events[i]? = some (user, event) → a ≤ i → ¬ i < b) : g.personal user b = g.personal user a := by
  induction b with
  | zero => rw [Nat.le_zero.1 hab]
  | succ b ih =>
    rcases Nat.lt_or_ge b a with hlt | hge
    · rw [Nat.le_antisymm hab hlt]
    · rw [← ih hge fun i event he ha hb => h i event he ha (Nat.lt_succ_of_lt hb)]
      rw [personal, personal, List.take_add_one, Personal.after, List.filter_append]
      cases he : g.events[b]? with
      | none => simp [Personal.after]
      | some e =>
        -- Event `b` belongs to somebody else, so the user does not notice it.
        have hu : e.1 ≠ user := by
          rintro rfl
          exact h b e.2 he hge (Nat.lt_succ_self b)
        simp [Personal.after, hu]

theorem personal_succ {i : Nat} {event : Event} (he : g.events[i]? = some (user, event)) :
    g.personal user (i + 1) = ⟨(g.response user i event).result.next, (g.response user i event).cell⟩ := by
  rw [personal, List.take_add_one, he, Personal.after, List.filter_append, List.foldl_append]
  simp [Personal.after, personal, response, Personal.next]

/-! ### Calls in line -/

namespace Placed

variable {n i : Nat} {line rest : List Nat} {phase : Nat → Option Phase} {p : Phase}

theorem rest_lt (h : g.Placed user n (i :: rest) phase) {j : Nat} (hj : j ∈ rest) : i < j :=
  List.rel_of_pairwise_cons h.sorted hj

theorem personal_head (h : g.Placed user n (i :: rest) phase) : g.personal user i = g.personal user n := by
  refine personal_of_none (h.own i List.mem_cons_self).1 fun j event he hn hj => ?_
  have hmem : j ∉ i :: rest := by
    rintro hmem
    rcases List.mem_cons.1 hmem with rfl | hmem
    · exact Nat.lt_irrefl j hj
    · exact Nat.lt_asymm hj (h.rest_lt hmem)
  exact Nat.lt_asymm hj ((h.arriving j event he hn hmem).2 i List.mem_cons_self)

theorem phase_of_not_mem (h : g.Placed user n line phase) {event : Event} (he : g.events[i]? = some (user, event))
    (hi : i ∉ line) : phase i = some .arriving ∨ ∃ reply, phase i = some (.finished reply) := by
  rcases Nat.lt_or_ge i n with hlt | hge
  · obtain ⟨reply, hreply, -⟩ := h.finished i event he hlt
    exact .inr ⟨reply, hreply⟩
  · exact .inl (h.arriving i event he hge hi).1

/-- A call in line does something. -/
theorem change (h : g.Placed user n line phase) (hi : i ∈ line) : g.Placed user n line (changePhase phase i p) where
  sorted := h.sorted
  own := h.own
  finished j event he hj := by
    have hne : j ≠ i := fun hji => Nat.not_le.2 hj (hji ▸ (h.own i hi).1)
    rw [changePhase_of_ne hne]
    exact h.finished j event he hj
  arriving j event he hn hj := by
    have hne : j ≠ i := fun hji => hj (hji ▸ hi)
    rw [changePhase_of_ne hne]
    exact h.arriving j event he hn hj

/-- The next call arrives. -/
theorem arrive (h : g.Placed user n line phase) {event : Event} (he : g.events[i]? = some (user, event))
    (hi : phase i = some .arriving) (hline : i ∉ line)
    (ho : ∀ j < i, ∀ event, g.events[j]? = some (user, event) → phase j ≠ some .arriving) :
    g.Placed user n (line ++ [i]) (changePhase phase i p) := by
  have hn : n ≤ i := by
    by_cases hlt : i < n
    · obtain ⟨reply, hr, -⟩ := h.finished i event he hlt
      rw [hi] at hr
      cases hr
    · exact Nat.not_lt.1 hlt
  have hlt := (h.arriving i event he hn hline).2
  refine ⟨List.pairwise_append.2 ⟨h.sorted, List.pairwise_singleton _ _, ?_⟩, ?_, ?_, ?_⟩
  · intro j hj k hk
    rw [List.mem_singleton.1 hk]
    exact hlt j hj
  · intro j hj
    rcases List.mem_append.1 hj with hj | hj
    · exact h.own j hj
    · rw [List.mem_singleton.1 hj]
      exact ⟨hn, event, he⟩
  · intro j event' he' hj
    rw [changePhase_of_ne (Nat.ne_of_lt (Nat.lt_of_lt_of_le hj hn))]
    exact h.finished j event' he' hj
  · intro j event' he' hnj hj
    have hne : j ≠ i := fun hji => hj (by simp [hji])
    have hjline : j ∉ line := fun hmem => hj (List.mem_append_left _ hmem)
    obtain ⟨hphase, hlt'⟩ := h.arriving j event' he' hnj hjline
    rw [changePhase_of_ne hne]
    refine ⟨hphase, fun k hk => ?_⟩
    rcases List.mem_append.1 hk with hk | hk
    · exact hlt' k hk
    · rw [List.mem_singleton.1 hk]
      rcases Nat.lt_or_gt_of_ne hne with hlt | hgt
      · exact absurd hphase (ho j hlt event' he')
      · exact hgt

/-- The first call in line is finished. -/
theorem finish (h : g.Placed user n (i :: rest) phase) {event : Event} (he : g.events[i]? = some (user, event))
    {reply : Reply} (hreply : reply.masked event = (g.response user i event).result.reply.masked event) :
    g.Placed user (i + 1) rest (changePhase phase i (.finished reply)) where
  sorted := h.sorted.of_cons
  own j hj := ⟨h.rest_lt hj, (h.own j (List.mem_cons_of_mem _ hj)).2⟩
  finished j event' he' hj := by
    by_cases hji : j = i
    · subst hji
      rw [he] at he'
      cases he'
      exact ⟨reply, changePhase_self, hreply⟩
    · rw [changePhase_of_ne hji]
      -- Between `n` and `i` the user has no event, since call `i` was the first in line.
      refine h.finished j event' he' (Nat.not_le.1 fun hn => ?_)
      have hmem : j ∉ i :: rest := by
        rintro hmem
        rcases List.mem_cons.1 hmem with rfl | hmem
        · exact hji rfl
        · have := h.rest_lt hmem
          omega
      have := (h.arriving j event' he' hn hmem).2 i List.mem_cons_self
      omega
  arriving j event' he' hj hmem := by
    have hji : j ≠ i := by omega
    have hn := (h.own i List.mem_cons_self).1
    have hmem' : j ∉ i :: rest := fun hm => (List.mem_cons.1 hm).elim hji hmem
    obtain ⟨hphase, hlt⟩ := h.arriving j event' he' (by omega) hmem'
    rw [changePhase_of_ne hji]
    exact ⟨hphase, fun k hk => hlt k (List.mem_cons_of_mem _ hk)⟩

/-- No call is in line, and none is yet to arrive. -/
theorem when_over (h : g.Placed user n [] phase)
    (hover : ∀ i event, g.events[i]? = some (user, event) → ∃ reply, phase i = some (.finished reply)) :
    g.Placed user g.events.length [] phase ∧ g.personal user g.events.length = g.personal user n := by
  have hlt : ∀ i event, g.events[i]? = some (user, event) → i < n := by
    intro i event he
    refine Nat.not_le.1 fun hn => ?_
    obtain ⟨reply, hr⟩ := hover i event he
    rw [(h.arriving i event he hn nofun).1] at hr
    cases hr
  refine ⟨⟨.nil, nofun, fun i event he _ => h.finished i event he (hlt i event he), fun i event he hi _ => ?_⟩, ?_⟩
  · rw [List.getElem?_eq_none hi] at he
    cases he
  · rcases Nat.le_total n g.events.length with hn | hn
    · exact personal_of_none hn fun i event he hi _ => Nat.not_le.2 (hlt i event he) hi
    · rw [personal, personal, List.take_of_length_le hn, List.take_length]

end Placed

/-! ### Moves of the user's own calls -/

namespace Standing

variable {i s : Nat} {x : Slot} {phase : Nat → Option Phase} {cell : Cell} {event : Event}

private theorem not_mem_of_arriving {a : Nat} {rest : List Nat} {p : Phase} (hi : phase i = some .arriving)
    (ha : phase a = some p) (hp : p ≠ .arriving) (hrest : ∀ j ∈ rest, phase j = some (.queued s)) :
    i ∉ a :: rest := by
  intro hmem
  rcases List.mem_cons.1 hmem with rfl | hmem
  · rw [hi] at ha
    exact hp (Option.some.inj ha).symm
  · have := hrest i hmem
    rw [hi] at this
    cases this

private theorem queued_append {rest : List Nat} (hrest : ∀ j ∈ rest, phase j = some (.queued s)) :
    ∀ j ∈ rest ++ [i], changePhase phase i (.queued s) j = some (.queued s) := by
  intro j hj
  by_cases hji : j = i
  · rw [hji]
    exact changePhase_self
  · rw [changePhase_of_ne hji]
    rcases List.mem_append.1 hj with hj | hj
    · exact hrest j hj
    · exact absurd (List.mem_singleton.1 hj) hji

/-- The next call finds a slot and asks for its lock. -/
theorem enter (h : g.Standing user ⟨some (s, x), phase, cell⟩) (he : g.events[i]? = some (user, event))
    (hi : phase i = some .arriving)
    (ho : ∀ j < i, ∀ event, g.events[j]? = some (user, event) → phase j ≠ some .arriving) :
    g.Standing user ⟨some (s, x.take.ask i), changePhase phase i (.queued s), cell⟩ := by
  cases h with
  | talking hp => exact .granted (hp.arrive he hi nofun ho) changePhase_self nofun
  | @granted _ n _ a rest hp ha hrest =>
    have hmem := not_mem_of_arriving hi ha nofun hrest
    have ha' : changePhase phase i (.queued s) a = some (.queued s) := by
      rw [changePhase_of_ne fun hai => hmem (by simp [hai])]
      exact ha
    have hstanding : g.Standing user ⟨some (s, ⟨_, some a, rest ++ [i], (rest ++ [i]).length + 1⟩), _, _⟩ :=
      .granted (hp.arrive he hi hmem ho) ha' (queued_append hrest)
    rw [List.length_append] at hstanding
    exact hstanding
  | @working _ n _ a rest p event' flow flow' stage _ hp ha hrest he' hc hown =>
    have hmem := not_mem_of_arriving hi ha nofun hrest
    have ha' : changePhase phase i (.queued s) a = some (.working s p) := by
      rw [changePhase_of_ne fun hai => hmem (by simp [hai])]
      exact ha
    have hstanding : g.Standing user ⟨some (s, ⟨flow, some a, rest ++ [i], (rest ++ [i]).length + 1⟩), _, cell⟩ :=
      .working (hp.arrive he hi hmem ho) ha' (queued_append hrest) he' hc hown
    rw [List.length_append] at hstanding
    exact hstanding

/-- The next call finds no slot and makes one. -/
theorem create (h : g.Standing user ⟨none, phase, cell⟩) (he : g.events[i]? = some (user, event))
    (hi : phase i = some .arriving)
    (ho : ∀ j < i, ∀ event, g.events[j]? = some (user, event) → phase j ≠ some .arriving) :
    g.Standing user ⟨some (s, ⟨.idle, some i, [], 1⟩), changePhase phase i (.queued s), cell⟩ := by
  cases h with
  | @away _ n hp hidle =>
    rw [← hidle]
    exact .granted (hp.arrive he hi nofun ho) changePhase_self nofun

private theorem queued_rest {n : Nat} {rest : List Nat} {p : Phase} (hp : g.Placed user n (i :: rest) phase)
    (hrest : ∀ j ∈ rest, phase j = some (.queued s)) : ∀ j ∈ rest, changePhase phase i p j = some (.queued s) := by
  intro j hj
  rw [changePhase_of_ne (Nat.ne_of_gt (hp.rest_lt hj))]
  exact hrest j hj

/-- A call that gets the lock looks at the dialogue and begins to work. -/
theorem begin (h : g.Standing user ⟨some (s, x), phase, cell⟩) (he : g.events[i]? = some (user, event))
    (hi : phase i = some (.queued s)) (hh : x.holder = some i) :
    g.Standing user ⟨some (s, x), changePhase phase i (.working s (respond g.settings user x.flow event)), cell⟩ ∧
      ((respond g.settings user x.flow event).alone g.now g.answers cell).calls =
        (g.response user i event).calls := by
  cases h with
  | talking => cases hh
  | @granted _ n _ a rest hp ha hrest =>
    cases hh
    have hresponse : (respond g.settings user (g.personal user n).flow event).alone g.now g.answers
        (g.personal user n).cell = g.response user i event := by
      rw [response, hp.personal_head]
      rfl
    refine ⟨.working (hp.change List.mem_cons_self) changePhase_self (queued_rest hp hrest) he
      (respond_conduct g.settings user _ event) ?_, by rw [hresponse]⟩
    rw [hresponse]
    exact ⟨rfl, rfl⟩
  | @working _ n _ a rest p event' flow flow' stage _ hp ha =>
    cases hh
    rw [hi] at ha
    cases ha

/-- What is known of a call that works. -/
theorem of_working {slot : Option (Nat × Slot)} {p : Procedure Transition}
    (h : g.Standing user ⟨slot, phase, cell⟩) (he : g.events[i]? = some (user, event))
    (hi : phase i = some (.working s p)) :
    ∃ n rest flow flow' stage, slot = some (s, ⟨flow, some i, rest, rest.length + 1⟩) ∧
      g.Placed user n (i :: rest) phase ∧ (∀ j ∈ rest, phase j = some (.queued s)) ∧
      Conduct g.settings user flow' event stage p ∧
      ((p.alone g.now g.answers cell).masked event).result = ((g.response user i event).masked event).result ∧
      (p.alone g.now g.answers cell).cell = (g.response user i event).cell := by
  have hout : ∀ {n line}, g.Placed user n line phase → i ∈ line := by
    intro n line hp
    by_cases hmem : i ∈ line
    · exact hmem
    · rcases hp.phase_of_not_mem he hmem with h | ⟨reply, h⟩ <;>
      · rw [hi] at h
        cases h
  have hqueued : ∀ s', phase i ≠ some (.queued s') := by
    intro s' h
    rw [hi] at h
    cases h
  cases h with
  | away hp | talking hp => cases hout hp
  | granted hp ha hrest =>
    rcases List.mem_cons.1 (hout hp) with rfl | hmem
    · exact absurd ha (hqueued _)
    · exact absurd (hrest i hmem) (hqueued _)
  | @working _ n _ a rest p' event' flow flow' stage _ hp ha hrest he' hc hown =>
    rcases List.mem_cons.1 (hout hp) with rfl | hmem
    · rw [hi] at ha
      cases ha
      rw [he] at he'
      cases he'
      exact ⟨n, rest, flow, flow', stage, rfl, hp, hrest, hc, hown⟩
    · exact absurd (hrest i hmem) (hqueued _)

/-- Only one call of a user works. -/
theorem eq_of_working {slot : Option (Nat × Slot)} {j s' : Nat} {event' : Event} {p p' : Procedure Transition}
    (h : g.Standing user ⟨slot, phase, cell⟩) (he : g.events[i]? = some (user, event))
    (hi : phase i = some (.working s p)) (he' : g.events[j]? = some (user, event'))
    (hj : phase j = some (.working s' p')) : j = i := by
  obtain ⟨_, _, _, _, _, hslot, -⟩ := h.of_working he hi
  obtain ⟨_, _, _, _, _, hslot', -⟩ := h.of_working he' hj
  rw [hslot] at hslot'
  cases hslot'
  rfl

/-- A user's call is yet to arrive, or finished, or in line for the slot. -/
theorem phase_of {slot : Option (Nat × Slot)} (h : g.Standing user ⟨slot, phase, cell⟩)
    (he : g.events[i]? = some (user, event)) :
    phase i = some .arriving ∨ (∃ reply, phase i = some (.finished reply)) ∨
      ∃ s x, slot = some (s, x) ∧ (phase i = some (.queued s) ∨ ∃ p, phase i = some (.working s p)) := by
  have hline : ∀ {n line}, g.Placed user n line phase → i ∉ line → phase i = some .arriving ∨
      ∃ reply, phase i = some (.finished reply) := fun hp hi => hp.phase_of_not_mem he hi
  cases h with
  | away hp | talking hp => exact (hline hp nofun).imp id .inl
  | @granted _ n s a rest hp ha hrest =>
    by_cases hmem : i ∈ a :: rest
    · refine .inr (.inr ⟨s, _, rfl, .inl ?_⟩)
      rcases List.mem_cons.1 hmem with rfl | hmem
      · exact ha
      · exact hrest i hmem
    · exact (hline hp hmem).imp id .inl
  | @working _ n s a rest p event' flow flow' stage _ hp ha hrest =>
    by_cases hmem : i ∈ a :: rest
    · refine .inr (.inr ⟨s, _, rfl, ?_⟩)
      rcases List.mem_cons.1 hmem with rfl | hmem
      · exact .inr ⟨p, ha⟩
      · exact .inl (hrest i hmem)
    · exact (hline hp hmem).imp id .inl

/-- The first call of a user that is not finished is yet to arrive or has the lock. -/
theorem phase_of_first {slot : Option (Nat × Slot)} (h : g.Standing user ⟨slot, phase, cell⟩)
    (he : g.events[i]? = some (user, event))
    (hfirst : ∀ j < i, ∀ event, g.events[j]? = some (user, event) → ∃ reply, phase j = some (.finished reply)) :
    phase i = some .arriving ∨ (∃ reply, phase i = some (.finished reply)) ∨ (∃ s p, phase i = some (.working s p)) ∨
      ∃ s x, slot = some (s, x) ∧ x.holder = some i ∧ phase i = some (.queued s) := by
  have hhead : ∀ {n a rest p}, g.Placed user n (a :: rest) phase → phase a = some p → (∀ reply, p ≠ .finished reply) →
      i ∈ a :: rest → i = a := by
    intro n a rest p hp ha hnot hmem
    refine (List.mem_cons.1 hmem).resolve_right fun hrest => ?_
    obtain ⟨event, he⟩ := (hp.own a List.mem_cons_self).2
    obtain ⟨reply, hr⟩ := hfirst a (hp.rest_lt hrest) event he
    exact hnot reply (Option.some.inj (ha.symm.trans hr))
  cases h with
  | away hp | talking hp => exact (hp.phase_of_not_mem he nofun).imp id .inl
  | @granted _ n s a rest hp ha hrest =>
    by_cases hmem : i ∈ a :: rest
    · cases hhead hp ha nofun hmem
      exact .inr (.inr (.inr ⟨s, _, rfl, rfl, ha⟩))
    · exact (hp.phase_of_not_mem he hmem).imp id .inl
  | @working _ n s a rest p event' flow flow' stage _ hp ha hrest =>
    by_cases hmem : i ∈ a :: rest
    · cases hhead hp ha nofun hmem
      exact .inr (.inr (.inl ⟨s, p, ha⟩))
    · exact (hp.phase_of_not_mem he hmem).imp id .inl

/-- One more request of a call that works is answered. -/
theorem advance {p q : Procedure Transition} {cell' : Cell} (h : g.Standing user ⟨some (s, x), phase, cell⟩)
    (he : g.events[i]? = some (user, event)) (hi : phase i = some (.working s p))
    (hconduct : ∀ flow stage, Conduct g.settings user flow event stage p →
      ∃ stage, Conduct g.settings user flow event stage q)
    (hresult : ((q.alone g.now g.answers cell').masked event).result =
      ((p.alone g.now g.answers cell).masked event).result)
    (hcell : (q.alone g.now g.answers cell').cell = (p.alone g.now g.answers cell).cell) :
    g.Standing user ⟨some (s, x), changePhase phase i (.working s q), cell'⟩ := by
  obtain ⟨n, rest, flow, flow', stage, hslot, hp, hrest, hc, hown⟩ := h.of_working he hi
  cases hslot
  obtain ⟨stage', hc'⟩ := hconduct flow' stage hc
  exact .working (hp.change List.mem_cons_self) changePhase_self (queued_rest hp hrest) he hc'
    ⟨hresult.trans hown.1, hcell.trans hown.2⟩

/-- A call commits the next step, and the slot goes to the next call in line, or is kept, or given up. -/
theorem finish {t : Transition} (h : g.Standing user ⟨some (s, x), phase, cell⟩)
    (he : g.events[i]? = some (user, event)) (hi : phase i = some (.working s (.done t))) :
    g.Standing user ⟨if t.next = .idle ∧ x.handles = 1 ∧ x.waiting = [] then none
      else some (s, { x with flow := t.next }.unlock.drop), changePhase phase i (.finished t.reply), cell⟩ := by
  obtain ⟨n, rest, flow, flow', stage, hslot, hp, hrest, hc, hresult, hcell⟩ := h.of_working he hi
  cases hslot
  obtain ⟨hnext, hreply⟩ := Transition.mk.inj hresult
  have hp' := hp.finish he hreply
  have hpersonal := personal_succ he
  have hflow : (g.personal user (i + 1)).flow = t.next := by rw [hpersonal]; exact hnext.symm
  have hcell' : (g.personal user (i + 1)).cell = cell := by rw [hpersonal]; exact hcell.symm
  rw [← hcell', ← hflow]
  -- Nobody waits for the slot, which is then given up if the dialogue is idle, or the next call in line gets it.
  cases rest with
  | nil =>
    by_cases hidle : (g.personal user (i + 1)).flow = .idle
    · rw [if_pos ⟨hidle, rfl, rfl⟩]
      exact .away hp' hidle
    · rw [if_neg fun h => hidle h.1]
      exact .talking hp' hidle
  | cons j rest =>
    rw [if_neg fun h => nomatch h.2.2]
    exact .granted hp' (queued_rest hp hrest j List.mem_cons_self)
      fun k hk => queued_rest hp hrest k (List.mem_cons_of_mem _ hk)

/-- All calls of the user are finished. -/
theorem when_over {v : View} (h : g.Standing user v)
    (hover : ∀ i event, g.events[i]? = some (user, event) → ∃ reply, v.phase i = some (.finished reply)) :
    g.Placed user g.events.length [] v.phase ∧ v.cell = (g.personal user g.events.length).cell ∧
      if (g.personal user g.events.length).flow = .idle then v.slot = none
      else ∃ s, v.slot = some (s, ⟨(g.personal user g.events.length).flow, none, [], 0⟩) := by
  have hline : ∀ {i p}, v.phase i = some p → (∀ reply, p ≠ .finished reply) →
      ∀ event, g.events[i]? ≠ some (user, event) := by
    intro i p hi hp event he
    obtain ⟨reply, hr⟩ := hover i event he
    rw [hi] at hr
    exact hp reply (Option.some.inj hr)
  cases h with
  | away hp hidle =>
    obtain ⟨hp, hpersonal⟩ := hp.when_over hover
    rw [← hpersonal] at hidle ⊢
    exact ⟨hp, rfl, by rw [if_pos hidle]⟩
  | @talking phase n s hp htalk =>
    obtain ⟨hp, hpersonal⟩ := hp.when_over hover
    rw [← hpersonal] at htalk ⊢
    exact ⟨hp, rfl, by rw [if_neg htalk]; exact ⟨s, rfl⟩⟩
  | granted hp hi | working hp hi =>
    obtain ⟨event, he⟩ := (hp.own _ List.mem_cons_self).2
    exact absurd he (hline hi nofun event)

end Standing

end Occasion

end VaultChat.Engine
