import Mathlib.Logic.Function.Basic
import VaultChat.Proofs.Schedule

/-!
# Handles and lines

A slot counts the handles on it and keeps a line of the calls that have asked for its lock.  `Slot.Tallies` says that
both agree with the phases of the calls, and every step of a call at a slot keeps it so (`Act.tallies`).  Hence a call
that has the only handle on a slot is alone with it (`Tallies.eq_of_handles`).
-/

namespace VaultChat.Engine

open Chat Function

variable {σ τ : Type}

/-! ### Calls at a slot -/

/-- The list names the calls whose phase is of some kind, each one once. -/
structure Lists (l : List Nat) (P : Phase → Prop) (phase : Nat → Option Phase) : Prop where
  nodup : l.Nodup
  mem : ∀ i, i ∈ l ↔ ∃ p, phase i = some p ∧ P p

namespace Lists

variable {l : List Nat} {P : Phase → Prop} {phase : Nat → Option Phase} {i : Nat} {p q : Phase}

theorem keep (h : Lists l P phase) (hi : phase i = some p) (hpq : P p ↔ P q) :
    Lists l P (update phase i (some q)) where
  nodup := h.nodup
  mem j := by
    rw [h.mem, update_apply]
    split
    · rename_i hj
      rw [hj, hi]
      simp [hpq]
    · rfl

theorem add (h : Lists l P phase) (hi : phase i = some p) (hp : ¬ P p) (hq : P q) :
    Lists (l ++ [i]) P (update phase i (some q)) where
  nodup := by
    have hmem : i ∉ l := by
      rw [h.mem, hi]
      simpa using hp
    rw [List.nodup_append]
    refine ⟨h.nodup, List.pairwise_singleton .., fun j hj k hk hjk => hmem ?_⟩
    rw [← List.mem_singleton.1 hk, ← hjk]
    exact hj
  mem j := by
    rw [List.mem_append, h.mem, update_apply, List.mem_singleton]
    split
    · rename_i hj
      simp [hj, hq]
    · rename_i hj
      simp [hj]

theorem remove (h : Lists l P phase) (hq : ¬ P q) : Lists (l.erase i) P (update phase i (some q)) where
  nodup := h.nodup.erase i
  mem j := by
    rw [h.nodup.mem_erase_iff, h.mem, update_apply]
    split
    · rename_i hj
      simp [hj, hq]
    · rename_i hj
      simp [hj]

end Lists

namespace Slot

/-- The calls in line for the lock, first of all the one that has it. -/
def line (x : Slot) : List Nat := x.holder.toList ++ x.waiting

theorem line_of_holder {x : Slot} {i : Nat} (h : x.holder = some i) : x.line = i :: x.waiting := by
  rw [line, h]
  rfl

theorem line_unlock (x : Slot) : x.unlock.line = x.waiting := by
  rw [line, unlock]
  cases x.waiting <;> rfl

theorem waiting_unlock {x : Slot} (h : x.unlock.holder = none) : x.unlock.waiting = [] := by
  have hnil : x.waiting = [] := List.head?_eq_none_iff.1 h
  rw [unlock, hnil]
  rfl

theorem ask_of_free {x : Slot} (h : x.holder = none) (i : Nat) : x.ask i = { x with holder := some i } := by
  rw [ask, h]
  rfl

theorem ask_of_taken {x : Slot} {j : Nat} (h : x.holder = some j) (i : Nat) :
    x.ask i = { x with waiting := x.waiting ++ [i] } := by
  rw [ask, h]
  rfl

theorem handles_ask (x : Slot) (i : Nat) : (x.ask i).handles = x.handles := by
  unfold ask
  split <;> rfl

theorem holder_ask_ne_none (x : Slot) (i : Nat) : (x.ask i).holder ≠ none := by
  cases h : x.holder with
  | none => rw [ask_of_free h]; exact nofun
  | some j => rw [ask_of_taken h, h]; exact nofun

theorem line_ask {x : Slot} (h : x.holder = none → x.waiting = []) (i : Nat) : (x.ask i).line = x.line ++ [i] := by
  cases hh : x.holder with
  | none => rw [ask_of_free hh, line, line, hh, h hh]; rfl
  | some j => rw [ask_of_taken hh, line, line, hh]; exact (List.append_assoc [j] x.waiting [i]).symm

/-- What slot `s` says of its handles and its lock agrees with the phases of the calls. -/
structure Tallies (x : Slot) (s : Nat) (phase : Nat → Option Phase) : Prop where
  handles : ∃ l, Lists l (fun p => p.handle? = some s) phase ∧ l.length = x.handles
  line : Lists x.line (fun p => p.line? = some s) phase
  granted : x.holder = none → x.waiting = []
  worker : ∀ i p, phase i = some (.working s p) → x.holder = some i

namespace Tallies

variable {x : Slot} {s i j : Nat} {phase : Nat → Option Phase} {p q : Phase}

/-- A slot that is only now made for a call, when no other call has a handle on it. -/
theorem fresh (hi : phase i = some (.holding s)) (hother : ∀ j q, phase j = some q → q.handle? = some s → j = i) :
    (⟨.idle, none, [], 1⟩ : Slot).Tallies s phase where
  handles := by
    refine ⟨[i], ⟨List.pairwise_singleton .., fun j => ?_⟩, rfl⟩
    rw [List.mem_singleton]
    constructor
    · rintro rfl
      exact ⟨_, hi, rfl⟩
    · rintro ⟨q, hq, hs⟩
      exact hother j q hq hs
  line := by
    refine ⟨.nil, fun j => ⟨nofun, fun ⟨q, hq, hs⟩ => ?_⟩⟩
    rw [hother j q hq (Phase.handle?_of_line? hs), hi] at hq
    cases hq
    cases hs
  granted _ := rfl
  worker j q hq := by
    rw [hother j _ hq rfl, hi] at hq
    cases hq

/-- A call is elsewhere before and after its step. -/
theorem other (h : x.Tallies s phase) (hi : phase i = some p) (hp : p.handle? ≠ some s) (hq : q.handle? ≠ some s) :
    x.Tallies s (update phase i (some q)) where
  handles := by
    obtain ⟨l, hl, hlength⟩ := h.handles
    exact ⟨l, hl.keep hi (by simp [hp, hq]), hlength⟩
  line := h.line.keep hi
    ⟨fun h => absurd (Phase.handle?_of_line? h) hp, fun h => absurd (Phase.handle?_of_line? h) hq⟩
  granted := h.granted
  worker j r hj := by
    rw [update_apply] at hj
    split at hj
    · cases hj
      exact absurd rfl hq
    · exact h.worker j r hj

/-- Whoever has the only handle is alone. -/
theorem eq_of_handles (h : x.Tallies s phase) (hx : x.handles = 1) (hi : phase i = some p) (hp : p.handle? = some s)
    (hj : phase j = some q) (hq : q.handle? = some s) : j = i := by
  obtain ⟨l, hl, hlength⟩ := h.handles
  obtain ⟨k, rfl⟩ := List.length_eq_one_iff.1 (hlength.trans hx)
  have hik : i = k := List.mem_singleton.1 ((hl.mem i).2 ⟨p, hi, hp⟩)
  have hjk : j = k := List.mem_singleton.1 ((hl.mem j).2 ⟨q, hj, hq⟩)
  rw [hik, hjk]

/-- Whoever has one handle of several is not alone. -/
theorem exists_ne_of_handles (h : x.Tallies s phase) (hx : x.handles ≠ 1) (hi : phase i = some p)
    (hp : p.handle? = some s) : ∃ j q, j ≠ i ∧ phase j = some q ∧ q.handle? = some s := by
  obtain ⟨l, hl, hlength⟩ := h.handles
  have hmem : i ∈ l := (hl.mem i).2 ⟨p, hi, hp⟩
  have hpos := List.length_pos_of_mem hmem
  have hrest : l.erase i ≠ [] := fun hnil => by
    have hlen := List.length_erase_of_mem hmem
    rw [hnil, List.length_nil] at hlen
    omega
  obtain ⟨j, hj⟩ := List.exists_mem_of_ne_nil _ hrest
  obtain ⟨hji, hj⟩ := hl.nodup.mem_erase_iff.1 hj
  obtain ⟨q, hq, hhandle⟩ := (hl.mem j).1 hj
  exact ⟨j, q, hji, hq, hhandle⟩

/-- Whoever has the lock is in line for it. -/
theorem line?_of_holder (h : x.Tallies s phase) (hh : x.holder = some i) :
    ∃ p, phase i = some p ∧ p.line? = some s := by
  refine (h.line.mem i).1 ?_
  rw [line_of_holder hh]
  exact List.mem_cons_self

private theorem handles_keep (h : x.Tallies s phase) (hi : phase i = some p) (hp : p.handle? = some s)
    (hq : q.handle? = some s) : ∃ l, Lists l (fun p => p.handle? = some s) (update phase i (some q)) ∧
      l.length = x.handles := by
  obtain ⟨l, hl, hlength⟩ := h.handles
  exact ⟨l, hl.keep hi (by simp [hp, hq]), hlength⟩

private theorem handles_add (h : x.Tallies s phase) (hi : phase i = some p) (hp : p.handle? = none)
    (hq : q.handle? = some s) : ∃ l, Lists l (fun p => p.handle? = some s) (update phase i (some q)) ∧
      l.length = x.take.handles := by
  obtain ⟨l, hl, hlength⟩ := h.handles
  refine ⟨l ++ [i], hl.add hi (by simp [hp]) hq, ?_⟩
  rw [List.length_append, hlength]
  rfl

private theorem handles_remove (h : x.Tallies s phase) (hi : phase i = some p) (hp : p.handle? = some s)
    (hq : q.handle? = none) : ∃ l, Lists l (fun p => p.handle? = some s) (update phase i (some q)) ∧
      l.length = x.drop.handles := by
  obtain ⟨l, hl, hlength⟩ := h.handles
  refine ⟨l.erase i, hl.remove (by simp [hq]), ?_⟩
  rw [List.length_erase_of_mem ((hl.mem i).2 ⟨p, hi, hp⟩), hlength]
  rfl

/-- Nobody comes to work, and the lock stays where it is. -/
private theorem worker_keep {x' : Slot} (h : x.Tallies s phase) (hq : ∀ r, q = .working s r → x'.holder = some i)
    (hx : ∀ j ≠ i, x.holder = some j → x'.holder = some j) (j : Nat) (r : Procedure Transition)
    (hj : update phase i (some q) j = some (.working s r)) : x'.holder = some j := by
  rw [update_apply] at hj
  split at hj
  · rename_i hji
    cases hj
    rw [hji]
    exact hq r rfl
  · rename_i hji
    exact hx j hji (h.worker j r hj)

private theorem line_leave (h : x.Tallies s phase) (hh : x.holder = some i) (hq : q.line? = none) :
    Lists x.waiting (fun p => p.line? = some s) (update phase i (some q)) := by
  have hline := h.line.remove (i := i) (q := q) (by simp [hq])
  rw [line_of_holder hh, List.erase_cons_head] at hline
  exact hline

end Tallies

end Slot

namespace Slots

namespace Act

variable {settings : Settings} {i s : Nat} {c : InFlight} {x x' : Slot} {p : Phase}

/-- A call that acts on a slot has a handle on no other slot. -/
theorem handle_before (h : Act settings i c s x p x') {k : Nat} (hk : c.phase.handle? = some k) : k = s := by
  cases h with
  | take hp | ask hp | begin hp | look hp | advance hp | commit hp | keep hp | leave hp =>
    rw [hp] at hk
    cases hk <;> rfl

theorem handle_after (h : Act settings i c s x p x') {k : Nat} (hk : p.handle? = some k) : k = s := by
  cases h with
  | commit hp =>
    split at hk <;> cases hk <;> rfl
  | take | ask | begin | look | advance | keep | leave => cases hk <;> rfl

/-- A call that has a handle after its step has just got it, or is leaving, or is not about to. -/
theorem stays (h : Act settings i c s x p x') (hp : p.handle? = some s) : (∃ reply, p = .leaving s reply) ∨
    c.phase = .arriving ∨ c.phase.handle? = some s ∧ ∀ reply, c.phase ≠ .leaving s reply := by
  cases h with
  | take hc => exact .inr (.inl hc)
  | keep hc => exact .inl ⟨_, rfl⟩
  | look | leave => cases hp
  | ask hc | begin hc | advance hc | commit hc =>
    rw [hc]
    exact .inr (.inr ⟨rfl, nofun⟩)

/-- A step of a dialogue changes by a commit only. -/
theorem flow (h : Act settings i c s x p x') : (∃ t, c.phase = .working s (.done t) ∧ x'.flow = t.next) ∨
    (∀ r t, c.phase ≠ .working r (.done t)) ∧ x'.flow = x.flow := by
  cases h with
  | commit hc => exact .inl ⟨_, hc, rfl⟩
  | advance hc hne =>
    refine .inr ⟨fun r t ht => ?_, rfl⟩
    rw [hc] at ht
    cases ht
    exact hne t rfl
  | ask hc =>
    rw [hc]
    refine .inr ⟨nofun, ?_⟩
    unfold Slot.ask
    split <;> rfl
  | take hc | begin hc | look hc | keep hc | leave hc =>
    rw [hc]
    exact .inr ⟨nofun, rfl⟩

/-- A step at a slot leaves the slot in agreement with the phases of the calls. -/
theorem tallies (h : Act settings i c s x p x') {phase : Nat → Option Phase} (hx : x.Tallies s phase)
    (hi : phase i = some c.phase) : x'.Tallies s (update phase i (some p)) := by
  have holder_of_worker : ∀ {r}, c.phase = .working s r → x.holder = some i := fun hw => hx.worker i _ (hw ▸ hi)
  cases h with
  | take hp =>
    rw [hp] at hi
    exact ⟨hx.handles_add hi rfl rfl, hx.line.keep hi (by simp [Phase.line?]), hx.granted,
      hx.worker_keep nofun fun _ _ => id⟩
  | ask hp =>
    rw [hp] at hi
    refine ⟨?_, ?_, fun hn => absurd hn (x.holder_ask_ne_none i), hx.worker_keep nofun fun j _ hj => ?_⟩
    · rw [Slot.handles_ask]
      exact hx.handles_keep hi rfl rfl
    · rw [Slot.line_ask hx.granted]
      exact hx.line.add hi nofun rfl
    · rw [Slot.ask_of_taken hj]
      exact hj
  | begin hp hh =>
    rw [hp] at hi
    exact ⟨hx.handles_keep hi rfl rfl, hx.line.keep hi (by simp [Phase.line?]), hx.granted,
      hx.worker_keep (fun _ _ => hh) fun _ _ => id⟩
  | look hp hh =>
    rw [hp] at hi
    refine ⟨hx.handles_remove hi rfl rfl, ?_, Slot.waiting_unlock, hx.worker_keep nofun fun j hj hjh => ?_⟩
    · have hline := hx.line_leave hh (q := .seen x.flow) rfl
      rw [← Slot.line_unlock] at hline
      exact hline
    · exact absurd (Option.some.inj (hjh.symm.trans hh)) hj
  | @advance r r' hp =>
    rw [hp] at hi
    exact ⟨hx.handles_keep hi rfl rfl, hx.line.keep hi (by simp [Phase.line?]), hx.granted,
      hx.worker_keep (fun _ _ => holder_of_worker hp) fun _ _ => id⟩
  | @commit t hp =>
    have hh := holder_of_worker hp
    rw [hp] at hi
    have hnext : (if t.next = .idle then Phase.committed s t.reply else .leaving s t.reply).handle? = some s ∧
        (if t.next = .idle then Phase.committed s t.reply else .leaving s t.reply).line? = none := by
      split <;> exact ⟨rfl, rfl⟩
    refine ⟨hx.handles_keep hi rfl hnext.1, ?_, Slot.waiting_unlock,
      hx.worker_keep (fun r hr => ?_) fun j hj hjh => ?_⟩
    · rw [Slot.line_unlock]
      exact hx.line_leave hh hnext.2
    · rw [hr] at hnext
      cases hnext.2
    · exact absurd (Option.some.inj (hjh.symm.trans hh)) hj
  | keep hp =>
    rw [hp] at hi
    exact ⟨hx.handles_keep hi rfl rfl, hx.line.keep hi (by simp [Phase.line?]), hx.granted,
      hx.worker_keep nofun fun _ _ => id⟩
  | leave hp =>
    rw [hp] at hi
    exact ⟨hx.handles_remove hi rfl rfl, hx.line.keep hi (by simp [Phase.line?]), hx.granted,
      hx.worker_keep nofun fun _ _ => id⟩

end Act

end Slots

end VaultChat.Engine
