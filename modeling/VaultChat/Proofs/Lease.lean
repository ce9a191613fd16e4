import VaultChat.Proofs.Requests

/-!
# Leases

A lease is a value together with the time at which it ends.  `idealCache` keeps the last lease of every key for ever
and shows it while it runs.  What the cache in memory holds under a key tracks such a lease: it agrees with it for as
long as the lease runs (`Tracks`), whatever was purged in between.  Hence no answer of the cache in memory tells it
from the ideal one (`memory_answers_ideal`).
-/

namespace VaultChat.Session

/-- A value and the nanosecond at which it ceases to be shown. -/
structure Lease where
  value : String
  ends : Int
  deriving DecidableEq

namespace Lease

/-- The lease that begins now.  None outlasts the calendar. -/
def starting (now : Instant) (value : String) (ttl : Span) : Lease := ⟨value, min (now.nanos + ttl.nanos) latestNanos⟩

/-- The lease, if it has not ended. -/
def running (now : Instant) (o : Option Lease) : Option Lease := o.filter fun l => now.nanos < l.ends

/-- A lease that runs starts anew with the same value.  One that has ended stays as it is. -/
def renew (now : Instant) (ttl : Span) (o : Option Lease) : Option Lease :=
  match running now o with
  | some l => some (starting now l.value ttl)
  | none => o

theorem running_eq_some {now : Instant} {o : Option Lease} {l : Lease} :
    running now o = some l ↔ o = some l ∧ now.nanos < l.ends := by
  rw [running, Option.filter_eq_some_iff, decide_eq_true_eq]

/-- A lease that has ended does not run again. -/
theorem running_of_le {now t : Instant} (h : now ≤ t) (o : Option Lease) :
    running t (running now o) = running t o := by
  have h' : now.nanos ≤ t.nanos := h
  ext l
  rw [running_eq_some, running_eq_some, running_eq_some]
  constructor
  · rintro ⟨⟨ho, -⟩, ht⟩
    exact ⟨ho, ht⟩
  · rintro ⟨ho, ht⟩
    exact ⟨⟨ho, by omega⟩, ht⟩

theorem renew_of_running {now : Instant} {o : Option Lease} {l : Lease} (h : running now o = some l) (ttl : Span) :
    renew now ttl o = some (starting now l.value ttl) := by
  unfold renew
  rw [h]

theorem renew_of_ended {now : Instant} {o : Option Lease} (h : running now o = none) (ttl : Span) :
    renew now ttl o = o := by
  unfold renew
  rw [h]

end Lease

open Lease

/-! ### The ideal cache -/

/-- The last lease under every key. -/
abbrev Ideal := String → Option Lease

def Ideal.put (key : String) (o : Option Lease) (s : Ideal) : Ideal := fun k => if k = key then o else s k

theorem Ideal.put_self (key : String) (o : Option Lease) (s : Ideal) : s.put key o key = o := if_pos rfl

theorem Ideal.put_other {key k : String} (h : k ≠ key) (o : Option Lease) (s : Ideal) : s.put key o k = s k :=
  if_neg h

/-- The cache that drops nothing by itself. -/
def idealCache : Cache Ideal where
  get now key s := (.ok ((running now (s key)).map Lease.value), s)
  set now key value ttl s := (.ok (), s.put key (some (starting now value ttl)))
  delete now key s := (.ok (running now (s key)).isSome, s.put key none)
  expire now key ttl s := (.ok (running now (s key)).isSome, s.put key (renew now ttl (s key)))

/-- The lease that runs tells how a request is answered. -/
theorem idealCache_answer (now : Instant) (r : Request) (s : Ideal) :
    (idealCache.perform now r s).1 = .ok (r.answer ((running now (s r.key)).map Lease.value)) := by
  cases r with
  | get | set => rfl
  | delete | expire =>
    rw [Request.answer, Option.isSome_map]
    rfl

/-! ### Cells in memory -/

def MemoryEntry.lease (e : MemoryEntry) : Lease := ⟨e.value, e.expiresAt.nanos⟩

/-- The cell is one in memory, and of the lease in it runs what runs of the given one. -/
def Tracks (now : Instant) (o : Option Lease) (c : Cell) : Prop :=
  ∃ e : Option MemoryEntry, c = .memory e ∧ running now (e.map MemoryEntry.lease) = running now o

private theorem live_memory (now : Instant) (e : Option MemoryEntry) :
    (Cell.memory e).live now = (running now (e.map MemoryEntry.lease)).map Lease.value := by
  cases e with
  | none => rfl
  | some e =>
    have hlive : (Cell.memory (some e)).live now = if now < e.expiresAt then some e.value else none := rfl
    rw [hlive]
    by_cases h : now < e.expiresAt
    · have hr : running now ((some e).map MemoryEntry.lease) = some e.lease := running_eq_some.2 ⟨rfl, h⟩
      rw [if_pos h, hr]
      rfl
    · have hr : running now ((some e).map MemoryEntry.lease) = none := by
        rw [running, Option.map_some, Option.filter_some, if_neg]
        rw [decide_eq_true_eq]
        exact h
      rw [if_neg h, hr]
      rfl

namespace Tracks

variable {now t : Instant} {o : Option Lease} {c : Cell}

theorem empty (now : Instant) : Tracks now none (.memory none) := ⟨none, rfl, rfl⟩

theorem live (h : Tracks now o c) : c.live now = (running now o).map Lease.value := by
  obtain ⟨e, rfl, he⟩ := h
  rw [live_memory, he]

theorem isSome_live (h : Tracks now o c) : (c.live now).isSome = (running now o).isSome := by
  rw [h.live, Option.isSome_map]

theorem answer {α : Type} (h : Tracks now o c) (a : α) : c.answer a = .ok a := by
  obtain ⟨e, rfl, -⟩ := h
  rfl

/-- Time passes. -/
theorem later (h : Tracks now o c) (ht : now ≤ t) : Tracks t o c := by
  obtain ⟨e, rfl, he⟩ := h
  refine ⟨e, rfl, ?_⟩
  calc running t (e.map MemoryEntry.lease)
      = running t (running now (e.map MemoryEntry.lease)) := (running_of_le ht _).symm
    _ = running t (running now o) := by rw [he]
    _ = running t o := running_of_le ht o

theorem clear (h : Tracks now o c) : Tracks now none c.clear := by
  obtain ⟨e, rfl, -⟩ := h
  exact empty now

/-- A look-up drops the entry only if the lease has ended. -/
theorem get (h : Tracks now o c) : Tracks now o (c.get now).2 := by
  show Tracks now o (if (c.live now).isSome then c else c.clear)
  rw [h.isSome_live]
  cases hr : running now o with
  | some l => exact h
  | none =>
    obtain ⟨e, he, hn⟩ := h.clear
    exact ⟨e, he, by rw [hn, hr]; rfl⟩

theorem filled (h : Tracks now o c) (hnow : Instant.earliest ≤ now) (value : String) (ttl : Span) :
    Tracks now (some (starting now value ttl)) (c.filled now value ttl) := by
  obtain ⟨e, rfl, -⟩ := h
  refine ⟨some ⟨value, now.expiryAfter ttl⟩, rfl, ?_⟩
  rw [Option.map_some, MemoryEntry.lease, starting, Instant.expiryAfter_nanos hnow]

/-- An entry that is extended keeps its value. -/
theorem expire (h : Tracks now o c) (hnow : Instant.earliest ≤ now) (ttl : Span) :
    Tracks now (renew now ttl o) (c.expire now ttl).2 := by
  have hlive := h.live
  cases hr : running now o with
  | some l =>
    rw [hr] at hlive
    rw [Cell.expire_of_live hlive, renew_of_running hr]
    exact h.filled hnow l.value ttl
  | none =>
    rw [hr] at hlive
    obtain ⟨e, rfl, -⟩ := h
    rw [Cell.expire_memory_of_expired hlive, renew_of_ended hr]
    exact ⟨none, rfl, hr.symm⟩

/-- What is done to the cell is done to the ideal lease. -/
theorem perform {r : Request} {s : Ideal} (h : Tracks now (s r.key) c) (hnow : Instant.earliest ≤ now) :
    (c.perform now r).1 = (idealCache.perform now r s).1 ∧
      Tracks now ((idealCache.perform now r s).2 r.key) (c.perform now r).2 := by
  constructor
  · rw [Cell.perform_answer, h.answer, h.live, idealCache_answer]
  · cases r with
    | get key => exact h.get
    | set key value ttl =>
      show Tracks now (s.put key (some (starting now value ttl)) key) (c.filled now value ttl)
      rw [Ideal.put_self]
      exact h.filled hnow value ttl
    | delete key =>
      show Tracks now (s.put key none key) c.clear
      rw [Ideal.put_self]
      exact h.clear
    | expire key ttl =>
      show Tracks now (s.put key (renew now ttl (s key)) key) (c.expire now ttl).2
      rw [Ideal.put_self]
      exact h.expire hnow ttl

end Tracks

theorem idealCache_other (now : Instant) (r : Request) (s : Ideal) {k : String} (h : k ≠ r.key) :
    (idealCache.perform now r s).2 k = s k := by
  cases r with
  | get key => rfl
  | set | delete | expire => exact Ideal.put_other h _ s

/-! ### The cache in memory -/

section

variable (now : Instant) (r : Request) (m : Memory)

/-- A request is answered from the entry of its key, and changes no other. -/
private theorem memory_perform :
    (memoryCache.perform now r m).1 = ((Cell.memory (m.find? r.key)).perform now r).1 ∧
      Cell.memory ((memoryCache.perform now r m).2.find? r.key) = ((Cell.memory (m.find? r.key)).perform now r).2 ∧
      ∀ k ≠ r.key, (memoryCache.perform now r m).2.find? k = m.find? k := by
  have hacts := perform_actsOn now r
  have hanswer := (hacts (.memory m)).1
  have hown := hacts.own (.memory m)
  have hothers := fun k (hk : k ≠ r.key) => hacts.other (.memory m) hk
  simp only [perform_memory] at hanswer hown hothers
  exact ⟨hanswer, hown, fun k hk => Cell.memory.inj (hothers k hk)⟩

end

/-- After this answer to the request, nothing may be stored under its key. -/
def Request.vacates : Request → Answer → Bool
  | .get _, .value none | .expire .., .flag false | .delete _, _ => true
  | _, _ => false

private theorem perform_vacates {now : Instant} {r : Request} {e : Option MemoryEntry} {a : Answer}
    (ha : ((Cell.memory e).perform now r).1 = .ok a) (hr : r.vacates a = true) :
    ((Cell.memory e).perform now r).2 = .memory none := by
  rw [Cell.perform_answer] at ha
  have ha : r.answer ((Cell.memory e).live now) = a := Except.ok.inj ha
  subst ha
  cases hl : (Cell.memory e).live now with
  | some v =>
    rw [hl] at hr
    cases r with
    | delete key => rfl
    | get | set | expire => cases hr
  | none =>
    cases r with
    | delete key => rfl
    | set key value ttl => cases hr
    | get key =>
      show (if ((Cell.memory e).live now).isSome then Cell.memory e else .memory none) = .memory none
      rw [hl]
      rfl
    | expire key ttl =>
      show ((Cell.memory e).expire now ttl).2 = .memory none
      rw [Cell.expire_memory_of_expired hl]

private theorem answers_eq_ideal {now : Instant} (hnow : Instant.earliest ≤ now) {m : Memory} {s : Ideal}
    (h : ∀ key, Tracks now (s key) (.memory (m.find? key))) (script : List Step) :
    memoryCache.answers now m script = idealCache.answers now s script := by
  induction script generalizing now m s with
  | nil => rfl
  | cons step script ih =>
    cases step with
    | wait span =>
      have hle := Instant.le_advance now span
      exact ih (Int.le_trans hnow hle) fun key => (h key).later hle
    | request r =>
      obtain ⟨hanswer, hown, hothers⟩ := memory_perform now r m
      obtain ⟨hsame, htracks⟩ := (h r.key).perform hnow
      have hnext : ∀ key, Tracks now ((idealCache.perform now r s).2 key)
          (.memory ((memoryCache.perform now r m).2.find? key)) := by
        intro key
        by_cases hk : key = r.key
        · rw [hk, hown]
          exact htracks
        · rw [hothers key hk, idealCache_other now r s hk]
          exact h key
      rw [Cache.answers, Cache.answers, hanswer, hsame, ih hnow hnext]

/-- The cache in memory answers every script as the ideal cache does.  A request that finds nothing leaves nothing
under its key, and no request changes the entry of another key. -/
theorem memory_answers_ideal {start : Instant} (hstart : Instant.earliest ≤ start) (script : List Step) :
    memoryCache.answers start ∅ script = idealCache.answers start (fun _ => none) script ∧
      ∀ now r m, (∀ a, (memoryCache.perform now r m).1 = .ok a → r.vacates a = true →
          (memoryCache.perform now r m).2.find? r.key = none) ∧
        ∀ k ≠ r.key, (memoryCache.perform now r m).2.find? k = m.find? k := by
  constructor
  · exact answers_eq_ideal hstart (fun _ => .empty start) script
  · intro now r m
    obtain ⟨hanswer, hown, hothers⟩ := memory_perform now r m
    refine ⟨fun a ha hr => ?_, hothers⟩
    rw [hanswer] at ha
    rw [perform_vacates ha hr] at hown
    exact Cell.memory.inj hown

/-- An entry is extended in its last nanosecond, outlives its first expiry and is gone at its second. -/
theorem memory_answers_ideal_extended :
    let script : List Step := [.request (.set "k" "v" ⟨5⟩), .wait ⟨4⟩, .request (.expire "k" ⟨3⟩), .wait ⟨2⟩,
      .request (.get "k"), .wait ⟨1⟩, .request (.expire "k" ⟨9⟩), .request (.delete "k")]
    let start : Instant := ⟨0, by decide⟩
    let stale : Memory := .insert ∅ "k" ⟨"v", start⟩
    Instant.earliest ≤ start ∧
      memoryCache.answers start ∅ script = idealCache.answers start (fun _ => none) script ∧
      idealCache.answers start (fun _ => none) script =
        [.ok .stored, .ok (.flag true), .ok (.value (some "v")), .ok (.flag false), .ok (.flag false)] ∧
      (memoryCache.perform start (.get "k") stale).2.find? "k" = none := by
  intro script start stale
  have hstart : Instant.earliest ≤ start := by decide
  obtain ⟨hsame, hrest⟩ := memory_answers_ideal hstart script
  exact ⟨hstart, hsame, rfl, (hrest start (.get "k") stale).1 (.value none) rfl rfl⟩

end VaultChat.Session
