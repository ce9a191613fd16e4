import Mathlib.Data.List.Induction
import VaultChat.Proofs.Requests

/-!
# Rows against entries

A row ends with the millisecond in which the entry in memory ends, hence up to a millisecond earlier, and an entry
that is extended in between lives on alone.  Whatever the times are, the row shows nothing that the entry does not
show (`Covers`), and up to the first request that is answered differently it is the entry with its end rounded down
(`Mirrors`).  `rows_end_first` is what follows for two caches that are asked the same.
-/

namespace VaultChat.Session

/-! ### One key -/

/-- The row that is kept where memory has this entry. -/
def MemoryEntry.row (e : MemoryEntry) : Row := ⟨e.value, e.expiresAt.millis⟩

/-- A value that is told, or found, is live. -/
theorem Request.answer_of_live {r : Request} {live live' : Option String} (h : ∀ v, live = some v → live' = some v)
    {a : Answer} (ha : (∃ v, a = .value (some v)) ∨ a = .flag true) (hr : r.answer live = a) :
    r.answer live' = a := by
  cases live with
  | some v =>
    rw [h v rfl]
    exact hr
  | none =>
    rcases ha with ⟨v, rfl⟩ | rfl <;> cases r <;> cases hr

namespace Cell

variable {now t : Instant} {e : Option MemoryEntry} {o : Option Row} {c d : Cell}

theorem live_memory_eq_some {v : String} :
    (Cell.memory e).live now = some v ↔ ∃ x, e = some x ∧ now < x.expiresAt ∧ x.value = v := by
  cases e with
  | none => simp [live]
  | some x => simp [live]

/-! ### Covering -/

/-- From now on, the one cell shows whatever the other one shows. -/
def Covers (now : Instant) (c d : Cell) : Prop := ∀ t v, now ≤ t → d.live t = some v → c.live t = some v

theorem Covers.later (h : Covers now c d) (ht : now ≤ t) : Covers t c d :=
  fun u v hu hv => h u v (Int.le_trans ht hu) hv

/-- A row may have ended when the entry is extended, but not the other way round. -/
theorem Covers.perform (h : Covers now (.memory e) d) (r : Request) :
    Covers now ((Cell.memory e).perform now r).2 (d.perform now r).2 := by
  intro t v ht hv
  cases r with
  | get key =>
    have hd : d.live t = some v := (live_get ht).symm.trans hv
    exact (live_get ht).trans (h t v ht hd)
  | set key value ttl =>
    obtain ⟨rfl, hends⟩ := live_filled hv
    exact if_pos hends
  | delete key =>
    have hnone : d.clear.live t = none := live_clear d t
    cases hnone.symm.trans hv
  | expire key ttl =>
    obtain ⟨hd, hends⟩ := live_expire ht hv
    have hlive := h now v (Int.le_refl _) hd
    show ((Cell.memory e).expire now ttl).2.live t = some v
    rw [expire_of_live hlive]
    exact if_pos hends

/-! ### Mirroring -/

/-- As long as the one cell has an entry that has not expired, the other cell is the row for it. -/
def Mirrors (now : Instant) (c d : Cell) : Prop :=
  ∀ x, c = .memory (some x) → now < x.expiresAt → d = .row (some x.row)

theorem mirrors_empty (now : Instant) (d : Cell) : Mirrors now (.memory none) d := nofun

theorem Mirrors.later (h : Mirrors now c d) (ht : now ≤ t) : Mirrors t c d :=
  fun x hx hlt => h x hx (Int.lt_of_le_of_lt ht hlt)

theorem mirrors_row (x : MemoryEntry) : Mirrors now (.memory (some x)) (.row (some x.row)) := by
  rintro y hy -
  cases hy
  rfl

/-- A request that is answered alike leaves the row as it leaves the entry. -/
theorem Mirrors.perform (h : Mirrors now (.memory e) (.row o)) {r : Request}
    (hsame : ((Cell.memory e).perform now r).1 = ((Cell.row o).perform now r).1) :
    Mirrors now ((Cell.memory e).perform now r).2 ((Cell.row o).perform now r).2 := by
  rw [perform_answer, perform_answer] at hsame
  have hsame : r.answer ((Cell.memory e).live now) = r.answer ((Cell.row o).live now) := Except.ok.inj hsame
  cases r with
  | get key =>
    have hlive : (Cell.memory e).live now = (Cell.row o).live now := Answer.value.inj hsame
    show Mirrors now (if ((Cell.memory e).live now).isSome then Cell.memory e else .memory none)
      (if ((Cell.row o).live now).isSome then Cell.row o else .row none)
    rw [← hlive]
    cases (Cell.memory e).live now with
    | some v => exact h
    | none => exact mirrors_empty now _
  | set key value ttl => exact mirrors_row ⟨value, now.expiryAfter ttl⟩
  | delete key => exact mirrors_empty now _
  | expire key ttl =>
    have hlive : ((Cell.memory e).live now).isSome = ((Cell.row o).live now).isSome := Answer.flag.inj hsame
    show Mirrors now ((Cell.memory e).expire now ttl).2 ((Cell.row o).expire now ttl).2
    cases hv : (Cell.memory e).live now with
    | none =>
      rw [expire_memory_of_expired hv]
      exact mirrors_empty now _
    | some v =>
      -- The row is the entry, so the two are extended with the same value.
      obtain ⟨x, rfl, hx, rfl⟩ := live_memory_eq_some.1 hv
      cases h x rfl hx
      obtain ⟨w, hw⟩ := Option.isSome_iff_exists.1 (hlive.symm.trans (by rw [hv]; rfl))
      have hrow : (if now.millis < x.row.expiresAt then some x.row.value else none) = some w := hw
      have hvalue : x.value = w := Option.some.inj (Option.ite_none_right_eq_some.1 hrow).2
      rw [expire_of_live hv, expire_of_live hw, hvalue]
      exact mirrors_row ⟨w, now.expiryAfter ttl⟩

/-- Where an entry and its row are told apart, the entry is about to expire. -/
theorem Mirrors.expiring (hmirrors : Mirrors now (.memory e) (.row o)) (hcovers : Covers now (.memory e) (.row o))
    {r : Request} (hne : ((Cell.memory e).perform now r).1 ≠ ((Cell.row o).perform now r).1) :
    ∃ x, e = some x ∧ now < x.expiresAt ∧ now.millis = x.expiresAt.millis := by
  rw [perform_answer, perform_answer] at hne
  have hlive : (Cell.row o).live now ≠ (Cell.memory e).live now := by
    intro heq
    rw [heq] at hne
    exact hne rfl
  cases hv : (Cell.memory e).live now with
  | none =>
    -- What the entry does not show, the row does not show either.
    rw [hv] at hlive
    obtain ⟨v, hrow⟩ := Option.ne_none_iff_exists'.1 hlive
    cases hv.symm.trans (hcovers now v (Int.le_refl _) hrow)
  | some v =>
    rw [hv] at hlive
    obtain ⟨x, rfl, hx, rfl⟩ := live_memory_eq_some.1 hv
    cases hmirrors x rfl hx
    have hended : ¬ now.millis < x.expiresAt.millis := fun hlt => hlive (if_pos hlt)
    have hlast : now.millis ≤ x.expiresAt.millis := Instant.millis_le_millis (Int.le_of_lt hx)
    exact ⟨x, rfl, hx, by omega⟩

end Cell

/-! ### Two caches -/

/-- A cache in memory and one in a table, which are asked the same by one clock. -/
structure Tandem where
  now : Instant
  memory : Memory
  table : Table

namespace Tandem

/-- Nothing is stored in either. -/
def start (now : Instant) : Tandem := ⟨now, ∅, ∅⟩

/-- What the one in memory answers. -/
def entryAnswer (s : Tandem) (r : Request) : Except Error Answer := (memoryCache.perform s.now r s.memory).1

/-- What the one in the table answers. -/
def rowAnswer (s : Tandem) (r : Request) : Except Error Answer := (tableCache.perform s.now r s.table).1

def next (s : Tandem) : Step → Tandem
  | .request r =>
    { s with memory := (memoryCache.perform s.now r s.memory).2, table := (tableCache.perform s.now r s.table).2 }
  | .wait span => { s with now := s.now.advance span }

/-- Where a script leads. -/
def after (now : Instant) (script : List Step) : Tandem := script.foldl next (start now)

/-- In the course of the script, all requests for the key were answered alike. -/
def AgreedOn (key : String) (now : Instant) (script : List Step) : Prop :=
  ∀ past r, past ++ [.request r] <+: script → r.key = key →
    (after now past).entryAnswer r = (after now past).rowAnswer r

def entry (s : Tandem) (key : String) : Cell := .memory (s.memory.find? key)

def row (s : Tandem) (key : String) : Cell := .row (s.table.find? key)

theorem after_append_singleton (now : Instant) (past : List Step) (step : Step) :
    after now (past ++ [step]) = (after now past).next step := by
  rw [after, List.foldl_append]
  rfl

variable (s : Tandem) (r : Request)

theorem entryAnswer_eq : s.entryAnswer r = ((s.entry r.key).perform s.now r).1 := by
  have hanswer := (perform_actsOn s.now r (.memory s.memory)).1
  rwa [perform_memory] at hanswer

theorem rowAnswer_eq : s.rowAnswer r = ((s.row r.key).perform s.now r).1 := by
  have hanswer := (perform_actsOn s.now r (.table s.table)).1
  rwa [perform_table] at hanswer

theorem entry_next (key : String) : (s.next (.request r)).entry key =
    if key = r.key then ((s.entry r.key).perform s.now r).2 else s.entry key := by
  have hcells := (perform_actsOn s.now r (.memory s.memory)).2 key
  rwa [perform_memory] at hcells

theorem row_next (key : String) : (s.next (.request r)).row key =
    if key = r.key then ((s.row r.key).perform s.now r).2 else s.row key := by
  have hcells := (perform_actsOn s.now r (.table s.table)).2 key
  rwa [perform_table] at hcells

theorem covers_after (start : Instant) (script : List Step) (key : String) :
    Cell.Covers (after start script).now ((after start script).entry key) ((after start script).row key) := by
  induction script using List.reverseRecOn with
  | nil => exact nofun
  | append_singleton past step ih =>
    rw [after_append_singleton]
    cases step with
    | wait span => exact ih.later (Instant.le_advance _ span)
    | request r =>
      rw [entry_next, row_next]
      by_cases hk : key = r.key
      · subst hk
        rw [if_pos rfl, if_pos rfl]
        exact ih.perform r
      · rw [if_neg hk, if_neg hk]
        exact ih

theorem agreedOn_nil (key : String) (start : Instant) : AgreedOn key start [] := by
  intro past r h
  simp at h

theorem agreedOn_append_singleton {key : String} {start : Instant} {past : List Step} {step : Step} :
    AgreedOn key start (past ++ [step]) ↔ AgreedOn key start past ∧ ∀ r, step = .request r → r.key = key →
      (after start past).entryAnswer r = (after start past).rowAnswer r := by
  constructor
  · intro h
    refine ⟨fun before r hbefore => h before r (hbefore.trans (List.prefix_append past [step])), ?_⟩
    rintro r rfl
    exact h past r (List.prefix_refl _)
  · rintro ⟨hpast, hstep⟩ before r hbefore
    rcases List.prefix_concat_iff.1 hbefore with heq | hbefore
    · obtain ⟨rfl, hr⟩ := List.append_inj' heq rfl
      exact hstep r (List.singleton_inj.1 hr).symm
    · exact hpast before r hbefore

theorem mirrors_after {start : Instant} {script : List Step} {key : String} (h : AgreedOn key start script) :
    Cell.Mirrors (after start script).now ((after start script).entry key) ((after start script).row key) := by
  induction script using List.reverseRecOn with
  | nil => exact Cell.mirrors_empty start _
  | append_singleton past step ih =>
    obtain ⟨hagreed, hstep⟩ := agreedOn_append_singleton.1 h
    have hpast := ih hagreed
    rw [after_append_singleton]
    cases step with
    | wait span => exact hpast.later (Instant.le_advance _ span)
    | request r =>
      rw [entry_next, row_next]
      by_cases hk : key = r.key
      · subst hk
        have hsame := hstep r rfl rfl
        rw [entryAnswer_eq, rowAnswer_eq] at hsame
        rw [if_pos rfl, if_pos rfl]
        exact hpast.perform hsame
      · rw [if_neg hk, if_neg hk]
        exact hpast

end Tandem

open Tandem in
/-- Two empty caches that are asked the same always answer, and the one in the table shows and finds nothing that the
one in memory does not show and find.  Where they answer differently on a key for the first time, the entry in memory
has not expired, and is to expire in the running millisecond. -/
theorem rows_end_first (start : Instant) (script : List Step) (r : Request) :
    let s := after start script
    (∃ a b, s.entryAnswer r = .ok a ∧ s.rowAnswer r = .ok b) ∧
    (∀ v, s.rowAnswer r = .ok (.value (some v)) → s.entryAnswer r = .ok (.value (some v))) ∧
    (s.rowAnswer r = .ok (.flag true) → s.entryAnswer r = .ok (.flag true)) ∧
    (AgreedOn r.key start script → s.entryAnswer r ≠ s.rowAnswer r →
      ∃ e, s.memory.find? r.key = some e ∧ s.now < e.expiresAt ∧ s.now.millis = e.expiresAt.millis) := by
  intro s
  have hcovers : Cell.Covers s.now (s.entry r.key) (s.row r.key) := covers_after start script r.key
  have hentry : s.entryAnswer r = .ok (r.answer ((s.entry r.key).live s.now)) := by
    rw [entryAnswer_eq, Cell.perform_answer]
    rfl
  have hrow : s.rowAnswer r = .ok (r.answer ((s.row r.key).live s.now)) := by
    rw [rowAnswer_eq, Cell.perform_answer]
    rfl
  have hanswer {a : Answer} (ha : (∃ v, a = .value (some v)) ∨ a = .flag true) (hr : s.rowAnswer r = .ok a) :
      s.entryAnswer r = .ok a := by
    rw [hrow] at hr
    rw [hentry, Request.answer_of_live (hcovers s.now · (Int.le_refl _)) ha (Except.ok.inj hr)]
  refine ⟨⟨_, _, hentry, hrow⟩, fun v => hanswer (.inl ⟨v, rfl⟩), hanswer (.inr rfl), fun hagreed hne => ?_⟩
  · rw [entryAnswer_eq, rowAnswer_eq] at hne
    exact (mirrors_after hagreed).expiring hcovers hne

open Tandem in
/-- Before 1970, an entry that is found in its last half millisecond, and its row, which is not. -/
theorem rows_end_first_negative :
    let start : Instant := ⟨-2000000, by decide⟩
    let script : List Step := [.request (.set "k" "v" ⟨1500000⟩), .wait ⟨1200000⟩]
    let s := after start script
    AgreedOn "k" start script ∧ s.entryAnswer (.expire "k" ⟨60⟩) = .ok (.flag true) ∧
      s.rowAnswer (.expire "k" ⟨60⟩) = .ok (.flag false) ∧
      ∃ e, s.memory.find? "k" = some e ∧ s.now < e.expiresAt ∧ s.now.millis = e.expiresAt.millis := by
  intro start script s
  have hagreed : AgreedOn "k" start script := by
    have hset : AgreedOn "k" start ([] ++ [.request (.set "k" "v" ⟨1500000⟩)]) := by
      refine agreedOn_append_singleton.2 ⟨agreedOn_nil _ _, ?_⟩
      rintro r hr -
      cases hr
      rfl
    refine agreedOn_append_singleton.2 ⟨hset, ?_⟩
    rintro r hr
    cases hr
  have hentry : s.entryAnswer (.expire "k" ⟨60⟩) = .ok (.flag true) := rfl
  have hrow : s.rowAnswer (.expire "k" ⟨60⟩) = .ok (.flag false) := rfl
  have hne : s.entryAnswer (.expire "k" ⟨60⟩) ≠ s.rowAnswer (.expire "k" ⟨60⟩) := by
    rw [hentry, hrow]
    decide
  exact ⟨hagreed, hentry, hrow, (rows_end_first start script (.expire "k" ⟨60⟩)).2.2.2 hagreed hne⟩

end VaultChat.Session
