import VaultChat.Proofs.Saturation
import VaultChat.Session.Storage
import VaultChat.Session.Store
import VaultChat.Text.Numeral

/-!
# Cells

What a storage holds under one key is a cell.  Whatever the storage is kept in, an operation acts on the cell of its
key and leaves every other cell alone (`get_actsOn`, `set_actsOn`, `delete_actsOn`, `expire_actsOn`), and a cell shows
a value at most until the expiry that was asked for.  No two users share a cell (`sessionKey_injective`).
-/

namespace VaultChat

namespace Session

/-- What is stored under one key, in memory or in a row.  A closed cell belongs to a database without its table. -/
inductive Cell where
  | memory (entry : Option MemoryEntry)
  | row (row : Option Row)
  | closed
  deriving DecidableEq

namespace Cell

/-- The value that has not expired. -/
def live (now : Instant) : Cell → Option String
  | .memory (some e) => if now < e.expiresAt then some e.value else none
  | .row (some r) => if now.millis < r.expiresAt then some r.value else none
  | .memory none | .row none | .closed => none

def answer {α : Type} (c : Cell) (a : α) : Except Error α :=
  match c with
  | .closed => .error .database
  | .memory _ | .row _ => .ok a

def clear : Cell → Cell
  | .memory _ => .memory none
  | .row _ => .row none
  | .closed => .closed

def get (now : Instant) (c : Cell) : Except Error (Option String) × Cell :=
  (c.answer (c.live now), if (c.live now).isSome then c else c.clear)

/-- The cell with a value in it that lives for `ttl`. -/
def filled (now : Instant) (value : String) (ttl : Span) : Cell → Cell
  | .memory _ => .memory (some ⟨value, now.expiryAfter ttl⟩)
  | .row _ => .row (some ⟨value, (now.expiryAfter ttl).millis⟩)
  | .closed => .closed

def set (now : Instant) (value : String) (ttl : Span) (c : Cell) : Except Error Unit × Cell :=
  (c.answer (), c.filled now value ttl)

def delete (now : Instant) (c : Cell) : Except Error Bool × Cell := (c.answer (c.live now).isSome, c.clear)

/-- An expired value is dropped from memory only. -/
def expire (now : Instant) (ttl : Span) (c : Cell) : Except Error Bool × Cell :=
  match c.live now, c with
  | some value, c => (c.answer true, c.filled now value ttl)
  | none, .memory _ => (.ok false, .memory none)
  | none, c => (c.answer false, c)

end Cell

/-- The table of the database at a path. -/
def Disk.table? (p : Path) (d : Disk) : Option Table :=
  match d.node? p with
  | some (.database t) => t
  | _ => none

def Storage.cell (key : String) : Storage → Cell
  | .memory m => .memory (m.find? key)
  | .table t => .row (t.find? key)
  | .disk p d =>
    match d.table? p with
    | some t => .row (t.find? key)
    | none => .closed

/-- Nothing is stored under any key. -/
def Storage.Empty (s : Storage) : Prop := ∀ key, (s.cell key).clear = s.cell key

/-- The operation does to the cell of the key what `f` does, and nothing to other cells. -/
def ActsOn {α : Type} (key : String) (op : Storage → Except Error α × Storage)
    (f : Cell → Except Error α × Cell) : Prop :=
  ∀ s, (op s).1 = (f (s.cell key)).1 ∧ ∀ k, (op s).2.cell k = if k = key then (f (s.cell key)).2 else s.cell k

theorem ActsOn.own {α : Type} {key : String} {op : Storage → Except Error α × Storage}
    {f : Cell → Except Error α × Cell} (h : ActsOn key op f) (s : Storage) :
    (op s).2.cell key = (f (s.cell key)).2 := by
  rw [(h s).2, if_pos rfl]

theorem ActsOn.other {α : Type} {key k : String} {op : Storage → Except Error α × Storage}
    {f : Cell → Except Error α × Cell} (h : ActsOn key op f) (s : Storage) (hk : k ≠ key) :
    (op s).2.cell k = s.cell k := by
  rw [(h s).2, if_neg hk]

private theorem onTable_of_table? {α : Type} {p : Path} {d : Disk} {t : Table}
    (op : Table → Except Error α × Table) (h : d.table? p = some t) :
    d.onTable p op = ((op t).1, d.put p (.database (some (op t).2))) := by
  unfold Disk.table? at h
  unfold Disk.onTable
  split at h
  · rename_i hn
    rw [hn, h]
  · cases h

private theorem onTable_of_table?_none {α : Type} {p : Path} {d : Disk}
    (op : Table → Except Error α × Table) (h : d.table? p = none) : d.onTable p op = (.error .database, d) := by
  unfold Disk.table? at h
  unfold Disk.onTable
  split
  · rename_i hn
    rw [hn] at h
    cases h
  · rfl

theorem Disk.table?_put {p : Path} (hp : p ≠ []) (d : Disk) (t : Table) :
    (d.put p (.database (some t))).table? p = some t := by
  simp only [Disk.table?, Disk.node?, if_neg hp, Disk.put, KeyMap.find?_insert, if_true]

private theorem ne_nil_of_table? {p : Path} {d : Disk} {t : Table} (h : d.table? p = some t) : p ≠ [] := by
  rintro rfl
  cases h

/-- It is enough to know what an operation does to entries in memory and to rows. -/
private theorem actsOn_intro {α : Type} {key : String} {op : Storage → Except Error α × Storage}
    {f : Cell → Except Error α × Cell} {inMemory : Memory → Except Error α × Memory}
    {inTable : Table → Except Error α × Table}
    (memory : ∀ m, op (.memory m) = ((inMemory m).1, .memory (inMemory m).2))
    (table : ∀ t, op (.table t) = ((inTable t).1, .table (inTable t).2))
    (disk : ∀ p d, op (.disk p d) = ((Disk.onTable p inTable d).1, .disk p (Disk.onTable p inTable d).2))
    (entry : ∀ m, (inMemory m).1 = (f (.memory (m.find? key))).1 ∧
      ∀ k, Cell.memory ((inMemory m).2.find? k) =
        if k = key then (f (.memory (m.find? key))).2 else .memory (m.find? k))
    (row : ∀ t, (inTable t).1 = (f (.row (t.find? key))).1 ∧
      ∀ k, Cell.row ((inTable t).2.find? k) = if k = key then (f (.row (t.find? key))).2 else .row (t.find? k))
    (closed : f .closed = (.error .database, .closed)) : ActsOn key op f := by
  intro s
  cases s with
  | memory m =>
    rw [memory]
    exact entry m
  | table t =>
    rw [table]
    exact row t
  | disk p d =>
    rw [disk]
    cases h : d.table? p with
    | some t =>
      have hcell : ∀ k, (Storage.disk p d).cell k = .row (t.find? k) := fun k => by rw [Storage.cell, h]
      rw [onTable_of_table? inTable h, hcell key]
      refine ⟨(row t).1, fun k => ?_⟩
      rw [Storage.cell, Disk.table?_put (ne_nil_of_table? h), hcell k]
      exact (row t).2 k
    | none =>
      have hcell : ∀ k, (Storage.disk p d).cell k = .closed := fun k => by rw [Storage.cell, h]
      rw [onTable_of_table?_none inTable h, hcell key, closed]
      refine ⟨rfl, fun k => ?_⟩
      rw [hcell k]
      split <;> rfl

theorem get_actsOn (now : Instant) (key : String) : ActsOn key (storageCache.get now key) (Cell.get now) := by
  refine actsOn_intro (fun m => rfl) (fun t => rfl) (fun p d => rfl) (fun m => ?_) (fun t => ?_) rfl
  · simp only [memoryCache, Memory.get, Cell.get, Cell.live, Cell.answer]
    cases h : m.find? key with
    | none => simp +contextual [Cell.clear, h]
    | some e =>
      by_cases hl : now < e.expiresAt
      · simp +contextual [hl, h]
      · simp only [hl, if_false, KeyMap.find?_erase, true_and]
        intro k
        split <;> rfl
  · simp only [tableCache, Table.get, Cell.get, Cell.live, Cell.answer]
    cases h : t.find? key with
    | none => simp +contextual [Cell.clear, h]
    | some r =>
      by_cases hl : now.millis < r.expiresAt
      · simp +contextual [hl, h]
      · have hd : (Table.deleteWhere key (fun r => decide (r.expiresAt ≤ now.millis)) t) = (1, t.erase key) := by
          simp only [Table.deleteWhere, h, decide_eq_true (Int.not_lt.1 hl), if_true]
        simp only [hl, if_false, hd, KeyMap.find?_erase, true_and]
        intro k
        split <;> rfl

theorem set_actsOn (now : Instant) (key value : String) (ttl : Span) :
    ActsOn key (storageCache.set now key value ttl) (Cell.set now value ttl) := by
  refine actsOn_intro (fun m => rfl) (fun t => rfl) (fun p d => rfl) (fun m => ⟨rfl, fun k => ?_⟩)
    (fun t => ⟨rfl, fun k => ?_⟩) rfl
  · simp only [memoryCache, Memory.set, KeyMap.find?_insert]
    split <;> rfl
  · simp only [tableCache, Table.set, KeyMap.find?_insert]
    split <;> rfl

theorem delete_actsOn (now : Instant) (key : String) :
    ActsOn key (storageCache.delete now key) (Cell.delete now) := by
  refine actsOn_intro (fun m => rfl) (fun t => rfl) (fun p d => rfl) (fun m => ?_) (fun t => ?_) rfl
  · simp only [memoryCache, Memory.delete, Cell.delete, Cell.live, Cell.answer]
    cases h : m.find? key with
    | none => simp +contextual [Cell.clear, h]
    | some e =>
      refine ⟨?_, fun k => ?_⟩
      · by_cases hl : now < e.expiresAt <;> simp [hl]
      · rw [KeyMap.find?_erase]
        split <;> rfl
  · simp only [tableCache, Table.delete, Cell.delete, Cell.live, Cell.answer]
    cases h : t.find? key with
    | none => simp +contextual [Cell.clear, Table.deleteWhere, h]
    | some r =>
      by_cases hl : now.millis < r.expiresAt
      · simp only [Table.deleteWhere, h, hl, decide_true, if_true, KeyMap.find?_erase, Cell.clear]
        refine ⟨rfl, fun k => ?_⟩
        split <;> rfl
      · simp only [Table.deleteWhere, h, hl, decide_false, Bool.false_eq_true, if_false, if_true, KeyMap.find?_erase,
          Cell.clear]
        refine ⟨rfl, fun k => ?_⟩
        split <;> rfl

theorem expire_actsOn (now : Instant) (key : String) (ttl : Span) :
    ActsOn key (storageCache.expire now key ttl) (Cell.expire now ttl) := by
  refine actsOn_intro (fun m => rfl) (fun t => rfl) (fun p d => rfl) (fun m => ?_) (fun t => ?_) rfl
  · simp only [memoryCache, Memory.expire, Cell.expire, Cell.live]
    cases h : m.find? key with
    | none => simp +contextual [h]
    | some e =>
      by_cases hl : now < e.expiresAt
      · simp only [hl, if_true, KeyMap.find?_insert, Cell.answer, Cell.filled, true_and]
        intro k
        split <;> rfl
      · simp only [hl, if_false, KeyMap.find?_erase, true_and]
        intro k
        split <;> rfl
  · simp only [tableCache, Table.expire, Cell.expire, Cell.live, Table.updateWhere]
    cases h : t.find? key with
    | none => simp +contextual [Cell.answer, h]
    | some r =>
      by_cases hl : now.millis < r.expiresAt
      · simp only [hl, decide_true, if_true, KeyMap.find?_insert, Cell.answer, Cell.filled]
        refine ⟨rfl, fun k => ?_⟩
        split <;> rfl
      · simp +contextual [hl, Cell.answer, h]

/-! ### What a cell shows -/

namespace Cell

variable {c : Cell} {now t : Instant} {v w : String} {ttl : Span}

@[simp] theorem live_clear (c : Cell) (now : Instant) : c.clear.live now = none := by
  cases c <;> rfl

/-- What is shown now was shown before. -/
theorem live_of_le (h : now ≤ t) (hl : c.live t = some v) : c.live now = some v := by
  rcases c with ⟨_ | e⟩ | ⟨_ | r⟩ | _
  · cases hl
  · simp only [live, Option.ite_none_right_eq_some, Option.some.injEq] at hl ⊢
    exact ⟨Instant.lt_iff.2 (Int.lt_of_le_of_lt h hl.1), hl.2⟩
  · cases hl
  · simp only [live, Option.ite_none_right_eq_some, Option.some.injEq] at hl ⊢
    exact ⟨Int.lt_of_le_of_lt (Instant.millis_le_millis h) hl.1, hl.2⟩
  · cases hl

theorem live_none_of_le (h : now ≤ t) (hl : c.live now = none) : c.live t = none := by
  cases ht : c.live t with
  | none => rfl
  | some v =>
    rw [live_of_le h ht] at hl
    cases hl

theorem live_filled (h : (c.filled now v ttl).live t = some w) : w = v ∧ t < now.expiryAfter ttl := by
  cases c with
  | memory e =>
    simp only [filled, live, Option.ite_none_right_eq_some, Option.some.injEq] at h
    exact ⟨h.2.symm, h.1⟩
  | row r =>
    simp only [filled, live, Option.ite_none_right_eq_some, Option.some.injEq] at h
    refine ⟨h.2.symm, ?_⟩
    by_cases hle : now.expiryAfter ttl ≤ t
    · have := Instant.millis_le_millis hle
      omega
    · exact Instant.lt_iff.2 (Int.not_le.1 hle)
  | closed => cases h

/-- A look-up changes nothing that can be seen later. -/
theorem live_get (h : now ≤ t) : (c.get now).2.live t = c.live t := by
  unfold get
  cases hl : c.live now with
  | none => simp [live_none_of_le h hl]
  | some v => rfl

theorem live_expire (h : now ≤ t) (hl : (c.expire now ttl).2.live t = some w) :
    c.live now = some w ∧ t < now.expiryAfter ttl := by
  unfold expire at hl
  cases hn : c.live now with
  | some v =>
    rw [hn] at hl
    obtain ⟨rfl, ht⟩ := live_filled hl
    exact ⟨rfl, ht⟩
  | none =>
    rw [hn] at hl
    have ht := live_none_of_le h hn
    cases c with
    | memory e => cases hl
    | row r | closed => rw [ht] at hl; cases hl

theorem expire_of_live (h : c.live now = some v) (ttl : Span) :
    c.expire now ttl = (c.answer true, c.filled now v ttl) := by
  unfold expire
  rw [h]

theorem answer_expire_of_expired (h : c.live now = none) (ttl : Span) : (c.expire now ttl).1 = c.answer false := by
  unfold expire
  rw [h]
  cases c <;> rfl

/-- In memory, what is found expired is dropped. -/
theorem expire_memory_of_expired {e : Option MemoryEntry} (h : (Cell.memory e).live now = none) (ttl : Span) :
    (Cell.memory e).expire now ttl = (.ok false, .memory none) := by
  unfold expire
  rw [h]

/-- What has expired is not extended. -/
theorem live_expire_of_expired (h : c.live now = none) (ht : now ≤ t) (ttl : Span) :
    (c.expire now ttl).2.live t = none := by
  cases hl : (c.expire now ttl).2.live t with
  | none => rfl
  | some w =>
    rw [(live_expire ht hl).1] at h
    cases h

end Cell

end Session

/-! ### Whose cell -/

/-- The digits of a number are read back as the number. -/
theorem Text.digitsValue_toDigits (n : Nat) : digitsValue 0 (Nat.toDigits 10 n) = n := by
  -- The last digit is split off, and the others are those of `n / 10`.
  induction n using Nat.strongRecOn with
  | ind n ih =>
    have hd : ∀ d, d < 10 → digitValue (Nat.digitChar d) = d := fun d h => by
      rw [digitValue, Nat.toNat_digitChar_of_lt_ten h]
      exact Nat.add_sub_cancel_left 48 d
    rw [Nat.toDigits_eq_if (by decide)]
    split
    · rename_i h
      show 10 * 0 + digitValue (Nat.digitChar n) = n
      rw [hd n h]
      omega
    · rename_i h
      have hq := ih (n / 10) (by omega)
      rw [digitsValue, List.foldl_append] at *
      show 10 * List.foldl _ 0 (Nat.toDigits 10 (n / 10)) + digitValue (Nat.digitChar (n % 10)) = n
      rw [hq, hd _ (Nat.mod_lt _ (by decide))]
      omega

namespace UserId

theorem username_injective {u v : UserId} (h : u.username = v.username) : u = v := by
  have hd : Nat.toDigits 10 u.number.toNat = Nat.toDigits 10 v.number.toNat := by
    have := congrArg String.toList h
    simpa [username, Nat.toString_eq_ofList_toDigits] using this
  have hn := congrArg (Text.digitsValue 0) hd
  rw [Text.digitsValue_toDigits, Text.digitsValue_toDigits] at hn
  cases u
  cases v
  rw [UserId.mk.injEq]
  exact UInt64.toNat_inj.1 hn

theorem sessionKey_injective {u v : UserId} (h : u.sessionKey = v.sessionKey) : u = v := by
  apply username_injective
  have hl := congrArg String.toList h
  simp only [sessionKey, String.toList_append, List.append_cancel_left_eq] at hl
  exact String.toList_inj.1 hl

theorem sessionKey_ne {u v : UserId} (h : u ≠ v) : u.sessionKey ≠ v.sessionKey :=
  fun hk => h (sessionKey_injective hk)

end UserId

namespace Session

/-- What a look-up of a session finds is what the cell of the user shows. -/
theorem session?_cell (now : Instant) (user : UserId) (s : Storage) : (storageCache.session? now user s).1 =
    ((s.cell user.sessionKey).answer ((s.cell user.sessionKey).live now)).map (·.map Token.mk) :=
  congrArg (Except.map _) (get_actsOn now user.sessionKey s).1

end Session

end VaultChat
