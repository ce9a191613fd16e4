import VaultChat.Proofs.Cells

/-!
# Requests to a cache

The operations of a cache as data.  `Cache.answers` tells what a cache answers to a list of requests with stretches of
time between them.  A request acts on the cell of its key only (`perform_actsOn`), and is answered from what this cell
shows (`Cell.perform_answer`).  What a user's session is asked is a request for the key of that user
(`performFor_eq`).
-/

namespace VaultChat.Session

/-- What a cache can be asked. -/
inductive Request where
  | get (key : String)
  | set (key value : String) (ttl : Span)
  | delete (key : String)
  | expire (key : String) (ttl : Span)

/-- What is answered to a request that succeeds. -/
inductive Answer where
  | value (v : Option String)
  | stored
  | flag (b : Bool)
  deriving DecidableEq

namespace Request

def key : Request → String
  | .get key | .set key .. | .delete key | .expire key _ => key

/-- How long something is asked to live. -/
def ttl? : Request → Option Span
  | .set _ _ ttl | .expire _ ttl => some ttl
  | .get _ | .delete _ => none

/-- The answer, if this is the value that has not expired. -/
def answer (live : Option String) : Request → Answer
  | .get _ => .value live
  | .set .. => .stored
  | .delete _ | .expire .. => .flag live.isSome

end Request

/-- The answer and the contents that are left. -/
def Cache.perform {σ : Type} (cache : Cache σ) (now : Instant) : Request → σ → Except Error Answer × σ
  | .get key, s => ((cache.get now key s).1.map .value, (cache.get now key s).2)
  | .set key value ttl, s =>
    ((cache.set now key value ttl s).1.map fun _ => .stored, (cache.set now key value ttl s).2)
  | .delete key, s => ((cache.delete now key s).1.map .flag, (cache.delete now key s).2)
  | .expire key ttl, s => ((cache.expire now key ttl s).1.map .flag, (cache.expire now key ttl s).2)

/-- What a request does to the cell of its key. -/
def Cell.perform (now : Instant) : Request → Cell → Except Error Answer × Cell
  | .get _, c => ((c.get now).1.map .value, (c.get now).2)
  | .set _ value ttl, c => ((c.set now value ttl).1.map fun _ => .stored, (c.set now value ttl).2)
  | .delete _, c => ((c.delete now).1.map .flag, (c.delete now).2)
  | .expire _ ttl, c => ((c.expire now ttl).1.map .flag, (c.expire now ttl).2)

/-- Nothing but the live value tells how a request is answered. -/
theorem Cell.perform_answer (c : Cell) (now : Instant) (r : Request) :
    (c.perform now r).1 = c.answer (r.answer (c.live now)) := by
  cases r with
  | expire key ttl =>
    show Except.map Answer.flag (c.expire now ttl).1 = _
    cases hl : c.live now with
    | some v =>
      rw [expire_of_live hl]
      cases c <;> rfl
    | none =>
      rw [answer_expire_of_expired hl]
      cases c <;> rfl
  | get | set | delete => cases c <;> rfl

private theorem actsOn_map {α : Type} {key : String} {op : Storage → Except Error α × Storage}
    {f : Cell → Except Error α × Cell} (g : α → Answer) (h : ActsOn key op f) :
    ActsOn key (fun s => ((op s).1.map g, (op s).2)) (fun c => ((f c).1.map g, (f c).2)) := by
  intro s
  obtain ⟨hanswer, hcells⟩ := h s
  exact ⟨congrArg (Except.map g) hanswer, hcells⟩

theorem perform_actsOn (now : Instant) (r : Request) :
    ActsOn r.key (storageCache.perform now r) (Cell.perform now r) := by
  cases r with
  | get key => exact actsOn_map _ (get_actsOn now key)
  | set key value ttl => exact actsOn_map _ (set_actsOn now key value ttl)
  | delete key => exact actsOn_map _ (delete_actsOn now key)
  | expire key ttl => exact actsOn_map _ (expire_actsOn now key ttl)

/-- Storage in memory is the cache in memory. -/
theorem perform_memory (now : Instant) (r : Request) (m : Memory) : storageCache.perform now r (.memory m) =
    ((memoryCache.perform now r m).1, .memory (memoryCache.perform now r m).2) := by
  cases r <;> rfl

/-- Storage in a table is the cache in the table. -/
theorem perform_table (now : Instant) (r : Request) (t : Table) : storageCache.perform now r (.table t) =
    ((tableCache.perform now r t).1, .table (tableCache.perform now r t).2) := by
  cases r <;> rfl

/-! ### Scripts -/

/-- A request is made, or time passes. -/
inductive Step where
  | request (r : Request)
  | wait (span : Span)

/-- The answers to the requests of a script. -/
def Cache.answers {σ : Type} (cache : Cache σ) : Instant → σ → List Step → List (Except Error Answer)
  | _, _, [] => []
  | now, s, .request r :: script => (cache.perform now r s).1 :: cache.answers now (cache.perform now r s).2 script
  | now, s, .wait span :: script => cache.answers (now.advance span) s script

/-! ### Sessions -/

/-- What can be asked about the session of a user. -/
inductive SessionRequest where
  | get
  | put (token : Token) (ttl : Span)
  | delete
  | touch (ttl : Span)

/-- The request to the cache that it comes down to. -/
def SessionRequest.request (user : UserId) : SessionRequest → Request
  | .get => .get user.sessionKey
  | .put token ttl => .set user.sessionKey token.text ttl
  | .delete => .delete user.sessionKey
  | .touch ttl => .expire user.sessionKey ttl

def Cache.performFor {σ : Type} (cache : Cache σ) (now : Instant) (user : UserId) :
    SessionRequest → σ → Except Error Answer × σ
  | .get, s =>
    ((cache.session? now user s).1.map fun t => .value (t.map Token.text), (cache.session? now user s).2)
  | .put token ttl, s =>
    ((cache.putSession now user token ttl s).1.map fun _ => .stored, (cache.putSession now user token ttl s).2)
  | .delete, s => ((cache.deleteSession now user s).1.map .flag, (cache.deleteSession now user s).2)
  | .touch ttl, s => ((cache.touchSession now user ttl s).1.map .flag, (cache.touchSession now user ttl s).2)

theorem performFor_eq {σ : Type} (cache : Cache σ) (now : Instant) (user : UserId) (r : SessionRequest) (s : σ) :
    cache.performFor now user r s = cache.perform now (r.request user) s := by
  cases r with
  | put token ttl | delete | touch ttl => rfl
  | get =>
    show (Except.map _ (Except.map _ (cache.get now user.sessionKey s).1), _) = (Except.map _ _, _)
    rcases (cache.get now user.sessionKey s).1 with e | _ | v <;> rfl

end VaultChat.Session
