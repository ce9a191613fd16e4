/-!
# Readers

A reader takes a value off the front of a list of symbols, or fails.  After a failure the alternative starts at the
same place.  `exactly_eq_some_iff` says what it takes to read given symbols.
-/

namespace VaultChat.Text

abbrev Reader (σ : Type) := StateT (List σ) Option

namespace Reader

variable {σ α : Type}

/-- The next symbol, which has to satisfy `p`. -/
def one (p : σ → Bool) : Reader σ σ
  | c :: cs => if p c then some (c, cs) else none
  | [] => none

/-- The given symbols. -/
def exactly [DecidableEq σ] : List σ → Reader σ Unit
  | [], cs => some ((), cs)
  | _ :: _, [] => none
  | t :: ts, c :: cs => if t = c then exactly ts cs else none

/-- The longest run, possibly empty, of symbols that satisfy `p`. -/
def run (p : σ → Bool) : Reader σ (List σ) := fun cs => some (cs.takeWhile p, cs.dropWhile p)

/-- A run of at least one symbol. -/
def run1 (p : σ → Bool) : Reader σ (List σ) := do return (← one p) :: (← run p)

/-- What `r` reads, if it succeeds. -/
def perhaps (r : Reader σ α) : Reader σ (Option α) := fun cs =>
  match r cs with
  | some (a, rest) => some (some a, rest)
  | none => some (none, cs)

/-- Succeeds where `r` does, and takes nothing. -/
def ahead (r : Reader σ α) : Reader σ Unit := fun cs => (r cs).map fun _ => ((), cs)

/-- The end of the list. -/
def finished : Reader σ Unit := fun cs => if cs.isEmpty then some ((), []) else none

/-- Values one after another, as many as there are but no more than there are symbols in the first list. -/
def upTo (r : Reader σ α) : List σ → Reader σ (List α)
  | [], cs => some ([], cs)
  | _ :: fuel, cs =>
    match r cs with
    | none => some ([], cs)
    | some (a, rest) => (upTo r fuel rest).map fun (l, rest) => (a :: l, rest)

/-- Values one after another, each of which takes up some symbols. -/
def many (r : Reader σ α) : Reader σ (List α) := fun cs => upTo r cs cs

/-- Values with `between` between them, at least one. -/
def separated (between : Reader σ Unit) (r : Reader σ α) : Reader σ (List α) := do
  return (← r) :: (← many (between *> r))

/-- The symbols that `r` takes. -/
def taken (r : Reader σ α) : Reader σ (List σ) := fun cs =>
  (r cs).map fun (_, rest) => (cs.take (cs.length - rest.length), rest)

/-- The value that `r` reads out of all of a list. -/
def all? (r : Reader σ α) (cs : List σ) : Option α := ((r <* finished) cs).map Prod.fst

theorem exactly_eq_some_iff [DecidableEq σ] {t cs rest : List σ} :
    exactly t cs = some ((), rest) ↔ cs = t ++ rest := by
  induction t generalizing cs with
  | nil => simp [exactly]
  | cons c t ih =>
    cases cs with
    | nil => simp [exactly]
    | cons d cs =>
      by_cases h : c = d
      · simp [exactly, h, ih]
      · simp [exactly, h, Ne.symm h]

end Reader

end VaultChat.Text
