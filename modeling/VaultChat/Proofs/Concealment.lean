import Mathlib.Data.List.TakeWhile
import VaultChat.Console.Line
import VaultChat.Text.Numeral

/-!
# What a terminal shows of a secret

A terminal that knows the sequences for graphic renditions, and of these the ones about concealment, shows every other
character it gets, concealed or openly.  Sequences in a text are obeyed like those around it: `shown_concealed_iff`
says which texts stay concealed when a sensitive message is rendered, and `password_uncovered` that not all of them
do.  Concealment ends with the message in any case.
-/

namespace VaultChat.Console

open Text

/-! ### Sequences -/

/-- The character that sequences start with. -/
def escape : Char := '\x1b'

/-- Parameters are numerals, with semicolons between them. -/
def isParameter (c : Char) : Bool := isDigit c || c == ';'

/-- The sequence that selects a graphic rendition by these parameters. -/
def selection (ps : List Char) : List Char := escape :: '[' :: (ps ++ ['m'])

/-- The parameters of the sequence that a text starts with, and what follows the sequence. -/
def selection? : List Char → Option (List Char × List Char)
  | '\x1b' :: '[' :: cs =>
    match cs.dropWhile isParameter with
    | 'm' :: rest => some (cs.takeWhile isParameter, rest)
    | _ => none
  | _ => none

/-- Concealment after a parameter, which is taken by itself. -/
def switch (concealed : Bool) : Nat → Bool
  | 8 => true
  | 0 | 28 => false
  | _ => concealed

/-- The numbers among parameters.  An empty one is a zero. -/
def numbers (ps : List Char) : List Nat := (ps.splitOn ';').map (digitsValue 0)

def switchAll (concealed : Bool) (ps : List Char) : Bool := (numbers ps).foldl switch concealed

section selection

variable {c : Char} {ps cs rest : List Char}

theorem selection?_eq_some_iff : selection? cs = some (ps, rest) ↔
    (∀ c ∈ ps, isParameter c = true) ∧ cs = selection ps ++ rest := by
  constructor
  · intro h
    unfold selection? at h
    split at h
    · rename_i cs
      split at h
      · rename_i rest' hdrop
        cases h
        refine ⟨fun c hc => List.mem_takeWhile_imp hc, ?_⟩
        have hsplit : cs.takeWhile isParameter ++ cs.dropWhile isParameter = cs := List.takeWhile_append_dropWhile
        rw [hdrop] at hsplit
        rw [selection, List.cons_append, List.cons_append, List.append_assoc]
        exact congrArg (escape :: '[' :: ·) hsplit.symm
      · cases h
    · cases h
  · rintro ⟨hps, rfl⟩
    have hstop : isParameter 'm' = false := by decide
    have hdrop : (ps ++ 'm' :: rest).dropWhile isParameter = 'm' :: rest := by
      rw [List.dropWhile_append_of_pos hps, List.dropWhile_cons_of_neg (ne_true_of_eq_false hstop)]
    have htake : (ps ++ 'm' :: rest).takeWhile isParameter = ps := by
      rw [List.takeWhile_append_of_pos hps, List.takeWhile_cons_of_neg (ne_true_of_eq_false hstop), List.append_nil]
    have hcs : selection ps ++ rest = '\x1b' :: '[' :: (ps ++ 'm' :: rest) := by
      simp [selection, escape]
    rw [hcs, selection?, hdrop]
    exact congrArg (fun as => some (as, rest)) htake

theorem length_lt_of_selection? {p : List Char × List Char} (h : selection? cs = some p) :
    p.2.length < cs.length := by
  obtain ⟨-, rfl⟩ := selection?_eq_some_iff.1 h
  simp only [selection, List.length_append, List.length_cons]
  omega

/-- A sequence starts with its escape character. -/
theorem selection?_cons_of_ne (h : c ≠ escape) : selection? (c :: cs) = none := by
  refine Option.eq_none_iff_forall_ne_some.2 fun p hp => h ?_
  exact (List.cons.inj (selection?_eq_some_iff.1 hp).2).1

theorem escape_not_mem (hps : ∀ c ∈ ps, isParameter c = true) : escape ∉ '[' :: (ps ++ ['m']) := by
  have hparameter : isParameter escape = false := by decide
  intro h
  simp only [List.mem_cons, List.mem_append, List.not_mem_nil, or_false] at h
  rcases h with h | h | h
  · exact absurd h (by decide)
  · exact absurd (hps _ h) (ne_true_of_eq_false hparameter)
  · exact absurd h (by decide)

/-- No sequence goes on past the start of the next one. -/
theorem selection?_append_escape (c : Char) (as bs : List Char) : selection? (c :: as ++ escape :: bs) =
    (selection? (c :: as)).map fun p => (p.1, p.2 ++ escape :: bs) := by
  refine Option.ext fun ⟨ps, rest⟩ => ?_
  simp only [Option.map_eq_some_iff, Prod.exists, Prod.mk.injEq, selection?_eq_some_iff]
  constructor
  · rintro ⟨hps, hcs⟩
    obtain ⟨xs, hselection, hrest⟩ | ⟨xs, has, rfl⟩ := List.append_eq_append_iff.1 hcs
    · -- The escape character would be one behind the first of the sequence.
      cases xs with
      | nil =>
        rw [List.append_nil] at hselection
        exact ⟨ps, [], ⟨hps, by rw [List.append_nil, hselection]⟩, rfl, hrest⟩
      | cons x xs =>
        obtain ⟨rfl, -⟩ := List.cons.inj hrest
        have htail : '[' :: (ps ++ ['m']) = as ++ escape :: xs := (List.cons.inj hselection).2
        refine absurd ?_ (escape_not_mem hps)
        rw [htail]
        exact List.mem_append_right as List.mem_cons_self
    · exact ⟨ps, xs, ⟨hps, has⟩, rfl, rfl⟩
  · rintro ⟨_, rest, ⟨hps, hcs⟩, rfl, rfl⟩
    exact ⟨hps, by rw [hcs, List.append_assoc]⟩

end selection

/-! ### The terminal -/

/-- A character as it is shown. -/
structure Glyph where
  char : Char
  concealed : Bool
  deriving DecidableEq

/-- What a terminal shows of a text, and whether there is concealment behind it.  What is no complete sequence is
shown as it is. -/
def display (concealed : Bool) (cs : List Char) : List Glyph × Bool :=
  match _h : selection? cs with
  | some p => display (switchAll concealed p.1) p.2
  | none =>
    match cs with
    | [] => ([], concealed)
    | c :: cs => (⟨c, concealed⟩ :: (display concealed cs).1, (display concealed cs).2)
termination_by cs.length
decreasing_by
  · exact length_lt_of_selection? _h
  · exact Nat.lt_succ_self _

/-- Characters that are shown alike. -/
def glyphs (concealed : Bool) (cs : List Char) : List Glyph := cs.map (⟨·, concealed⟩)

/-- What is shown of one text, and behind it of another one. -/
def joined (shown : List Glyph × Bool) (after : Bool → List Glyph × Bool) : List Glyph × Bool :=
  (shown.1 ++ (after shown.2).1, (after shown.2).2)

theorem joined_joined (shown : List Glyph × Bool) (f g : Bool → List Glyph × Bool) :
    joined (joined shown f) g = joined shown fun concealed => joined (f concealed) g :=
  Prod.ext (List.append_assoc _ _ _) rfl

section display

variable {concealed : Bool} {c : Char} {ps as cs : List Char}

theorem display_nil : display concealed [] = ([], concealed) := by
  rw [display.eq_def]
  rfl

theorem display_selection (hps : ∀ c ∈ ps, isParameter c = true) (cs : List Char) :
    display concealed (selection ps ++ cs) = display (switchAll concealed ps) cs := by
  have h : selection? (selection ps ++ cs) = some (ps, cs) := selection?_eq_some_iff.2 ⟨hps, rfl⟩
  rw [display.eq_def]
  split
  · rename_i p hp
    obtain rfl := Option.some.inj (h.symm.trans hp)
    rfl
  · rename_i hnone
    cases h.symm.trans hnone

theorem display_cons (h : selection? (c :: cs) = none) :
    display concealed (c :: cs) = joined ([⟨c, concealed⟩], concealed) (display · cs) := by
  rw [display.eq_def]
  split
  · rename_i p hp
    cases h.symm.trans hp
  · rfl

/-- A text is shown up to the next escape character as if it ended there. -/
theorem display_append_escape (concealed : Bool) (as bs : List Char) :
    display concealed (as ++ escape :: bs) = joined (display concealed as) (display · (escape :: bs)) := by
  induction concealed, as using display.induct with
  | case1 concealed as p h ih =>
    obtain ⟨hps, rfl⟩ := selection?_eq_some_iff.1 h
    rw [List.append_assoc, display_selection hps, display_selection hps, ih]
  | case2 concealed => rw [display_nil]; rfl
  | case3 concealed c as h ih =>
    have happend : selection? (c :: (as ++ escape :: bs)) = none := by
      have hselection := selection?_append_escape c as bs
      rwa [h] at hselection
    rw [List.cons_append, display_cons happend, display_cons h, joined_joined]
    exact congrArg (fun r => joined ([⟨c, concealed⟩], concealed) fun _ => r) ih

/-- Without escape characters, all of a text is shown alike. -/
theorem display_of_not_mem (h : escape ∉ as) : display concealed as = (glyphs concealed as, concealed) := by
  induction as with
  | nil => exact display_nil
  | cons c as ih =>
    have hc : c ≠ escape := fun hc => h (hc ▸ List.mem_cons_self)
    have has : escape ∉ as := fun has => h (List.mem_cons_of_mem c has)
    rw [display_cons (selection?_cons_of_ne hc), joined, ih has]
    rfl

end display

/-! ### What uncovers a text -/

/-- The first character that is shown of the text is shown openly, after the sequences in front of it. -/
inductive OpensWith : Bool → List Char → Prop where
  | char {c : Char} {cs : List Char} (h : selection? (c :: cs) = none) : OpensWith false (c :: cs)
  | selection {concealed : Bool} {ps cs : List Char} (hps : ∀ c ∈ ps, isParameter c = true)
      (h : OpensWith (switchAll concealed ps) cs) : OpensWith concealed (selection ps ++ cs)

/-- Somewhere in the text there are sequences that switch concealment off, followed by a character that is shown. -/
def Uncovers (text : List Char) : Prop := ∃ before rest, text = before ++ rest ∧ OpensWith true rest

section uncovers

variable {concealed : Bool} {cs : List Char}

theorem switchAll_mono {b b' : Bool} (h : b ≤ b') (ps : List Char) : switchAll b ps ≤ switchAll b' ps := by
  have hswitch {b b' : Bool} (h : b ≤ b') (n : Nat) : switch b n ≤ switch b' n := by
    unfold switch
    split
    · exact Bool.le_refl _
    · exact Bool.le_refl _
    · exact Bool.le_refl _
    · exact h
  rw [switchAll, switchAll]
  generalize numbers ps = ns
  induction ns generalizing b b' with
  | nil => exact h
  | cons n ns ih => exact ih (hswitch h n)

/-- With less concealment to start with, no less is open. -/
theorem OpensWith.mono {b b' : Bool} (h : OpensWith b' cs) (hle : b ≤ b') : OpensWith b cs := by
  induction h generalizing b with
  | char h =>
    obtain rfl : b = false := Bool.eq_false_of_le_false hle
    exact .char h
  | selection hps _ ih => exact .selection hps (ih (switchAll_mono hle _))

theorem OpensWith.exists_shown (h : OpensWith concealed cs) :
    ∃ g ∈ (display concealed cs).1, g.concealed = false := by
  induction h with
  | char h =>
    rw [display_cons h]
    exact ⟨_, List.mem_cons_self, rfl⟩
  | selection hps _ ih => rwa [display_selection hps]

/-- Only a sequence opens a text that is concealed. -/
theorem OpensWith.exists_escape (h : OpensWith true cs) : ∃ bs, cs = escape :: bs := by
  cases h with
  | selection => exact ⟨_, rfl⟩

/-- A character that is shown openly is the first of the text, or the text uncovers it. -/
theorem opensWith_or_uncovers (h : ∃ g ∈ (display concealed cs).1, g.concealed = false) :
    OpensWith concealed cs ∨ Uncovers cs := by
  induction concealed, cs using display.induct with
  | case1 concealed cs p hp ih =>
    obtain ⟨hps, rfl⟩ := selection?_eq_some_iff.1 hp
    rw [display_selection hps] at h
    obtain hopens | ⟨before, rest, hsplit, hopens⟩ := ih h
    · exact .inl (.selection hps hopens)
    · exact .inr ⟨selection p.1 ++ before, rest, by rw [hsplit, List.append_assoc], hopens⟩
  | case2 concealed =>
    rw [display_nil] at h
    obtain ⟨g, hg, -⟩ := h
    cases hg
  | case3 concealed c cs hc ih =>
    cases concealed with
    | false => exact .inl (.char hc)
    | true =>
      rw [display_cons hc] at h
      obtain ⟨g, hg, hopen⟩ := h
      have hrest : ∃ g ∈ (display true cs).1, g.concealed = false := by
        rcases List.mem_cons.1 hg with rfl | hg
        · cases hopen
        · exact ⟨g, hg, hopen⟩
      obtain hopens | ⟨before, rest, rfl, hopens⟩ := ih hrest
      · exact .inr ⟨[c], cs, rfl, hopens⟩
      · exact .inr ⟨c :: before, rest, rfl, hopens⟩

theorem Uncovers.exists_shown (h : Uncovers cs) (concealed : Bool) :
    ∃ g ∈ (display concealed cs).1, g.concealed = false := by
  obtain ⟨before, rest, rfl, hopens⟩ := h
  obtain ⟨bs, rfl⟩ := hopens.exists_escape
  obtain ⟨g, hg, hopen⟩ := (hopens.mono (Bool.le_true (display concealed before).2)).exists_shown
  refine ⟨g, ?_, hopen⟩
  rw [display_append_escape]
  exact List.mem_append_right _ hg

/-- Where there is concealment in front of a text, all of the text is concealed unless sequences in it uncover it. -/
theorem all_concealed_iff : (∀ g ∈ (display true cs).1, g.concealed = true) ↔ ¬ Uncovers cs := by
  constructor
  · intro h huncovers
    obtain ⟨g, hg, hopen⟩ := huncovers.exists_shown true
    cases (h g hg).symm.trans hopen
  · intro h g hg
    by_contra hopen
    obtain hopens | huncovers := opensWith_or_uncovers ⟨g, hg, eq_false_of_ne_true hopen⟩
    · exact h ⟨[], cs, rfl, hopens⟩
    · exact h huncovers

end uncovers

/-! ### Sensitive messages -/

theorem toList_rendition (code : Nat) (text : String) : (rendition code text).toList =
    selection (toString code).toList ++ (text.toList ++ selection ['0']) := by
  have hrendition : rendition code text = "\x1b[" ++ toString code ++ "m" ++ text ++ "\x1b[0m" := rfl
  have hstart : "\x1b[".toList = [escape, '['] := rfl
  have hend : "\x1b[0m".toList = selection ['0'] := rfl
  have hm : "m".toList = ['m'] := rfl
  rw [hrendition]
  simp only [String.toList_append, hstart, hend, hm, selection, List.append_assoc, List.cons_append, List.nil_append]

/-- Behind a rendition there is no concealment, whatever was in its text. -/
theorem display_rendition {code : Nat} (hcode : (toString code).toList.all isParameter = true) (concealed : Bool)
    (text : String) (cs : List Char) : display concealed ((rendition code text).toList ++ cs) =
      joined (display (switchAll concealed (toString code).toList) text.toList) fun _ => display false cs := by
  have hzero : ∀ d ∈ ['0'], isParameter d = true := List.forall_mem_singleton.2 rfl
  have hoff (b : Bool) : switchAll b ['0'] = false := rfl
  have hend : text.toList ++ selection ['0'] ++ cs = text.toList ++ escape :: ('[' :: (['0'] ++ ['m']) ++ cs) := by
    rw [List.append_assoc]
    rfl
  rw [toList_rendition, List.append_assoc, display_selection (List.all_eq_true.1 hcode), hend, display_append_escape]
  refine congrArg (joined _) (funext fun b => ?_)
  exact (display_selection hzero cs).trans (congrArg (display · cs) (hoff b))

/-- A sensitive message is shown as a notice and its text, with concealment switched on in front of the text. -/
theorem display_render_hidden (concealed : Bool) (text : String) : display concealed (render (.hidden text)).toList =
    (glyphs concealed "(hidden, select to copy)".toList ++ ⟨' ', false⟩ :: (display true text.toList).1, false) := by
  have hrender : (render (.hidden text)).toList = (rendition 33 "(hidden, select to copy)").toList ++
      ' ' :: ((rendition 8 text).toList ++ []) := by
    simp [render, Chat.Message.hidden]
  have hnotice : display concealed "(hidden, select to copy)".toList =
      (glyphs concealed "(hidden, select to copy)".toList, concealed) := display_of_not_mem (by decide)
  have hsecret : display false ((rendition 8 text).toList ++ []) = ((display true text.toList).1, false) := by
    rw [display_rendition (by decide), display_nil, joined, List.append_nil]
    rfl
  have hafter : display false (' ' :: ((rendition 8 text).toList ++ [])) =
      (⟨' ', false⟩ :: (display true text.toList).1, false) := by
    rw [display_cons (selection?_cons_of_ne (by decide))]
    exact congrArg (fun r => joined ([⟨' ', false⟩], false) fun _ => r) hsecret
  rw [hrender, display_rendition (by decide), hafter]
  exact congrArg (joined · _) hnotice

/-- What is shown of a sensitive message is a notice and its text, and there is no concealment behind them.  The text
is concealed throughout exactly if no sequences in it uncover it.  Without escape characters it is shown as it is, and
concealed. -/
theorem shown_concealed_iff (concealed : Bool) (text : String) :
    display concealed (render (.hidden text)).toList =
        (glyphs concealed "(hidden, select to copy)".toList ++ ⟨' ', false⟩ :: (display true text.toList).1, false) ∧
      ((∀ g ∈ (display true text.toList).1, g.concealed = true) ↔ ¬ Uncovers text.toList) ∧
      (escape ∉ text.toList → (display true text.toList).1 = glyphs true text.toList) := by
  refine ⟨display_render_hidden concealed text, all_concealed_iff, fun h => ?_⟩
  rw [display_of_not_mem h]

/-- A password that starts with a sequence of its own is shown openly. -/
theorem password_uncovered :
    display false (render (.hidden "\x1b[0mhunter2")).toList =
        (glyphs false "(hidden, select to copy) hunter2".toList, false) ∧
      ¬ ∀ text : String, ∀ g ∈ (display true text.toList).1, g.concealed = true := by
  have hshown : (display true "\x1b[0mhunter2".toList).1 = glyphs false "hunter2".toList := by decide +kernel
  constructor
  · rw [display_render_hidden, hshown]
    rfl
  · intro h
    have hall := h "\x1b[0mhunter2"
    rw [hshown] at hall
    exact absurd (hall ⟨'h', false⟩ (by decide)) (by decide)

end VaultChat.Console
