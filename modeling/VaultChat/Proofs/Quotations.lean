import VaultChat.Proofs.Scalars

/-!
# Comments, strings and keys in front of a quotation mark

What is read in front of a quotation mark, if reading stops there, does not depend on what is quoted (`Independent`).
That goes for comments, for strings in all their forms and for keys, and for blanks over several lines and keys with
points at least where nothing follows that goes on with them.
-/

namespace VaultChat.Toml

open Text (Reader)
open Text.Reader

/-- What the reader takes in front of a quotation mark does not depend on what is behind the mark, given that the text
goes on with a symbol of `F`. -/
abbrev IndependentBefore (F : Char → Prop) {α : Type} (r : Reader Char α) : Prop := Local '"' F r

abbrev Independent {α : Type} (r : Reader Char α) : Prop := Local '"' (fun _ => True) r

variable {F : Char → Prop}

theorem StopsAtMarks.independent {α : Type} {r : Reader Char α} (h : StopsAtMarks r) : IndependentBefore F r :=
  h.toLocal (by decide)

theorem StopsAtMarks.firm {α : Type} {r : Reader Char α} (h : StopsAtMarks r) : Firm '"' F r :=
  Halts.firm h (by decide)

private theorem halts_exactly {c : Char} (h : c ≠ '"') : Halts (· = '"') (exactly [c]) :=
  .exactly fun x hx => by rw [hx]; simpa using h.symm

/-! ### Comments -/

theorem independent_comment : IndependentBefore F comment := (Local.exactly _).seqRight (Local.run _).discard

theorem firm_comment : Firm '"' F comment :=
  ((halts_exactly (by decide)).firm rfl).bind_of_total fun _ _ => nofun

theorem consumes_comment : Consumes comment :=
  (consumes_exactly _ _).bind fun _ => (Halts.run (M := fun _ => False) nofun).discard.shrinks

theorem consumes_lineBreak : Consumes lineBreak := (consumes_exactly _ _).orElse (consumes_exactly _ _)

theorem independent_finished : IndependentBefore F (finished : Reader Char Unit) := by
  refine ⟨fun cs a rest h => ?_, fun {p s z a} h => ?_⟩
  · cases cs with
    | nil => cases h; exact List.suffix_refl _
    | cons => cases h
  · cases p <;> cases h

theorem independent_lineBreak_or_finished : IndependentBefore F (lineBreak <|> finished) :=
  stopsAtMarks_lineBreak.independent.orElse stopsAtMarks_lineBreak.firm independent_finished

theorem independent_lineEnd : IndependentBefore F lineEnd :=
  (stopsAtMarks_gap.independent.seqRight (independent_comment.perhaps firm_comment).discard).seqRight
    independent_lineBreak_or_finished

theorem comment_of_ne {c : Char} (h : c ≠ '#') (z : List Char) : comment (c :: z) = none :=
  bind_of_eq_none (if_neg h.symm)

theorem independent_spread : IndependentBefore (· ≠ '#') spread := by
  have hcomment : Independent (comment *> lineBreak) :=
    independent_comment.seqRight stopsAtMarks_lineBreak.independent
  have hline : Independent ((lineBreak <|> comment *> lineBreak) *> gap) :=
    (stopsAtMarks_lineBreak.independent.orElse stopsAtMarks_lineBreak.firm hcomment).seqRight
      stopsAtMarks_gap.independent
  have hfirm : Firm '"' (· ≠ '#') ((lineBreak <|> comment *> lineBreak) *> gap) := by
    refine Firm.bind_of_total (stopsAtMarks_lineBreak.firm.orElse (.of_head fun c z hc => ?_)) fun _ _ => nofun
    exact bind_of_eq_none (comment_of_ne hc z)
  have hconsumes : Consumes ((lineBreak <|> comment *> lineBreak) *> gap) :=
    (consumes_lineBreak.orElse (consumes_comment.bind fun _ => stopsAtMarks_lineBreak.shrinks)).bind
      fun _ => stopsAtMarks_gap.shrinks
  exact stopsAtMarks_gap.independent.seqRight (hline.many hfirm hconsumes).discard

/-! ### Strings on a single line -/

theorem stopsAtMarks_scalar {n : Nat} : StopsAtMarks (scalar n) :=
  stopsAtMarks_digitsOf (false_at_marks (by decide)) (fun ds => (hexNumber ds).isValidChar)
    fun ds => Char.ofNat (hexNumber ds)

/-- What follows the backslash of an escape. -/
def escaped : Char → Reader Char Char
  | 'b' => pure '\x08'
  | 't' => pure '\t'
  | 'n' => pure '\n'
  | 'f' => pure '\x0c'
  | 'r' => pure '\r'
  | '"' => pure '"'
  | '\\' => pure '\\'
  | 'u' => scalar 4
  | 'U' => scalar 8
  | _ => failure

theorem escape_eq : escape = exactly ['\\'] >>= fun _ => one (fun _ => true) >>= escaped := rfl

private theorem stopsAtMarks_escaped (c : Char) : StopsAtMarks (escaped c) := by
  unfold escaped
  split
  case h_8 | h_9 => exact stopsAtMarks_scalar
  case h_10 => exact .failure
  all_goals exact .pure _

theorem independent_escape : IndependentBefore F escape := by
  rw [escape_eq]
  exact (Local.exactly _).bind fun _ => (Local.one _).bind fun c => (stopsAtMarks_escaped c).independent

theorem firm_escape : Firm '"' F escape := by
  rw [escape_eq]
  refine .bind_of_halts (halts_exactly (by decide)) rfl fun _ => ?_
  exact .one_bind (fun _ => nofun) fun c => (stopsAtMarks_escaped c).firm

theorem consumes_escape : Consumes escape := by
  have hrest : Independent (one (fun _ => true) >>= escaped) :=
    (Local.one _).bind fun c => (stopsAtMarks_escaped c).independent
  exact (consumes_exactly _ _).bind fun _ => hrest.shrinks

private theorem independent_chars : Independent (many (one isPlain <|> escape)) := by
  have hplain : Halts (· = '"') (one isPlain) := .one fun x hx => by rw [hx]; rfl
  have hchar : Independent (one isPlain <|> escape) := (Local.one _).orElse (hplain.firm rfl) independent_escape
  exact hchar.many ((hplain.firm rfl).orElse firm_escape) ((consumes_one _).orElse consumes_escape)

theorem independent_basicString : IndependentBefore F basicString :=
  ((Local.exactly _).seqRight independent_chars).seqLeft (Local.exactly _)

/-- A string on a single line has its quotation marks at least. -/
theorem length_basicString {cs rest x : List Char} (h : basicString cs = some (x, rest)) :
    rest.length + 2 ≤ cs.length := by
  obtain ⟨_, mid, h, hclose⟩ := bind_eq_some_iff.1 h
  obtain ⟨_, mid', hopen, hmid⟩ := bind_eq_some_iff.1 h
  have hlt := (consumes_exactly _ _).bind (fun _ => (Halts.pure (M := fun _ => False) _).shrinks) hclose
  have hlt' := consumes_exactly _ _ hopen
  have hle := (independent_chars.shrinks hmid).length_le
  omega

theorem independent_literalString : IndependentBefore F literalString :=
  ((Local.exactly _).seqRight (Local.run _)).seqLeft (Local.exactly _)

/-! ### Strings of several lines -/

section manyLines

variable {q : Char} {after : Reader Char Unit} {piece : Reader Char (List Char)} {cs rest t x y : List Char}

private theorem followed_eq_some_iff :
    (exactly t *> ahead after *> pure t : Reader Char (List Char)) cs = some (x, rest) ↔
      x = t ∧ cs = t ++ rest ∧ (after rest).isSome := by
  have hahead (mid : List Char) : ahead after mid = some ((), rest) ↔ (after mid).isSome ∧ mid = rest := by
    unfold ahead
    cases after mid <;> simp
  constructor
  · intro h
    obtain ⟨_, mid, h, hpure⟩ := bind_eq_some_iff.1 h
    obtain ⟨_, mid', hexactly, hmid⟩ := bind_eq_some_iff.1 h
    cases hpure
    obtain ⟨hsome, rfl⟩ := (hahead mid').1 hmid
    exact ⟨rfl, exactly_eq_some_iff.1 hexactly, hsome⟩
  · rintro ⟨rfl, rfl, hsome⟩
    refine bind_eq_some_iff.2 ⟨(), rest, bind_eq_some_iff.2 ⟨(), rest, exactly_eq_some_iff.2 rfl, ?_⟩, rfl⟩
    exact (hahead rest).2 ⟨hsome, rfl⟩

private theorem followed_eq_none_iff :
    (exactly t *> ahead after *> pure t : Reader Char (List Char)) cs = none ↔
      ∀ rest, cs = t ++ rest → after rest = none := by
  rw [Option.eq_none_iff_forall_ne_some]
  constructor
  · rintro h rest rfl
    refine Option.not_isSome_iff_eq_none.1 fun hsome => h (t, rest) ?_
    exact followed_eq_some_iff.2 ⟨rfl, rfl, hsome⟩
  · rintro h ⟨x, rest⟩ hx
    obtain ⟨-, rfl, hsome⟩ := followed_eq_some_iff.1 hx
    rw [h rest rfl] at hsome
    cases hsome

theorem quotes_eq_some_iff :
    quotes q after cs = some (x, rest) ↔
      (x = [q, q] ∧ cs = q :: q :: rest ∧ (after rest).isSome) ∨
      (∀ rest', cs = q :: q :: rest' → after rest' = none) ∧ x = [q] ∧ cs = q :: rest ∧ (after rest).isSome := by
  unfold quotes
  rw [orElse_eq_some_iff, followed_eq_some_iff, followed_eq_some_iff, followed_eq_none_iff]
  rfl

theorem quotes_eq_none_iff :
    quotes q after cs = none ↔
      (∀ rest, cs = q :: q :: rest → after rest = none) ∧ ∀ rest, cs = q :: rest → after rest = none := by
  unfold quotes
  rw [orElse_eq_none_iff, followed_eq_none_iff, followed_eq_none_iff]
  rfl

/-- Quotes that close nothing are followed by something else than a quote. -/
theorem quotes_other_eq_some_iff :
    quotes q (discard (one (· != q))) cs = some (x, rest) ↔
      (x = [q, q] ∨ x = [q]) ∧ cs = x ++ rest ∧ ∃ c ∈ rest.head?, c ≠ q := by
  have hhead (rest : List Char) : (discard (one (· != q)) rest).isSome ↔ ∃ c ∈ rest.head?, c ≠ q := by
    rw [Option.isSome_iff_exists]
    constructor
    · rintro ⟨⟨_, rest'⟩, h⟩
      obtain ⟨c, hone⟩ := discard_eq_some_iff.1 h
      obtain ⟨rfl, hc⟩ := one_eq_some_iff.1 hone
      exact ⟨c, rfl, by simpa using hc⟩
    · rintro ⟨c, hhead, hc⟩
      obtain ⟨rest', rfl⟩ := List.head?_eq_some_iff.1 hhead
      exact ⟨((), rest'), discard_eq_some_iff.2 ⟨c, one_eq_some_iff.2 ⟨rfl, by simpa using hc⟩⟩⟩
  rw [quotes_eq_some_iff]
  constructor
  · rintro (⟨rfl, rfl, hother⟩ | ⟨-, rfl, rfl, hother⟩)
    · exact ⟨.inl rfl, rfl, (hhead _).1 hother⟩
    · exact ⟨.inr rfl, rfl, (hhead _).1 hother⟩
  · rintro ⟨rfl | rfl, rfl, hother⟩
    · exact .inl ⟨rfl, rfl, (hhead _).2 hother⟩
    · refine .inr ⟨fun rest' h => ?_, rfl, rfl, (hhead _).2 hother⟩
      obtain ⟨c, hc, hne⟩ := hother
      obtain rfl : rest = q :: rest' := @List.append_cancel_left _ [q] _ _ h
      exact absurd (Option.some.inj hc).symm hne

theorem independent_quotes : IndependentBefore F (quotes q (discard (one (· != q)))) := by
  refine ⟨fun cs x rest h => ?_, fun {p s z x} h hF z' => ?_⟩
  · obtain ⟨-, rfl, -⟩ := quotes_other_eq_some_iff.1 h
    exact ⟨x, rfl⟩
  · obtain ⟨hx, hp, hother⟩ := quotes_other_eq_some_iff.1 h
    rw [← List.append_assoc, List.append_cancel_right_eq] at hp
    rw [head_append] at hother
    refine quotes_other_eq_some_iff.2 ⟨hx, by rw [hp, List.append_assoc], ?_⟩
    rwa [head_append]

/-- What closes a string of several lines, which may start with quotes that belong to the string. -/
def closing (q : Char) (content : List (List Char)) : Reader Char (List Char) := do
  let last ← perhaps (quotes q (exactly [q, q, q]))
  exactly [q, q, q]
  return content.flatten ++ last.getD []

private theorem isSome_three_iff : (exactly [q, q, q] cs).isSome ↔ ∃ rest, cs = q :: q :: q :: rest := by
  rw [Option.isSome_iff_exists]
  constructor
  · rintro ⟨⟨_, rest⟩, h⟩
    exact ⟨rest, exactly_eq_some_iff.1 h⟩
  · rintro ⟨rest, rfl⟩
    exact ⟨((), rest), exactly_eq_some_iff.2 rfl⟩

/-- One or two quotes in front of another character do not close the string. -/
private theorem three_of_few (hhead : rest.head? ≠ some q) (h : cs = q :: rest ∨ cs = q :: q :: rest) :
    exactly [q, q, q] cs = none := by
  rw [← Option.not_isSome_iff_eq_none, isSome_three_iff]
  rintro ⟨rest', h'⟩
  rcases h with rfl | rfl
  · exact hhead (by rw [(List.cons.inj h').2]; rfl)
  · exact hhead (by rw [(List.cons.inj (List.cons.inj h').2).2]; rfl)

private theorem closing_eq_some_iff_last {content : List (List Char)} :
    closing q content cs = some (y, rest) ↔ ∃ last,
      perhaps (quotes q (exactly [q, q, q])) cs = some (last, q :: q :: q :: rest) ∧
        y = content.flatten ++ last.getD [] := by
  constructor
  · intro h
    obtain ⟨last, mid, hlast, h⟩ := bind_eq_some_iff.1 h
    obtain ⟨_, mid', hexactly, hpure⟩ := bind_eq_some_iff.1 h
    cases hpure
    rw [exactly_eq_some_iff.1 hexactly] at hlast
    exact ⟨last, hlast, rfl⟩
  · rintro ⟨last, hlast, rfl⟩
    exact bind_eq_some_iff.2 ⟨last, _, hlast, bind_eq_some_iff.2 ⟨(), rest, exactly_eq_some_iff.2 rfl, rfl⟩⟩

theorem closing_eq_some_iff {content : List (List Char)} :
    closing q content cs = some (y, rest) ↔ ∃ x, (x = [] ∨ x = [q] ∨ x = [q, q]) ∧ cs = x ++ q :: q :: q :: rest ∧
      (x = [q, q] ∨ rest.head? ≠ some q) ∧ y = content.flatten ++ x := by
  have hthree (rest : List Char) : exactly [q, q, q] (q :: q :: q :: rest) ≠ none := by
    rw [← Option.isSome_iff_ne_none, isSome_three_iff]
    exact ⟨rest, rfl⟩
  rw [closing_eq_some_iff_last]
  constructor
  · rintro ⟨last, hlast, rfl⟩
    rcases perhaps_eq_some_iff.1 hlast with ⟨x, hx, rfl⟩ | ⟨hnone, rfl, hcs⟩
    · rcases quotes_eq_some_iff.1 hx with ⟨rfl, rfl, -⟩ | ⟨hone, rfl, rfl, -⟩
      · exact ⟨_, .inr (.inr rfl), rfl, .inl rfl, rfl⟩
      · refine ⟨_, .inr (.inl rfl), rfl, .inr fun hhead => ?_, rfl⟩
        obtain ⟨rest', rfl⟩ := List.head?_eq_some_iff.1 hhead
        exact hthree rest' (hone _ rfl)
    · refine ⟨[], .inl rfl, hcs.symm, .inr fun hhead => ?_, rfl⟩
      obtain ⟨rest', rfl⟩ := List.head?_eq_some_iff.1 hhead
      exact hthree rest' ((quotes_eq_none_iff.1 hnone).2 _ hcs.symm)
  · rintro ⟨x, hx, rfl, hrest, rfl⟩
    rcases hx with rfl | rfl | rfl
    · have hhead := hrest.resolve_left nofun
      refine ⟨none, perhaps_eq_some_iff.2 (.inr ⟨quotes_eq_none_iff.2 ⟨?_, ?_⟩, rfl, rfl⟩), rfl⟩
      · rintro mid ⟨⟩
        exact three_of_few hhead (.inl rfl)
      · rintro mid ⟨⟩
        exact three_of_few hhead (.inr rfl)
    · have hhead := hrest.resolve_left (by simp)
      refine ⟨some [q], perhaps_eq_some_iff.2 (.inl ⟨[q], quotes_eq_some_iff.2 (.inr ⟨?_, rfl, rfl, ?_⟩), rfl⟩), rfl⟩
      · rintro mid ⟨⟩
        exact three_of_few hhead (.inr rfl)
      · exact isSome_three_iff.2 ⟨_, rfl⟩
    · refine ⟨some [q, q],
        perhaps_eq_some_iff.2 (.inl ⟨[q, q], quotes_eq_some_iff.2 (.inl ⟨rfl, rfl, ?_⟩), rfl⟩), rfl⟩
      exact isSome_three_iff.2 ⟨_, rfl⟩

theorem independent_closing (content : List (List Char)) : IndependentBefore F (closing q content) := by
  refine ⟨fun cs y rest h => ?_, fun {p s z y} h hF z' => ?_⟩
  · obtain ⟨x, -, rfl, -⟩ := closing_eq_some_iff.1 h
    exact ⟨x ++ [q, q, q], by simp⟩
  · obtain ⟨x, hx, hp, hrest, rfl⟩ := closing_eq_some_iff.1 h
    have hsplit (z : List Char) : x ++ q :: q :: q :: (s ++ '"' :: z) = (x ++ q :: q :: q :: s) ++ '"' :: z := by simp
    rw [hsplit, List.append_cancel_right_eq] at hp
    rw [head_append] at hrest
    refine closing_eq_some_iff.2 ⟨x, hx, by rw [hp, hsplit], ?_, rfl⟩
    rwa [head_append]

/-- Three quotes close a string of several lines. -/
private theorem quotes_other_of_three (cs : List Char) :
    quotes q (discard (one (· != q))) (q :: q :: q :: cs) = none := by
  rw [Option.eq_none_iff_forall_ne_some]
  rintro ⟨x, rest⟩ h
  obtain ⟨rfl | rfl, hcs, c, hc, hne⟩ := quotes_other_eq_some_iff.1 h
  · obtain rfl : q :: cs = rest := @List.append_cancel_left _ [q, q] _ _ hcs
    exact hne (Option.some.inj hc).symm
  · obtain rfl : q :: q :: cs = rest := @List.append_cancel_left _ [q] _ _ hcs
    exact hne (Option.some.inj hc).symm

private theorem consumes_quotes : Consumes (quotes q (discard (one (· != q)))) := by
  intro cs x rest h
  obtain ⟨rfl | rfl, rfl, -⟩ := quotes_other_eq_some_iff.1 h
  · exact Nat.lt_of_lt_of_le (Nat.lt_succ_self _) (Nat.le_succ _)
  · exact Nat.lt_succ_self _

private theorem independent_rest (hpiece : Independent piece) (hfirm : Firm '"' (fun _ => True) piece)
    (hconsumes : Consumes piece) (hquote : ∀ z, piece (q :: z) = none) (hbreak : ∀ z, lineBreak (q :: z) = none) :
    IndependentBefore F (do
      discard (perhaps lineBreak)
      many (piece <|> lineBreak *> pure ['\n'] <|> quotes q (discard (one (· != q)))) >>= closing q) := by
  have hline : Independent (lineBreak *> pure ['\n']) := stopsAtMarks_lineBreak.independent.seqRight (.pure _)
  have hline' : Firm '"' (fun _ => True) (lineBreak *> pure ['\n']) :=
    stopsAtMarks_lineBreak.firm.bind_of_total fun _ _ => nofun
  have hitem : Independent (piece <|> lineBreak *> pure ['\n'] <|> quotes q (discard (one (· != q)))) :=
    hpiece.orElse hfirm (hline.orElse hline' independent_quotes)
  have hitems : Consumes (piece <|> lineBreak *> pure ['\n'] <|> quotes q (discard (one (· != q)))) :=
    hconsumes.orElse
      ((consumes_lineBreak.bind fun _ => (Halts.pure (M := fun _ => False) _).shrinks).orElse consumes_quotes)
  have hopen : Independent (discard (perhaps lineBreak)) :=
    (stopsAtMarks_lineBreak.independent.perhaps stopsAtMarks_lineBreak.firm).discard
  refine hopen.bind fun _ =>
    Local.many_bind hitem hitems (fun l => independent_closing l) fun {l p s z y} _ hend _ z' => ?_
  obtain ⟨x, hx, hp, -⟩ := closing_eq_some_iff.1 hend
  have hthree : ∃ w, p ++ '"' :: z' = q :: q :: q :: w := by
    have hp' : p = x ++ q :: q :: q :: s := @List.append_cancel_right _ _ ('"' :: z) _ (by rw [hp]; simp)
    rcases hx with rfl | rfl | rfl
    · exact ⟨_, by rw [hp']; rfl⟩
    · exact ⟨_, by rw [hp']; rfl⟩
    · exact ⟨_, by rw [hp']; rfl⟩
  obtain ⟨w, hw⟩ := hthree
  have hnone : (lineBreak *> pure ['\n'] : Reader Char (List Char)) (q :: q :: q :: w) = none :=
    bind_of_eq_none (hbreak _)
  rw [hw, orElse_of_eq_none (hquote _), orElse_of_eq_none hnone]
  exact quotes_other_of_three w

theorem independent_manyLines (hpiece : Independent piece) (hfirm : Firm '"' (fun _ => True) piece)
    (hconsumes : Consumes piece) (hquote : ∀ z, piece (q :: z) = none) (hbreak : ∀ z, lineBreak (q :: z) = none) :
    IndependentBefore F (manyLines q piece) ∧
      ∀ ⦃cs x rest⦄, manyLines q piece cs = some (x, rest) → rest.length + 3 ≤ cs.length := by
  have hrest {G : Char → Prop} := independent_rest (F := G) hpiece hfirm hconsumes hquote hbreak
  refine ⟨(Local.exactly _).bind fun _ => hrest, fun cs x rest h => ?_⟩
  obtain ⟨_, mid, hopen, h⟩ := bind_eq_some_iff.1 h
  have hle := ((hrest (G := fun _ => True)).shrinks h).length_le
  rw [exactly_eq_some_iff.1 hopen]
  simp only [List.cons_append, List.nil_append, List.length_cons]
  omega

end manyLines

private theorem stopsAtMarks_folded :
    StopsAtMarks (do gap; lineBreak; discard (many (discard (one isGap) <|> lineBreak))) := by
  have hblank : StopsAtMarks (discard (one isGap) <|> lineBreak) :=
    (Halts.one (false_at_marks (by decide))).discard.orElse stopsAtMarks_lineBreak
  have hblanks : Consumes (discard (one isGap) <|> lineBreak) := by
    refine Consumes.orElse (fun cs a rest h => ?_) consumes_lineBreak
    obtain ⟨c, hc⟩ := discard_eq_some_iff.1 h
    exact consumes_one _ hc
  exact stopsAtMarks_gap.bind fun _ => stopsAtMarks_lineBreak.bind fun _ => (hblank.many hblanks).discard

private theorem stopsAtMarks_continuation : StopsAtMarks continuation :=
  (Halts.exactly (marks_notMem (by decide))).bind fun _ => stopsAtMarks_folded

private theorem consumes_continuation : Consumes continuation :=
  (consumes_exactly _ _).bind fun _ => stopsAtMarks_folded.shrinks

theorem independent_basicLines : IndependentBefore F basicLines ∧
    ∀ ⦃cs x rest⦄, basicLines cs = some (x, rest) → rest.length + 3 ≤ cs.length := by
  have hplain : Halts (· = '"') (run1 isPlain) := .run1 fun x hx => by rw [hx]; rfl
  have hcontinued : StopsAtMarks (continuation *> pure ([] : List Char)) :=
    stopsAtMarks_continuation.seqRight (.pure _)
  have hescape : Independent (do return [← escape]) := independent_escape.bind fun _ => .pure _
  have hescape' : Firm '"' (fun _ => True) (do return [← escape]) := firm_escape.bind_of_total fun _ _ => nofun
  have hpure {α : Type} (a : α) : Shrinks (pure a : Reader Char α) := (Halts.pure (M := fun _ => False) a).shrinks
  refine independent_manyLines ?_ ?_ ?_ (fun z => rfl) fun z => rfl
  · exact (hplain.toLocal rfl).orElse (hplain.firm rfl) (hcontinued.independent.orElse hcontinued.firm hescape)
  · exact (hplain.firm rfl).orElse (hcontinued.firm.orElse hescape')
  · refine (consumes_run1 _).orElse (Consumes.orElse ?_ (consumes_escape.bind fun _ => hpure _))
    exact consumes_continuation.bind fun _ => hpure _

theorem independent_literalLines : IndependentBefore F literalLines ∧
    ∀ ⦃cs x rest⦄, literalLines cs = some (x, rest) → rest.length + 3 ≤ cs.length := by
  refine independent_manyLines ?_ ?_ (consumes_run1 _) (fun z => rfl) fun z => rfl
  · exact (Local.one _).bind fun _ => (Local.run _).bind fun _ => .pure _
  · exact (Firm.one _).bind_of_total fun _ _ => nofun

/-! ### Strings and keys -/

/-- The form of a string, which its first three characters tell. -/
def form (cs : List Char) : Reader Char (List Char) :=
  if cs.take 3 = ['"', '"', '"'] then basicLines
  else if cs.take 1 = ['"'] then basicString
  else if cs.take 3 = ['\'', '\'', '\''] then literalLines
  else literalString

private theorem take_three_eq_iff {cs : List Char} {a b c : Char} :
    cs.take 3 = [a, b, c] ↔ ∃ t, cs = a :: b :: c :: t := by
  constructor
  · intro h
    exact ⟨cs.drop 3, by rw [← List.take_append_drop 3 cs, h]; rfl⟩
  · rintro ⟨t, rfl⟩
    rfl

theorem string_eq (cs : List Char) : string cs = (String.ofList <$> form cs) cs := by
  have hread (r : Reader Char (List Char)) :
      (String.ofList <$> r) cs = (r cs).bind fun x => some (String.ofList x.1, x.2) := rfl
  rw [hread]
  unfold string
  show Option.bind _ _ = _
  congr 1
  dsimp only
  unfold form
  split
  · rfl
  · rename_i t hlines
    have hthree : ('"' :: t).take 3 ≠ ['"', '"', '"'] := fun h => by
      obtain ⟨u, hu⟩ := take_three_eq_iff.1 h
      exact hlines u (List.cons.inj hu).2
    rw [if_neg hthree]
    rfl
  · rfl
  · rename_i hbasic hliteral hlines
    have hhead : cs.take 1 ≠ ['"'] := fun h => by
      cases cs with
      | nil => cases h
      | cons c cs =>
        obtain rfl : c = '"' := (List.cons.inj h).1
        exact hliteral cs rfl
    have hthree (c : Char) (h : ∀ t, cs = c :: c :: c :: t → False) : cs.take 3 ≠ [c, c, c] := fun hc => by
      obtain ⟨u, hu⟩ := take_three_eq_iff.1 hc
      exact h u hu
    rw [if_neg (hthree '"' hbasic), if_neg hhead, if_neg (hthree '\'' hlines)]

private theorem independent_form (cs : List Char) : IndependentBefore F (form cs) := by
  unfold form
  split
  · exact independent_basicLines.1
  split
  · exact independent_basicString
  split
  · exact independent_literalLines.1
  · exact independent_literalString

/-- A string in double quotes has two of them at least. -/
private theorem length_form {cs rest x : List Char} (hquote : cs.take 1 = ['"']) (h : form cs cs = some (x, rest)) :
    rest.length + 2 ≤ cs.length := by
  unfold form at h
  split at h
  · exact Nat.le_of_succ_le (independent_basicLines (F := fun _ => True).2 h)
  · exact length_basicString h

/-- What is in front of a quotation mark tells the form of a string that ends there. -/
private theorem form_eq {p s z x : List Char} (h : form (p ++ '"' :: z) (p ++ '"' :: z) = some (x, s ++ '"' :: z))
    (z' : List Char) : form (p ++ '"' :: z') = form (p ++ '"' :: z) := by
  match p with
  | [] =>
    have hlong := length_form rfl h
    simp only [List.nil_append, List.length_append, List.length_cons] at hlong
    omega
  | [c] =>
    by_cases hc : c = '"'
    · rw [hc] at h
      have hlong := length_form rfl h
      simp only [List.cons_append, List.nil_append, List.length_append, List.length_cons] at hlong
      omega
    · have hliteral (z : List Char) : form ([c] ++ '"' :: z) = literalString := by
        simp [form, hc]
      rw [hliteral, hliteral]
  | c :: d :: p =>
    have htake : (c :: d :: p ++ '"' :: z').take 3 = (c :: d :: p ++ '"' :: z).take 3 := by
      cases p <;> rfl
    unfold form
    rw [htake]
    rfl

theorem independent_string : IndependentBefore F string := by
  refine ⟨fun cs x rest h => ?_, fun {p s z x} h hF z' => ?_⟩
  · rw [string_eq, map_eq_some_iff] at h
    obtain ⟨y, h, -⟩ := h
    exact (independent_form (F := F) cs).shrinks h
  · rw [string_eq, map_eq_some_iff] at h ⊢
    obtain ⟨y, h, rfl⟩ := h
    rw [form_eq h z']
    exact ⟨y, (independent_form _).transfer h hF z', rfl⟩

theorem independent_simpleKey : IndependentBefore F simpleKey := by
  have hbare : StopsAtMarks (run1 isBare) := .run1 (false_at_marks (by decide))
  have hquoted : IndependentBefore F (basicString <|> literalString) := by
    refine independent_basicString.orElse_of_head independent_literalString fun c z z' => ?_
    by_cases hc : c = '"'
    · exact .inr (by rw [hc]; rfl)
    · have hopen : (exactly ['"'] *> many (one isPlain <|> escape)) (c :: z) = none :=
        bind_of_eq_none (if_neg (Ne.symm hc))
      exact .inl (bind_of_eq_none hopen)
  exact (hbare.independent.orElse hbare.firm hquoted).bind_of_still fun _ => .inr ⟨_, rfl⟩

theorem independent_keyPath : IndependentBefore (· ≠ '.') keyPath := by
  have hkey : Independent (gap *> simpleKey <* gap) :=
    (stopsAtMarks_gap.independent.seqRight independent_simpleKey).seqLeft stopsAtMarks_gap.independent
  have hpoint : Firm '"' (· ≠ '.') (exactly ['.'] *> (gap *> simpleKey <* gap)) :=
    .of_head fun c z hc => bind_of_eq_none (if_neg hc.symm)
  have hkeys : IndependentBefore (· ≠ '.') (many (exactly ['.'] *> (gap *> simpleKey <* gap))) :=
    ((Local.exactly _).seqRight hkey).many hpoint ((consumes_exactly _ _).bind fun _ => hkey.shrinks)
  have hparts : IndependentBefore (· ≠ '.') (separated (exactly ['.']) (gap *> simpleKey <* gap)) :=
    hkey.bind fun _ => hkeys.bind_of_still fun _ => .inr ⟨_, rfl⟩
  refine hparts.bind_of_still fun parts => ?_
  split
  · split
    · exact .inr ⟨_, rfl⟩
    · exact .inl rfl
  · exact .inl rfl

end VaultChat.Toml
