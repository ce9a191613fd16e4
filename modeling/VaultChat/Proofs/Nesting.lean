import Mathlib.Data.List.DropRight
import VaultChat.Proofs.Quotations

/-!
# Values and statements in front of a quotation mark

An array is read as entries with commas behind them, the last one perhaps without (`array_eq_some_iff`), and so is a
table on a single line (`inlineTable_eq_some_iff`).  From that it follows that values and whole lines in front of a
quotation mark are read without regard to what is quoted.
-/

namespace VaultChat.Toml

open Text (Reader)
open Text.Reader

variable {F : Char → Prop} {item : Reader Char Value} {l : List Value} {cs mid rest : List Char} {v : Value}

/-! ### Blanks come to an end -/

theorem gap_eq_some_iff : gap cs = some ((), rest) ↔ cs.dropWhile isGap = rest := by
  show some ((), cs.dropWhile isGap) = some ((), rest) ↔ _
  simp

theorem gap_gap (h : gap cs = some ((), rest)) : gap rest = some ((), rest) := by
  rw [gap_eq_some_iff] at h ⊢
  rw [← h, List.dropWhile_idempotent]

theorem gap_of_ne {c : Char} (h : isGap c = false) (cs : List Char) : gap (c :: cs) = some ((), c :: cs) := by
  rw [gap_eq_some_iff, List.dropWhile_cons_of_neg (by simp [h])]

/-- What separates the lines of an array. -/
private def blankLines : Reader Char Unit := (lineBreak <|> comment *> lineBreak) *> gap

private theorem consumes_blankLines : Consumes blankLines :=
  (consumes_lineBreak.orElse (consumes_comment.bind fun _ => stopsAtMarks_lineBreak.shrinks)).bind
    fun _ => stopsAtMarks_gap.shrinks

private theorem spread_eq_some_iff :
    spread cs = some ((), rest) ↔
      ∃ mid l, gap cs = some ((), mid) ∧ Through blankLines mid l rest ∧ blankLines rest = none := by
  constructor
  · intro h
    obtain ⟨_, mid, hgap, h⟩ := seqRight_eq_some_iff.1 h
    obtain ⟨l, hmany⟩ := discard_eq_some_iff.1 h
    exact ⟨mid, l, hgap, (many_eq_some_iff consumes_blankLines).1 hmany⟩
  · rintro ⟨mid, l, hgap, hmany⟩
    exact seqRight_eq_some_iff.2 ⟨(), mid, hgap,
      discard_eq_some_iff.2 ⟨l, (many_eq_some_iff consumes_blankLines).2 hmany⟩⟩

theorem spread_spread (h : spread cs = some ((), rest)) : spread rest = some ((), rest) := by
  obtain ⟨mid, l, hgap, hthrough, hend⟩ := spread_eq_some_iff.1 h
  refine spread_eq_some_iff.2 ⟨rest, [], ?_, .here, hend⟩
  replace hgap := gap_gap hgap
  clear h hend
  induction hthrough with
  | here => exact hgap
  | next hline _ ih =>
    obtain ⟨_, mid', -, hgap'⟩ := seqRight_eq_some_iff.1 hline
    exact ih (gap_gap hgap')

theorem spread_of_mark {c : Char} (h : c ∈ marks) (hc : c ≠ '#') (cs : List Char) :
    spread (c :: cs) = some ((), c :: cs) := by
  refine spread_eq_some_iff.2 ⟨c :: cs, [], gap_of_ne (false_at_marks (by decide) c h) cs, .here, ?_⟩
  have hbreak : lineBreak (c :: cs) = none := Halts.mark stopsAtMarks_lineBreak rfl h cs
  have hcomment : (comment *> lineBreak) (c :: cs) = none := bind_of_eq_none (comment_of_ne hc cs)
  exact bind_of_eq_none (orElse_eq_none_iff.2 ⟨hbreak, hcomment⟩)

/-! ### Values without parts -/

theorem basicString_of_ne {c : Char} (h : c ≠ '"') (cs : List Char) : basicString (c :: cs) = none := by
  have hopen : (exactly ['"'] *> many (one isPlain <|> escape)) (c :: cs) = none := bind_of_eq_none (if_neg h.symm)
  exact bind_of_eq_none hopen

theorem literalString_of_ne {c : Char} (h : c ≠ '\'') (cs : List Char) : literalString (c :: cs) = none := by
  have hopen : (exactly ['\''] *> run isVerbatim) (c :: cs) = none := bind_of_eq_none (if_neg h.symm)
  exact bind_of_eq_none hopen

theorem string_of_ne {c : Char} (h : c ≠ '"') (h' : c ≠ '\'') (cs : List Char) : string (c :: cs) = none := by
  have hform : form (c :: cs) = literalString := by
    have htake (a : Char) (ha : c ≠ a) : (c :: cs).take 3 ≠ [a, a, a] := fun heq => ha (List.cons.inj heq).1
    have hone : (c :: cs).take 1 ≠ ['"'] := fun heq => h (List.cons.inj heq).1
    unfold form
    rw [if_neg (htake _ h), if_neg hone, if_neg (htake _ h')]
  rw [string_eq, hform]
  exact map_of_eq_none (literalString_of_ne h' cs)

theorem simpleKey_of_ne {c : Char} (hbare : isBare c = false) (h : c ≠ '"') (h' : c ≠ '\'') (cs : List Char) :
    simpleKey (c :: cs) = none := by
  have hone : one isBare (c :: cs) = none := if_neg (by simp [hbare])
  have hnone : (run1 isBare <|> basicString <|> literalString) (c :: cs) = none :=
    orElse_eq_none_iff.2 ⟨bind_of_eq_none hone,
      orElse_eq_none_iff.2 ⟨basicString_of_ne h cs, literalString_of_ne h' cs⟩⟩
  exact bind_of_eq_none hnone

theorem keyPath_of_gap {c : Char} (hgap : gap cs = some ((), c :: rest)) (hbare : isBare c = false) (h : c ≠ '"')
    (h' : c ≠ '\'') : keyPath cs = none := by
  have hopen : (gap *> simpleKey) cs = none := by
    rw [show (gap *> simpleKey) cs = simpleKey (c :: rest) from bind_of_eq_some hgap]
    exact simpleKey_of_ne hbare h h' rest
  have hkey : (gap *> simpleKey <* gap) cs = none := bind_of_eq_none hopen
  have hkeys : separated (exactly ['.']) (gap *> simpleKey <* gap) cs = none := bind_of_eq_none hkey
  exact bind_of_eq_none hkeys

/-- Moments, numbers and truth values. -/
def bareValue : Reader Char Value :=
  .moment <$> moment <|> .float <$> float <|> .integer <$> integer <|> .boolean <$> boolean

theorem plainValue_eq : plainValue = (.text <$> string <|> bareValue) := rfl

theorem stopsAtMarks_bareValue : StopsAtMarks bareValue :=
  (stopsAtMarks_moment.map _).orElse <| (stopsAtMarks_float.map _).orElse <| (stopsAtMarks_integer.map _).orElse
    (stopsAtMarks_boolean.map _)

theorem bareValue_mark {c : Char} (h : c ∈ marks) (cs : List Char) : bareValue (c :: cs) = none :=
  Halts.mark stopsAtMarks_bareValue (by rfl) h cs

theorem independent_plainValue : IndependentBefore F plainValue := by
  rw [plainValue_eq]
  refine (independent_string.map _).orElse_of_head stopsAtMarks_bareValue.independent fun c z z' => ?_
  by_cases hc : c = '"' ∨ c = '\''
  · refine .inr (bareValue_mark ?_ z')
    rcases hc with rfl | rfl
    · decide
    · decide
  · obtain ⟨h, h'⟩ := not_or.1 hc
    exact .inl (map_of_eq_none (string_of_ne h h' z))

/-! ### Arrays -/

/-- A value of an array with the blanks around it. -/
def entry (item : Reader Char Value) : Reader Char Value := spread *> item <* spread

/-- What closes an array behind its last comma. -/
def closed : Reader Char Unit := spread *> exactly [']']

theorem closed_eq_some_iff : closed cs = some ((), rest) ↔ spread cs = some ((), ']' :: rest) :=
  seqRight_exactly_eq_some_iff

theorem entry_eq_some_iff :
    entry item cs = some (v, rest) ↔
      ∃ mid mid', spread cs = some ((), mid) ∧ item mid = some (v, mid') ∧ spread mid' = some ((), rest) := by
  constructor
  · intro h
    obtain ⟨mid', _, h, hafter⟩ := seqLeft_eq_some_iff.1 h
    obtain ⟨_, mid, hbefore, hitem⟩ := seqRight_eq_some_iff.1 h
    exact ⟨mid, mid', hbefore, hitem, hafter⟩
  · rintro ⟨mid, mid', hbefore, hitem, hafter⟩
    exact seqLeft_eq_some_iff.2 ⟨mid', (), seqRight_eq_some_iff.2 ⟨(), mid, hbefore, hitem⟩, hafter⟩

/-- Behind an entry the blanks have come to an end. -/
theorem spread_of_entry (h : entry item cs = some (v, rest)) : spread rest = some ((), rest) := by
  obtain ⟨_, _, -, -, hafter⟩ := entry_eq_some_iff.1 h
  exact spread_spread hafter

/-- Of the marks, the reader takes only those for the start of a value that open one. -/
structure IsItem (item : Reader Char Value) : Prop where
  independent : Independent item
  mark : ∀ c ∈ [']', '\x7d', ',', '=', '#'], ∀ cs, item (c :: cs) = none

theorem shrinks_spread : Shrinks spread := independent_spread.shrinks

namespace IsItem

theorem entry_of_closed (h : IsItem item) (hclosed : closed cs = some ((), rest)) : entry item cs = none := by
  rw [closed_eq_some_iff] at hclosed
  rw [Option.eq_none_iff_forall_ne_some]
  rintro ⟨v, mid⟩ hentry
  obtain ⟨mid', _, hbefore, hitem, -⟩ := entry_eq_some_iff.1 hentry
  rw [hclosed] at hbefore
  cases hbefore
  rw [h.mark _ (by decide)] at hitem
  cases hitem

theorem independent_entry (h : IsItem item) : IndependentBefore (· ≠ '#') (entry item) := by
  have hitem : Independent (spread *> item) := by
    refine independent_spread.bind_of_stop (fun _ => h.independent) fun _ c z => ?_
    by_cases hc : c = '#'
    · exact .inr (by rw [hc]; exact h.mark _ (by decide) z)
    · exact .inl hc
  exact hitem.seqLeft independent_spread

theorem independent_entry_exactly (h : IsItem item) {c : Char} (hc : c ≠ '#') :
    Independent (entry item <* exactly [c]) := by
  refine h.independent_entry.bind_of_stop
    (fun v => (Local.exactly _).bind_of_still fun _ => .inr ⟨v, rfl⟩) fun _ c' z => ?_
  by_cases hc' : c' = '#'
  · exact .inr (bind_of_eq_none (if_neg fun heq => hc (heq.trans hc')))
  · exact .inl hc'

/-- The end of an array, where no entry has a comma behind it any more. -/
inductive ArrayEnd (item : Reader Char Value) : List Char → List Value → List Char → Prop where
  | bare {cs rest : List Char} (h : closed cs = some ((), rest)) : ArrayEnd item cs [] rest
  | entry {cs rest : List Char} (v : Value) (h : (entry item <* exactly [']']) cs = some (v, rest)) :
      ArrayEnd item cs [v] rest

private theorem separated_entry_iff (h : IsItem item) :
    separated (exactly [',']) (entry item) cs = some (l, rest) ↔
      (∃ l₁ v mid, l = l₁ ++ [v] ∧ Through (entry item <* exactly [',']) cs l₁ mid ∧
        entry item mid = some (v, rest)) ∧
        (exactly [','] *> entry item) rest = none :=
  separated_eq_some_iff ((consumes_exactly _ _).bind fun _ => h.independent_entry.shrinks)

private theorem closing_eq_some_iff {l' : List Value} :
    (do spread; exactly [']']; return l' : Reader Char (List Value)) cs = some (l, rest) ↔
      l' = l ∧ closed cs = some ((), rest) := by
  rw [closed_eq_some_iff]
  constructor
  · intro h
    obtain ⟨_, mid, hspread, h⟩ := bind_eq_some_iff.1 h
    obtain ⟨_, mid', hclose, hpure⟩ := bind_eq_some_iff.1 h
    cases hpure
    rw [exactly_eq_some_iff.1 hclose] at hspread
    exact ⟨rfl, hspread⟩
  · rintro ⟨rfl, hspread⟩
    exact bind_eq_some_iff.2 ⟨(), _, hspread, bind_eq_some_iff.2 ⟨(), rest, exactly_eq_some_iff.2 rfl, rfl⟩⟩

private theorem array_of_separated {cs₁ mid' : List Char} {o : Option Unit}
    (hl : separated (exactly [',']) (entry item) cs₁ = some (l, mid))
    (hcomma : perhaps (exactly [',']) mid = some (o, mid')) (hclose : closed mid' = some ((), rest)) :
    array item ('[' :: cs₁) = some (l, rest) := by
  refine bind_eq_some_iff.2 ⟨(), cs₁, exactly_eq_some_iff.2 rfl, ?_⟩
  refine bind_eq_some_iff.2 ⟨some l, mid, perhaps_eq_some_iff.2 (.inl ⟨l, hl, rfl⟩), ?_⟩
  exact bind_eq_some_iff.2 ⟨(), mid', discard_eq_some_iff.2 ⟨o, hcomma⟩, closing_eq_some_iff.2 ⟨rfl, hclose⟩⟩

private theorem row_of_array (h : IsItem item) (harray : array item cs = some (l, rest)) :
    ∃ cs₁ l₁ l₂ mid, cs = '[' :: cs₁ ∧ l = l₁ ++ l₂ ∧ Through (entry item <* exactly [',']) cs₁ l₁ mid ∧
      ArrayEnd item mid l₂ rest := by
  obtain ⟨_, cs₁, hopen, harray⟩ := bind_eq_some_iff.1 harray
  obtain ⟨o, m, ho, harray⟩ := bind_eq_some_iff.1 harray
  rw [exactly_eq_some_iff.1 hopen]
  cases o with
  | none =>
    obtain ⟨rfl, hclose⟩ := closing_eq_some_iff.1 harray
    rcases perhaps_eq_some_iff.1 ho with ⟨_, -, ⟨⟩⟩ | ⟨-, -, rfl⟩
    exact ⟨m, [], [], m, rfl, rfl, .here, .bare hclose⟩
  | some l' =>
    obtain ⟨_, m', hcomma, harray⟩ := bind_eq_some_iff.1 harray
    obtain ⟨rfl, hclose⟩ := closing_eq_some_iff.1 harray
    obtain ⟨_, hcomma⟩ := discard_eq_some_iff.1 hcomma
    rcases perhaps_eq_some_iff.1 ho with ⟨_, hl, ⟨⟩⟩ | ⟨-, ⟨⟩, -⟩
    obtain ⟨⟨l₁, v, mid, rfl, hthrough, hv⟩, -⟩ := (separated_entry_iff h).1 hl
    rcases perhaps_eq_some_iff.1 hcomma with ⟨_, hcomma, -⟩ | ⟨-, -, rfl⟩
    · rw [exactly_eq_some_iff.1 hcomma] at hv
      have hlast : Through (entry item <* exactly [',']) mid [v] m' := .next (seqLeft_exactly_eq_some_iff.2 hv) .here
      exact ⟨cs₁, _, [], m', rfl, (List.append_nil _).symm, hthrough.append hlast, .bare hclose⟩
    · -- behind the last entry no blanks are left, so the bracket comes next
      rw [closed_eq_some_iff, spread_of_entry hv] at hclose
      cases hclose
      exact ⟨cs₁, l₁, [v], mid, rfl, rfl, hthrough, .entry v (seqLeft_exactly_eq_some_iff.2 hv)⟩

/-- All entries of the array have a comma behind them. -/
private theorem array_of_closed (h : IsItem item) (hthrough : Through (entry item <* exactly [',']) cs l mid)
    (hclose : closed mid = some ((), rest)) : array item ('[' :: cs) = some (l, rest) := by
  rcases List.eq_nil_or_concat l with rfl | ⟨l₂, v, rfl⟩
  · obtain rfl := through_nil_iff.1 hthrough
    have hnone : separated (exactly [',']) (entry item) cs = none := bind_of_eq_none (h.entry_of_closed hclose)
    refine bind_eq_some_iff.2 ⟨(), cs, exactly_eq_some_iff.2 rfl, ?_⟩
    refine bind_eq_some_iff.2 ⟨none, cs, perhaps_eq_some_iff.2 (.inr ⟨hnone, rfl, rfl⟩), ?_⟩
    exact closing_eq_some_iff.2 ⟨rfl, hclose⟩
  · rw [List.concat_eq_append] at hthrough ⊢
    obtain ⟨m, hl₂, hlast⟩ := through_append_iff.1 hthrough
    obtain ⟨m', hv, hm'⟩ := through_cons_iff.1 hlast
    obtain rfl := through_nil_iff.1 hm'
    have hnone : (exactly [','] *> entry item) (',' :: m') = none := by
      have hcomma : (exactly [','] *> entry item) (',' :: m') = entry item m' :=
        bind_of_eq_some (exactly_eq_some_iff.2 rfl)
      rw [hcomma]
      exact h.entry_of_closed hclose
    have hl := (separated_entry_iff h).2 ⟨⟨l₂, v, m, rfl, hl₂, seqLeft_exactly_eq_some_iff.1 hv⟩, hnone⟩
    exact array_of_separated hl (perhaps_eq_some_iff.2 (.inl ⟨(), exactly_eq_some_iff.2 rfl, rfl⟩)) hclose

/-- An array is a row of entries with commas behind them, and an end. -/
theorem array_eq_some_iff (h : IsItem item) :
    array item cs = some (l, rest) ↔ ∃ cs₁ l₁ l₂ mid, cs = '[' :: cs₁ ∧ l = l₁ ++ l₂ ∧
      Through (entry item <* exactly [',']) cs₁ l₁ mid ∧ ArrayEnd item mid l₂ rest := by
  refine ⟨h.row_of_array, ?_⟩
  rintro ⟨cs₁, l₁, l₂, mid, rfl, rfl, hthrough, hend⟩
  cases hend with
  | bare hclose =>
    rw [List.append_nil]
    exact h.array_of_closed hthrough hclose
  | entry v hlast =>
    have hnone : (exactly [','] *> entry item) (']' :: rest) = none := bind_of_eq_none rfl
    have hl := (separated_entry_iff h).2 ⟨⟨l₁, v, mid, rfl, hthrough, seqLeft_exactly_eq_some_iff.1 hlast⟩, hnone⟩
    refine array_of_separated hl (perhaps_eq_some_iff.2 (.inr ⟨rfl, rfl, rfl⟩)) (closed_eq_some_iff.2 ?_)
    exact spread_of_mark (by decide) (by decide) rest

theorem independent_closed : IndependentBefore F closed := by
  refine independent_spread.bind_of_stop (fun _ => .exactly _) fun _ c z => ?_
  by_cases hc : c = '#'
  · exact .inr (by rw [hc]; rfl)
  · exact .inl hc

theorem independent_array (h : IsItem item) : IndependentBefore F (array item) := by
  have hentry : Independent (entry item <* exactly [',']) := h.independent_entry_exactly (by decide)
  have hlast : Independent (entry item <* exactly [']']) := h.independent_entry_exactly (by decide)
  have hclosed : Independent closed := independent_closed
  have hsuffix {l : List Value} {mid rest : List Char} (hend : ArrayEnd item mid l rest) : rest <:+ mid := by
    cases hend with
    | bare hend => exact hclosed.shrinks hend
    | entry v hend => exact hlast.shrinks hend
  refine ⟨fun cs l rest harray => ?_, fun {p s z l} harray _ z' => ?_⟩
  · obtain ⟨cs₁, l₁, l₂, mid, rfl, -, hthrough, hend⟩ := h.array_eq_some_iff.1 harray
    exact ((hsuffix hend).trans (hthrough.suffix hentry.shrinks)).trans (List.suffix_cons _ _)
  · obtain ⟨cs₁, l₁, l₂, mid, hcs, hl, hthrough, hend⟩ := h.array_eq_some_iff.1 harray
    obtain ⟨t, rfl⟩ := exists_eq_append (hsuffix hend)
    obtain ⟨u, rfl⟩ := exists_eq_append (hthrough.suffix hentry.shrinks)
    obtain rfl : p = '[' :: u := List.append_cancel_right (hcs.trans (List.cons_append ..).symm)
    refine h.array_eq_some_iff.2 ⟨u ++ '"' :: z', l₁, l₂, t ++ '"' :: z', rfl, hl, hentry.through hthrough z', ?_⟩
    cases hend with
    | bare hend => exact .bare (hclosed.transfer hend (fun _ _ => trivial) z')
    | entry v hend => exact .entry v (hlast.transfer hend (fun _ _ => trivial) z')

/-! ### Tables on a single line -/

theorem independent_pair (h : IsItem item) : Independent (pair item) := by
  refine independent_keyPath.bind_of_stop
    (fun key => (Local.exactly _).bind fun _ => stopsAtMarks_gap.independent.bind fun _ =>
      h.independent.bind_of_still fun v => .inr ⟨(key, v), rfl⟩) fun key c z => ?_
  by_cases hc : c = '.'
  · exact .inr (by rw [hc]; exact bind_of_eq_none rfl)
  · exact .inl hc

/-- What stands between the braces of a table on a single line: nothing, or pairs with commas between them. -/
inductive InlinePairs (item : Reader Char Value) : List Char → List (KeyPath × Value) → List Char → Prop where
  | none {cs rest : List Char} (h : (gap *> exactly ['\x7d']) cs = some ((), rest)) : InlinePairs item cs [] rest
  | some {cs mid rest : List Char} (l : List (KeyPath × Value)) (kv : KeyPath × Value)
      (hthrough : Through (pair item <* gap <* exactly [',']) cs l mid)
      (h : (pair item <* gap <* exactly ['\x7d']) mid = some (kv, rest)) : InlinePairs item cs (l ++ [kv]) rest

private theorem table_eq_some_iff {l : List (KeyPath × Value)} {es : Entries} :
    (do
      gap
      exactly ['\x7d']
      match Entries.ofPairs? l with
      | some es => return es
      | none => failure : Reader Char Entries) cs = some (es, rest) ↔
      Entries.ofPairs? l = some es ∧ gap cs = some ((), '\x7d' :: rest) := by
  constructor
  · intro h
    obtain ⟨_, mid, hgap, h⟩ := bind_eq_some_iff.1 h
    obtain ⟨_, mid', hclose, h⟩ := bind_eq_some_iff.1 h
    rw [exactly_eq_some_iff.1 hclose] at hgap
    cases hes : Entries.ofPairs? l with
    | none =>
      rw [hes] at h
      cases h
    | some es' =>
      rw [hes] at h
      cases h
      exact ⟨rfl, hgap⟩
  · rintro ⟨hes, hgap⟩
    refine bind_eq_some_iff.2 ⟨(), _, hgap, bind_eq_some_iff.2 ⟨(), rest, exactly_eq_some_iff.2 rfl, ?_⟩⟩
    rw [hes]
    rfl

/-- In front of a closing brace there is no pair. -/
theorem pair_of_braced (h : gap cs = some ((), '\x7d' :: rest)) : (pair item <* gap) cs = none := by
  have hpair : pair item cs = none := bind_of_eq_none (keyPath_of_gap h rfl (by decide) (by decide))
  exact bind_of_eq_none hpair

theorem inlineTable_eq_some_iff (h : IsItem item) {es : Entries} :
    inlineTable item cs = some (es, rest) ↔
      ∃ cs₁ l, cs = '\x7b' :: cs₁ ∧ InlinePairs item cs₁ l rest ∧ Entries.ofPairs? l = some es := by
  have hpair : Independent (pair item <* gap) := h.independent_pair.seqLeft stopsAtMarks_gap.independent
  have hseparated {cs rest : List Char} {l : List (KeyPath × Value)} :
      separated (exactly [',']) (pair item <* gap) cs = some (l, rest) ↔
        (∃ l₁ kv mid, l = l₁ ++ [kv] ∧ Through (pair item <* gap <* exactly [',']) cs l₁ mid ∧
          (pair item <* gap) mid = some (kv, rest)) ∧ (exactly [','] *> (pair item <* gap)) rest = none :=
    separated_eq_some_iff ((consumes_exactly _ _).bind fun _ => hpair.shrinks)
  constructor
  · intro htable
    obtain ⟨_, cs₁, hopen, htable⟩ := bind_eq_some_iff.1 htable
    obtain ⟨o, m, ho, htable⟩ := bind_eq_some_iff.1 htable
    obtain ⟨hes, hgap⟩ := table_eq_some_iff.1 htable
    rw [exactly_eq_some_iff.1 hopen]
    refine ⟨cs₁, o.getD [], rfl, ?_, hes⟩
    rcases perhaps_eq_some_iff.1 ho with ⟨l, hl, rfl⟩ | ⟨-, rfl, rfl⟩
    · obtain ⟨⟨l₁, kv, mid, rfl, hthrough, hkv⟩, -⟩ := hseparated.1 hl
      obtain ⟨mid', _, hpair, hgap'⟩ := seqLeft_eq_some_iff.1 hkv
      rw [gap_gap hgap'] at hgap
      cases hgap
      exact .some l₁ kv hthrough (seqLeft_exactly_eq_some_iff.2 hkv)
    · exact .none (seqRight_exactly_eq_some_iff.2 hgap)
  · rintro ⟨cs₁, l, rfl, hpairs, hes⟩
    refine bind_eq_some_iff.2 ⟨(), cs₁, exactly_eq_some_iff.2 rfl, ?_⟩
    cases hpairs with
    | none hclose =>
      rw [seqRight_exactly_eq_some_iff] at hclose
      have hnone : separated (exactly [',']) (pair item <* gap) cs₁ = none := bind_of_eq_none (pair_of_braced hclose)
      exact bind_eq_some_iff.2 ⟨none, cs₁, perhaps_eq_some_iff.2 (.inr ⟨hnone, rfl, rfl⟩),
        table_eq_some_iff.2 ⟨hes, hclose⟩⟩
    | some l kv hthrough hlast =>
      have hnone : (exactly [','] *> (pair item <* gap)) ('\x7d' :: rest) = none := bind_of_eq_none rfl
      have hl := hseparated.2 ⟨⟨l, kv, _, rfl, hthrough, seqLeft_exactly_eq_some_iff.1 hlast⟩, hnone⟩
      refine bind_eq_some_iff.2 ⟨some (l ++ [kv]), _, perhaps_eq_some_iff.2 (.inl ⟨_, hl, rfl⟩), ?_⟩
      exact table_eq_some_iff.2 ⟨hes, gap_of_ne rfl rest⟩

theorem independent_inlineTable (h : IsItem item) : IndependentBefore F (inlineTable item) := by
  have hpair (c : Char) : Independent (pair item <* gap <* exactly [c]) :=
    (h.independent_pair.seqLeft stopsAtMarks_gap.independent).seqLeft (.exactly _)
  have hclose : Independent (gap *> exactly ['\x7d']) := stopsAtMarks_gap.independent.seqRight (.exactly _)
  have hsuffix {cs rest : List Char} {l : List (KeyPath × Value)} (hpairs : InlinePairs item cs l rest) :
      rest <:+ cs := by
    cases hpairs with
    | none hend => exact hclose.shrinks hend
    | some l kv hthrough hend => exact ((hpair _).shrinks hend).trans (hthrough.suffix (hpair _).shrinks)
  refine ⟨fun cs es rest htable => ?_, fun {p s z es} htable _ z' => ?_⟩
  · obtain ⟨cs₁, l, rfl, hpairs, -⟩ := h.inlineTable_eq_some_iff.1 htable
    exact (hsuffix hpairs).trans (List.suffix_cons _ _)
  · obtain ⟨cs₁, l, hcs, hpairs, hes⟩ := h.inlineTable_eq_some_iff.1 htable
    obtain ⟨u, rfl⟩ := exists_eq_append (hsuffix hpairs)
    obtain rfl : p = '\x7b' :: u := List.append_cancel_right (hcs.trans (List.cons_append ..).symm)
    refine h.inlineTable_eq_some_iff.2 ⟨u ++ '"' :: z', l, rfl, ?_, hes⟩
    cases hpairs with
    | none hend => exact .none (hclose.transfer hend (fun _ _ => trivial) z')
    | some l kv hthrough hend =>
      obtain ⟨t, rfl⟩ := exists_eq_append ((hpair _).shrinks hend)
      exact .some l kv ((hpair _).through hthrough z') ((hpair _).transfer hend (fun _ _ => trivial) z')

end IsItem

/-! ### Values and lines -/

theorem plainValue_of_mark {c : Char} (hc : c ∈ marks) (h : c ≠ '"') (h' : c ≠ '\'') (cs : List Char) :
    plainValue (c :: cs) = none := by
  rw [plainValue_eq]
  exact orElse_eq_none_iff.2 ⟨map_of_eq_none (string_of_ne h h' cs), bareValue_mark hc cs⟩

theorem array_of_ne {c : Char} (h : c ≠ '[') (cs : List Char) : array item (c :: cs) = none :=
  bind_of_eq_none (if_neg h.symm)

theorem inlineTable_of_ne {c : Char} (h : c ≠ '\x7b') (cs : List Char) : inlineTable item (c :: cs) = none :=
  bind_of_eq_none (if_neg h.symm)

/-- The marks in front of which no value starts are not quotation marks. -/
private theorem plainValue_of_closing {c : Char} (hc : c ∈ [']', '\x7d', ',', '=', '#', '[', '\x7b'])
    (cs : List Char) : plainValue (c :: cs) = none := by
  have hmark : [']', '\x7d', ',', '=', '#', '[', '\x7b'].all
      (fun c => marks.contains c && c != '"' && c != '\'') = true := by decide
  have hall := List.all_eq_true.1 hmark c hc
  simp only [Bool.and_eq_true, List.contains_iff_mem, bne_iff_ne, ne_eq] at hall
  exact plainValue_of_mark hall.1.1 hall.1.2 hall.2 cs

theorem isItem_value (depth : Nat) : IsItem (value depth) := by
  induction depth with
  | zero =>
    refine ⟨independent_plainValue, fun c hc cs => plainValue_of_closing (List.mem_append_left ['[', '\x7b'] hc) cs⟩
  | succ depth ih =>
    constructor
    · refine (ih.independent_array.map _).orElse_of_head ((ih.independent_inlineTable.map _).orElse_of_head
        independent_plainValue fun c z z' => ?_) fun c z z' => ?_
      · by_cases hc : c = '\x7b'
        · exact .inr (by rw [hc]; exact plainValue_of_closing (by decide) z')
        · exact .inl (map_of_eq_none (inlineTable_of_ne hc z))
      · by_cases hc : c = '['
        · refine .inr (orElse_eq_none_iff.2 ⟨?_, ?_⟩)
          · rw [hc]
            exact map_of_eq_none (inlineTable_of_ne (by decide) z')
          · rw [hc]
            exact plainValue_of_closing (by decide) z'
        · exact .inl (map_of_eq_none (array_of_ne hc z))
    · intro c hc cs
      have hopen : [']', '\x7d', ',', '=', '#'].all (fun c => c != '[' && c != '\x7b') = true := by decide
      have hall := List.all_eq_true.1 hopen c hc
      simp only [Bool.and_eq_true, bne_iff_ne, ne_eq] at hall
      have hplain : plainValue (c :: cs) = none := plainValue_of_closing (List.mem_append_left ['[', '\x7b'] hc) cs
      exact orElse_eq_none_iff.2 ⟨map_of_eq_none (array_of_ne hall.1 cs),
        orElse_eq_none_iff.2 ⟨map_of_eq_none (inlineTable_of_ne hall.2 cs), hplain⟩⟩

private theorem independent_header (opening : List Char) (closing : List Char) :
    Independent (exactly opening *> keyPath <* exactly (']' :: closing) <* lineEnd) := by
  have hkey : IndependentBefore (· ≠ '.') (exactly opening *> keyPath) :=
    (Local.exactly _).seqRight independent_keyPath
  have hclosed : Independent (exactly opening *> keyPath <* exactly (']' :: closing)) := by
    refine hkey.bind_of_stop (fun key => (Local.exactly _).bind_of_still fun _ => .inr ⟨key, rfl⟩) fun key c z => ?_
    by_cases hc : c = '.'
    · exact .inr (by rw [hc]; exact bind_of_eq_none rfl)
    · exact .inl hc
  exact hclosed.seqLeft independent_lineEnd

private theorem keyPath_bracket (cs : List Char) : keyPath ('[' :: cs) = none :=
  keyPath_of_gap (gap_of_ne rfl cs) rfl (by decide) (by decide)

/-- A header of one of several tables. -/
private def elementHeader : Reader Char Statement :=
  Statement.element <$> (exactly ['[', '['] *> keyPath <* exactly [']', ']'] <* lineEnd)

private def tableHeader : Reader Char Statement :=
  Statement.table <$> (exactly ['['] *> keyPath <* exactly [']'] <* lineEnd)

/-- A pair on a line of its own. -/
def pairLine : Reader Char Statement := (fun (key, v) => Statement.pair key v) <$> (pair (value maxDepth) <* lineEnd)

private theorem statement_eq : statement = (elementHeader <|> tableHeader <|> pairLine) := rfl

private theorem header_of_ne {opening closing : List Char} {c : Char} (h : c ≠ '[') (cs : List Char) :
    (exactly ('[' :: opening) *> keyPath <* exactly closing <* lineEnd) (c :: cs) = none := by
  have hopen : (exactly ('[' :: opening) *> keyPath) (c :: cs) = none := bind_of_eq_none (if_neg h.symm)
  have hclose : (exactly ('[' :: opening) *> keyPath <* exactly closing) (c :: cs) = none := bind_of_eq_none hopen
  exact bind_of_eq_none hclose

private theorem pairLine_of_keyPath (h : keyPath cs = none) : pairLine cs = none := by
  have hpair : pair (value maxDepth) cs = none := bind_of_eq_none h
  have hline : (pair (value maxDepth) <* lineEnd) cs = none := bind_of_eq_none hpair
  exact map_of_eq_none hline

/-- Behind two brackets there is a header of one of several tables, or nothing. -/
private theorem tableHeader_or_pairLine_of_brackets (cs : List Char) :
    (tableHeader <|> pairLine) ('[' :: '[' :: cs) = none := by
  have hkey : (exactly ['['] *> keyPath) ('[' :: '[' :: cs) = none := keyPath_bracket cs
  have hclose : (exactly ['['] *> keyPath <* exactly [']']) ('[' :: '[' :: cs) = none := bind_of_eq_none hkey
  have hheader : (exactly ['['] *> keyPath <* exactly [']'] <* lineEnd) ('[' :: '[' :: cs) = none :=
    bind_of_eq_none hclose
  exact orElse_eq_none_iff.2 ⟨map_of_eq_none hheader, pairLine_of_keyPath (keyPath_bracket ('[' :: cs))⟩

private theorem elementHeader_of_ne {c d : Char} (h : ¬ (c = '[' ∧ d = '[')) (cs : List Char) :
    elementHeader (c :: d :: cs) = none := by
  have hopen : exactly ['[', '['] (c :: d :: cs) = none := by
    rw [Option.eq_none_iff_forall_ne_some]
    rintro ⟨_, rest⟩ hsome
    obtain ⟨rfl, htail⟩ := List.cons.inj (exactly_eq_some_iff.1 hsome)
    exact h ⟨rfl, (List.cons.inj htail).1⟩
  have hkey : (exactly ['[', '['] *> keyPath) (c :: d :: cs) = none := bind_of_eq_none hopen
  have hclose : (exactly ['[', '['] *> keyPath <* exactly [']', ']']) (c :: d :: cs) = none := bind_of_eq_none hkey
  have hheader : (exactly ['[', '['] *> keyPath <* exactly [']', ']'] <* lineEnd) (c :: d :: cs) = none :=
    bind_of_eq_none hclose
  exact map_of_eq_none hheader

theorem independent_pairLine : Independent pairLine :=
  ((isItem_value maxDepth).independent_pair.seqLeft independent_lineEnd).map _

theorem independent_statement : Independent statement := by
  have hrest : Independent (tableHeader <|> pairLine) := by
    refine ((independent_header _ _).map _).orElse_of_head independent_pairLine fun c z z' => ?_
    by_cases hc : c = '['
    · exact .inr (by rw [hc]; exact pairLine_of_keyPath (keyPath_bracket z'))
    · exact .inl (map_of_eq_none (header_of_ne hc z))
  refine ((independent_header _ _).map _).orElse_of_apart hrest fun {p z} _ hsome z' => ?_
  match p with
  | [] => exact map_of_eq_none (header_of_ne (by decide) z')
  | [c] => exact elementHeader_of_ne (fun h => absurd h.2 (by decide)) z'
  | c :: d :: p =>
    refine elementHeader_of_ne (fun h => hsome ?_) _
    rw [h.1, h.2]
    exact tableHeader_or_pairLine_of_brackets _

/-- A line of a document, with the blanks before the next one. -/
def line : Reader Char (Option Statement) := (some <$> statement <|> blankLine *> pure none) <* gap

theorem independent_blankLine : Independent blankLine :=
  stopsAtMarks_lineBreak.independent.orElse stopsAtMarks_lineBreak.firm
    (independent_comment.seqRight independent_lineBreak_or_finished)

/-- A statement does not start with what starts a line without one. -/
private theorem statement_of_keyPath {c : Char} (h : c ≠ '[') (hkey : keyPath (c :: cs) = none) :
    statement (c :: cs) = none :=
  orElse_eq_none_iff.2 ⟨map_of_eq_none (header_of_ne h cs), orElse_eq_none_iff.2
    ⟨map_of_eq_none (header_of_ne h cs), pairLine_of_keyPath hkey⟩⟩

private theorem blankLine_of_ne {c : Char} (h : ¬ (c = '\n' ∨ c = '\r' ∨ c = '#')) (cs : List Char) :
    blankLine (c :: cs) = none := by
  obtain ⟨hn, hr, hcomment⟩ : c ≠ '\n' ∧ c ≠ '\r' ∧ c ≠ '#' := by simpa [not_or] using h
  have hbreak : lineBreak (c :: cs) = none := orElse_eq_none_iff.2 ⟨if_neg hn.symm, if_neg hr.symm⟩
  have hnone : (comment *> (lineBreak <|> finished)) (c :: cs) = none := bind_of_eq_none (comment_of_ne hcomment cs)
  exact orElse_eq_none_iff.2 ⟨hbreak, hnone⟩

private theorem keyPath_of_blank {c : Char} (h : c = '\n' ∨ c = '\r' ∨ c = '#') (cs : List Char) :
    keyPath (c :: cs) = none := by
  rcases h with rfl | rfl | rfl
  all_goals exact keyPath_of_gap (gap_of_ne rfl cs) rfl (by decide) (by decide)

theorem independent_line : Independent line := by
  refine Local.seqLeft ?_ stopsAtMarks_gap.independent
  have hblank : Independent (blankLine *> pure (none : Option Statement)) := independent_blankLine.seqRight (.pure _)
  refine (independent_statement.map _).orElse_of_head hblank fun c z z' => ?_
  by_cases hc : c = '\n' ∨ c = '\r' ∨ c = '#'
  · refine .inl (map_of_eq_none (statement_of_keyPath ?_ (keyPath_of_blank hc z)))
    rcases hc with rfl | rfl | rfl
    all_goals decide
  · exact .inr (bind_of_eq_none (blankLine_of_ne hc z'))

/-- Where there is a key, there is a pair or no line at all. -/
theorem line_eq_some_iff_of_keyPath {o : Option Statement} (h : keyPath cs ≠ none) :
    line cs = some (o, rest) ↔
      ∃ kv, (pair (value maxDepth) <* lineEnd <* gap) cs = some (kv, rest) ∧ o = some (.pair kv.1 kv.2) := by
  cases cs with
  | nil => exact absurd rfl h
  | cons c cs =>
    have hc : c ≠ '[' := by
      rintro rfl
      exact h (keyPath_bracket cs)
    have helement : elementHeader (c :: cs) = none := map_of_eq_none (header_of_ne hc cs)
    have htable : tableHeader (c :: cs) = none := map_of_eq_none (header_of_ne hc cs)
    have hstatement : statement (c :: cs) = pairLine (c :: cs) := by
      rw [statement_eq, orElse_of_eq_none helement, orElse_of_eq_none htable]
    constructor
    · intro hline
      obtain ⟨mid, _, hline, hgap⟩ := seqLeft_eq_some_iff.1 hline
      rcases orElse_eq_some_iff.1 hline with hline | ⟨-, hline⟩
      · obtain ⟨_, hpairLine, rfl⟩ := map_eq_some_iff.1 hline
        rw [hstatement] at hpairLine
        obtain ⟨kv, hpair, rfl⟩ := map_eq_some_iff.1 hpairLine
        exact ⟨kv, seqLeft_eq_some_iff.2 ⟨mid, _, hpair, hgap⟩, rfl⟩
      · have hblank : (blankLine *> pure (none : Option Statement)) (c :: cs) = none :=
          bind_of_eq_none (blankLine_of_ne (fun hblank => h (keyPath_of_blank hblank cs)) cs)
        rw [hblank] at hline
        cases hline
    · rintro ⟨kv, hpair, rfl⟩
      obtain ⟨mid, _, hpair, hgap⟩ := seqLeft_eq_some_iff.1 hpair
      have hline : pairLine (c :: cs) = some (.pair kv.1 kv.2, mid) := map_eq_some_iff.2 ⟨kv, hpair, rfl⟩
      rw [← hstatement] at hline
      refine seqLeft_eq_some_iff.2 ⟨mid, _, orElse_of_eq_some ?_, hgap⟩
      exact map_eq_some_iff.2 ⟨_, hline, rfl⟩

theorem consumes_statement : Consumes statement := by
  have hheader (opening closing : List Char) :
      Consumes (exactly ('[' :: opening) *> keyPath <* exactly closing <* lineEnd) := by
    have hkey : Consumes (exactly ('[' :: opening) *> keyPath) :=
      (consumes_exactly _ _).bind fun _ => independent_keyPath.shrinks
    exact (hkey.seqLeft (Local.exactly (q := '"') (F := fun _ => True) closing).shrinks).seqLeft
      (independent_lineEnd (F := fun _ => True)).shrinks
  have hvalue (key : KeyPath) : Independent (do gap; return (key, ← value maxDepth)) :=
    stopsAtMarks_gap.independent.bind fun _ =>
      (isItem_value maxDepth).independent.bind_of_still fun v => .inr ⟨(key, v), rfl⟩
  have hpair : Consumes (pair (value maxDepth)) :=
    independent_keyPath.shrinks.bind_consumes fun key => (consumes_exactly _ _).bind fun _ => (hvalue key).shrinks
  exact ((hheader _ _).map _).orElse (((hheader _ _).map _).orElse
    ((hpair.seqLeft (independent_lineEnd (F := fun _ => True)).shrinks).map _))

theorem consumes_line : Consumes line := by
  have hcomment : Consumes (comment *> (lineBreak <|> finished)) :=
    consumes_comment.bind fun _ => (independent_lineBreak_or_finished (F := fun _ => True)).shrinks
  have hblank : Consumes (blankLine *> pure (none : Option Statement)) :=
    (consumes_lineBreak.orElse hcomment).bind fun _ => (Halts.pure (M := fun _ => False) _).shrinks
  exact ((consumes_statement.map _).orElse hblank).seqLeft stopsAtMarks_gap.shrinks

end VaultChat.Toml
