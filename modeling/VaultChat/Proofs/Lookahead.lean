import VaultChat.Text.Reader

/-!
# How far readers look ahead

Two ways in which a reader can be indifferent to what comes behind a symbol.  A reader may take certain marks for the
end of the text (`Halts`).  Or what it takes in front of a symbol `q`, where it stops in front of it, does not depend
on what is behind `q`, perhaps as long as the text goes on with certain symbols only (`Local`).  Readers that are put
together from such readers are of the same kind.
-/

namespace VaultChat.Text.Reader

variable {σ α β : Type} {r r' : Reader σ α} {f : α → Reader σ β} {cs mid rest : List σ} {a : α} {b : β} {l : List α}

/-! ### Parts -/

theorem bind_eq_some_iff :
    (r >>= f) cs = some (b, rest) ↔ ∃ a mid, r cs = some (a, mid) ∧ f a mid = some (b, rest) := by
  show (r cs).bind (fun x => f x.1 x.2) = some (b, rest) ↔ _
  rw [Option.bind_eq_some_iff]
  exact ⟨fun ⟨x, hx⟩ => ⟨x.1, x.2, hx⟩, fun ⟨a, mid, h⟩ => ⟨(a, mid), h⟩⟩

theorem bind_of_eq_some (h : r cs = some (a, mid)) : (r >>= f) cs = f a mid := by
  show (r cs).bind (fun x => f x.1 x.2) = _
  rw [h]
  rfl

theorem bind_of_eq_none (h : r cs = none) : (r >>= f) cs = none := by
  show (r cs).bind (fun x => f x.1 x.2) = _
  rw [h]
  rfl

theorem map_eq_some_iff {g : α → β} : (g <$> r) cs = some (b, rest) ↔ ∃ a, r cs = some (a, rest) ∧ g a = b := by
  show (r >>= fun a => pure (g a)) cs = some (b, rest) ↔ _
  rw [bind_eq_some_iff]
  constructor
  · rintro ⟨a, mid, h, ⟨⟩⟩
    exact ⟨a, h, rfl⟩
  · rintro ⟨a, h, rfl⟩
    exact ⟨a, rest, h, rfl⟩

theorem map_of_eq_none {g : α → β} (h : r cs = none) : (g <$> r) cs = none := by
  rw [Option.eq_none_iff_forall_ne_some]
  rintro ⟨b, rest⟩ hb
  obtain ⟨a, ha, -⟩ := map_eq_some_iff.1 hb
  rw [h] at ha
  cases ha

theorem seqRight_eq_some_iff {r' : Reader σ β} :
    (r *> r') cs = some (b, rest) ↔ ∃ a mid, r cs = some (a, mid) ∧ r' mid = some (b, rest) := bind_eq_some_iff

theorem seqLeft_eq_some_iff {r' : Reader σ β} :
    (r <* r') cs = some (a, rest) ↔ ∃ mid b, r cs = some (a, mid) ∧ r' mid = some (b, rest) := by
  constructor
  · intro h
    obtain ⟨a', mid, ha, h⟩ := bind_eq_some_iff.1 h
    obtain ⟨b, mid', hb, hpure⟩ := bind_eq_some_iff.1 h
    cases hpure
    exact ⟨mid, b, ha, hb⟩
  · rintro ⟨mid, b, ha, hb⟩
    exact bind_eq_some_iff.2 ⟨a, mid, ha, bind_eq_some_iff.2 ⟨b, rest, hb, rfl⟩⟩

section exactly

variable [DecidableEq σ] {c : σ}

/-- A reader in front of a given symbol. -/
theorem seqLeft_exactly_eq_some_iff : (r <* exactly [c]) cs = some (a, rest) ↔ r cs = some (a, c :: rest) := by
  rw [seqLeft_eq_some_iff]
  constructor
  · rintro ⟨mid, _, h, hmark⟩
    rw [exactly_eq_some_iff.1 hmark] at h
    exact h
  · intro h
    exact ⟨_, (), h, exactly_eq_some_iff.2 rfl⟩

theorem seqRight_exactly_eq_some_iff {r : Reader σ Unit} :
    (r *> exactly [c]) cs = some ((), rest) ↔ r cs = some ((), c :: rest) := by
  rw [seqRight_eq_some_iff]
  constructor
  · rintro ⟨_, mid, h, hmark⟩
    rw [exactly_eq_some_iff.1 hmark] at h
    exact h
  · intro h
    exact ⟨(), _, h, exactly_eq_some_iff.2 rfl⟩

end exactly

theorem discard_eq_some_iff {u : PUnit} : discard r cs = some (u, rest) ↔ ∃ a, r cs = some (a, rest) := by
  show ((fun _ => PUnit.unit) <$> r) cs = some (u, rest) ↔ _
  rw [map_eq_some_iff]
  exact ⟨fun ⟨a, h, _⟩ => ⟨a, h⟩, fun ⟨a, h⟩ => ⟨a, h, rfl⟩⟩

theorem one_eq_some_iff {p : σ → Bool} {c : σ} : one p cs = some (c, rest) ↔ cs = c :: rest ∧ p c = true := by
  cases cs with
  | nil => exact ⟨nofun, nofun⟩
  | cons d cs =>
    rw [one]
    constructor
    · intro h
      split at h
      · cases h
        exact ⟨rfl, ‹_›⟩
      · cases h
    · rintro ⟨⟨⟩, hp⟩
      exact if_pos hp

theorem orElse_of_eq_some {x : α × List σ} (h : r cs = some x) : (r <|> r') cs = some x := by
  show (r cs <|> r' cs) = _
  rw [h]
  rfl

theorem orElse_of_eq_none (h : r cs = none) : (r <|> r') cs = r' cs := by
  show (r cs <|> r' cs) = _
  rw [h]
  rfl

theorem orElse_eq_some_iff {x : α × List σ} :
    (r <|> r') cs = some x ↔ r cs = some x ∨ r cs = none ∧ r' cs = some x := by
  cases h : r cs with
  | none => simp [orElse_of_eq_none h]
  | some y => simp [orElse_of_eq_some h]

theorem orElse_eq_none_iff : (r <|> r') cs = none ↔ r cs = none ∧ r' cs = none := by
  cases h : r cs with
  | none => simp [orElse_of_eq_none h]
  | some y => simp [orElse_of_eq_some h]

theorem perhaps_eq_some_iff {o : Option α} :
    perhaps r cs = some (o, rest) ↔
      (∃ a, r cs = some (a, rest) ∧ o = some a) ∨ r cs = none ∧ o = none ∧ rest = cs := by
  unfold perhaps
  cases h : r cs with
  | none => simp [eq_comm]
  | some x =>
    obtain ⟨a, mid⟩ := x
    simp only [Option.some.injEq, Prod.mk.injEq, reduceCtorEq, false_and, or_false]
    constructor
    · rintro ⟨rfl, rfl⟩
      exact ⟨a, ⟨rfl, rfl⟩, rfl⟩
    · rintro ⟨_, ⟨rfl, rfl⟩, rfl⟩
      exact ⟨rfl, rfl⟩

theorem all?_eq_some_iff : all? r cs = some a ↔ r cs = some (a, []) := by
  unfold all?
  rw [Option.map_eq_some_iff]
  constructor
  · rintro ⟨⟨_, rest⟩, h, rfl⟩
    obtain ⟨mid, u, hr, hend⟩ := seqLeft_eq_some_iff.1 h
    cases mid with
    | nil => exact hr
    | cons => cases hend
  · intro h
    exact ⟨(a, []), seqLeft_eq_some_iff.2 ⟨[], (), h, rfl⟩, rfl⟩

/-! ### Progress -/

/-- The reader takes symbols off the front. -/
def Shrinks (r : Reader σ α) : Prop := ∀ ⦃cs a rest⦄, r cs = some (a, rest) → rest <:+ cs

/-- The reader takes at least one symbol. -/
def Consumes (r : Reader σ α) : Prop := ∀ ⦃cs a rest⦄, r cs = some (a, rest) → rest.length < cs.length

theorem Consumes.nil (h : Consumes r) : r [] = none := by
  cases hr : r [] with
  | none => rfl
  | some x => exact absurd (h hr) (Nat.not_lt_zero _)

theorem Consumes.bind (hr : Consumes r) (hf : ∀ a, Shrinks (f a)) : Consumes (r >>= f) := by
  intro cs b rest h
  obtain ⟨a, mid, hmid, hrest⟩ := bind_eq_some_iff.1 h
  exact Nat.lt_of_le_of_lt (hf a hrest).length_le (hr hmid)

theorem Shrinks.bind_consumes (hr : Shrinks r) (hf : ∀ a, Consumes (f a)) : Consumes (r >>= f) := by
  intro cs b rest h
  obtain ⟨a, mid, hmid, hrest⟩ := bind_eq_some_iff.1 h
  exact Nat.lt_of_lt_of_le (hf a hrest) (hr hmid).length_le

theorem Consumes.orElse (hr : Consumes r) (hr' : Consumes r') : Consumes (r <|> r') := by
  intro cs a rest h
  rcases orElse_eq_some_iff.1 h with h | ⟨-, h⟩
  · exact hr h
  · exact hr' h

theorem Consumes.map (hr : Consumes r) (g : α → β) : Consumes (g <$> r) := by
  intro cs b rest h
  obtain ⟨a, ha, -⟩ := map_eq_some_iff.1 h
  exact hr ha

theorem Consumes.seqLeft {r' : Reader σ β} (hr : Consumes r) (hr' : Shrinks r') : Consumes (r <* r') := by
  intro cs a rest h
  obtain ⟨mid, b, ha, hb⟩ := seqLeft_eq_some_iff.1 h
  exact Nat.lt_of_le_of_lt (hr' hb).length_le (hr ha)

theorem consumes_one (p : σ → Bool) : Consumes (one p) := by
  intro cs a rest h
  rw [(one_eq_some_iff.1 h).1]
  exact Nat.lt_succ_self _

theorem consumes_run1 (p : σ → Bool) : Consumes (run1 p) := by
  intro cs a rest h
  obtain ⟨c, mid, hone, h⟩ := bind_eq_some_iff.1 h
  obtain ⟨l, mid', hrun, h⟩ := bind_eq_some_iff.1 h
  cases hrun
  cases h
  exact Nat.lt_of_le_of_lt (List.dropWhile_suffix p).length_le (consumes_one p hone)

theorem consumes_exactly [DecidableEq σ] (c : σ) (t : List σ) : Consumes (exactly (c :: t)) := by
  intro cs a rest h
  rw [exactly_eq_some_iff.1 h]
  simp only [List.cons_append, List.length_cons, List.length_append]
  omega

/-! ### Repetition -/

/-- The reader reads these values one after another. -/
inductive Through (r : Reader σ α) : List σ → List α → List σ → Prop where
  | here {cs : List σ} : Through r cs [] cs
  | next {cs mid rest : List σ} {a : α} {l : List α} (h : r cs = some (a, mid)) (hrest : Through r mid l rest) :
      Through r cs (a :: l) rest

theorem through_nil_iff : Through r cs [] rest ↔ cs = rest :=
  ⟨fun h => by cases h; rfl, fun h => by rw [h]; exact .here⟩

theorem through_cons_iff : Through r cs (a :: l) rest ↔ ∃ mid, r cs = some (a, mid) ∧ Through r mid l rest :=
  ⟨fun h => by cases h with | next h hrest => exact ⟨_, h, hrest⟩, fun ⟨_, h, hrest⟩ => .next h hrest⟩

theorem Through.append {l' : List α} (h : Through r cs l mid) (h' : Through r mid l' rest) :
    Through r cs (l ++ l') rest := by
  induction h with
  | here => exact h'
  | next hr _ ih => exact .next hr (ih h')

theorem through_append_iff {l' : List α} :
    Through r cs (l ++ l') rest ↔ ∃ mid, Through r cs l mid ∧ Through r mid l' rest := by
  constructor
  · intro h
    induction l generalizing cs with
    | nil => exact ⟨cs, .here, h⟩
    | cons a l ih =>
      obtain ⟨mid, hr, hrest⟩ := through_cons_iff.1 h
      obtain ⟨mid', hl, hl'⟩ := ih hrest
      exact ⟨mid', .next hr hl, hl'⟩
  · rintro ⟨mid, hl, hl'⟩
    exact hl.append hl'

/-- Of two ways through the same text one goes on where the other one stops. -/
theorem Through.split {l' : List α} (h : Through r cs l mid) (h' : Through r cs l' rest) :
    (∃ l₂, l' = l ++ l₂ ∧ Through r mid l₂ rest) ∨ ∃ l₂, l = l' ++ l₂ ∧ Through r rest l₂ mid := by
  induction h generalizing l' with
  | here => exact .inl ⟨l', rfl, h'⟩
  | next hr hrest ih =>
    cases h' with
    | here => exact .inr ⟨_, rfl, .next hr hrest⟩
    | next hr' hrest' =>
      rw [hr] at hr'
      cases hr'
      rcases ih hrest' with ⟨l₂, rfl, h₂⟩ | ⟨l₂, rfl, h₂⟩
      · exact .inl ⟨l₂, rfl, h₂⟩
      · exact .inr ⟨l₂, rfl, h₂⟩

/-- A way through a text and through what closes it, changed in one value on the way.  The reader and what closes the
text have to go the same way with the one value and with the other from there. -/
theorem Through.graft {E : List σ → List α → List σ → Prop} {rel : α → α → Prop} {before l₁ l₂ : List α}
    {cs' mid' m : List σ} (hE : ∀ {m l rest}, E m l rest → r m = none)
    (hnext : ∀ {a m}, r mid = some (a, m) → ∃ a', rel a a' ∧ r mid' = some (a', m))
    (hlast : ∀ {l rest}, E mid l rest → ∃ a a', l = [a] ∧ rel a a' ∧ E mid' [a'] rest)
    (hbefore : Through r cs before mid) (hbefore' : Through r cs' before mid')
    (h : Through r cs l₁ m) (hend : E m l₂ rest) :
    ∃ a a' after l₁' l₂' m', l₁ ++ l₂ = before ++ a :: after ∧ rel a a' ∧ l₁' ++ l₂' = before ++ a' :: after ∧
      Through r cs' l₁' m' ∧ E m' l₂' rest := by
  have hclose (hm : m = mid) (hl₁ : l₁ = before) :
      ∃ a a' after l₁' l₂' m', l₁ ++ l₂ = before ++ a :: after ∧ rel a a' ∧ l₁' ++ l₂' = before ++ a' :: after ∧
        Through r cs' l₁' m' ∧ E m' l₂' rest := by
    rw [hm] at hend
    obtain ⟨a, a', rfl, hrel, hend'⟩ := hlast hend
    exact ⟨a, a', [], before, [a'], mid', by rw [hl₁], hrel, rfl, hbefore', hend'⟩
  rcases hbefore.split h with ⟨l₃, rfl, h₃⟩ | ⟨l₃, rfl, h₃⟩
  · cases h₃ with
    | here => exact hclose rfl (List.append_nil _)
    | next hr hrest =>
      obtain ⟨a', hrel, hr'⟩ := hnext hr
      exact ⟨_, a', _, _, l₂, m, List.append_assoc .., hrel, List.append_assoc ..,
        hbefore'.append (.next hr' hrest), hend⟩
  · cases h₃ with
    | here => exact hclose rfl (List.append_nil _).symm
    | next hr _ =>
      rw [hE hend] at hr
      cases hr

theorem Through.suffix (hr : Shrinks r) (h : Through r cs l rest) : rest <:+ cs := by
  induction h with
  | here => exact List.suffix_refl _
  | next h _ ih => exact ih.trans (hr h)

private theorem upTo_eq_some_iff (hr : Consumes r) {fuel : List σ} (hfuel : cs.length ≤ fuel.length) :
    upTo r fuel cs = some (l, rest) ↔ Through r cs l rest ∧ r rest = none := by
  induction fuel generalizing cs l with
  | nil =>
    obtain rfl : cs = [] := List.length_eq_zero_iff.1 (Nat.le_zero.1 hfuel)
    constructor
    · rintro ⟨⟩
      exact ⟨.here, hr.nil⟩
    · rintro ⟨h, -⟩
      cases h with
      | here => rfl
      | next h => rw [hr.nil] at h; cases h
  | cons _ fuel ih =>
    rw [upTo]
    cases h : r cs with
    | none =>
      constructor
      · rintro ⟨⟩
        exact ⟨.here, h⟩
      · rintro ⟨hthrough, -⟩
        cases hthrough with
        | here => rfl
        | next hnext => rw [h] at hnext; cases hnext
    | some x =>
      obtain ⟨a, mid⟩ := x
      have hmid : mid.length ≤ fuel.length := by
        have := hr h
        simp only [List.length_cons] at hfuel
        omega
      simp only [Option.map_eq_some_iff, Prod.exists, Prod.mk.injEq]
      constructor
      · rintro ⟨l', rest', hrest, rfl, rfl⟩
        obtain ⟨hthrough, hend⟩ := (ih hmid).1 hrest
        exact ⟨.next h hthrough, hend⟩
      · rintro ⟨hthrough, hend⟩
        cases hthrough with
        | here => rw [h] at hend; cases hend
        | next hnext hrest =>
          rw [h] at hnext
          cases hnext
          exact ⟨_, _, (ih hmid).2 ⟨hrest, hend⟩, rfl, rfl⟩

/-- There are always symbols enough for the values. -/
theorem many_eq_some_iff (hr : Consumes r) : many r cs = some (l, rest) ↔ Through r cs l rest ∧ r rest = none :=
  upTo_eq_some_iff hr (Nat.le_refl _)

theorem many_ne_none (r : Reader σ α) (cs : List σ) : many r cs ≠ none := by
  have hupTo (fuel : List σ) : upTo r fuel cs ≠ none := by
    induction fuel generalizing cs with
    | nil => exact Option.some_ne_none _
    | cons _ fuel ih =>
      rw [upTo]
      cases r cs with
      | none => exact Option.some_ne_none _
      | some y => exact fun h => ih _ (Option.map_eq_none_iff.1 h)
  exact hupTo cs

section separated

variable {between : Reader σ Unit}

private theorem separated_cons_iff (hr : Consumes (between *> r)) :
    separated between r cs = some (l, rest) ↔
      (∃ a mid l', l = a :: l' ∧ r cs = some (a, mid) ∧ Through (between *> r) mid l' rest) ∧
        (between *> r) rest = none := by
  constructor
  · intro h
    obtain ⟨a, mid, hfirst, h⟩ := bind_eq_some_iff.1 h
    obtain ⟨l', mid', hmany, hpure⟩ := bind_eq_some_iff.1 h
    cases hpure
    obtain ⟨hthrough, hend⟩ := (many_eq_some_iff hr).1 hmany
    exact ⟨⟨a, mid, l', rfl, hfirst, hthrough⟩, hend⟩
  · rintro ⟨⟨a, mid, l', rfl, hfirst, hthrough⟩, hend⟩
    have hmany := (many_eq_some_iff hr).2 ⟨hthrough, hend⟩
    exact bind_eq_some_iff.2 ⟨a, mid, hfirst, bind_eq_some_iff.2 ⟨l', rest, hmany, rfl⟩⟩

/-- Values with something between them are values with something behind them, the last one apart. -/
theorem separated_eq_some_iff (hr : Consumes (between *> r)) :
    separated between r cs = some (l, rest) ↔
      (∃ l₁ a mid, l = l₁ ++ [a] ∧ Through (r <* between) cs l₁ mid ∧ r mid = some (a, rest)) ∧
        (between *> r) rest = none := by
  rw [separated_cons_iff hr]
  refine and_congr_left fun hend => ⟨?_, ?_⟩
  · rintro ⟨a, mid, l', rfl, hfirst, hthrough⟩
    induction hthrough generalizing cs a with
    | here => exact ⟨[], a, cs, rfl, .here, hfirst⟩
    | @next mid mid' rest b l' h hrest ih =>
      obtain ⟨u, m, hbetween, hb⟩ := seqRight_eq_some_iff.1 h
      obtain ⟨l₁, c, mid'', hl, hl₁, hc⟩ := ih hend b hb
      have hentry : (r <* between) cs = some (a, m) := seqLeft_eq_some_iff.2 ⟨mid, u, hfirst, hbetween⟩
      exact ⟨a :: l₁, c, mid'', by rw [hl]; rfl, .next hentry hl₁, hc⟩
  · rintro ⟨l₁, a, mid, rfl, hthrough, hlast⟩
    induction hthrough with
    | here => exact ⟨a, rest, [], rfl, hlast, .here⟩
    | @next cs m mid b l₁ h hrest ih =>
      obtain ⟨m', u, hb, hbetween⟩ := seqLeft_eq_some_iff.1 h
      obtain ⟨c, mid', l', hl, hc, hl'⟩ := ih hlast
      have hnext := seqRight_eq_some_iff.2 ⟨u, m, hbetween, hc⟩
      exact ⟨b, m', c :: l', by rw [List.cons_append, hl], hb, .next hnext hl'⟩

end separated

/-! ### Marks -/

/-- The reader takes a mark for the end of the text. -/
structure Halts (M : σ → Prop) (r : Reader σ α) : Prop where
  shrinks : Shrinks r
  halts : ∀ {x : σ}, M x → ∀ p z, r (p ++ x :: z) = (r p).map fun y => (y.1, y.2 ++ x :: z)

namespace Halts

variable {M : σ → Prop} {x : σ} {p z : List σ}

theorem eq_some (h : Halts M r) (hx : M x) (hp : r p = some (a, rest)) :
    r (p ++ x :: z) = some (a, rest ++ x :: z) := by
  rw [h.halts hx, hp]
  rfl

theorem eq_none (h : Halts M r) (hx : M x) (hp : r p = none) : r (p ++ x :: z) = none := by
  rw [h.halts hx, hp]
  rfl

/-- Built from what happens with and without a value in front of the mark. -/
theorem intro (hshrinks : Shrinks r) (hnone : ∀ {x}, M x → ∀ {p}, r p = none → ∀ z, r (p ++ x :: z) = none)
    (hsome : ∀ {x}, M x → ∀ {p a rest}, r p = some (a, rest) → ∀ z, r (p ++ x :: z) = some (a, rest ++ x :: z)) :
    Halts M r := by
  refine ⟨hshrinks, fun hx p z => ?_⟩
  cases hp : r p with
  | none => exact hnone hx hp z
  | some y => exact hsome hx hp z

theorem pure (a : α) : Halts M (Pure.pure a : Reader σ α) :=
  ⟨fun cs b rest h => by cases h; exact List.suffix_refl _, fun _ _ _ => rfl⟩

theorem failure : Halts M (Alternative.failure : Reader σ α) := ⟨fun _ _ _ h => (nomatch h), fun _ _ _ => rfl⟩

theorem bind (hr : Halts M r) (hf : ∀ a, Halts M (f a)) : Halts M (r >>= f) := by
  refine .intro ?_ ?_ ?_
  · intro cs b rest h
    obtain ⟨a, mid, hmid, hrest⟩ := bind_eq_some_iff.1 h
    exact ((hf a).shrinks hrest).trans (hr.shrinks hmid)
  · intro x hx p hp z
    cases h : r p with
    | none => exact bind_of_eq_none (hr.eq_none hx h)
    | some y =>
      rw [bind_of_eq_some h] at hp
      rw [bind_of_eq_some (hr.eq_some hx h)]
      exact (hf y.1).eq_none hx hp
  · intro x hx p b rest hp z
    obtain ⟨a, mid, hmid, hrest⟩ := bind_eq_some_iff.1 hp
    rw [bind_of_eq_some (hr.eq_some hx hmid)]
    exact (hf a).eq_some hx hrest

theorem seqRight {r' : Reader σ β} (hr : Halts M r) (hr' : Halts M r') : Halts M (r *> r') := hr.bind fun _ => hr'

theorem map (hr : Halts M r) (g : α → β) : Halts M (g <$> r) := hr.bind fun a => .pure (g a)

theorem discard (hr : Halts M r) : Halts M (Functor.discard r) := hr.map _

theorem orElse (hr : Halts M r) (hr' : Halts M r') : Halts M (r <|> r') := by
  refine .intro ?_ ?_ ?_
  · intro cs a rest h
    rcases orElse_eq_some_iff.1 h with h | ⟨-, h⟩
    · exact hr.shrinks h
    · exact hr'.shrinks h
  · intro x hx p hp z
    cases h : r p with
    | none =>
      rw [orElse_of_eq_none h] at hp
      rw [orElse_of_eq_none (hr.eq_none hx h)]
      exact hr'.eq_none hx hp
    | some y =>
      rw [orElse_of_eq_some h] at hp
      cases hp
  · intro x hx p a rest hp z
    rcases orElse_eq_some_iff.1 hp with h | ⟨hnone, h⟩
    · exact orElse_of_eq_some (hr.eq_some hx h)
    · rw [orElse_of_eq_none (hr.eq_none hx hnone)]
      exact hr'.eq_some hx h

theorem perhaps (hr : Halts M r) : Halts M (Reader.perhaps r) := by
  refine .intro ?_ ?_ ?_
  · intro cs o rest h
    rcases perhaps_eq_some_iff.1 h with ⟨a, h, -⟩ | ⟨-, -, rfl⟩
    · exact hr.shrinks h
    · exact List.suffix_refl _
  · intro x hx p hp z
    unfold Reader.perhaps at hp
    split at hp <;> cases hp
  · intro x hx p o rest hp z
    rw [perhaps_eq_some_iff] at hp ⊢
    rcases hp with ⟨a, h, rfl⟩ | ⟨h, rfl, rfl⟩
    · exact .inl ⟨a, hr.eq_some hx h, rfl⟩
    · exact .inr ⟨hr.eq_none hx h, rfl, rfl⟩

theorem one {p : σ → Bool} (h : ∀ x, M x → p x = false) : Halts M (Reader.one p) := by
  refine ⟨?_, fun hx cs z => ?_⟩
  · intro cs a rest hone
    rw [(one_eq_some_iff.1 hone).1]
    exact List.suffix_cons _ _
  · cases cs with
    | nil => simp [Reader.one, h _ hx]
    | cons c cs =>
      simp only [Reader.one, List.cons_append]
      split <;> rfl

theorem exactly [DecidableEq σ] {t : List σ} (h : ∀ x, M x → x ∉ t) : Halts M (Reader.exactly t) := by
  refine ⟨fun cs a rest h => ⟨t, (exactly_eq_some_iff.1 h).symm⟩, fun {x} hx cs z => ?_⟩
  have hx' := h x hx
  clear h
  induction t generalizing cs with
  | nil => rfl
  | cons c t ih =>
    obtain ⟨hc, ht⟩ := not_or.1 (mt List.mem_cons.2 hx')
    cases cs with
    | nil => simp [Reader.exactly, Ne.symm hc]
    | cons d cs =>
      simp only [Reader.exactly, List.cons_append]
      split
      · exact ih cs ht
      · rfl

theorem run {p : σ → Bool} (h : ∀ x, M x → p x = false) : Halts M (Reader.run p) := by
  refine ⟨fun cs a rest h => ?_, fun hx cs z => ?_⟩
  · cases h
    exact List.dropWhile_suffix _
  · induction cs with
    | nil => simp [Reader.run, h _ hx]
    | cons c cs ih =>
      simp only [Reader.run, Option.map_some, Option.some.injEq, Prod.mk.injEq] at ih
      by_cases hc : p c = true
      · simp [Reader.run, hc, ih]
      · simp [Reader.run, hc]

theorem run1 {p : σ → Bool} (h : ∀ x, M x → p x = false) : Halts M (Reader.run1 p) :=
  (Halts.one h).bind fun _ => (Halts.run h).bind fun _ => .pure _

theorem many (hr : Halts M r) (hc : Consumes r) : Halts M (Reader.many r) := by
  refine .intro ?_ ?_ ?_
  · intro cs l rest h
    exact ((many_eq_some_iff hc).1 h).1.suffix hr.shrinks
  · intro x hx p hp z
    exact absurd hp (many_ne_none r p)
  · intro x hx p l rest hp z
    rw [many_eq_some_iff hc] at hp ⊢
    obtain ⟨hthrough, hend⟩ := hp
    refine ⟨?_, hr.eq_none hx hend⟩
    clear hend
    induction hthrough with
    | here => exact .here
    | next h _ ih => exact .next (hr.eq_some hx h) ih

/-- Where nothing can be read at the end of the text, nothing can be read at a mark. -/
theorem mark (h : Halts M r) (hnil : r [] = none) (hx : M x) (z : List σ) : r (x :: z) = none :=
  h.eq_none (p := []) hx hnil

end Halts

/-! ### Places -/

/-- What the reader takes in front of `q`, if it stops in front of it, does not depend on what is behind `q`, given
that the text goes on with a symbol of `F`. -/
structure Local (q : σ) (F : σ → Prop) (r : Reader σ α) : Prop where
  shrinks : Shrinks r
  transfer : ∀ {p s z : List σ} {a : α}, r (p ++ q :: z) = some (a, s ++ q :: z) → (∀ c ∈ (s ++ [q]).head?, F c) →
    ∀ z', r (p ++ q :: z') = some (a, s ++ q :: z')

/-- Whether the reader takes anything does not depend on what is behind `q`, given that the text goes on with a symbol
of `F`. -/
structure Firm (q : σ) (F : σ → Prop) (r : Reader σ α) : Prop where
  transfer : ∀ {p z : List σ}, r (p ++ q :: z) = none → (∀ c ∈ (p ++ [q]).head?, F c) → ∀ z', r (p ++ q :: z') = none

section places

variable {q : σ} {F G : σ → Prop} {M : σ → Prop}

/-- What a reader leaves in front of `q` is a place in front of `q` for the reader before it. -/
theorem exists_eq_append {s z : List σ} (h : s ++ q :: z <:+ mid) : ∃ t, mid = t ++ q :: z := by
  obtain ⟨t, rfl⟩ := h
  exact ⟨t ++ s, (List.append_assoc t s _).symm⟩

theorem head_append (s z : List σ) : (s ++ q :: z).head? = (s ++ [q]).head? := by
  cases s <;> rfl

theorem Halts.toLocal (h : Halts M r) (hq : M q) : Local q F r := by
  refine ⟨h.shrinks, fun {p s z a} hr _ z' => ?_⟩
  rw [h.halts hq] at hr ⊢
  cases hp : r p with
  | none =>
    rw [hp] at hr
    cases hr
  | some y =>
    rw [hp] at hr
    simp only [Option.map_some, Option.some.injEq, Prod.mk.injEq, List.append_cancel_right_eq] at hr ⊢
    exact ⟨hr.1, hr.2⟩

theorem Halts.firm (h : Halts M r) (hq : M q) : Firm q F r := by
  refine ⟨fun {p z} hr _ z' => ?_⟩
  rw [h.halts hq, Option.map_eq_none_iff] at hr ⊢
  exact hr

namespace Local

theorem pure (a : α) : Local q F (Pure.pure a : Reader σ α) :=
  (Halts.pure (M := (· = q)) a).toLocal rfl

/-- Of two readers in a row the first one may depend on how the text goes on, if the second one sees to it. -/
theorem bind_of_stop (hr : Local q G r) (hf : ∀ a, Local q F (f a)) (hstop : ∀ a c z, G c ∨ f a (c :: z) = none) :
    Local q F (r >>= f) := by
  refine ⟨fun cs b rest h => ?_, fun {p s z b} h hc z' => ?_⟩
  · obtain ⟨a, mid, hmid, hrest⟩ := bind_eq_some_iff.1 h
    exact ((hf a).shrinks hrest).trans (hr.shrinks hmid)
  · obtain ⟨a, mid, hmid, hrest⟩ := bind_eq_some_iff.1 h
    obtain ⟨t, rfl⟩ := exists_eq_append ((hf a).shrinks hrest)
    have hG : ∀ c ∈ (t ++ [q]).head?, G c := by
      intro c ht
      rcases hstop a c (t ++ q :: z).tail with hG | hnone
      · exact hG
      · rw [← head_append t z, Option.mem_def, List.head?_eq_some_iff] at ht
        obtain ⟨u, hu⟩ := ht
        rw [hu, List.tail_cons] at hnone
        rw [hu, hnone] at hrest
        cases hrest
    rw [bind_of_eq_some (hr.transfer hmid hG z')]
    exact (hf a).transfer hrest hc z'

theorem bind (hr : Local q (fun _ => True) r) (hf : ∀ a, Local q F (f a)) : Local q F (r >>= f) :=
  hr.bind_of_stop hf fun _ _ _ => .inl trivial

/-- What is done with the value does not matter. -/
theorem bind_of_still (hr : Local q F r) (hf : ∀ a, f a = failure ∨ ∃ b, f a = Pure.pure b) :
    Local q F (r >>= f) := by
  refine ⟨fun cs b rest h => ?_, fun {p s z b} h hc z' => ?_⟩
  · obtain ⟨a, mid, hmid, hrest⟩ := bind_eq_some_iff.1 h
    rcases hf a with hfail | ⟨b', hpure⟩
    · rw [hfail] at hrest
      cases hrest
    · rw [hpure] at hrest
      cases hrest
      exact hr.shrinks hmid
  · obtain ⟨a, mid, hmid, hrest⟩ := bind_eq_some_iff.1 h
    rcases hf a with hfail | ⟨b', hpure⟩
    · rw [hfail] at hrest
      cases hrest
    · rw [hpure] at hrest
      cases hrest
      rw [bind_of_eq_some (hr.transfer hmid hc z'), hpure]
      rfl

theorem map (hr : Local q F r) (g : α → β) : Local q F (g <$> r) := hr.bind_of_still fun a => .inr ⟨g a, rfl⟩

theorem seqRight {r' : Reader σ β} (hr : Local q (fun _ => True) r) (hr' : Local q F r') : Local q F (r *> r') :=
  hr.bind fun _ => hr'

theorem seqLeft {r' : Reader σ β} (hr : Local q (fun _ => True) r) (hr' : Local q F r') : Local q F (r <* r') :=
  hr.bind fun a => hr'.bind_of_still fun _ => .inr ⟨a, rfl⟩

theorem discard (hr : Local q F r) : Local q F (Functor.discard r) := hr.map _

/-- Of two readers that are told apart in front of `q` one may stand in for the other. -/
theorem orElse_of_apart (hr : Local q F r) (hr' : Local q F r')
    (hapart : ∀ {p z}, r (p ++ q :: z) = none → r' (p ++ q :: z) ≠ none → ∀ z', r (p ++ q :: z') = none) :
    Local q F (r <|> r') := by
  refine ⟨fun cs b rest h => ?_, fun {p s z b} h hc z' => ?_⟩
  · rcases orElse_eq_some_iff.1 h with h | ⟨-, h⟩
    · exact hr.shrinks h
    · exact hr'.shrinks h
  · rcases orElse_eq_some_iff.1 h with h | ⟨hnone, h⟩
    · exact orElse_of_eq_some (hr.transfer h hc z')
    · rw [orElse_of_eq_none (hapart hnone (by rw [h]; nofun) z')]
      exact hr'.transfer h hc z'

theorem orElse (hr : Local q F r) (hfirm : Firm q (fun _ => True) r) (hr' : Local q F r') : Local q F (r <|> r') :=
  hr.orElse_of_apart hr' fun hnone _ => hfirm.transfer hnone fun _ _ => trivial

/-- The first symbol tells two readers apart. -/
theorem orElse_of_head (hr : Local q F r) (hr' : Local q F r')
    (hhead : ∀ c z z', r (c :: z) = none ∨ r' (c :: z') = none) : Local q F (r <|> r') := by
  refine hr.orElse_of_apart hr' fun {p z} _ hsome z' => ?_
  obtain ⟨c, t, t', h, h'⟩ : ∃ c t t', p ++ q :: z = c :: t ∧ p ++ q :: z' = c :: t' := by
    cases p with
    | nil => exact ⟨_, _, _, rfl, rfl⟩
    | cons c p => exact ⟨_, _, _, rfl, rfl⟩
  rw [h']
  rw [h] at hsome
  exact (hhead c t' t).resolve_right hsome

theorem perhaps (hr : Local q F r) (hfirm : Firm q F r) : Local q F (Reader.perhaps r) := by
  refine ⟨fun cs o rest h => ?_, fun {p s z b} h hc z' => ?_⟩
  · rcases perhaps_eq_some_iff.1 h with ⟨a, h, -⟩ | ⟨-, -, rfl⟩
    · exact hr.shrinks h
    · exact List.suffix_refl _
  · rw [perhaps_eq_some_iff] at h ⊢
    rcases h with ⟨a, h, rfl⟩ | ⟨hnone, rfl, hsame⟩
    · exact .inl ⟨a, hr.transfer h hc z', rfl⟩
    · obtain rfl : s = p := List.append_cancel_right hsame
      exact .inr ⟨hfirm.transfer hnone hc z', rfl, rfl⟩

theorem one (p : σ → Bool) : Local q F (Reader.one p) := by
  refine ⟨fun cs a rest h => ?_, fun {p' s z a} h _ z' => ?_⟩
  · rw [(one_eq_some_iff.1 h).1]
    exact List.suffix_cons _ _
  · obtain ⟨hcs, hp⟩ := one_eq_some_iff.1 h
    rw [← List.cons_append, List.append_cancel_right_eq] at hcs
    exact one_eq_some_iff.2 ⟨by rw [hcs]; rfl, hp⟩

theorem exactly [DecidableEq σ] (t : List σ) : Local q F (Reader.exactly t) := by
  refine ⟨fun cs a rest h => ⟨t, (exactly_eq_some_iff.1 h).symm⟩, fun {p s z a} h _ z' => ?_⟩
  rw [exactly_eq_some_iff, ← List.append_assoc, List.append_cancel_right_eq] at h ⊢
  exact h

theorem run (p : σ → Bool) : Local q F (Reader.run p) := by
  refine ⟨fun cs a rest h => ?_, fun {p' s z a} h _ z' => ?_⟩
  · cases h
    exact List.dropWhile_suffix _
  · simp only [Reader.run, Option.some.injEq, Prod.mk.injEq] at h ⊢
    induction p' generalizing a with
    | nil =>
      by_cases hq : p q = true
      · have hle := (List.dropWhile_suffix (l := z) p).length_le
        have hlong := congrArg List.length h.2
        simp only [List.nil_append, List.dropWhile_cons_of_pos hq, List.length_append, List.length_cons] at hlong
        omega
      · simp only [List.nil_append, List.takeWhile_cons_of_neg hq, List.dropWhile_cons_of_neg hq] at h ⊢
        obtain ⟨rfl, hs⟩ := h
        obtain rfl : s = [] := List.append_cancel_right hs.symm
        exact ⟨rfl, rfl⟩
    | cons c p' ih =>
      by_cases hc : p c = true
      · simp only [List.cons_append, List.takeWhile_cons_of_pos hc, List.dropWhile_cons_of_pos hc] at h ⊢
        obtain ⟨rfl, hs⟩ := h
        obtain ⟨htake, hdrop⟩ := ih ⟨rfl, hs⟩
        exact ⟨by rw [htake], hdrop⟩
      · simp only [List.cons_append, List.takeWhile_cons_of_neg hc, List.dropWhile_cons_of_neg hc] at h ⊢
        obtain ⟨rfl, hs⟩ := h
        obtain rfl : s = c :: p' := List.append_cancel_right hs.symm
        exact ⟨rfl, rfl⟩

theorem through (hr : Local q (fun _ => True) r) {p t z : List σ} (h : Through r (p ++ q :: z) l (t ++ q :: z))
    (z' : List σ) : Through r (p ++ q :: z') l (t ++ q :: z') := by
  generalize hcs : p ++ q :: z = cs at h
  generalize hmid : t ++ q :: z = mid at h
  induction h generalizing p with
  | here =>
    obtain rfl : p = t := List.append_cancel_right (hcs.trans hmid.symm)
    exact .here
  | next h hrest ih =>
    have hsuffix := hrest.suffix hr.shrinks
    rw [← hmid] at hsuffix
    obtain ⟨u, rfl⟩ := exists_eq_append hsuffix
    rw [← hcs] at h
    exact .next (hr.transfer h (fun _ _ => trivial) z') (ih rfl hmid)

/-- The values that are repeated come to an end in front of `q`, if what follows them cannot be read otherwise. -/
theorem many_bind {f : List α → Reader σ β} (hr : Local q (fun _ => True) r) (hc : Consumes r)
    (hf : ∀ l, Local q F (f l))
    (hstop : ∀ {l p s z b}, r (p ++ q :: z) = none → f l (p ++ q :: z) = some (b, s ++ q :: z) →
      (∀ c ∈ (s ++ [q]).head?, F c) → ∀ z', r (p ++ q :: z') = none) :
    Local q F (Reader.many r >>= f) := by
  refine ⟨fun cs b rest h => ?_, fun {p s z b} h hF z' => ?_⟩
  · obtain ⟨l, mid, hmid, hrest⟩ := bind_eq_some_iff.1 h
    exact ((hf l).shrinks hrest).trans (((many_eq_some_iff hc).1 hmid).1.suffix hr.shrinks)
  · obtain ⟨l, mid, hmany, hrest⟩ := bind_eq_some_iff.1 h
    obtain ⟨hthrough, hend⟩ := (many_eq_some_iff hc).1 hmany
    obtain ⟨t, rfl⟩ := exists_eq_append ((hf l).shrinks hrest)
    rw [bind_of_eq_some ((many_eq_some_iff hc).2 ⟨hr.through hthrough z', hstop hend hrest hF z'⟩)]
    exact (hf l).transfer hrest hF z'

theorem many (hr : Local q (fun _ => True) r) (hfirm : Firm q F r) (hc : Consumes r) : Local q F (Reader.many r) := by
  have hbind : Local q F (Reader.many r >>= Pure.pure) := by
    refine many_bind hr hc (fun l => .pure l) fun {l p s z b} hnone hend hF z' => ?_
    have hs : p ++ q :: z = s ++ q :: z := (Prod.mk.inj (Option.some.inj hend)).2
    obtain rfl : p = s := List.append_cancel_right hs
    exact hfirm.transfer hnone hF z'
  rwa [bind_pure] at hbind

end Local

namespace Firm

/-- A reader that does not take anything there at all. -/
theorem of_head (h : ∀ c z, F c → r (c :: z) = none) : Firm q F r := by
  refine ⟨fun {p _} _ hF z' => ?_⟩
  cases p with
  | nil => exact h _ _ (hF _ rfl)
  | cons c p => exact h _ _ (hF _ rfl)

theorem orElse (hr : Firm q F r) (hr' : Firm q F r') : Firm q F (r <|> r') := by
  refine ⟨fun {p z} h hF z' => ?_⟩
  cases hnone : r (p ++ q :: z) with
  | none =>
    rw [orElse_of_eq_none hnone] at h
    rw [orElse_of_eq_none (hr.transfer hnone hF z')]
    exact hr'.transfer h hF z'
  | some y =>
    rw [orElse_of_eq_some hnone] at h
    cases h

/-- Nothing can go wrong behind the first reader. -/
theorem bind_of_total (hr : Firm q F r) (hf : ∀ a cs, f a cs ≠ none) : Firm q F (r >>= f) := by
  refine ⟨fun {p z} h hF z' => ?_⟩
  cases hnone : r (p ++ q :: z) with
  | none => exact bind_of_eq_none (hr.transfer hnone hF z')
  | some y =>
    rw [bind_of_eq_some hnone] at h
    exact absurd h (hf _ _)

theorem bind_of_halts (hr : Halts M r) (hq : M q) (hf : ∀ a, Firm q (fun _ => True) (f a)) : Firm q F (r >>= f) := by
  refine ⟨fun {p z} h _ z' => ?_⟩
  cases hp : r p with
  | none => exact bind_of_eq_none (hr.eq_none hq hp)
  | some y =>
    rw [bind_of_eq_some (hr.eq_some hq hp)] at h ⊢
    exact (hf y.1).transfer h (fun _ _ => trivial) z'

theorem one (p : σ → Bool) : Firm q F (Reader.one p) := by
  refine ⟨fun {t z} h _ z' => ?_⟩
  cases t with
  | nil =>
    by_cases hp : p q = true
    · rw [List.nil_append, one_eq_some_iff.2 ⟨rfl, hp⟩] at h
      cases h
    · exact if_neg hp
  | cons c t =>
    by_cases hp : p c = true
    · rw [List.cons_append, one_eq_some_iff.2 ⟨rfl, hp⟩] at h
      cases h
    · exact if_neg hp

/-- Nothing can go wrong behind `q`. -/
theorem one_bind {p : σ → Bool} {g : σ → Reader σ β} (hq : ∀ cs, g q cs ≠ none)
    (hg : ∀ c, Firm q (fun _ => True) (g c)) : Firm q F (Reader.one p >>= g) := by
  refine ⟨fun {t z} h hF z' => ?_⟩
  cases hone : Reader.one p (t ++ q :: z) with
  | none => exact bind_of_eq_none ((Firm.one p).transfer hone hF z')
  | some y =>
    obtain ⟨c, rest⟩ := y
    obtain ⟨hcs, hp⟩ := one_eq_some_iff.1 hone
    rw [bind_of_eq_some hone] at h
    cases t with
    | nil =>
      rw [← (List.cons.inj hcs).1] at h
      exact absurd h (hq _)
    | cons d t =>
      obtain ⟨rfl, rfl⟩ := List.cons.inj hcs
      rw [List.cons_append, bind_of_eq_some (one_eq_some_iff.2 ⟨rfl, hp⟩)]
      exact (hg d).transfer h (fun _ _ => trivial) z'

end Firm

end places

end VaultChat.Text.Reader
