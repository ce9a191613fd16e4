import VaultChat.Config.Environment

/-!
# Expanding references

A text is a row of stretches that stand for themselves and of references (`Reads`), which can be told from the text
alone.  Expanding it puts values in the place of the references and touches nothing else, so what is in a value is
never taken for a reference (`expand_of_reads`).  `expansion_single_pass` has the equations by which a text is
expanded from left to right, and says when a text can be expanded in two parts.
-/

namespace VaultChat.Environment

/-- How a reference starts: a dollar sign and an opening brace. -/
def opening : List Char := ['$', '\x7b']

/-- No reference starts in the text. -/
def Plain (cs : List Char) : Prop := ¬ opening <:+: cs

instance : DecidablePred Plain := fun cs => inferInstanceAs (Decidable (¬ opening <:+: cs))

/-- The text goes on with an opening brace. -/
def OpensBrace (cs : List Char) : Prop := cs.head? = some '\x7b'

/-- A stretch of a text. -/
inductive Piece where
  /-- Characters that stand for themselves. -/
  | verbatim (cs : List Char)
  | reference (name : List Char)
  /-- A reference without a closing brace, whose name takes up the rest of the text. -/
  | unclosed (name : List Char)
  deriving DecidableEq

namespace Piece

/-- What a stretch becomes. -/
def expanded (env : Environment) : Piece → List Char
  | .verbatim cs => cs
  | .reference name | .unclosed name => env.value name

end Piece

/-- The text is made up of these stretches, from left to right: each reference starts at the first opening and ends at
the first closing brace behind it. -/
inductive Reads : List Char → List Piece → Prop where
  | verbatim {cs : List Char} (h : Plain cs) : Reads cs [.verbatim cs]
  | reference {cs name rest : List Char} {ps : List Piece} (h : Plain cs) (hname : '\x7d' ∉ name)
      (hrest : Reads rest ps) :
      Reads (cs ++ opening ++ name ++ '\x7d' :: rest) (.verbatim cs :: .reference name :: ps)
  | unclosed {cs name : List Char} (h : Plain cs) (hname : '\x7d' ∉ name) :
      Reads (cs ++ opening ++ name) [.verbatim cs, .unclosed name]

/-- All references in the text have their closing braces. -/
def Closed (cs : List Char) : Prop := ∃ ps, Reads cs ps ∧ ∀ name, .unclosed name ∉ ps

variable {env : Environment} {cs name rest : List Char} {c : Char}

/-! ### Texts without references -/

theorem plain_nil : Plain [] := by
  rw [Plain, List.infix_nil]
  nofun

theorem plain_cons_iff : Plain (c :: cs) ↔ ¬ (c = '$' ∧ OpensBrace cs) ∧ Plain cs := by
  rw [Plain, List.infix_cons_iff, not_or, ← Plain, opening, List.cons_prefix_cons, OpensBrace]
  cases cs with
  | nil => simp
  | cons d cs => simp [eq_comm]

/-- Where no reference starts, a character stands for itself. -/
theorem expandFrom_cons (h : ¬ (c = '$' ∧ OpensBrace cs)) :
    env.expandFrom none (c :: cs) = c :: env.expandFrom none cs := by
  rw [expandFrom]
  rintro cs rfl rfl
  exact h ⟨rfl, rfl⟩

/-- Characters stand for themselves where no reference starts among them or with the last of them. -/
theorem expandFrom_append_of_plain (h : Plain cs) (hjoint : ¬ (cs.getLast? = some '$' ∧ OpensBrace rest)) :
    env.expandFrom none (cs ++ rest) = cs ++ env.expandFrom none rest := by
  induction cs with
  | nil => rfl
  | cons c cs ih =>
    obtain ⟨hc, hcs⟩ := plain_cons_iff.1 h
    cases cs with
    | nil =>
      have hc : ¬ (c = '$' ∧ OpensBrace rest) := by simpa using hjoint
      exact expandFrom_cons hc
    | cons d cs =>
      have hnext : ¬ (c = '$' ∧ OpensBrace (d :: cs ++ rest)) := hc
      rw [List.getLast?_cons_cons] at hjoint
      rw [List.cons_append, expandFrom_cons hnext, ih hcs hjoint]
      rfl

theorem expand_of_plain (h : Plain cs) : env.expand cs = cs := by
  have hend : ¬ (cs.getLast? = some '$' ∧ OpensBrace []) := fun hnone => nomatch hnone.2
  have happend : env.expandFrom none (cs ++ []) = cs ++ env.expandFrom none [] := expandFrom_append_of_plain h hend
  rwa [expandFrom, List.append_nil] at happend

/-! ### References -/

theorem expandFrom_name (acc : List Char) (hname : '\x7d' ∉ name) :
    env.expandFrom (some acc) (name ++ rest) = env.expandFrom (some (name.reverse ++ acc)) rest := by
  induction name generalizing acc with
  | nil => rfl
  | cons c name ih =>
    obtain ⟨hc, hname⟩ := not_or.1 (mt List.mem_cons.2 hname)
    rw [List.cons_append, expandFrom, ih (c :: acc) hname]
    · simp
    · rintro rfl
      exact hc rfl

theorem expandFrom_opening (rest : List Char) :
    env.expandFrom none (opening ++ rest) = env.expandFrom (some []) rest := rfl

/-- Up to the first opening characters stand for themselves. -/
theorem expand_append_opening (h : Plain cs) (rest : List Char) :
    env.expand (cs ++ opening ++ rest) = cs ++ env.expandFrom (some []) rest := by
  have hjoint : ¬ (cs.getLast? = some '$' ∧ OpensBrace (opening ++ rest)) := fun hbrace => by
    cases hbrace.2
  rw [expand, List.append_assoc, expandFrom_append_of_plain h hjoint, expandFrom_opening]

/-- The first reference is replaced, and what comes behind it is expanded on its own. -/
theorem expand_reference (h : Plain cs) (hname : '\x7d' ∉ name) (rest : List Char) :
    env.expand (cs ++ opening ++ name ++ '\x7d' :: rest) = cs ++ env.value name ++ env.expand rest := by
  rw [List.append_assoc, expand_append_opening h, expandFrom_name [] hname, expandFrom, List.append_nil,
    List.reverse_reverse, List.append_assoc]
  rfl

theorem expand_unclosed (h : Plain cs) (hname : '\x7d' ∉ name) :
    env.expand (cs ++ opening ++ name) = cs ++ env.value name := by
  have hread : env.expandFrom (some []) (name ++ []) = env.expandFrom (some (name.reverse ++ [])) [] :=
    expandFrom_name [] hname
  rw [List.append_nil] at hread
  rw [expand_append_opening h, hread, expandFrom, List.append_nil, List.reverse_reverse]

/-- What a text is made up of settles what it becomes. -/
theorem expand_of_reads {ps : List Piece} (h : Reads cs ps) : env.expand cs = ps.flatMap (·.expanded env) := by
  induction h with
  | verbatim h =>
    rw [expand_of_plain h]
    simp [Piece.expanded]
  | reference h hname _ ih =>
    rw [expand_reference h hname, ih]
    simp [Piece.expanded]
  | unclosed h hname =>
    rw [expand_unclosed h hname]
    simp [Piece.expanded]

/-! ### Reading -/

/-- A text without a first opening is plain. -/
theorem plain_or_opening (cs : List Char) :
    Plain cs ∨ ∃ before rest, cs = before ++ opening ++ rest ∧ Plain before := by
  induction cs with
  | nil => exact .inl plain_nil
  | cons c cs ih =>
    by_cases hopens : c = '$' ∧ OpensBrace cs
    · obtain ⟨rfl, hbrace⟩ := hopens
      obtain ⟨rest, rfl⟩ := List.head?_eq_some_iff.1 hbrace
      exact .inr ⟨[], rest, rfl, plain_nil⟩
    · rcases ih with hplain | ⟨before, rest, rfl, hplain⟩
      · exact .inl (plain_cons_iff.2 ⟨hopens, hplain⟩)
      · refine .inr ⟨c :: before, rest, rfl, plain_cons_iff.2 ⟨fun hbefore => hopens ⟨hbefore.1, ?_⟩, hplain⟩⟩
        obtain ⟨before, rfl⟩ := List.head?_eq_some_iff.1 hbefore.2
        rfl

/-- Every text can be read. -/
theorem exists_reads (cs : List Char) : ∃ ps, Reads cs ps := by
  rcases plain_or_opening cs with hplain | ⟨before, rest, rfl, hplain⟩
  · exact ⟨_, .verbatim hplain⟩
  · by_cases hclosed : '\x7d' ∈ rest
    · obtain ⟨name, rest, rfl, hname⟩ := List.eq_append_cons_of_mem hclosed
      have hlength : rest.length < (before ++ opening ++ (name ++ '\x7d' :: rest)).length := by
        simp only [List.length_append, List.length_cons]
        omega
      obtain ⟨ps, hps⟩ := exists_reads rest
      rw [← List.append_assoc]
      exact ⟨_, .reference hplain hname hps⟩
    · exact ⟨_, .unclosed hplain hclosed⟩
termination_by cs.length

private theorem eq_nil_of_opening {before between rest rest' : List Char} (h : Plain (before ++ between))
    (heq : opening ++ rest = between ++ (opening ++ rest')) : between = [] := by
  match between with
  | [] => rfl
  | [c] => cases heq
  | c :: d :: between =>
    obtain ⟨hdollar, htail⟩ := List.cons.inj heq
    obtain ⟨hbrace, -⟩ := List.cons.inj htail
    rw [← hdollar, ← hbrace] at h
    exact absurd ⟨before, between, by rw [opening, List.append_assoc]; rfl⟩ h

/-- There is one first opening. -/
theorem append_opening_inj {before before' rest rest' : List Char} (h : Plain before) (h' : Plain before')
    (heq : before ++ opening ++ rest = before' ++ opening ++ rest') : before = before' ∧ rest = rest' := by
  rw [List.append_assoc, List.append_assoc] at heq
  have hbefore : before = before' := by
    rcases List.append_eq_append_iff.1 heq with ⟨between, rfl, hrest⟩ | ⟨between, rfl, hrest⟩
    · rw [eq_nil_of_opening h' hrest, List.append_nil]
    · rw [eq_nil_of_opening h hrest, List.append_nil]
  refine ⟨hbefore, ?_⟩
  rw [hbefore] at heq
  exact List.append_cancel_left (List.append_cancel_left heq)

/-- There is one first closing brace. -/
theorem append_brace_inj {name name' rest rest' : List Char} (h : '\x7d' ∉ name) (h' : '\x7d' ∉ name')
    (heq : name ++ '\x7d' :: rest = name' ++ '\x7d' :: rest') : name = name' ∧ rest = rest' := by
  rcases List.append_eq_append_iff.1 heq with ⟨between, rfl, hrest⟩ | ⟨between, rfl, hrest⟩
  all_goals
    cases between with
    | nil => simpa [eq_comm] using hrest
    | cons c between =>
      obtain ⟨rfl, -⟩ := List.cons.inj hrest
      simp at h h'

/-- Every text can be read in one way only. -/
theorem Reads.unique {ps ps' : List Piece} (h : Reads cs ps) (h' : Reads cs ps') : ps = ps' := by
  have hopens (before rest : List Char) : ¬ Plain (before ++ opening ++ rest) := not_not_intro ⟨before, rest, rfl⟩
  induction h generalizing ps' with
  | verbatim h =>
    cases h' with
    | verbatim => rfl
    | reference =>
      rw [List.append_assoc] at h
      exact absurd h (hopens _ _)
    | unclosed => exact absurd h (hopens _ _)
  | @reference cs name rest ps h hname hrest ih =>
    generalize htext : cs ++ opening ++ name ++ '\x7d' :: rest = text at h'
    cases h' with
    | verbatim h' =>
      rw [← htext, List.append_assoc] at h'
      exact absurd h' (hopens _ _)
    | @reference cs' name' rest' ps' h' hname' hrest' =>
      rw [List.append_assoc, List.append_assoc _ name'] at htext
      obtain ⟨rfl, hnames⟩ := append_opening_inj h h' htext
      obtain ⟨rfl, rfl⟩ := append_brace_inj hname hname' hnames
      rw [ih hrest']
    | unclosed h' hname' =>
      rw [List.append_assoc] at htext
      obtain ⟨-, rfl⟩ := append_opening_inj h h' htext
      exact absurd (List.mem_append_right _ List.mem_cons_self) hname'
  | @unclosed cs name h hname =>
    generalize htext : cs ++ opening ++ name = text at h'
    cases h' with
    | verbatim h' =>
      rw [← htext] at h'
      exact absurd h' (hopens _ _)
    | reference h' =>
      rw [List.append_assoc _ _ (_ :: _)] at htext
      obtain ⟨-, rfl⟩ := append_opening_inj h h' htext
      exact absurd (List.mem_append_right _ List.mem_cons_self) hname
    | unclosed h' =>
      obtain ⟨rfl, rfl⟩ := append_opening_inj h h' htext
      rfl

/-- Behind its last reference a text may go on with anything but a brace that completes an opening. -/
theorem expand_append_of_reads {ps : List Piece} (h : Reads cs ps) (hclosed : ∀ name, .unclosed name ∉ ps)
    (hjoint : ¬ (cs.getLast? = some '$' ∧ OpensBrace rest)) :
    env.expand (cs ++ rest) = env.expand cs ++ env.expand rest := by
  induction h with
  | verbatim h =>
    rw [expand_of_plain h]
    exact expandFrom_append_of_plain h hjoint
  | @reference cs name after ps h hname _ ih =>
    have hafter : ¬ (after.getLast? = some '$' ∧ OpensBrace rest) := by
      rintro ⟨hlast, hbrace⟩
      refine hjoint ⟨?_, hbrace⟩
      rw [List.getLast?_append, List.getLast?_cons, hlast]
      rfl
    have hrest := ih (fun name hmem => hclosed name (List.mem_cons_of_mem _ (List.mem_cons_of_mem _ hmem))) hafter
    calc env.expand (cs ++ opening ++ name ++ '\x7d' :: after ++ rest)
        = env.expand (cs ++ opening ++ name ++ '\x7d' :: (after ++ rest)) := by rw [List.append_assoc]; rfl
      _ = cs ++ env.value name ++ (env.expand after ++ env.expand rest) := by rw [expand_reference h hname, hrest]
      _ = env.expand (cs ++ opening ++ name ++ '\x7d' :: after) ++ env.expand rest := by
        rw [expand_reference h hname, List.append_assoc _ (env.expand after)]
  | @unclosed cs name => exact absurd (List.mem_cons_of_mem _ (List.mem_singleton_self _)) (hclosed name)

theorem expand_append {before after : List Char} (h : Closed before)
    (hjoint : ¬ (before.getLast? = some '$' ∧ OpensBrace after)) :
    env.expand (before ++ after) = env.expand before ++ env.expand after := by
  obtain ⟨ps, hreads, hclosed⟩ := h
  exact expand_append_of_reads hreads hclosed hjoint

/-- A text is expanded in one pass from left to right.  Without an opening it stays as it is.  Otherwise the reference
at the first opening is replaced, and the rest is expanded on its own.  Which stretches are replaced is settled before
any value is looked at.  A text whose references are closed is expanded on its own, whatever follows it, unless the
two make an opening between them. -/
theorem expansion_single_pass :
    (∀ (env : Environment) cs, Plain cs → env.expand cs = cs) ∧
    (∀ (env : Environment) cs name rest, Plain cs → '\x7d' ∉ name →
      env.expand (cs ++ opening ++ name ++ '\x7d' :: rest) = cs ++ env.value name ++ env.expand rest) ∧
    (∀ (env : Environment) cs name, Plain cs → '\x7d' ∉ name →
      env.expand (cs ++ opening ++ name) = cs ++ env.value name) ∧
    (∀ cs, ∃ ps, (∀ ps', Reads cs ps' ↔ ps' = ps) ∧
      ∀ env : Environment, env.expand cs = ps.flatMap (·.expanded env)) ∧
    ∀ (env : Environment) before after, Closed before → ¬ (before.getLast? = some '$' ∧ OpensBrace after) →
      env.expand (before ++ after) = env.expand before ++ env.expand after := by
  refine ⟨fun env cs => expand_of_plain, fun env cs name rest h hname => expand_reference h hname rest,
    fun env cs name => expand_unclosed, fun cs => ?_, fun env before after => expand_append⟩
  obtain ⟨ps, hps⟩ := exists_reads cs
  refine ⟨ps, fun ps' => ⟨fun h => h.unique hps, ?_⟩, fun env => expand_of_reads hps⟩
  rintro rfl
  exact hps

/-- The value of one variable looks like a reference to the other. -/
def crossed : Environment
  | "A" => some "$\x7bB\x7d"
  | "B" => some "b"
  | _ => none

/-- A value that looks like a reference stays as it is, and a name goes on to the first closing brace. -/
theorem expansion_single_pass_crossed :
    crossed.expand "$$\x7bA\x7d-$\x7bB".toList = "$$\x7bB\x7d-b".toList ∧
      crossed.expand "$\x7b$\x7bA\x7d\x7d".toList = "\x7d".toList ∧
      crossed.expand ("$\x7bA\x7d".toList ++ "\x7bA\x7d".toList) = "$\x7bB\x7d\x7bA\x7d".toList := by
  obtain ⟨hplain, hreference, hunclosed, -, happend⟩ := expansion_single_pass
  have hclosed : Closed "$\x7bA\x7d".toList :=
    ⟨_, @Reads.reference [] ['A'] [] _ plain_nil (by decide) (.verbatim plain_nil), by simp⟩
  have hA : crossed.expand "$\x7bA\x7d".toList = "$\x7bB\x7d".toList :=
    (hreference crossed [] ['A'] [] plain_nil (by decide)).trans (by rw [hplain crossed [] plain_nil]; rfl)
  refine ⟨?_, ?_, ?_⟩
  · have h := hreference crossed ['$'] ['A'] "-$\x7bB".toList (by decide) (by decide)
    rwa [show crossed.expand "-$\x7bB".toList = _ from hunclosed crossed ['-'] ['B'] (by decide) (by decide)] at h
  · have h := hreference crossed [] "$\x7bA".toList ['\x7d'] plain_nil (by decide)
    rwa [hplain crossed ['\x7d'] (by decide)] at h
  · rw [happend crossed _ _ hclosed (by simp), hA]
    exact congrArg _ (hplain crossed ['\x7b', 'A', '\x7d'] (by decide))

end VaultChat.Environment
